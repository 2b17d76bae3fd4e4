import CommandRelay.Cancellation.Observed
import Mathlib.Data.List.Induction

/-!
# Records of an observed cancellation

`Coherent` says which events may follow which in a record: the first request that takes the lock is
the one whose reason is stored, the mark is set after that, and looks show what was assigned before
them. What later looks show follows from it: a cancellation that has been seen is seen from then on,
with its reason (`Coherent.shown`, `Coherent.lasting`, `Coherent.kept`).
-/

namespace CommandRelay.Cancellation

/-! ## Records -/

/-- The reason of a request that takes the lock. -/
def Event.entered? : Event → Option Text
  | .entered reason => some reason
  | _ => none

/-- The reason that is stored. -/
def Event.stored? : Event → Option Text
  | .stored reason => some reason
  | _ => none

/-- The reason of the first request that took the lock. -/
def firstEntered (record : List Event) : Option Text :=
  record.findSome? Event.entered?

/-- The reason that was stored first. -/
def firstStored (record : List Event) : Option Text :=
  record.findSome? Event.stored?

/-- A look shows what was assigned before, and a wait does not end with a cancellation before the
mark is set. -/
def Sight.Fits (record : List Event) : Sight → Prop
  | .fired answer => answer = true ↔ .marked ∈ record
  | .reason answer => answer = firstStored record
  | .waited answer => answer = true → .marked ∈ record

/-- An event may follow a record: a reason is stored once, and it is the one of the first request;
the mark is set once, and after the reason. -/
def Event.Fits (record : List Event) : Event → Prop
  | .entered _ | .closed => True
  | .stored reason => firstStored record = none ∧ firstEntered record = some reason
  | .marked => .marked ∉ record ∧ firstStored record ≠ none
  | .due => .closed ∉ record
  | .saw sight => sight.Fits record

/-- Every event of a record may follow those before it. -/
def Coherent (record : List Event) : Prop :=
  ∀ before e after, record = before ++ e :: after → e.Fits before

theorem coherent_nil : Coherent [] := by
  intro before e after h
  simp at h

theorem Coherent.concat {record : List Event} {e : Event} (h : Coherent record)
    (he : e.Fits record) : Coherent (record ++ [e]) := by
  intro before e' after heq
  rcases List.eq_nil_or_concat after with rfl | ⟨after, last, rfl⟩
  · obtain ⟨rfl, hlast⟩ := List.append_inj' heq rfl
    obtain rfl := List.singleton_inj.mp hlast
    exact he
  · rw [List.concat_eq_append, ← List.cons_append, ← List.append_assoc] at heq
    obtain ⟨rfl, -⟩ := List.append_inj' heq rfl
    exact h _ _ _ rfl

variable {record more : List Event} {w : Text}

theorem firstEntered_append (h : firstEntered record = some w) (more : List Event) :
    firstEntered (record ++ more) = some w := by
  unfold firstEntered at h ⊢
  rw [List.findSome?_append, h]
  rfl

theorem firstStored_append (h : firstStored record = some w) (more : List Event) :
    firstStored (record ++ more) = some w := by
  unfold firstStored at h ⊢
  rw [List.findSome?_append, h]
  rfl

theorem exists_of_firstStored (h : firstStored record = some w) :
    ∃ before after, record = before ++ .stored w :: after := by
  obtain ⟨e, he, hw⟩ := List.exists_of_findSome?_eq_some h
  cases e with
  | stored reason =>
      obtain rfl := Option.some.inj hw
      exact List.append_of_mem he
  | _ => cases hw

/-- The reason that is stored is the one of the first request that took the lock. -/
theorem Coherent.firstEntered_eq (h : Coherent record) (hw : firstStored record = some w) :
    firstEntered record = some w := by
  obtain ⟨before, after, rfl⟩ := exists_of_firstStored hw
  exact firstEntered_append (h before _ after rfl).2 _

/-- When the mark is set, a reason has been stored. -/
theorem Coherent.exists_firstStored (h : Coherent record) (hmarked : .marked ∈ record) :
    ∃ w, firstStored record = some w := by
  obtain ⟨before, after, rfl⟩ := List.append_of_mem hmarked
  obtain ⟨w, hw⟩ := Option.ne_none_iff_exists'.mp (h before _ after rfl).2
  exact ⟨w, firstStored_append hw _⟩

theorem Coherent.of_append (h : Coherent (record ++ more)) : Coherent record := by
  rintro before e after rfl
  exact h before e (after ++ more) (by simp)

theorem Coherent.last {e : Event} (h : Coherent (record ++ [e])) : e.Fits record :=
  h record e [] rfl

/-- No reason is stored after another. -/
theorem Coherent.filterMap_stored (h : Coherent record) :
    record.filterMap Event.stored? = (firstStored record).toList := by
  induction record using List.reverseRecOn with
  | nil => rfl
  | append_singleton record e ih =>
      have hfits := h.last
      rw [List.filterMap_append, ih h.of_append]
      unfold firstStored
      rw [List.findSome?_append]
      cases e with
      | stored reason =>
          have hnone : record.findSome? Event.stored? = none := hfits.1
          simp [hnone, Event.stored?]
      | _ => simp [Event.stored?]

/-! ## What is seen -/

/-- A sight of the cancellation. -/
def Sight.IsPositive : Sight → Prop
  | .fired answer | .waited answer => answer = true
  | .reason _ => False

/-- A sight that shows no cancellation, nor a reason for one. -/
def Sight.IsQuiet : Sight → Prop
  | .fired answer | .waited answer => answer = false
  | .reason answer => answer = none

theorem Sight.Fits.marked {sight : Sight} (h : sight.Fits record) (hpositive : sight.IsPositive) :
    .marked ∈ record := by
  cases sight with
  | fired answer => exact h.mp hpositive
  | waited answer => exact h hpositive
  | reason answer => exact hpositive.elim

theorem Sight.Fits.isQuiet {sight : Sight} (h : sight.Fits record) (hmarked : .marked ∉ record)
    (hstored : firstStored record = none) : sight.IsQuiet := by
  cases sight with
  | fired answer => exact Bool.eq_false_iff.mpr fun hanswer => hmarked (h.mp hanswer)
  | waited answer => exact Bool.eq_false_iff.mpr fun hanswer => hmarked (h hanswer)
  | reason answer => exact h.trans hstored

/-- Before a request takes the lock, no reason is stored and the mark is not set. -/
theorem Coherent.untouched (h : Coherent record) (hentered : ∀ reason, .entered reason ∉ record) :
    .marked ∉ record ∧ firstStored record = none := by
  have hstored : firstStored record = none := by
    by_contra hne
    obtain ⟨w, hw⟩ := Option.ne_none_iff_exists'.mp hne
    obtain ⟨e, he, hreason⟩ := List.exists_of_findSome?_eq_some (h.firstEntered_eq hw)
    cases e with
    | entered reason => exact hentered reason he
    | _ => cases hreason
  refine ⟨fun hmarked => ?_, hstored⟩
  obtain ⟨w, hw⟩ := h.exists_firstStored hmarked
  rw [hstored] at hw
  cases hw

/-! ## Later looks -/

variable {before between after : List Event} {sight : Sight}

theorem Coherent.fits_later {e e' : Event} (h : Coherent record)
    (hrecord : record = before ++ e :: (between ++ e' :: after)) :
    e.Fits before ∧ e'.Fits (before ++ e :: between) :=
  ⟨h before e _ hrecord, h _ e' after (by simp [hrecord])⟩

/-- A cancellation that is seen has the reason of the first request, and keeps it. -/
theorem Coherent.exists_reason (h : Coherent record) (hrecord : record = before ++ more)
    (hmarked : .marked ∈ before) :
    ∃ w, firstStored before = some w ∧ firstEntered record = some w := by
  subst hrecord
  obtain ⟨w, hw⟩ := h.of_append.exists_firstStored hmarked
  exact ⟨w, hw, firstEntered_append (h.of_append.firstEntered_eq hw) more⟩

/-- Who has seen the cancellation sees the reason of the first request. -/
theorem Coherent.shown {answer : Option Text} (h : Coherent record)
    (hrecord : record = before ++ .saw sight :: (between ++ .saw (.reason answer) :: after))
    (hpositive : sight.IsPositive) : answer ≠ none ∧ answer = firstEntered record := by
  obtain ⟨hsight, hanswer⟩ := h.fits_later hrecord
  obtain ⟨w, hstored, hentered⟩ := h.exists_reason hrecord (Sight.Fits.marked hsight hpositive)
  have heq : answer = some w := Eq.trans hanswer (firstStored_append hstored _)
  rw [heq, hentered]
  exact ⟨nofun, rfl⟩

/-- Who has seen the cancellation sees it from then on. -/
theorem Coherent.lasting {answer : Bool} (h : Coherent record)
    (hrecord : record = before ++ .saw sight :: (between ++ .saw (.fired answer) :: after))
    (hpositive : sight.IsPositive) : answer = true := by
  obtain ⟨hsight, hanswer⟩ := h.fits_later hrecord
  exact Iff.mpr hanswer (List.mem_append_left _ (Sight.Fits.marked hsight hpositive))

/-- Who has seen the reason sees it from then on. -/
theorem Coherent.kept {answer : Option Text} (h : Coherent record)
    (hrecord : record =
      before ++ .saw (.reason (some w)) :: (between ++ .saw (.reason answer) :: after)) :
    answer = some w := by
  obtain ⟨hsight, hanswer⟩ := h.fits_later hrecord
  exact Eq.trans hanswer (firstStored_append (Eq.symm hsight) _)

/-- Nothing is seen before a request has taken the lock. -/
theorem Coherent.quiet (h : Coherent record) (hrecord : record = before ++ .saw sight :: after)
    (hentered : ∀ reason, .entered reason ∉ before) : sight.IsQuiet := by
  have hsight : sight.Fits before := h before _ after hrecord
  rw [hrecord] at h
  obtain ⟨hmarked, hstored⟩ := h.of_append.untouched hentered
  exact hsight.isQuiet hmarked hstored

end CommandRelay.Cancellation
