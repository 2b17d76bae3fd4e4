import CommandRelay.Sink.Tree

/-!
# Sinks that are alike

Two runs may show different texts on a console that they also write to. `Outlets.Alike` says of
their sinks that they are the same but for this console, and that what is on it is put together from
the same pieces, apart from the texts that were shown. Every write and every flush keeps them alike,
and has the same answer on both sides (`SinkTree.write_alike`, `SinkTree.flush_alike`).
-/

namespace CommandRelay

/-! ## Pieces -/

/-- Lists that are put together from the same pieces, but for pieces that `swap` relates. -/
inductive Patched {α : Type} (swap : List α → List α → Prop) : List α → List α → Prop
  | nil : Patched swap [] []
  | same {l l'} (h : Patched swap l l') (piece : List α) : Patched swap (l ++ piece) (l' ++ piece)
  | swap {l l' a a'} (h : Patched swap l l') (hswap : swap a a') : Patched swap (l ++ a) (l' ++ a')

theorem Patched.refl {α : Type} {swap : List α → List α → Prop} (l : List α) :
    Patched swap l l :=
  Patched.nil.same l

/-! ## Consoles -/

variable {shows : Text → Text → Prop} {t t' : Text}

/-- The bytes of texts that are shown. -/
def ShownBytes (shows : Text → Text → Prop) (data data' : Bytes) : Prop :=
  ∃ t t', shows t t' ∧ data = Utf8.encodeShown t ∧ data' = Utf8.encodeShown t'

namespace ConsoleStream

/-- Consoles that were given the same bytes between the texts that were shown on them. What waits in
a layer of text comes behind what has gone through it. -/
inductive Alike (shows : Text → Text → Prop) : ConsoleStream → ConsoleStream → Prop
  | text {shown shown'} (h : Patched shows shown shown') : Alike shows (.text shown) (.text shown')
  | layered {waiting shown waiting' shown'}
      (h : Patched (ShownBytes shows) (shown ++ waiting) (shown' ++ waiting')) :
      Alike shows (.layered waiting shown) (.layered waiting' shown')
  | recorded (r : Recorder) : Alike shows (.recorded r) (.recorded r)

theorem Alike.refl (c : ConsoleStream) : c.Alike shows c := by
  cases c with
  | text shown => exact .text (.refl shown)
  | layered waiting shown => exact .layered (.refl _)
  | recorded r => exact .recorded r

/-- Whether bytes wait in a layer of text or have gone through it, they come last. -/
theorem exists_throughLayer (waiting shown data : Bytes) :
    ∃ waiting' shown', throughLayer waiting shown data = .layered waiting' shown' ∧
      shown' ++ waiting' = shown ++ waiting ++ data := by
  have hsettle (w s : Bytes) :
      ∃ w' s', (if layerCapacity ≤ w.length then ConsoleStream.layered [] (s ++ w)
        else .layered w s) = .layered w' s' ∧ s' ++ w' = s ++ w := by
    by_cases hlong : layerCapacity ≤ w.length
    · exact ⟨[], s ++ w, if_pos hlong, List.append_nil _⟩
    · exact ⟨w, s, if_neg hlong, rfl⟩
  unfold throughLayer
  by_cases hfull : layerCapacity < waiting.length + data.length
  · rw [if_pos hfull]
    exact hsettle data (shown ++ waiting)
  · rw [if_neg hfull]
    obtain ⟨w', s', heq, hs⟩ := hsettle (waiting ++ data) shown
    exact ⟨w', s', heq, by rw [hs, List.append_assoc]⟩

variable {c c' : ConsoleStream}

theorem Alike.display (h : c.Alike shows c') (ht : shows t t') :
    (c.display t).1.Alike shows (c'.display t').1 ∧ (c'.display t').2 = (c.display t).2 := by
  cases h with
  | text h => exact ⟨.text (h.swap ht), rfl⟩
  | @layered waiting shown waiting' shown' h =>
      obtain ⟨w, s, heq, hs⟩ := exists_throughLayer waiting shown (Utf8.encodeShown t)
      obtain ⟨w', s', heq', hs'⟩ := exists_throughLayer waiting' shown' (Utf8.encodeShown t')
      refine ⟨?_, rfl⟩
      simp only [ConsoleStream.display, heq, heq']
      refine .layered ?_
      rw [hs, hs']
      exact h.swap ⟨t, t', ht, rfl, rfl⟩
  | recorded r => exact ⟨.recorded _, rfl⟩

theorem Alike.write (h : c.Alike shows c') (data : Bytes) :
    (c.write data).1.Alike shows (c'.write data).1 ∧ (c'.write data).2 = (c.write data).2 := by
  cases h with
  | text h => exact ⟨.text (h.same _), rfl⟩
  | layered h =>
      refine ⟨.layered ?_, rfl⟩
      rw [List.append_nil, List.append_nil]
      exact h.same data
  | recorded r => exact ⟨.recorded _, rfl⟩

theorem Alike.flush (h : c.Alike shows c') :
    c.flush.1.Alike shows c'.flush.1 ∧ c'.flush.2 = c.flush.2 := by
  cases h with
  | text h => exact ⟨.text h, rfl⟩
  | layered h =>
      refine ⟨.layered ?_, rfl⟩
      rw [List.append_nil, List.append_nil]
      exact h
  | recorded r => exact ⟨.recorded _, rfl⟩

end ConsoleStream

/-! ## Outlets -/

/-- What has one number on both sides: the same sink, or the console on which texts were shown. -/
inductive Sink.Alike (shows : Text → Text → Prop) (i j : Nat) : Option Sink → Option Sink → Prop
  | same (s : Option Sink) : Alike shows i j s s
  | shown {c c' t t'} (hj : j = i) (ht : shows t t') (h : c.Alike shows c') :
      Alike shows i j (some (.console c)) (some (.console c'))

namespace Outlets

/-- Outlets that are the same but for one console, which is alike. -/
structure Alike (shows : Text → Text → Prop) (i : Nat) (o o' : Outlets) : Prop where
  disk : o'.disk = o.disk
  alarms : o'.alarms = o.alarms
  length : o'.sinks.length = o.sinks.length
  sinks : ∀ j, Sink.Alike shows i j o.sinks[j]? o'.sinks[j]?

variable {i j : Nat} {o o' : Outlets}

theorem Alike.refl (o : Outlets) : o.Alike shows i o :=
  ⟨rfl, rfl, rfl, fun _ => .same _⟩

/-- If no texts are shown, the sinks are the same. -/
theorem Alike.sinks_eq (h : o.Alike shows i o') (hnone : ∀ t t', ¬ shows t t') :
    o'.sinks = o.sinks := by
  apply List.ext_getElem?
  intro j
  have hj := h.sinks j
  generalize o.sinks[j]? = a at hj ⊢
  generalize o'.sinks[j]? = b at hj ⊢
  cases hj with
  | same => rfl
  | shown _ ht => exact absurd ht (hnone _ _)

/-- All sinks but the console are the same. -/
theorem Alike.getElem?_eq (h : o.Alike shows i o') (hj : j ≠ i) : o'.sinks[j]? = o.sinks[j]? := by
  have hsinks := h.sinks j
  generalize o.sinks[j]? = a at hsinks ⊢
  generalize o'.sinks[j]? = b at hsinks ⊢
  cases hsinks with
  | same => rfl
  | shown heq => exact absurd heq hj

/-- Alike sinks take the places of others. -/
theorem Alike.set (h : o.Alike shows i o') {s s' : Sink}
    (hs : Sink.Alike shows i j (some s) (some s')) (disk : Disk) (alarms : List Alarm) :
    Alike shows i ⟨disk, o.sinks.set j s, alarms⟩ ⟨disk, o'.sinks.set j s', alarms⟩ := by
  refine ⟨rfl, rfl, by simp [h.length], fun k => ?_⟩
  rw [List.getElem?_set, List.getElem?_set, h.length]
  split
  · rename_i hk
    subst hk
    split
    · exact hs
    · exact .same none
  · exact h.sinks k

/-- A call to sinks that are alike leaves them alike, and is answered the same. -/
structure CallAlike {β : Type} (shows : Text → Text → Prop) (i : Nat) (p p' : Outlets × β) :
    Prop where
  outlets : p.1.Alike shows i p'.1
  answer : p'.2 = p.2

theorem Alike.write (h : o.Alike shows i o') (j : Nat) (data : Bytes) :
    CallAlike shows i (o.write j data) (o'.write j data) := by
  have hsink := h.sinks j
  unfold Outlets.write
  rw [h.disk, h.alarms]
  generalize o.sinks[j]? = a at hsink ⊢
  generalize o'.sinks[j]? = b at hsink ⊢
  cases hsink with
  | same =>
      cases a with
      | none => exact ⟨h, rfl⟩
      | some s => exact ⟨h.set (.same _) _ _, rfl⟩
  | @shown c c' t t' hj ht hc =>
      obtain ⟨halike, hanswer⟩ := hc.write data
      have halarms : (Sink.console c').nextAlarms = (Sink.console c).nextAlarms := by
        cases hc <;> rfl
      refine ⟨?_, congrArg (Except.map Int.ofNat) hanswer⟩
      simp only [Sink.write, halarms]
      exact h.set (.shown hj ht halike) _ _

theorem Alike.flush (h : o.Alike shows i o') (j : Nat) :
    CallAlike shows i (o.flush j) (o'.flush j) := by
  have hsink := h.sinks j
  unfold Outlets.flush
  rw [h.disk, h.alarms]
  generalize o.sinks[j]? = a at hsink ⊢
  generalize o'.sinks[j]? = b at hsink ⊢
  cases hsink with
  | same =>
      cases a with
      | none => exact ⟨h, rfl⟩
      | some s => exact ⟨h.set (.same _) _ _, rfl⟩
  | shown hj ht hc =>
      obtain ⟨halike, hanswer⟩ := hc.flush
      exact ⟨h.set (.shown hj ht halike) _ _, hanswer⟩

/-- Texts are shown on the console. -/
theorem Alike.display (h : o.Alike shows i o') (ht : shows t t') :
    CallAlike shows i (o.display i t) (o'.display i t') := by
  have hsink := h.sinks i
  unfold Outlets.display
  generalize o.sinks[i]? = a at hsink ⊢
  generalize o'.sinks[i]? = b at hsink ⊢
  cases hsink with
  | same =>
      split
      · rename_i c
        obtain ⟨halike, hanswer⟩ := (ConsoleStream.Alike.refl c).display ht
        rw [h.disk, h.alarms]
        exact ⟨h.set (.shown rfl ht halike) _ _, hanswer⟩
      · exact ⟨h, rfl⟩
  | shown hj ht' hc =>
      obtain ⟨halike, hanswer⟩ := hc.display ht
      rw [h.disk, h.alarms]
      exact ⟨h.set (.shown rfl ht halike) _ _, hanswer⟩

theorem Alike.label (h : o.Alike shows i o') (j : Nat) : o'.label j = o.label j := by
  have hsink := h.sinks j
  unfold Outlets.label
  generalize o.sinks[j]? = a at hsink ⊢
  generalize o'.sinks[j]? = b at hsink ⊢
  cases hsink <;> rfl

theorem Alike.withDisk (h : o.Alike shows i o') (disk : Disk) :
    Alike shows i { o with disk } { o' with disk } :=
  ⟨rfl, h.alarms, h.length, h.sinks⟩

theorem Alike.withAlarms (h : o.Alike shows i o') (alarms : List Alarm) :
    Alike shows i { o with alarms } { o' with alarms } :=
  ⟨h.disk, rfl, h.length, h.sinks⟩

end Outlets

/-! ## Trees -/

namespace SinkTree

variable {i : Nat} {o o' : Outlets}

theorem label_alike (h : o.Alike shows i o') (t : SinkTree) : t.label o' = t.label o := by
  cases t with
  | leaf j => exact h.label j
  | group | endless => rfl

mutual

theorem write_alike (data : Bytes) (t : SinkTree) {o o' : Outlets} (h : o.Alike shows i o') :
    Outlets.CallAlike shows i (t.write data o) (t.write data o') := by
  cases t with
  | leaf j => exact h.write j data
  | group members =>
      obtain ⟨hout, hanswer⟩ := writeAll_alike data members h
      rw [write, write]
      generalize writeAll data members o = p at hout hanswer ⊢
      generalize writeAll data members o' = p' at hout hanswer ⊢
      rcases p with ⟨o₁, answer⟩
      rcases p' with ⟨o₁', answer'⟩
      obtain rfl : answer' = answer := hanswer
      cases answer' <;> exact ⟨hout, rfl⟩
  | endless => exact ⟨h, rfl⟩

theorem writeAll_alike (data : Bytes) (ts : List SinkTree) {o o' : Outlets}
    (h : o.Alike shows i o') :
    Outlets.CallAlike shows i (writeAll data ts o) (writeAll data ts o') := by
  cases ts with
  | nil => exact ⟨h, rfl⟩
  | cons t rest =>
      obtain ⟨hout, hanswer⟩ := write_alike data t h
      rw [writeAll, writeAll]
      generalize t.write data o = p at hout hanswer ⊢
      generalize t.write data o' = p' at hout hanswer ⊢
      rcases p with ⟨o₁, answer⟩
      rcases p' with ⟨o₁', answer'⟩
      obtain rfl : answer' = answer := hanswer
      cases answer' with
      | error fault => exact ⟨hout, rfl⟩
      | ok n =>
          simp only
          split
          · exact writeAll_alike data rest hout
          · exact ⟨hout, by rw [label_alike hout t]⟩

end

mutual

theorem flush_alike (t : SinkTree) {o o' : Outlets} (h : o.Alike shows i o') :
    Outlets.CallAlike shows i (t.flush o) (t.flush o') := by
  cases t with
  | leaf j => exact h.flush j
  | group members => exact flushAll_alike members h
  | endless => exact ⟨h, rfl⟩

theorem flushAll_alike (ts : List SinkTree) {o o' : Outlets} (h : o.Alike shows i o') :
    Outlets.CallAlike shows i (flushAll ts o) (flushAll ts o') := by
  cases ts with
  | nil => exact ⟨h, rfl⟩
  | cons t rest =>
      obtain ⟨hout, hanswer⟩ := flush_alike t h
      rw [flushAll, flushAll]
      generalize t.flush o = p at hout hanswer ⊢
      generalize t.flush o' = p' at hout hanswer ⊢
      rcases p with ⟨o₁, answer⟩
      rcases p' with ⟨o₁', answer'⟩
      obtain rfl : answer' = answer := hanswer
      cases answer' with
      | error fault => exact ⟨hout, rfl⟩
      | ok _ => exact flushAll_alike rest hout

end

end SinkTree

end CommandRelay
