import CommandRelay.Proofs.Command.StrictDecoding
import CommandRelay.Worker.Basic
import Mathlib.Data.List.Basic

/-!
# What accepted settings promise, and what refused ones report

Settings that are accepted can be used as they are: there is at least one job, the queue has a name,
and a run can be given the deadline. No field is unknown, neither in the object nor in the settings
of the journal. An object that is refused shows the defects that its fields have alone: those of the
declared fields in their order, then those of the unknown ones in the order of the object
(`check_accepts`).

## Implementation notes

A name in which half of a pair stands alone is the one exception: it is then the only defect of its
object (`unpaired_name_alone`).
-/

namespace CommandRelay

/-! ## Defects of a check -/

theorem bind_eq_ok_iff {ε α β : Type} {a : Except ε α} {f : α → Except ε β} {y : β} :
    (a >>= f) = .ok y ↔ ∃ x, a = .ok x ∧ f x = .ok y := by
  cases a with
  | error e => exact iff_of_false nofun nofun
  | ok x => exact ⟨fun h => ⟨x, rfl, h⟩, fun ⟨_, hx, h⟩ => Except.ok.inj hx ▸ h⟩

namespace Checked

variable {α β : Type}

/-- The defects that a check reports. -/
def defects : Checked α → List Defect
  | .ok _ => []
  | .error ds => ds

/-- A check that does not fail without a defect. -/
def IsGrounded (a : Checked α) : Prop :=
  a ≠ .error []

theorem isGrounded_ok (x : α) : IsGrounded (.ok x) := nofun

theorem isGrounded_fail (kind : DefectKind) : IsGrounded (fail kind : Checked α) := by
  simp [IsGrounded, fail]

theorem IsGrounded.ite {p : Prop} [Decidable p] {a b : Checked α} (ha : IsGrounded a)
    (hb : IsGrounded b) : IsGrounded (if p then a else b) := by
  split
  · exact ha
  · exact hb

theorem IsGrounded.bind {a : Checked α} {f : α → Checked β} (ha : IsGrounded a)
    (hf : ∀ x, IsGrounded (f x)) : IsGrounded (a >>= f) := by
  cases a with
  | error ds =>
      intro h
      exact ha (congrArg Except.error (Except.error.inj h))
  | ok x => exact hf x

theorem IsGrounded.map {a : Checked α} (f : α → β) (ha : IsGrounded a) : IsGrounded (a.map f) := by
  cases a with
  | error ds =>
      intro h
      exact ha (congrArg Except.error (Except.error.inj h))
  | ok x => exact isGrounded_ok (f x)

theorem IsGrounded.finds {a : Checked α} (ha : IsGrounded a) : Finds a a.defects := by
  cases a with
  | error ds => exact .flaw fun h => ha (congrArg Except.error h)
  | ok x => exact .pass x

theorem Finds.isGrounded {a : Checked α} {ds : List Defect} (h : Finds a ds) : IsGrounded a := by
  cases h with
  | pass x => exact isGrounded_ok x
  | flaw hne => exact fun h => hne (Except.error.inj h)

theorem Finds.defects_eq {a : Checked α} {ds : List Defect} (h : Finds a ds) : a.defects = ds := by
  cases h <;> rfl

end Checked

/-! ## Lenient checks -/

namespace Lenient

open Checked

variable (v : Value)

theorem isGrounded_whole (t : Text) : IsGrounded (whole t) := by
  unfold whole
  split
  · exact isGrounded_ok _
  · exact isGrounded_fail _

theorem isGrounded_boolOfInt (n : Int) : IsGrounded (boolOfInt n) :=
  .ite (isGrounded_ok _) (.ite (isGrounded_ok _) (isGrounded_fail _))

theorem isGrounded_bool : IsGrounded (bool v) := by
  cases v with
  | bool b => exact isGrounded_ok b
  | string t =>
      exact (isGrounded_whole t).bind fun s =>
        .ite (isGrounded_ok _) (.ite (isGrounded_ok _) (isGrounded_fail _))
  | int n => exact .ite (isGrounded_boolOfInt n) (isGrounded_fail _)
  | float x =>
      simp only [bool]
      split
      · exact .ite (isGrounded_boolOfInt _) (isGrounded_fail _)
      · exact isGrounded_fail _
  | null | list | object | moment => exact isGrounded_fail _

theorem isGrounded_intOfText (s : String) : IsGrounded (intOfText s) := by
  unfold intOfText
  split
  · exact isGrounded_fail _
  · unfold intOfDigits
    dsimp only
    split
    · exact isGrounded_fail _
    · exact .ite (isGrounded_ok _) (isGrounded_fail _)

theorem isGrounded_intOfFloat (x : Binary64) : IsGrounded (intOfFloat x) := by
  cases x with
  | nan | infinite => exact isGrounded_fail _
  | finite negative m e =>
      simp only [intOfFloat]
      split
      · exact .ite (isGrounded_ok _) (isGrounded_fail _)
      · exact isGrounded_fail _

theorem isGrounded_int : IsGrounded (int v) := by
  cases v with
  | int | bool => exact isGrounded_ok _
  | string t => exact (isGrounded_whole t).bind isGrounded_intOfText
  | float x => exact isGrounded_intOfFloat x
  | null | list | object | moment => exact isGrounded_fail _

theorem isGrounded_atLeastOne : IsGrounded (atLeastOne v) :=
  (isGrounded_int v).bind fun _ => .ite (isGrounded_ok _) (isGrounded_fail _)

theorem isGrounded_floatOfText (s : String) : IsGrounded (floatOfText s) := by
  unfold floatOfText
  split
  · exact isGrounded_ok _
  · split
    · exact isGrounded_ok _
    · exact isGrounded_fail _

theorem isGrounded_float : IsGrounded (float v) := by
  cases v with
  | float | bool => exact isGrounded_ok _
  | int n =>
      simp only [float]
      split
      · exact isGrounded_fail _
      · exact isGrounded_ok _
  | string t => exact (isGrounded_whole t).bind isGrounded_floatOfText
  | null | list | object | moment => exact isGrounded_fail _

theorem isGrounded_aboveZero : IsGrounded (aboveZero v) :=
  (isGrounded_float v).bind fun _ => .ite (isGrounded_ok _) (isGrounded_fail _)

theorem isGrounded_text : IsGrounded (text v) := by
  cases v with
  | string t => exact isGrounded_ok t
  | _ => exact isGrounded_fail _

theorem isGrounded_someText : IsGrounded (someText v) := by
  cases v with
  | string t =>
      exact (isGrounded_whole t).bind fun s => .ite (isGrounded_fail _) (isGrounded_ok _)
  | _ => exact isGrounded_fail _

theorem isGrounded_texts : IsGrounded (texts v) := by
  cases v with
  | list vs => exact (Finds.items (fun v => (isGrounded_text v).finds) vs 0).isGrounded
  | _ => exact isGrounded_fail _

theorem isGrounded_optional {α : Type} {check : Value → Checked α}
    (h : ∀ v, IsGrounded (check v)) (v : Value) : IsGrounded (optional check v) := by
  cases v with
  | null => exact isGrounded_ok none
  | _ => exact (h _).map some

/-! ### What passes -/

variable {v}

theorem one_le_of_atLeastOne {n : Int} (h : atLeastOne v = .ok n) : 1 ≤ n := by
  obtain ⟨m, -, hm⟩ := bind_eq_ok_iff.mp h
  split at hm
  · rename_i hle
    exact Except.ok.inj hm ▸ hle
  · cases hm

theorem zero_lt_of_aboveZero {x : Binary64} (h : aboveZero v = .ok x) :
    (Binary64.zero false).lt x = true := by
  obtain ⟨y, -, hy⟩ := bind_eq_ok_iff.mp h
  split at hy
  · rename_i hlt
    exact Except.ok.inj hy ▸ hlt
  · cases hy

theorem ne_nil_of_someText {t : Text} (h : someText v = .ok t) : t ≠ [] := by
  cases v with
  | string u =>
      obtain ⟨s, hs, ht⟩ := bind_eq_ok_iff.mp h
      split at ht
      · cases ht
      · rename_i hne
        rintro rfl
        obtain rfl := Except.ok.inj ht
        exact hne (Except.ok.inj hs).symm
  | _ => cases h

theorem of_optional {α : Type} {check : Value → Checked α} {x : α}
    (h : optional check v = .ok (some x)) : check v = .ok x := by
  cases v with
  | null => cases h
  | _ =>
      obtain ⟨y, hy, hxy⟩ := map_eq_ok_iff.mp h
      exact Option.some.inj hxy ▸ hy

end Lenient

/-! ## Fields of an object -/

namespace Settings

open Checked

variable {fields inner : Fields} {table : List (Text × (Value → List Defect))}

/-- The defects of the fields of an object that stand in a table, each with its name in front. -/
def listed (table : List (Text × (Value → List Defect))) (fields : Fields) : List Defect :=
  table.flatMap fun entry =>
    ((Value.lookup? fields entry.1).elim [] entry.2).map (.under (.key entry.1))

/-- The fields of an object that are not declared. -/
def unknown (declared : List Text) (fields : Fields) : Fields :=
  fields.filter fun f => !declared.contains f.1

/-- The defects of an object whose declared fields stand in a table. -/
def objectDefects (table : List (Text × (Value → List Defect))) (fields : Fields) : List Defect :=
  if fields.all (·.1.isWhole) then
    listed table fields ++
      (unknown (table.map Prod.fst) fields).map fun f => ⟨[.key f.1], .extraForbidden⟩
  else [⟨[], .stringUnicode⟩]

/-- What is told of each field of an object that has no other field: first of the declared ones in
their order, then of the others in the order of the object. -/
def apart (declared : List Text) (told : Fields → List Defect) (fields : Fields) : List Defect :=
  (declared.flatMap fun name => (Value.lookup? fields name).elim [] fun v => told [(name, v)]) ++
    (unknown declared fields).flatMap fun f => told [f]

/-- What is told of the fields of an object apart, unless a name is no string: then nothing is told
but that. -/
def apartIfWhole (place : List PathStep) (declared : List Text) (told : Fields → List Defect)
    (fields : Fields) : List Defect :=
  if fields.all (·.1.isWhole) then apart declared told fields else [⟨place, .stringUnicode⟩]

theorem finds_field {α : Type} {check : Value → Checked α} (h : ∀ v, IsGrounded (check v))
    (fields : Fields) (name : Text) (default : α) :
    (field fields name default check).Finds
      (((Value.lookup? fields name).elim [] fun v => (check v).defects).map
        (.under (.key name))) := by
  unfold field
  cases Value.lookup? fields name with
  | none => exact .pass default
  | some v => exact (h v).finds.under (.key name)

theorem finds_undeclared (declared : List Text) (fields : Fields) :
    (undeclared declared fields).Finds
      ((unknown declared fields).map fun f => ⟨[.key f.1], .extraForbidden⟩) := by
  unfold undeclared
  dsimp only
  split
  · rename_i hnone
    rw [unknown, hnone]
    exact .pass ()
  · rename_i hsome
    exact .flaw (by simpa [unknown] using hsome)

theorem lookup?_singleton (key name : Text) (v : Value) :
    Value.lookup? [(key, v)] name = if key = name then some v else none := by
  by_cases h : key = name <;> simp [Value.lookup?, h]

theorem listed_undeclared {name : Text} (h : name ∉ table.map Prod.fst) (v : Value) :
    listed table [(name, v)] = [] := by
  apply List.flatMap_eq_nil_iff.mpr
  intro entry hentry
  have hne : name ≠ entry.1 := fun heq => h (List.mem_map.mpr ⟨entry, hentry, heq.symm⟩)
  rw [lookup?_singleton, if_neg hne]
  rfl

/-- A declared field alone shows the defects of its value. -/
theorem listed_declared {name : Text} {defects : Value → List Defect}
    (hnodup : (table.map Prod.fst).Nodup) (h : (name, defects) ∈ table) (v : Value) :
    listed table [(name, v)] = (defects v).map (.under (.key name)) := by
  induction table with
  | nil => cases h
  | cons entry table ih =>
      obtain ⟨key, other⟩ := entry
      rw [List.map_cons, List.nodup_cons] at hnodup
      have hcons : listed ((key, other) :: table) [(name, v)] =
          ((Value.lookup? [(name, v)] key).elim [] other).map (.under (.key key)) ++
            listed table [(name, v)] := rfl
      cases List.mem_cons.mp h with
      | inl heq =>
          obtain ⟨rfl, rfl⟩ := Prod.mk.inj heq
          rw [hcons, listed_undeclared hnodup.1, lookup?_singleton, if_pos rfl, List.append_nil]
          rfl
      | inr hmem =>
          have hne : name ≠ key := by
            rintro rfl
            exact hnodup.1 (List.mem_map.mpr ⟨_, hmem, rfl⟩)
          rw [hcons, ih hnodup.2 hmem, lookup?_singleton, if_neg hne]
          rfl

section Alone

variable {name : Text} {defects : Value → List Defect}

theorem objectDefects_declared (hnodup : (table.map Prod.fst).Nodup)
    (hwhole : ∀ name ∈ table.map Prod.fst, name.isWhole = true) (h : (name, defects) ∈ table)
    (v : Value) :
    objectDefects table [(name, v)] = (defects v).map (.under (.key name)) := by
  have hmem : name ∈ table.map Prod.fst := List.mem_map_of_mem h
  have hall : ([(name, v)] : Fields).all (·.1.isWhole) = true := by simp [hwhole name hmem]
  have hnone : unknown (table.map Prod.fst) [(name, v)] = [] := by
    simpa [unknown] using List.mem_map.mp hmem
  rw [objectDefects, if_pos hall, listed_declared hnodup h, hnone]
  exact List.append_nil _

theorem objectDefects_unknown {f : Text × Value} (hwhole : f.1.isWhole = true)
    (h : f.1 ∉ table.map Prod.fst) :
    objectDefects table [f] = [⟨[.key f.1], .extraForbidden⟩] := by
  have hall : ([f] : Fields).all (·.1.isWhole) = true := by simp [hwhole]
  have hself : unknown (table.map Prod.fst) [f] = [f] := by
    simpa [unknown] using fun defects hmem => h (List.mem_map.mpr ⟨_, hmem, rfl⟩)
  rw [objectDefects, if_pos hall, listed_undeclared h, hself]
  rfl

end Alone

/-- The defects of an object are those that its fields have alone. -/
theorem objectDefects_eq_apart (hnodup : (table.map Prod.fst).Nodup)
    (hwhole : ∀ name ∈ table.map Prod.fst, name.isWhole = true) (fields : Fields) :
    objectDefects table fields =
      apartIfWhole [] (table.map Prod.fst) (objectDefects table) fields := by
  by_cases hall : fields.all (·.1.isWhole) = true
  · rw [objectDefects, apartIfWhole, if_pos hall, if_pos hall, apart, List.flatMap_map]
    congr 1
    · apply List.flatMap_congr
      intro entry hentry
      cases hv : Value.lookup? fields entry.1 with
      | none => rfl
      | some v => exact (objectDefects_declared hnodup hwhole hentry v).symm
    · rw [List.map_eq_flatMap]
      apply List.flatMap_congr
      intro f hf
      obtain ⟨hmem, hnot⟩ := List.mem_filter.mp hf
      have hf' : f.1 ∉ table.map Prod.fst := by simpa using hnot
      rw [objectDefects_unknown (List.all_eq_true.mp hall f hmem) hf']
  · rw [objectDefects, apartIfWhole, if_neg hall, if_neg hall]

/-- The same told with a place in front is told apart with that place in front. -/
theorem map_apartIfWhole (step : PathStep) (declared : List Text) (told : Fields → List Defect)
    (fields : Fields) :
    (apartIfWhole [] declared told fields).map (.under step) =
      apartIfWhole [step] declared (fun fs => (told fs).map (.under step)) fields := by
  unfold apartIfWhole
  split
  · rw [apart, apart, List.map_append, List.map_flatMap, List.map_flatMap]
    congr 1
    apply List.flatMap_congr
    intro name _
    cases Value.lookup? fields name <;> rfl
  · rfl

/-! ## Settings -/

/-- The defects that the fields of the settings of a journal can have. -/
def journalTable : List (Text × (Value → List Defect)) :=
  [("level", fun v => (Lenient.text v).defects), ("format", fun v => (Lenient.text v).defects),
    ("file", fun v => (Lenient.optional Lenient.text v).defects)]

/-- The defects that the fields of the settings of a worker can have. -/
def workerTable : List (Text × (Value → List Defect)) :=
  [("privileged", fun v => (Lenient.bool v).defects), ("echo", fun v => (Lenient.bool v).defects),
    ("allow_file_redirect", fun v => (Lenient.bool v).defects),
    ("jobs", fun v => (Lenient.atLeastOne v).defects),
    ("timeout", fun v => (Lenient.optional Lenient.aboveZero v).defects),
    ("whitelist", fun v => (Lenient.texts v).defects),
    ("queue", fun v => (Lenient.someText v).defects),
    ("logging", fun v => (checkJournal v).defects)]

theorem listed_cons (name : Text) (defects : Value → List Defect) (fields : Fields) :
    listed ((name, defects) :: table) fields =
      ((Value.lookup? fields name).elim [] defects).map (.under (.key name)) ++
        listed table fields :=
  rfl

/-- Checks of the fields of an object find its defects if all names are strings. -/
theorem finds_withNames {α : Type} {check : Fields → Checked α}
    (h : (check fields).Finds (listed table fields ++
      (unknown (table.map Prod.fst) fields).map fun f => ⟨[.key f.1], .extraForbidden⟩)) :
    (withNames fields check).Finds (objectDefects table fields) := by
  unfold withNames objectDefects
  split
  · exact h
  · exact .fail .stringUnicode

theorem finds_checkJournal (fields : Fields) :
    (checkJournal (.object fields)).Finds (objectDefects journalTable fields) := by
  apply finds_withNames
  simp only [journalTable, listed_cons, List.append_assoc]
  refine .map _ (.both ?_ (.both ?_ (.both ?_ (finds_undeclared journalFields fields))))
  · exact finds_field Lenient.isGrounded_text fields "level" _
  · exact finds_field Lenient.isGrounded_text fields "format" _
  · exact finds_field (Lenient.isGrounded_optional Lenient.isGrounded_text) fields "file" _

theorem isGrounded_checkJournal (v : Value) : IsGrounded (checkJournal v) := by
  cases v with
  | object fields => exact (finds_checkJournal fields).isGrounded
  | _ => exact isGrounded_fail _

theorem finds_check (processors : Option Int) (fields : Fields) :
    (check processors (.object fields)).Finds (objectDefects workerTable fields) := by
  apply finds_withNames
  simp only [workerTable, listed_cons, List.append_assoc]
  refine .map _ (.both ?_ (.both ?_ (.both ?_ (.both ?_ (.both ?_ (.both ?_ (.both ?_ (.both ?_
    (finds_undeclared workerFields fields)))))))))
  · exact finds_field Lenient.isGrounded_bool fields "privileged" _
  · exact finds_field Lenient.isGrounded_bool fields "echo" _
  · exact finds_field Lenient.isGrounded_bool fields "allow_file_redirect" _
  · exact finds_field Lenient.isGrounded_atLeastOne fields "jobs" _
  · exact finds_field (Lenient.isGrounded_optional Lenient.isGrounded_aboveZero) fields "timeout" _
  · exact finds_field Lenient.isGrounded_texts fields "whitelist" _
  · exact finds_field Lenient.isGrounded_someText fields "queue" _
  · exact finds_field isGrounded_checkJournal fields "logging" _

/-! ### What acceptance means -/

/-- An object without defects has no fields that are not declared. -/
theorem declared_of_objectDefects_eq_nil (h : objectDefects table fields = []) :
    ∀ f ∈ fields, f.1 ∈ table.map Prod.fst := by
  unfold objectDefects at h
  split at h
  · intro f hf
    by_contra hnot
    have hmem : f ∈ unknown (table.map Prod.fst) fields :=
      List.mem_filter.mpr ⟨hf, by simpa using hnot⟩
    rw [List.map_eq_nil_iff.mp (List.append_eq_nil_iff.mp h).2] at hmem
    cases hmem
  · cases h

theorem withNames_eq_ok {α : Type} {c : Fields → Checked α} {x : α}
    (h : withNames fields c = .ok x) : c fields = .ok x := by
  unfold withNames at h
  split at h
  · exact h
  · cases h

theorem field_eq_ok {α : Type} {c : Value → Checked α} {name : Text} {default x : α}
    (h : field fields name default c = .ok x) :
    x = default ∨ ∃ v, Value.lookup? fields name = some v ∧ c v = .ok x := by
  unfold field at h
  rw [under_eq_ok_iff] at h
  cases hv : Value.lookup? fields name with
  | none =>
      rw [hv] at h
      exact .inl (Except.ok.inj h).symm
  | some v =>
      rw [hv] at h
      exact .inr ⟨v, rfl, h⟩

/-- Settings that a worker can use as they are. -/
structure Usable (s : Settings) : Prop where
  jobs : 1 ≤ s.jobs
  queue : s.queue ≠ []
  timeout : ∀ t, s.timeout = some t → (Binary64.zero false).lt t = true
  deadline : s.deadline = .ok (s.timeout.bind Deadline.microseconds?)

theorem deadline_eq (s : Settings)
    (h : ∀ t, s.timeout = some t → (Binary64.zero false).lt t = true) :
    s.deadline = .ok (s.timeout.bind Deadline.microseconds?) := by
  unfold deadline
  cases ht : s.timeout with
  | none => rfl
  | some t =>
      have hlt : t.lt (.zero false) = false := Binary64.not_lt_zero_of_zero_lt (h t ht)
      simp [Deadline.after, hlt]

theorem one_le_defaultJobs (processors : Option Nat) :
    1 ≤ defaultJobs (processors.map Nat.cast) := by
  match processors with
  | none | some 0 => decide
  | some (n + 1) =>
      have hcast : defaultJobs ((some (n + 1)).map Nat.cast) = ((n + 1 : Nat) : Int) := rfl
      omega

theorem usable_of_check {processors : Option Nat} {s : Settings}
    (h : check (processors.map Nat.cast) (.object fields) = .ok s) : s.Usable := by
  rw [check] at h
  have h := withNames_eq_ok h
  simp only [map_eq_ok_iff, Prod.exists, both_eq_ok_iff] at h
  obtain ⟨_, _, _, jobs, timeout, _, queue, _, _,
    ⟨-, -, -, hjobs, htimeout, -, hqueue, -, -⟩, rfl⟩ := h
  have hone : 1 ≤ jobs := by
    rcases field_eq_ok hjobs with rfl | ⟨v, -, hv⟩
    · exact one_le_defaultJobs processors
    · exact Lenient.one_le_of_atLeastOne hv
  have hlt : ∀ t, timeout = some t → (Binary64.zero false).lt t = true := by
    rintro t rfl
    rcases field_eq_ok htimeout with hnone | ⟨v, -, hv⟩
    · cases hnone
    · exact Lenient.zero_lt_of_aboveZero (Lenient.of_optional hv)
  have hne : queue ≠ [] := by
    rcases field_eq_ok hqueue with rfl | ⟨v, -, hv⟩
    · exact nofun
    · exact Lenient.ne_nil_of_someText hv
  exact ⟨hone, hne, hlt, deadline_eq _ hlt⟩

theorem declared_of_check {processors : Option Int} {s : Settings}
    (h : check processors (.object fields) = .ok s) : ∀ f ∈ fields, f.1 ∈ workerFields := by
  have hnone : objectDefects workerTable fields = [] :=
    (finds_check processors fields).ok_iff.mp ⟨s, h⟩
  have hdeclared := declared_of_objectDefects_eq_nil hnone
  exact hdeclared

theorem declared_of_check_logging {processors : Option Int} {s : Settings}
    (h : check processors (.object fields) = .ok s)
    (hinner : Value.lookup? fields "logging" = some (.object inner)) :
    ∀ f ∈ inner, f.1 ∈ journalFields := by
  rw [check] at h
  have h := withNames_eq_ok h
  simp only [map_eq_ok_iff, Prod.exists, both_eq_ok_iff] at h
  obtain ⟨_, _, _, _, _, _, _, journal, _, ⟨-, -, -, -, -, -, -, hjournal, -⟩, -⟩ := h
  have hchecked : ∃ j, checkJournal (.object inner) = .ok j := by
    rw [field, under_eq_ok_iff, hinner] at hjournal
    exact ⟨journal, hjournal⟩
  have hnone : objectDefects journalTable inner = [] :=
    (finds_checkJournal inner).ok_iff.mp hchecked
  have hdeclared := declared_of_objectDefects_eq_nil hnone
  exact hdeclared

/-- The settings of a journal tell of their fields under their own name. -/
theorem defects_check_logging (processors : Option Int) (inner : Fields) :
    (check processors (.object [("logging", .object inner)])).defects =
      (objectDefects journalTable inner).map (.under (.key "logging")) := by
  have hentry : (Text.ofString "logging", fun v => (checkJournal v).defects) ∈ workerTable := by
    simp [workerTable]
  rw [(finds_check processors _).defects_eq,
    objectDefects_declared (by decide) (by decide) hentry, (finds_checkJournal inner).defects_eq]

/-- Settings that are accepted can be used, and no field of them is unknown. Settings that are not
show at least one defect. The defects are those that the fields have alone, in the order in which
they are declared and then in the order of the object, and so are those of the settings of the
journal; if a name is no string, that is the only defect of the object that it stands in. -/
theorem check_accepts (processors : Option Nat) (fields : Fields) :
    let check := Settings.check (processors.map Nat.cast)
    (∀ s, check (.object fields) = .ok s →
      s.Usable ∧ (∀ f ∈ fields, f.1 ∈ workerFields) ∧
        ∀ inner, Value.lookup? fields "logging" = some (.object inner) →
          ∀ f ∈ inner, f.1 ∈ journalFields) ∧
    (∀ ds, check (.object fields) = .error ds → ds ≠ []) ∧
    (check (.object fields)).defects =
      apartIfWhole [] workerFields (fun fs => (check (.object fs)).defects) fields ∧
    ∀ inner, (check (.object [("logging", .object inner)])).defects =
      apartIfWhole [.key "logging"] journalFields
        (fun fs => (check (.object [("logging", .object fs)])).defects) inner := by
  intro check
  have hdefects (fs : Fields) : (check (.object fs)).defects = objectDefects workerTable fs :=
    (finds_check _ fs).defects_eq
  refine ⟨fun s h => ⟨usable_of_check h, declared_of_check h, fun inner =>
    declared_of_check_logging h⟩, ?_, ?_, ?_⟩
  · rintro ds h rfl
    exact (finds_check _ fields).isGrounded h
  · simp only [hdefects]
    exact objectDefects_eq_apart (by decide) (by decide) fields
  · intro inner
    have hinner (fs : Fields) := defects_check_logging (processors.map Nat.cast) fs
    have hlisted : objectDefects journalTable inner =
        apartIfWhole [] journalFields (objectDefects journalTable) inner :=
      objectDefects_eq_apart (by decide) (by decide) inner
    simp only [check, hinner]
    rw [hlisted]
    exact map_apartIfWhole (.key "logging") journalFields (objectDefects journalTable) inner

/-- Settings without a limit of time that anybody would reach, with the number of jobs as a text. -/
def endlessFields : Fields :=
  [("timeout", .float (.infinite false)), ("jobs", .string " +2.0 "),
    ("logging", .object [("level", .string "DEBUG")])]

theorem check_accepts_endless :
    ∃ s, check ((some 0 : Option Nat).map Nat.cast) (.object endlessFields) = .ok s ∧
      s.Usable ∧ s.jobs = 2 ∧ s.timeout = some (.infinite false) ∧ s.deadline = .ok none := by
  let s : Settings :=
    { jobs := 2, timeout := some (.infinite false), journal := { level := "DEBUG" } }
  have h : check ((some 0 : Option Nat).map Nat.cast) (.object endlessFields) = .ok s := by rfl
  obtain ⟨haccepted, -⟩ := check_accepts (some 0) endlessFields
  exact ⟨s, h, (haccepted s h).1, rfl, rfl, rfl⟩

/-- A name in which half of a pair stands alone hides what the other fields tell apart. -/
theorem unpaired_name_alone :
    let fields : Fields := [("jobs", .int 0), ([.half 0], .int 1)]
    (check (some 8) (.object fields)).defects = [⟨[], .stringUnicode⟩] ∧
      apart workerFields (fun fs => (check (some 8) (.object fs)).defects) fields =
        [⟨[.key "jobs"], .atLeastOne⟩, ⟨[], .stringUnicode⟩] := by
  intro fields
  exact ⟨rfl, rfl⟩

end Settings

end CommandRelay
