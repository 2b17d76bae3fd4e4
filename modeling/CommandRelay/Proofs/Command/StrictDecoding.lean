import CommandRelay.Command.Record
import CommandRelay.Proofs.Command.RecordRoundTrip

/-!
# What decoding accepts, and what it reports

A payload that holds an object is decoded if and only if the object has the four fields of the
schema, each of its own kind; otherwise every defect of the four fields is reported, in the order of
the schema, and nothing else (`decode_schema`). No other payload is decoded.

## Implementation notes

`Record.defects` lists the defects straight from the values, without the checks. `Checked.Finds`
ties a check to such a list, and each way to put checks together has one lemma about it.
-/

namespace CommandRelay

/-! ## Checks and the defects they find -/

namespace Checked

/-- The defects that a check finds: none if it passes, and some if it does not. -/
inductive Finds {α : Type} : Checked α → List Defect → Prop
  | pass (a : α) : Finds (.ok a) []
  | flaw {ds : List Defect} (h : ds ≠ []) : Finds (.error ds) ds

variable {α β : Type} {a : Checked α} {b : Checked β} {ds ds' : List Defect}

theorem Finds.fail (kind : DefectKind) : Finds (Checked.fail (α := α) kind) [⟨[], kind⟩] :=
  .flaw (by simp)

theorem Finds.map (f : α → β) (h : Finds a ds) : Finds (a.map f) ds := by
  cases h with
  | pass a => exact .pass (f a)
  | flaw hne => exact .flaw hne

theorem Finds.under (step : PathStep) (h : Finds a ds) :
    Finds (a.under step) (ds.map (.under step)) := by
  cases h with
  | pass a => exact .pass a
  | flaw hne => exact .flaw (by simpa using hne)

theorem Finds.both (ha : Finds a ds) (hb : Finds b ds') : Finds (a.both b) (ds ++ ds') := by
  cases ha with
  | pass a =>
      cases hb with
      | pass b => exact .pass (a, b)
      | flaw hne => exact .flaw hne
  | flaw hne =>
      cases hb with
      | pass b =>
          rw [List.append_nil]
          exact .flaw hne
      | flaw => exact .flaw (List.append_ne_nil_of_left_ne_nil hne _)

/-- The items of a list show their own defects, each at its index. -/
theorem Finds.items {check : α → Checked β} {defects : α → List Defect}
    (h : ∀ a, Finds (check a) (defects a)) (as : List α) (first : Nat) :
    Finds (Checked.items check first as)
      ((as.zipIdx first).flatMap fun (a, i) => (defects a).map (.under (.index i))) := by
  induction as generalizing first with
  | nil => exact .pass []
  | cons a as ih =>
      rw [List.zipIdx_cons, List.flatMap_cons]
      exact (((h a).under (.index first)).both (ih (first + 1))).map _

theorem Finds.ok_iff (h : Finds a ds) : (∃ x, a = .ok x) ↔ ds = [] := by
  cases h with
  | pass a => simp
  | flaw hne => simpa using hne

theorem Finds.eq_error (h : Finds a ds) (hne : ds ≠ []) : a = .error ds := by
  cases h with
  | pass => exact absurd rfl hne
  | flaw => rfl

theorem both_eq_ok_iff {x : α} {y : β} : a.both b = .ok (x, y) ↔ a = .ok x ∧ b = .ok y := by
  cases a <;> cases b <;> simp [both]

theorem under_eq_ok_iff {step : PathStep} {x : α} : a.under step = .ok x ↔ a = .ok x := by
  cases a with
  | error ds => exact iff_of_false nofun nofun
  | ok y => exact Iff.rfl

theorem map_eq_ok_iff {f : α → β} {y : β} : a.map f = .ok y ↔ ∃ x, a = .ok x ∧ f x = y := by
  cases a <;> simp [Except.map]

end Checked

namespace Record

variable {fields fields' : List (Text × Value)} {c : Command}

/-! ## What the schema asks -/

/-- The fields of the schema, in order. -/
def keys : List Text :=
  ["name", "args", "stdoutFile", "stderrFile"]

/-- The fields of the schema that an object has, in the order of the schema. -/
def restrict (fields : List (Text × Value)) : List (Text × Value) :=
  keys.filterMap fun key => (Value.lookup? fields key).map fun v => (key, v)

/-- An object that the schema accepts. -/
structure Conforms (fields : List (Text × Value)) : Prop where
  name : ∃ t, Value.lookup? fields "name" = some (.string t) ∧ t ≠ [] ∧ t.isWhole = true
  args : ∃ vs, Value.lookup? fields "args" = some (.list vs) ∧ ∀ v ∈ vs, ∃ t, v = .string t
  stdoutFile : ∃ t, Value.lookup? fields "stdoutFile" = some (.string t)
  stderrFile : ∃ t, Value.lookup? fields "stderrFile" = some (.string t)

/-- An object of which the fields of the schema are the parts of a command. -/
structure Describes (fields : List (Text × Value)) (c : Command) : Prop where
  name : Value.lookup? fields "name" = some (.string c.name)
  args : Value.lookup? fields "args" = some (.list (c.args.map .string))
  stdoutFile : Value.lookup? fields "stdoutFile" = some (.string c.stdoutTarget)
  stderrFile : Value.lookup? fields "stderrFile" = some (.string c.stderrTarget)

/-! ## What is wrong with an object -/

/-- What is wrong with a value that must be a text. -/
def textDefects : Value → List Defect
  | .string _ => []
  | _ => [⟨[], .stringType⟩]

/-- What is wrong with a value that must be a name. -/
def nameDefects : Value → List Defect
  | .string t =>
    if t.isWhole then (if t = [] then [⟨[], .stringTooShort⟩] else []) else [⟨[], .stringUnicode⟩]
  | _ => [⟨[], .stringType⟩]

/-- What is wrong with a value that must be a list of texts: one defect for each item that is no
text, at its index. -/
def textsDefects : Value → List Defect
  | .list vs => vs.zipIdx.flatMap fun (v, i) => (textDefects v).map (.under (.index i))
  | _ => [⟨[], .listType⟩]

/-- What is wrong with a field, which must not be missing. -/
def fieldDefects (fields : List (Text × Value)) (key : Text) (defects : Value → List Defect) :
    List Defect :=
  match Value.lookup? fields key with
  | none => [⟨[.key key], .missing⟩]
  | some v => (defects v).map (.under (.key key))

/-- What is wrong with an object, in the order of the schema. -/
def defects (fields : List (Text × Value)) : List Defect :=
  fieldDefects fields "name" nameDefects ++ (fieldDefects fields "args" textsDefects ++
    (fieldDefects fields "stdoutFile" textDefects ++ fieldDefects fields "stderrFile" textDefects))

theorem finds_text (v : Value) : (checkText v).Finds (textDefects v) := by
  cases v with
  | string t => exact .pass t
  | _ => exact .fail .stringType

theorem finds_name (v : Value) : (checkName v).Finds (nameDefects v) := by
  cases v with
  | string t =>
      simp only [checkName, checkText, nameDefects]
      cases t.isWhole with
      | false => exact .fail .stringUnicode
      | true =>
          by_cases hempty : t = []
          · simp only [hempty, ne_eq, not_true, dite_false]
            exact .fail .stringTooShort
          · simp only [hempty, ne_eq, not_false_eq_true, dite_true]
            exact .pass _
  | _ => exact .fail .stringType

theorem finds_texts (v : Value) : (checkTexts v).Finds (textsDefects v) := by
  cases v with
  | list vs => exact .items finds_text vs 0
  | _ => exact .fail .listType

theorem finds_required {α : Type} {check : Value → Checked α} {defects : Value → List Defect}
    (h : ∀ v, (check v).Finds (defects v)) (key : Text) :
    (required fields key check).Finds (fieldDefects fields key defects) := by
  rw [required, fieldDefects]
  cases Value.lookup? fields key with
  | none => exact (Checked.Finds.fail .missing).under (.key key)
  | some v => exact (h v).under (.key key)

/-- The fields are checked one by one, and no defect stops the checks that follow. -/
theorem finds_ofFields (fields : List (Text × Value)) :
    (ofFields fields).Finds (defects fields) :=
  .map _ (.both (finds_required finds_name "name") (.both (finds_required finds_texts "args")
    (.both (finds_required finds_text "stdoutFile") (finds_required finds_text "stderrFile"))))

/-! ## What an accepted object gives -/

theorem checkText_eq_ok_iff {v : Value} {t : Text} : checkText v = .ok t ↔ v = .string t := by
  cases v <;> simp [checkText, Checked.fail]

theorem checkName_eq_ok_iff {v : Value} {t : { t : Text // t ≠ [] }} :
    checkName v = .ok t ↔ v = .string t.val ∧ t.val.isWhole = true := by
  cases v with
  | string u =>
      simp only [checkName, checkText, Value.string.injEq]
      constructor
      · intro h
        split at h
        · cases h
        · split at h
          · cases h
            simp_all
          · cases h
      · rintro ⟨rfl, hwhole⟩
        simp [hwhole, t.property]
  | _ => simp [checkName, checkText, Checked.fail]

theorem items_checkText_eq_ok_iff {vs : List Value} {ts : List Text} {first : Nat} :
    Checked.items checkText first vs = .ok ts ↔ vs = ts.map .string := by
  induction vs generalizing first ts with
  | nil => cases ts <;> simp [Checked.items]
  | cons v vs ih =>
      simp only [Checked.items, Checked.map_eq_ok_iff, Prod.exists, Checked.both_eq_ok_iff,
        Checked.under_eq_ok_iff, checkText_eq_ok_iff, ih]
      cases ts with
      | nil => simp
      | cons t ts => simp

theorem checkTexts_eq_ok_iff {v : Value} {ts : List Text} :
    checkTexts v = .ok ts ↔ v = .list (ts.map .string) := by
  cases v with
  | list vs => simp [checkTexts, items_checkText_eq_ok_iff]
  | _ => simp [checkTexts, Checked.fail]

theorem required_eq_ok_iff {α : Type} {check : Value → Checked α} {key : Text} {x : α} :
    required fields key check = .ok x ↔
      ∃ v, Value.lookup? fields key = some v ∧ check v = .ok x := by
  rw [required, Checked.under_eq_ok_iff]
  cases Value.lookup? fields key with
  | none => simp [Checked.fail]
  | some v => simp

theorem ofFields_eq_ok_iff :
    ofFields fields = .ok c ↔ Describes fields c ∧ c.name.isWhole = true := by
  simp only [ofFields, Checked.map_eq_ok_iff, Prod.exists, Checked.both_eq_ok_iff,
    required_eq_ok_iff, checkName_eq_ok_iff, checkTexts_eq_ok_iff, checkText_eq_ok_iff]
  constructor
  · rintro ⟨name, args, out, err, ⟨⟨_, hname, rfl, hwhole⟩, ⟨_, hargs, rfl⟩, ⟨_, hout, rfl⟩,
      _, herr, rfl⟩, rfl⟩
    exact ⟨⟨hname, hargs, hout, herr⟩, hwhole⟩
  · rintro ⟨h, hwhole⟩
    exact ⟨⟨c.name, c.name_ne⟩, c.args, c.stdoutTarget, c.stderrTarget,
      ⟨⟨_, h.name, rfl, hwhole⟩, ⟨_, h.args, rfl⟩, ⟨_, h.stdoutFile, rfl⟩, _, h.stderrFile, rfl⟩,
      rfl⟩

theorem exists_texts {vs : List Value} (h : ∀ v ∈ vs, ∃ t, v = .string t) :
    ∃ ts : List Text, vs = ts.map .string := by
  induction vs with
  | nil => exact ⟨[], rfl⟩
  | cons v vs ih =>
      obtain ⟨⟨t, rfl⟩, hvs⟩ := List.forall_mem_cons.mp h
      obtain ⟨ts, rfl⟩ := ih hvs
      exact ⟨t :: ts, rfl⟩

theorem Conforms.exists_describes (h : Conforms fields) :
    ∃ c, Describes fields c ∧ c.name.isWhole = true := by
  obtain ⟨name, hname, hne, hwhole⟩ := h.name
  obtain ⟨vs, hvs, htexts⟩ := h.args
  obtain ⟨out, hout⟩ := h.stdoutFile
  obtain ⟨err, herr⟩ := h.stderrFile
  obtain ⟨args, rfl⟩ := exists_texts htexts
  exact ⟨⟨name, args, out, err, hne⟩, ⟨hname, hvs, hout, herr⟩, hwhole⟩

theorem Describes.conforms (h : Describes fields c) (hwhole : c.name.isWhole = true) :
    Conforms fields where
  name := ⟨c.name, h.name, c.name_ne, hwhole⟩
  args := ⟨_, h.args, by simp⟩
  stdoutFile := ⟨_, h.stdoutFile⟩
  stderrFile := ⟨_, h.stderrFile⟩

theorem Describes.restrict_eq (h : Describes fields c) : restrict fields = c.recordFields := by
  simp [restrict, keys, h.name, h.args, h.stdoutFile, h.stderrFile, Command.recordFields]

theorem describes_recordFields (c : Command) : Describes c.recordFields c where
  name := rfl
  args := rfl
  stdoutFile := rfl
  stderrFile := rfl

/-- Only the fields of the schema count, wherever they stand. -/
theorem ofFields_congr (h : ∀ key ∈ keys, Value.lookup? fields' key = Value.lookup? fields key) :
    ofFields fields' = ofFields fields := by
  simp only [keys, List.forall_mem_cons] at h
  obtain ⟨hname, hargs, hout, herr, -⟩ := h
  simp only [ofFields, required, hname, hargs, hout, herr]

/-- Where no key comes twice, looking a key up is finding its field. -/
theorem lookup?_eq_some_iff (hkeys : (fields.map Prod.fst).Nodup) {key : Text} {v : Value} :
    Value.lookup? fields key = some v ↔ (key, v) ∈ fields := by
  induction fields with
  | nil => simp [Value.lookup?]
  | cons field fields ih =>
      obtain ⟨k, w⟩ := field
      rw [List.map_cons, List.nodup_cons] at hkeys
      rw [Value.lookup?] at ih ⊢
      by_cases hk : k = key
      · subst hk
        have habsent : (k, v) ∉ fields := fun hv =>
          hkeys.1 (List.mem_map.mpr ⟨(k, v), hv, rfl⟩)
        simp [habsent, eq_comm]
      · simp [hk, Ne.symm hk, ih hkeys.2]

/-- Neither the order of the fields counts nor what an object has besides those of the schema. -/
theorem ofFields_eq_of_same (hkeys : (fields.map Prod.fst).Nodup)
    (hkeys' : (fields'.map Prod.fst).Nodup)
    (h : ∀ key ∈ keys, ∀ v, (key, v) ∈ fields' ↔ (key, v) ∈ fields) :
    ofFields fields' = ofFields fields := by
  apply ofFields_congr
  intro key hkey
  apply Option.ext
  intro v
  rw [lookup?_eq_some_iff hkeys', lookup?_eq_some_iff hkeys, h key hkey]

end Record

/-! ## Payloads -/

/-- The value that a payload holds; a text is a document, also as a value. -/
inductive Payload.Holds : Payload → Value → Prop
  | value {v : Value} (h : ∀ t, v ≠ .string t) : Holds (.value v) v
  | string {t : Text} {v : Value} (h : Json.readText t = .ok v) : Holds (.value (.string t)) v
  | text {t : Text} {v : Value} (h : Json.readText t = .ok v) : Holds (.text t) v
  | bytes {b : Bytes} {v : Value} (h : Json.readBytes b = .ok v) : Holds (.bytes b) v

namespace Command

variable {p : Payload} {v : Value}

theorem decode_of_holds (h : p.Holds v) : decode p = ofValue v := by
  cases h with
  | value h =>
      cases v with
      | string t => exact absurd rfl (h t)
      | _ => rfl
  | string h | text h | bytes h =>
      rw [decode, h]
      rfl

/-- A payload holds a value, or it is a document that cannot be read. -/
theorem holds_or_malformed (p : Payload) :
    (∃ v, p.Holds v) ∨ ∃ e, decode p = .error (.malformed e) := by
  have hdocument {r : Except Json.ReadError Value} (h : ∀ v, r = .ok v → p.Holds v)
      (hd : decode p = r.mapError .malformed >>= ofValue) :
      (∃ v, p.Holds v) ∨ ∃ e, decode p = .error (.malformed e) := by
    cases r with
    | ok v => exact .inl ⟨v, h v rfl⟩
    | error e => exact .inr ⟨e, hd⟩
  cases p with
  | value v =>
      cases v with
      | string t => exact hdocument (fun _ => .string) rfl
      | _ => exact .inl ⟨_, .value nofun⟩
  | text t => exact hdocument (fun _ => .text) rfl
  | bytes b => exact hdocument (fun _ => .bytes) rfl

theorem ofValue_eq_notObject (h : ∀ fields, v ≠ .object fields) :
    ofValue v = .error (.notObject v.kindName) := by
  cases v with
  | object fields => exact absurd rfl (h fields)
  | _ => rfl

theorem ofValue_object_eq_ok_iff {fields : List (Text × Value)} {c : Command} :
    ofValue (.object fields) = .ok c ↔ Record.ofFields fields = .ok c := by
  rw [ofValue]
  cases Record.ofFields fields with
  | error ds =>
      constructor
      · intro h
        cases h
      · intro h
        cases h
  | ok c' =>
      constructor
      · intro h
        exact congrArg Except.ok (Except.ok.inj h)
      · intro h
        exact congrArg Except.ok (Except.ok.inj h)

theorem toRecord_of_isWhole {c : Command} (hwhole : c.name.isWhole = true) :
    c.toRecord = .ok (.object c.recordFields) := by
  rw [toRecord, Record.ofFields_eq_ok_iff.mpr ⟨Record.describes_recordFields c, hwhole⟩]
  rfl

/-- An object is decoded if and only if the schema accepts it. Its fields of the schema are then the
parts of the command, whose record holds these fields alone; neither their order counts nor what
the object has besides. An object that the schema does not accept is refused with all its defects.
A payload that holds no object is refused. -/
theorem decode_schema (p : Payload) :
    (∀ fields, p.Holds (.object fields) →
      ((∃ c, decode p = .ok c) ↔ Record.Conforms fields) ∧
      (∀ c, decode p = .ok c →
        Record.Describes fields c ∧ c.toRecord = .ok (.object (Record.restrict fields))) ∧
      (∀ fields', (fields.map Prod.fst).Nodup → (fields'.map Prod.fst).Nodup →
        (∀ key ∈ Record.keys, ∀ v, (key, v) ∈ fields' ↔ (key, v) ∈ fields) →
        decode (.value (.object fields')) = decode p) ∧
      (¬ Record.Conforms fields →
        Record.defects fields ≠ [] ∧ decode p = .error (.defective (Record.defects fields)))) ∧
    ((∀ fields, ¬ p.Holds (.object fields)) →
      (∃ e, decode p = .error (.malformed e)) ∨ ∃ kind, decode p = .error (.notObject kind)) := by
  constructor
  · intro fields hp
    have hdecode : decode p = ofValue (.object fields) := decode_of_holds hp
    have hok (c : Command) :
        decode p = .ok c ↔ Record.Describes fields c ∧ c.name.isWhole = true := by
      rw [hdecode, ofValue_object_eq_ok_iff, Record.ofFields_eq_ok_iff]
    have hiff : (∃ c, decode p = .ok c) ↔ Record.Conforms fields := by
      constructor
      · rintro ⟨c, hc⟩
        obtain ⟨hparts, hwhole⟩ := (hok c).mp hc
        exact hparts.conforms hwhole
      · intro h
        obtain ⟨c, hc⟩ := h.exists_describes
        exact ⟨c, (hok c).mpr hc⟩
    refine ⟨hiff, ?_, ?_, ?_⟩
    · intro c hc
      obtain ⟨hparts, hwhole⟩ := (hok c).mp hc
      exact ⟨hparts, hparts.restrict_eq ▸ toRecord_of_isWhole hwhole⟩
    · intro fields' hkeys hkeys' hsame
      have hfields : Record.ofFields fields' = Record.ofFields fields :=
        Record.ofFields_eq_of_same hkeys hkeys' hsame
      rw [hdecode, ofValue, ← hfields]
      rfl
    · intro hnot
      have hfinds : (Record.ofFields fields).Finds (Record.defects fields) :=
        Record.finds_ofFields fields
      have hne : Record.defects fields ≠ [] := by
        intro hnil
        obtain ⟨c, hc⟩ := hfinds.ok_iff.mpr hnil
        exact hnot (hiff.mp ⟨c, hdecode.trans (ofValue_object_eq_ok_iff.mpr hc)⟩)
      refine ⟨hne, ?_⟩
      rw [hdecode, ofValue, hfinds.eq_error hne]
      rfl
  · intro hnone
    cases holds_or_malformed p with
    | inl h =>
        obtain ⟨v, hv⟩ := h
        have hv' : ∀ fields, v ≠ .object fields := fun fields heq => hnone fields (heq ▸ hv)
        exact .inr ⟨v.kindName, (decode_of_holds hv).trans (ofValue_eq_notObject hv')⟩
    | inr h => exact .inl h

/-- An object with a half in its name, two arguments that are no texts, a field that the schema does
not know and none for the standard output. -/
def strayFields : List (Text × Value) :=
  [("stderrFile", .string ""), ("account", .null),
    ("args", .list [.string "a", .int 1, .string "b", .list []]), ("name", .string [.half 0])]

theorem decode_schema_stray :
    (Payload.value (.object strayFields)).Holds (.object strayFields) ∧
      ¬ Record.Conforms strayFields ∧
      decode (.value (.object strayFields)) = .error (.defective
        [⟨[.key "name"], .stringUnicode⟩, ⟨[.key "args", .index 1], .stringType⟩,
          ⟨[.key "args", .index 3], .stringType⟩, ⟨[.key "stdoutFile"], .missing⟩]) := by
  have hp : (Payload.value (.object strayFields)).Holds (.object strayFields) := .value nofun
  have hnot : ¬ Record.Conforms strayFields := by
    intro h
    obtain ⟨t, ht⟩ := h.stdoutFile
    cases ht
  refine ⟨hp, hnot, ?_⟩
  obtain ⟨-, -, -, hfaults⟩ := (decode_schema (.value (.object strayFields))).1 strayFields hp
  exact (hfaults hnot).2

end Command

end CommandRelay
