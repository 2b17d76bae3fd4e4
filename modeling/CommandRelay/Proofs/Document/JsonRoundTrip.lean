import CommandRelay.Proofs.Document.JsonScalars
import CommandRelay.Proofs.Text.Utf8RoundTrip

/-!
# What is written as JSON can be read

`Portable` are the values that a document carries: no number that is not whole, no key twice, and
not nested too deep. The reader takes such a value from the front of a text that begins with what
was written for it (`ReadsBack`), so it reads a whole document, given as text (`readText_write`) or
as bytes (`readBytes_write`), as the value that was written.
-/

namespace CommandRelay.Json

/-! ## Values -/

/-- A value that a document carries, if so many nests at most may stand in each other. -/
inductive Portable : Nat → Value → Prop
  | null {room} : Portable room .null
  | bool {room} (b : Bool) : Portable room (.bool b)
  | int {room} {n : Int} (hlimit : (Nat.toDigits 10 n.natAbs).length ≤ Digits.limit) :
      Portable room (.int n)
  | string {room} {s : Text} (hwhole : s.isWhole = true) : Portable room (.string s)
  | list {room} {vs : List Value} (hitems : ∀ v ∈ vs, Portable room v) :
      Portable (room + 1) (.list vs)
  | object {room} {fs : List (Text × Value)} (hkeys : (fs.map Prod.fst).Nodup)
      (hwhole : ∀ f ∈ fs, f.1.isWhole = true) (hfields : ∀ f ∈ fs, Portable room f.2) :
      Portable (room + 1) (.object fs)

/-- A value begins with a mark that is no blank and ends no list, and the reader takes it back from
the front of a text in which its text stands. -/
structure ReadsBack (room : Nat) (v : Value) : Prop where
  front : ∃ p t, write v = p :: t ∧ isBlank p = false ∧ p ≠ .char ']' ∧ p.code < 0x80
  reads : ∀ fuel rest, 2 * (write v).length ≤ fuel → Stops rest →
    value fuel room (write v ++ rest) = .ok (v, rest)

variable {room : Nat}

theorem skipBlank_cons {p : Point} (h : isBlank p = false) (t : Text) :
    skipBlank (p :: t) = p :: t := by
  simp [skipBlank, h]

theorem ReadsBack.skipBlank_eq {v : Value} (h : ReadsBack room v) (rest : Text) :
    skipBlank (write v ++ rest) = write v ++ rest := by
  obtain ⟨p, t, hv, hp, -⟩ := h.front
  rw [hv, List.cons_append, skipBlank_cons hp]

theorem writeItems_cons (v w : Value) (vs : List Value) :
    writeItems (v :: w :: vs) = write v ++ .char ',' :: .char ' ' :: writeItems (w :: vs) := by
  rw [writeItems, List.append_assoc]
  · rfl
  · simp

theorem exists_writeItems (v : Value) (vs : List Value) :
    ∃ t, writeItems (v :: vs) = write v ++ t := by
  cases vs with
  | nil => exact ⟨[], by rw [writeItems, List.append_nil]⟩
  | cons w vs => exact ⟨_, writeItems_cons v w vs⟩

theorem writeFields_singleton (k : Text) (v : Value) :
    writeFields [(k, v)] = writeString k ++ .char ':' :: .char ' ' :: write v := by
  rw [writeFields, List.append_assoc]
  rfl

theorem writeFields_cons (k : Text) (v : Value) (f : Text × Value) (fs : List (Text × Value)) :
    writeFields ((k, v) :: f :: fs) = writeString k ++ .char ':' :: .char ' ' :: (write v ++
      .char ',' :: .char ' ' :: writeFields (f :: fs)) := by
  rw [writeFields, List.append_assoc, List.append_assoc, List.append_assoc]
  · rfl
  · simp

theorem exists_writeFields (k : Text) (v : Value) (fs : List (Text × Value)) :
    ∃ t, writeFields ((k, v) :: fs) =
      writeString k ++ .char ':' :: .char ' ' :: (write v ++ t) := by
  cases fs with
  | nil => exact ⟨[], by rw [writeFields_singleton, List.append_nil]⟩
  | cons f fs => exact ⟨_, writeFields_cons k v f fs⟩

theorem skipBlank_writeFields (f : Text × Value) (fs : List (Text × Value)) (rest : Text) :
    skipBlank (writeFields (f :: fs) ++ rest) = writeFields (f :: fs) ++ rest := by
  obtain ⟨t, ht⟩ := exists_writeFields f.1 f.2 fs
  rw [ht]
  rfl

/-- The items of a list are read up to its closing bracket. -/
theorem items_write {v : Value} {vs : List Value} (h : ∀ w ∈ v :: vs, ReadsBack room w)
    (rest : Text) (fuel : Nat) (hfuel : 2 * (writeItems (v :: vs)).length < fuel) :
    items fuel room (writeItems (v :: vs) ++ .char ']' :: rest) = .ok (v :: vs, rest) := by
  have hv := h v List.mem_cons_self
  induction vs generalizing v fuel with
  | nil =>
      obtain _ | fuel := fuel
      · cases hfuel
      rw [writeItems] at hfuel ⊢
      have hread := hv.reads fuel (.char ']' :: rest) (by omega) (by simp [Stops])
      rw [items, hread]
      rfl
  | cons w vs ih =>
      obtain _ | fuel := fuel
      · cases hfuel
      have hw := h w (by simp)
      rw [writeItems_cons, List.length_append, List.length_cons, List.length_cons] at hfuel
      have hread := hv.reads fuel
        (.char ',' :: .char ' ' :: (writeItems (w :: vs) ++ .char ']' :: rest)) (by omega)
        (by simp [Stops])
      have hmore := ih (fun u hu => h u (List.mem_cons_of_mem v hu)) fuel (by omega) hw
      have hblank : skipBlank (.char ' ' :: (writeItems (w :: vs) ++ .char ']' :: rest)) =
          writeItems (w :: vs) ++ .char ']' :: rest := by
        obtain ⟨t, ht⟩ := exists_writeItems w vs
        rw [ht, List.append_assoc]
        exact hw.skipBlank_eq _
      rw [writeItems_cons, List.append_assoc, List.cons_append, List.cons_append, items, hread]
      simp [skipBlank_cons (p := .char ',') rfl, hblank, hmore, Bind.bind, Except.bind]

theorem fieldName_write (k t : Text) :
    fieldName (writeString k ++ .char ':' :: .char ' ' :: t) = .ok (k, skipBlank t) := by
  have hstring := string_write k (.char ':' :: .char ' ' :: t)
  have htext : writeString k ++ .char ':' :: .char ' ' :: t =
      .char '"' :: (k.flatMap escape ++ .char '"' :: .char ':' :: .char ' ' :: t) := by
    simp [writeString]
  rw [htext, fieldName]
  have hcolon : skipBlank (.char ':' :: .char ' ' :: t) = .char ':' :: .char ' ' :: t :=
    skipBlank_cons rfl _
  simp only [hstring, hcolon, Bind.bind, Except.bind]
  rfl

theorem put_of_notMem {fs : List (Text × Value)} {k : Text} (h : k ∉ fs.map Prod.fst) (v : Value) :
    Value.put fs k v = fs ++ [(k, v)] := by
  induction fs with
  | nil => rfl
  | cons f fs ih =>
      obtain ⟨hne, hrest⟩ : ¬ k = f.1 ∧ k ∉ fs.map Prod.fst := by
        simpa using h
      rw [Value.put, if_neg (Ne.symm hne), ih hrest, List.cons_append]

theorem notMem_of_nodup {f : Text × Value} {fs before : List (Text × Value)}
    (h : ((before ++ f :: fs).map Prod.fst).Nodup) : f.1 ∉ before.map Prod.fst := by
  rw [List.map_append, List.nodup_append] at h
  intro hf
  exact h.2.2 f.1 hf f.1 (by simp) rfl

/-- A field is read, and then what comes behind it; it stands behind the fields before. -/
theorem fields_succ {v : Value} (hv : ReadsBack room v) (fuel : Nat)
    (hfuel : 2 * (write v).length ≤ fuel) {k : Text} {before : List (Text × Value)}
    (hkey : k ∉ before.map Prod.fst) :
    (∀ rest, fields (fuel + 1) room before
        (writeString k ++ .char ':' :: .char ' ' :: (write v ++ .char '}' :: rest)) =
      .ok (before ++ [(k, v)], rest)) ∧
    ∀ t, fields (fuel + 1) room before
        (writeString k ++ .char ':' :: .char ' ' :: (write v ++ .char ',' :: .char ' ' :: t)) =
      fields fuel room (before ++ [(k, v)]) (skipBlank t) := by
  constructor
  · intro rest
    have hread := hv.reads fuel (.char '}' :: rest) hfuel (by simp [Stops])
    rw [fields, fieldName_write, hv.skipBlank_eq]
    simp only [Bind.bind, Except.bind, hread, put_of_notMem hkey]
    rfl
  · intro t
    have hread := hv.reads fuel (.char ',' :: .char ' ' :: t) hfuel (by simp [Stops])
    rw [fields, fieldName_write, hv.skipBlank_eq]
    simp only [Bind.bind, Except.bind, hread, put_of_notMem hkey]
    rfl

/-- The fields of an object are read up to its closing brace, and stand behind those before. -/
theorem fields_write {f : Text × Value} {fs : List (Text × Value)}
    (h : ∀ g ∈ f :: fs, ReadsBack room g.2) (before : List (Text × Value))
    (hkeys : ((before ++ f :: fs).map Prod.fst).Nodup) (rest : Text) (fuel : Nat)
    (hfuel : 2 * (writeFields (f :: fs)).length < fuel) :
    fields fuel room before (writeFields (f :: fs) ++ .char '}' :: rest) =
      .ok (before ++ f :: fs, rest) := by
  induction fs generalizing f before fuel with
  | nil =>
      obtain _ | fuel := fuel
      · cases hfuel
      rw [writeFields_singleton] at hfuel ⊢
      simp only [List.length_append, List.length_cons] at hfuel
      obtain ⟨hlast, -⟩ := fields_succ (h f List.mem_cons_self) fuel (by omega)
        (notMem_of_nodup hkeys)
      simpa using hlast rest
  | cons g fs ih =>
      obtain _ | fuel := fuel
      · cases hfuel
      rw [writeFields_cons] at hfuel ⊢
      simp only [List.length_append, List.length_cons] at hfuel
      obtain ⟨-, hnext⟩ := fields_succ (h f List.mem_cons_self) fuel (by omega)
        (notMem_of_nodup hkeys)
      have hmore := ih (fun e he => h e (List.mem_cons_of_mem f he)) (before ++ [f])
        (by simpa using hkeys) fuel (by omega)
      have hstep := hnext (writeFields (g :: fs) ++ .char '}' :: rest)
      rw [skipBlank_writeFields, hmore] at hstep
      simpa using hstep

/-! ## Documents -/

theorem readsBack_string (s : Text) : ReadsBack room (.string s) := by
  refine ⟨⟨.char '"', _, by rw [write, writeString, List.cons_append], by decide⟩, ?_⟩
  intro fuel rest hfuel _
  rw [write] at hfuel ⊢
  obtain _ | fuel := fuel
  · simp [writeString] at hfuel
  have htext : writeString s ++ rest = .char '"' :: (s.flatMap escape ++ .char '"' :: rest) := by
    simp [writeString]
  rw [htext, value, string_write]
  rfl

/-- What begins neither a literal nor a nest is a word or a number. -/
theorem readsBack_scalar {v : Value} {p : Point} {t : Text} (hv : write v = p :: t)
    (hp : isBlank p = false ∧ p ≠ .char ']' ∧ p.code < 0x80)
    (hmark : p ≠ .char '"' ∧ p ≠ .char '[' ∧ p ≠ .char '{')
    (h : ∀ rest, Stops rest → scalar (write v ++ rest) = .ok (v, rest)) : ReadsBack room v := by
  refine ⟨⟨p, t, hv, hp⟩, ?_⟩
  intro fuel rest hfuel hrest
  have hscalar := h rest hrest
  rw [hv] at hfuel hscalar ⊢
  obtain _ | fuel := fuel
  · simp at hfuel
  rw [← hscalar, List.cons_append, value]
  · simpa using hmark.1
  · simpa using hmark.2.1
  · simpa using hmark.2.2

theorem readsBack_int {n : Int} (hlimit : (Nat.toDigits 10 n.natAbs).length ≤ Digits.limit) :
    ReadsBack room (.int n) := by
  obtain ⟨c, t, htext, hc⟩ : ∃ c t, Text.ofInt n = .char c :: t ∧ (c = '-' ∨ c.isDigit = true) := by
    obtain ⟨negative, m, -, -, htext⟩ := ofInt_eq n
    obtain ⟨d, ds, hds⟩ : ∃ d ds, Nat.toDigits 10 m = d :: ds :=
      List.exists_cons_of_ne_nil (List.ne_nil_of_length_pos Nat.length_toDigits_pos)
    rw [hds] at htext
    cases negative with
    | true => exact ⟨'-', _, htext, .inl rfl⟩
    | false =>
        refine ⟨d, _, htext, .inr ?_⟩
        exact Nat.isDigit_of_mem_toDigits (by decide) (by decide) (hds ▸ List.mem_cons_self)
  have hne (e : Char) (hminus : e ≠ '-') (he : e.isDigit = false) : c ≠ e := by
    rintro rfl
    rcases hc with rfl | hc
    · exact hminus rfl
    · rw [he] at hc
      cases hc
  have hblank : isBlank (.char c) = false := by
    simp [isBlank, hne ' ' (by decide) rfl, hne '\n' (by decide) rfl, hne '\t' (by decide) rfl,
      hne '\r' (by decide) rfl]
  have hcode : (Point.char c).code < 0x80 := by
    rcases hc with rfl | hc
    · decide
    · have hnine : c.toNat ≤ '9'.toNat := (Char.isDigit_iff_toNat.mp hc).2
      exact Nat.lt_of_le_of_lt hnine (by decide)
  have hbracket : Point.char c ≠ .char ']' := by
    simp [hne ']' (by decide) rfl]
  have hmark : Point.char c ≠ .char '"' ∧ Point.char c ≠ .char '[' ∧ Point.char c ≠ .char '{' := by
    simp [hne '"' (by decide) rfl, hne '[' (by decide) rfl, hne '{' (by decide) rfl]
  apply readsBack_scalar (by rw [write, htext]) ⟨hblank, hbracket, hcode⟩ hmark
  intro rest hrest
  rw [write]
  exact scalar_ofInt n hrest hlimit

theorem readsBack_list {vs : List Value} (h : ∀ v ∈ vs, ReadsBack room v) :
    ReadsBack (room + 1) (.list vs) := by
  refine ⟨⟨.char '[', _, by rw [write, List.cons_append], by decide⟩, ?_⟩
  intro fuel rest hfuel _
  rw [write] at hfuel ⊢
  obtain _ | fuel := fuel
  · simp at hfuel
  have htext : .char '[' :: writeItems vs ++ [.char ']'] ++ rest =
      .char '[' :: (writeItems vs ++ .char ']' :: rest) := by
    simp
  rw [htext, value, if_neg (Nat.succ_ne_zero room)]
  cases vs with
  | nil =>
      rw [writeItems, List.nil_append, skipBlank_cons rfl]
      rfl
  | cons v vs =>
      have hitems := items_write h rest fuel (by simp at hfuel; omega)
      obtain ⟨t, ht⟩ := exists_writeItems v vs
      obtain ⟨p, u, hv, hp, hbracket, -⟩ := (h v List.mem_cons_self).front
      rw [ht, hv] at hitems ⊢
      simp only [List.cons_append] at hitems ⊢
      rw [skipBlank_cons hp]
      split
      · rename_i heq
        exact absurd (List.cons.inj heq).1 hbracket
      · rw [Nat.add_sub_cancel, hitems]
        rfl

theorem readsBack_object {fs : List (Text × Value)} (hkeys : (fs.map Prod.fst).Nodup)
    (h : ∀ f ∈ fs, ReadsBack room f.2) : ReadsBack (room + 1) (.object fs) := by
  refine ⟨⟨.char '{', _, by rw [write, List.cons_append], by decide⟩, ?_⟩
  intro fuel rest hfuel _
  rw [write] at hfuel ⊢
  obtain _ | fuel := fuel
  · simp at hfuel
  have htext : .char '{' :: writeFields fs ++ [.char '}'] ++ rest =
      .char '{' :: (writeFields fs ++ .char '}' :: rest) := by
    simp
  rw [htext, value, if_neg (Nat.succ_ne_zero room)]
  cases fs with
  | nil =>
      rw [writeFields, List.nil_append, skipBlank_cons rfl]
      rfl
  | cons f fs =>
      have hfields := fields_write h [] hkeys rest fuel (by simp at hfuel; omega)
      obtain ⟨t, ht⟩ := exists_writeFields f.1 f.2 fs
      rw [skipBlank_writeFields]
      split
      · rename_i heq
        rw [ht] at heq
        cases heq
      · rw [Nat.add_sub_cancel, hfields]
        rfl

/-- A portable value is read back. -/
theorem Portable.readsBack {v : Value} (h : Portable room v) : ReadsBack room v := by
  induction h with
  | null =>
      exact readsBack_scalar (by rw [write]; rfl) (by decide) (by decide) fun rest _ => by
        rw [write]
        rfl
  | bool b =>
      cases b <;>
        exact readsBack_scalar (by rw [write]; rfl) (by decide) (by decide) fun rest _ => by
          rw [write]
          rfl
  | int hlimit => exact readsBack_int hlimit
  | string => exact readsBack_string _
  | list _ ih => exact readsBack_list ih
  | object hkeys _ _ ih => exact readsBack_object hkeys ih

/-- The value of a whole text, if so many nests at most may stand in each other. -/
def documentWithin (room : Nat) (t : Text) : Except Fault Value := do
  let (v, rest) ← value (2 * t.length + 2) room (skipBlank t)
  match skipBlank rest with
  | [] => .ok v
  | rest => .error (.at .extraData rest)

theorem document_eq (t : Text) : document t = documentWithin nestingLimit t := rfl

/-- A reader that has room enough takes a portable value back. -/
theorem documentWithin_write {v : Value} (h : Portable room v) :
    documentWithin room (write v) = .ok v := by
  have hv := h.readsBack
  have hblank := hv.skipBlank_eq []
  have hread := hv.reads (2 * (write v).length + 2) [] (by omega) (by simp [Stops])
  rw [List.append_nil] at hblank hread
  rw [documentWithin, hblank, hread]
  rfl

theorem readDecoded_write {v : Value} (h : Portable nestingLimit v) :
    readDecoded (write v) = .ok v := by
  rw [readDecoded, document_eq, documentWithin_write h]
  rfl

/-- The text of a portable value is read as that value. -/
theorem readText_write {v : Value} (h : Portable nestingLimit v) : readText (write v) = .ok v := by
  have hread := readDecoded_write h
  obtain ⟨p, t, htext, -, -, hcode⟩ := h.readsBack.front
  have hmark : p ≠ .char '\uFEFF' := by
    rintro rfl
    revert hcode
    decide
  rw [htext] at hread ⊢
  rw [readText, hread]
  simpa using hmark

/-! ## Documents in UTF-8 -/

/-- A point that stands as it is in a document: no half, and no control character. -/
def Stands (p : Point) : Prop :=
  p.isHalf = false ∧ 0x20 ≤ p.code

instance (p : Point) : Decidable (Stands p) :=
  inferInstanceAs (Decidable (_ ∧ _))

theorem stands_digitChar (n : Nat) (h : n < 16) : Stands (.char (Nat.digitChar n)) := by
  revert n
  decide

theorem stands_escape {p : Point} (hp : p.isHalf = false) : ∀ q ∈ escape p, Stands q := by
  unfold escape
  split
  case h_8 =>
    split
    · rw [List.forall_mem_append]
      constructor
      · decide
      · intro q hq
        simp only [Text.ofString, String.toList_ofList, hexDigits, List.map_map, List.mem_map] at hq
        obtain ⟨i, -, rfl⟩ := hq
        exact stands_digitChar _ (Nat.mod_lt _ (by decide))
    · rename_i hcode
      rw [List.forall_mem_singleton]
      exact ⟨hp, Nat.le_of_not_lt hcode⟩
  all_goals decide

theorem stands_writeString {s : Text} (hs : s.isWhole = true) : ∀ p ∈ writeString s, Stands p := by
  rw [writeString, List.forall_mem_append, List.forall_mem_cons]
  refine ⟨⟨by decide, ?_⟩, by decide⟩
  intro q hq
  obtain ⟨p, hp, hq⟩ := List.mem_flatMap.mp hq
  have hhalf : p.isHalf = false := by
    simpa using List.all_eq_true.mp hs p hp
  exact stands_escape hhalf q hq

theorem stands_writeItems {vs : List Value} (h : ∀ v ∈ vs, ∀ p ∈ write v, Stands p) :
    ∀ p ∈ writeItems vs, Stands p := by
  induction vs with
  | nil => simp [writeItems]
  | cons v vs ih =>
      have hv := h v List.mem_cons_self
      have hvs := ih fun w hw => h w (List.mem_cons_of_mem v hw)
      cases vs with
      | nil => rwa [writeItems]
      | cons w vs =>
          simp only [writeItems_cons, List.forall_mem_append, List.forall_mem_cons]
          exact ⟨hv, by decide, by decide, hvs⟩

theorem stands_writeFields {fs : List (Text × Value)} (hwhole : ∀ f ∈ fs, f.1.isWhole = true)
    (h : ∀ f ∈ fs, ∀ p ∈ write f.2, Stands p) : ∀ p ∈ writeFields fs, Stands p := by
  induction fs with
  | nil => simp [writeFields]
  | cons f fs ih =>
      obtain ⟨k, v⟩ := f
      have hname := stands_writeString (hwhole (k, v) List.mem_cons_self)
      have hv := h (k, v) List.mem_cons_self
      have hfs := ih (fun g hg => hwhole g (List.mem_cons_of_mem _ hg))
        fun g hg => h g (List.mem_cons_of_mem _ hg)
      cases fs with
      | nil =>
          simp only [writeFields_singleton, List.forall_mem_append, List.forall_mem_cons]
          exact ⟨hname, by decide, by decide, hv⟩
      | cons g fs =>
          simp only [writeFields_cons, List.forall_mem_append, List.forall_mem_cons]
          exact ⟨hname, by decide, by decide, hv, by decide, by decide, hfs⟩

/-- Whatever a portable value holds, its text stands on one line and has no lone half. -/
theorem Portable.stands {v : Value} (h : Portable room v) : ∀ p ∈ write v, Stands p := by
  induction h with
  | null =>
      rw [write]
      decide
  | bool b =>
      rw [write]
      cases b <;> decide
  | @int _ n _ =>
      obtain ⟨negative, m, -, -, htext⟩ := ofInt_eq n
      rw [write, htext, List.forall_mem_append]
      constructor
      · cases negative <;> decide
      · intro p hp
        obtain ⟨c, hc, rfl⟩ := List.mem_map.mp hp
        have hdigit := Nat.isDigit_of_mem_toDigits (by decide) (by decide) hc
        have hcode : '0'.toNat ≤ c.toNat := (Char.isDigit_iff_toNat.mp hdigit).1
        exact ⟨rfl, Nat.le_trans (by decide) hcode⟩
  | string hwhole =>
      rw [write]
      exact stands_writeString hwhole
  | list _ ih =>
      rw [write, List.forall_mem_append, List.forall_mem_cons]
      exact ⟨⟨by decide, stands_writeItems ih⟩, by decide⟩
  | object _ hwhole _ ih =>
      rw [write, List.forall_mem_append, List.forall_mem_cons]
      exact ⟨⟨by decide, stands_writeFields hwhole ih⟩, by decide⟩

/-- Bytes none of which is zero, and the first of which is of one byte, are read as UTF-8. -/
theorem decode_of_ascii {b : UInt8} {bytes : Bytes} (hb : b < 0x80)
    (hbytes : ∀ d ∈ b :: bytes, d ≠ 0) :
    decode (b :: bytes) = Utf8.decodeFrom true 0 (b :: bytes) := by
  have hmark : mark? (b :: bytes) = none := by
    unfold mark?
    split
    all_goals simp_all
  have hguess : guess (b :: bytes) = .utf8 := by
    unfold guess
    split
    all_goals simp_all
  rw [decode, hmark, hguess]
  rfl

/-- The bytes of a character other than the zero character are not zero. -/
theorem ne_zero_of_mem_utf8EncodeChar {c : Char} (hc : 0 < c.toNat) :
    ∀ b ∈ String.utf8EncodeChar c, b ≠ 0 := by
  have hv : c.val.toNat = c.toNat := rfl
  simp only [String.utf8EncodeChar, hv, ne_eq, ← UInt8.toNat_inj]
  repeat' split
  all_goals
    simp only [List.forall_mem_cons, List.not_mem_nil, false_implies, implies_true, and_true,
      UInt8.toNat_ofNat', UInt8.toNat_ofNat]
    omega

/-- The bytes of a portable value are read as that value. -/
theorem readBytes_write {v : Value} (h : Portable nestingLimit v) :
    ∃ bytes, Utf8.encode (write v) = .ok bytes ∧ readBytes bytes = .ok v := by
  obtain ⟨s, hs⟩ : ∃ s, write v = Text.ofString s := by
    rw [← Text.isWhole_iff, Text.isWhole, List.all_eq_true]
    intro p hp
    rw [(h.stands p hp).1]
    rfl
  refine ⟨Bytes.ofString s, ?_, ?_⟩
  · rw [hs, Utf8.encode_ofString]
  have hdecode : decode (Bytes.ofString s) = .ok (write v) := by
    have hbytes : ∀ b ∈ Bytes.ofString s, b ≠ 0 := by
      intro b hb
      obtain ⟨c, hc, hb⟩ := List.mem_flatMap.mp hb
      have hstands : Stands (.char c) := h.stands _ (hs ▸ List.mem_map_of_mem hc)
      exact ne_zero_of_mem_utf8EncodeChar (Nat.lt_of_lt_of_le (by decide) hstands.2) b hb
    obtain ⟨b, bytes, hcons, hb⟩ : ∃ b bytes, Bytes.ofString s = b :: bytes ∧ b < 0x80 := by
      obtain ⟨p, t, hp, -, -, hcode⟩ := h.readsBack.front
      obtain ⟨c, cs, hcs, rfl, -⟩ := List.map_eq_cons_iff.mp (hs.symm.trans hp)
      have hc : c.val.toNat ≤ 0x7F := Nat.le_of_lt_succ hcode
      refine ⟨UInt8.ofNat c.val.toNat, cs.flatMap String.utf8EncodeChar, ?_, ?_⟩
      · simp only [Bytes.ofString, hcs, List.flatMap_cons, String.utf8EncodeChar, if_pos hc]
        rfl
      · rw [UInt8.lt_iff_toNat_lt, UInt8.toNat_ofNat', Nat.mod_eq_of_lt (by omega)]
        exact hcode
    rw [hcons] at hbytes
    rw [hcons, decode_of_ascii hb hbytes, ← hcons, Utf8.decodeFrom_ofString, hs]
  rw [readBytes, hdecode]
  exact readDecoded_write h

end CommandRelay.Json
