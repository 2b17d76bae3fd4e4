import CommandRelay.Proofs.Document.JsonRoundTrip

/-!
# Nests in documents

How deep lists and objects stand in each other is all that a writer can object to: it gives the
text of a value exactly if it has room for the depth of it (`writeWithin_eq`). The same holds of a
reader of what was written: a value of the parts that JSON writes exactly (`IsExact`) is portable in
as much room as its depth takes (`IsExact.portable`).
-/

namespace CommandRelay

namespace Value

mutual

/-- How many nests of a value stand in each other at most. -/
def depth : Value → Nat
  | .list items => depthOfItems items + 1
  | .object fields => depthOfFields fields + 1
  | _ => 0

/-- The greatest depth of the items of a list. -/
def depthOfItems : List Value → Nat
  | [] => 0
  | v :: rest => max (depth v) (depthOfItems rest)

/-- The greatest depth of the fields of an object. -/
def depthOfFields : List (Text × Value) → Nat
  | [] => 0
  | (_, v) :: rest => max (depth v) (depthOfFields rest)

end

theorem depth_le_depthOfItems {v : Value} {vs : List Value} (h : v ∈ vs) :
    v.depth ≤ depthOfItems vs := by
  induction vs with
  | nil => cases h
  | cons w vs ih =>
      rw [depthOfItems]
      rcases List.mem_cons.mp h with rfl | h
      · exact Nat.le_max_left _ _
      · exact Nat.le_trans (ih h) (Nat.le_max_right _ _)

theorem depthOfFields_eq (fs : List (Text × Value)) :
    depthOfFields fs = depthOfItems (fs.map Prod.snd) := by
  induction fs with
  | nil => rfl
  | cons f fs ih => rw [depthOfFields, List.map_cons, depthOfItems, ih]

theorem depth_le_depthOfFields {f : Text × Value} {fs : List (Text × Value)} (h : f ∈ fs) :
    f.2.depth ≤ depthOfFields fs := by
  rw [depthOfFields_eq]
  exact depth_le_depthOfItems (List.mem_map_of_mem h)

/-- Lists in each other, the innermost of them empty. -/
def nestedList : Nat → Value
  | 0 => .list []
  | n + 1 => .list [nestedList n]

theorem depth_nestedList (n : Nat) : (nestedList n).depth = n + 1 := by
  induction n with
  | zero => rfl
  | succ n ih => rw [nestedList, depth, depthOfItems, depthOfItems, ih, Nat.max_zero]

end Value

namespace Json

/-! ## The room of a writer -/

/-- What a writer says that can give a text if it has room for a depth. -/
def allowing (room depth : Nat) (t : Text) : Except WriteError Text :=
  if depth ≤ room then .ok t else .error .tooDeep

theorem allowing_map (room depth : Nat) (t : Text) (f : Text → Text) :
    (allowing room depth t).map f = allowing room depth (f t) := by
  unfold allowing
  split <;> rfl

/-- Of two texts written one after the other, the deeper one decides. -/
theorem allowing_bind (room depth depth' : Nat) (t t' : Text) (f : Text → Text → Text) :
    (do
      let first ← allowing room depth t
      let others ← allowing room depth' t'
      return f first others) = allowing room (max depth depth') (f t t') := by
  unfold allowing
  by_cases h : depth ≤ room
  · by_cases h' : depth' ≤ room
    · rw [if_pos h, if_pos h', if_pos (Nat.max_le.mpr ⟨h, h'⟩)]
      rfl
    · rw [if_pos h, if_neg h', if_neg fun hmax => h' (Nat.max_le.mp hmax).2]
      rfl
  · rw [if_neg h, if_neg fun hmax => h (Nat.max_le.mp hmax).1]
    rfl

mutual

/-- A writer gives the text of a value exactly if it has room for its depth. -/
theorem writeWithin_eq (room : Nat) (v : Value) :
    writeWithin room v = allowing room v.depth (write v) := by
  cases v with
  | null | bool | int | float | string | moment =>
      simp [writeWithin, allowing, Value.depth]
  | list items =>
      obtain _ | room := room
      · simp [writeWithin, allowing, Value.depth]
      · have hitems := itemsWithin_eq room items
        simp only [writeWithin, hitems, allowing_map]
        simp [allowing, Value.depth, write]
  | object fields =>
      obtain _ | room := room
      · simp [writeWithin, allowing, Value.depth]
      · have hfields := fieldsWithin_eq room fields
        simp only [writeWithin, hfields, allowing_map]
        simp [allowing, Value.depth, write]

theorem itemsWithin_eq (room : Nat) (vs : List Value) :
    itemsWithin room vs = allowing room (Value.depthOfItems vs) (writeItems vs) := by
  match vs with
  | [] => simp [itemsWithin, allowing, Value.depthOfItems, writeItems]
  | [v] =>
      rw [itemsWithin, writeWithin_eq room v]
      simp [Value.depthOfItems, writeItems]
  | v :: w :: rest =>
      rw [itemsWithin, writeWithin_eq room v, itemsWithin_eq room (w :: rest)]
      · exact allowing_bind room _ _ _ _ fun first others => first ++ ", " ++ others
      · simp

theorem fieldsWithin_eq (room : Nat) (fs : List (Text × Value)) :
    fieldsWithin room fs = allowing room (Value.depthOfFields fs) (writeFields fs) := by
  match fs with
  | [] => simp [fieldsWithin, allowing, Value.depthOfFields, writeFields]
  | [(k, v)] =>
      rw [fieldsWithin, writeWithin_eq room v, allowing_map]
      simp [Value.depthOfFields, writeFields]
  | (k, v) :: f :: rest =>
      rw [fieldsWithin, writeWithin_eq room v, fieldsWithin_eq room (f :: rest)]
      · exact allowing_bind room _ _ _ _ fun first others =>
          writeString k ++ ": " ++ first ++ ", " ++ others
      · simp

end

/-! ## The room of a reader -/

/-- A value that is written exactly, at any depth: whole numbers of not too many digits, texts in
which no half of a pair stands alone, and lists and objects of such values, no key coming twice. -/
inductive IsExact : Value → Prop
  | null : IsExact .null
  | bool (b : Bool) : IsExact (.bool b)
  | int {n : Int} (hlimit : (Nat.toDigits 10 n.natAbs).length ≤ Digits.limit) : IsExact (.int n)
  | string {s : Text} (hwhole : s.isWhole = true) : IsExact (.string s)
  | list {vs : List Value} (hitems : ∀ v ∈ vs, IsExact v) : IsExact (.list vs)
  | object {fs : List (Text × Value)} (hkeys : (fs.map Prod.fst).Nodup)
      (hwhole : ∀ f ∈ fs, f.1.isWhole = true) (hfields : ∀ f ∈ fs, IsExact f.2) :
      IsExact (.object fs)

theorem isExact_nestedList (n : Nat) : IsExact (.nestedList n) := by
  induction n with
  | zero => exact .list (List.forall_mem_nil _)
  | succ n ih =>
      refine .list ?_
      rw [List.forall_mem_singleton]
      exact ih

/-- Room for the depth of a value is room enough. -/
theorem IsExact.portable {v : Value} (h : IsExact v) {room : Nat} (hroom : v.depth ≤ room) :
    Portable room v := by
  induction h generalizing room with
  | null => exact .null
  | bool b => exact .bool b
  | int hlimit => exact .int hlimit
  | string hwhole => exact .string hwhole
  | list _ ih =>
      obtain _ | room := room
      · simp [Value.depth] at hroom
      · rw [Value.depth] at hroom
        refine .list fun v hv => ih v hv ?_
        have hdepth := Value.depth_le_depthOfItems hv
        omega
  | object hkeys hwhole _ ih =>
      obtain _ | room := room
      · simp [Value.depth] at hroom
      · rw [Value.depth] at hroom
        refine .object hkeys hwhole fun f hf => ih f hf ?_
        have hdepth := Value.depth_le_depthOfFields hf
        omega

end Json

end CommandRelay
