/-! # Code points

A text that comes from outside may hold one half of a surrogate pair standing alone, which no
`Char` can be. `Point` adds those halves to the scalar values, and `Text` is a sequence of
points. Characters and strings are used as points and texts. `Text.toString?` goes back: a text is a
string exactly when no half stands alone in it. -/

namespace CommandRelay

/-- A code point: a scalar value, or one half of a surrogate pair that stands alone. -/
inductive Point where
  | char (c : Char)
  | half (offset : Fin 0x800)
  deriving DecidableEq, Repr

namespace Point

instance : Inhabited Point := ⟨.char ' '⟩

instance : Coe Char Point := ⟨.char⟩

/-- The number of a code point. -/
def code : Point → Nat
  | .char c => c.toNat
  | .half offset => 0xD800 + offset.val

/-- The code point of a number, if it has one. -/
def ofCode? (n : Nat) : Option Point :=
  if h : n.isValidChar then some (.char (Char.ofNatAux n h))
  else if h : 0xD800 ≤ n ∧ n < 0xE000 then some (.half ⟨n - 0xD800, by omega⟩)
  else none

/-- A half that stands alone. -/
def isHalf : Point → Bool
  | .char _ => false
  | .half _ => true

/-- A high half, which a low half may follow. -/
def isHigh (p : Point) : Bool :=
  0xD800 ≤ p.code && p.code < 0xDC00

/-- A low half, which may follow a high half. -/
def isLow (p : Point) : Bool :=
  0xDC00 ≤ p.code && p.code < 0xE000

/-- The scalar value that a high half and a low half write together. -/
def join (high low : Point) : Point :=
  (ofCode? (0x10000 + (high.code - 0xD800) * 0x400 + (low.code - 0xDC00))).getD high

/-- The character of a point that is a scalar value. -/
def char? : Point → Option Char
  | .char c => some c
  | .half _ => none

end Point

/-- A sequence of code points. -/
abbrev Text := List Point

namespace Text

/-- The text of a string. -/
def ofString (s : String) : Text :=
  s.toList.map .char

instance : Coe String Text := ⟨ofString⟩

/-- The text of a whole number. -/
def ofInt (n : Int) : Text :=
  ofString (toString n)

/-- The text of a natural number. -/
def ofNat (n : Nat) : Text :=
  ofString (toString n)

/-- Several texts with another one between them. -/
def join (between : Text) : List Text → Text
  | [] => []
  | [t] => t
  | t :: rest => t ++ between ++ join between rest

/-- The parts of a text between marks. -/
def splitOn (mark : Point) : Text → List Text
  | [] => [[]]
  | p :: t =>
    match splitOn mark t with
    | part :: parts => if p = mark then [] :: part :: parts else (p :: part) :: parts
    | [] => [[p]]

/-- Whether a text stands somewhere within another one. -/
def isWithin (part : Text) : Text → Bool
  | [] => part = []
  | p :: t => part.isPrefixOf (p :: t) || isWithin part t

/-- Whether a text comes before another one in the order of code points. -/
def precedes : Text → Text → Bool
  | _, [] => false
  | [], _ :: _ => true
  | p :: t, q :: u => p.code < q.code || (p = q && precedes t u)

/-- Whether no half of a pair stands alone in a text. -/
def isWhole (t : Text) : Bool :=
  t.all fun p => !p.isHalf

/-- The string of a text in which no half of a pair stands alone. -/
def toString? (t : Text) : Option String :=
  (t.mapM Point.char?).map String.ofList

/-- The string of a text, each lone half replaced by U+FFFD. -/
def toStringLossy (t : Text) : String :=
  String.ofList (t.map fun p => p.char?.getD '\uFFFD')

theorem mapM_char? (cs : List Char) : (cs.map Point.char).mapM Point.char? = some cs := by
  induction cs with
  | nil => rfl
  | cons c rest ih => simp [ih, Point.char?]

@[simp] theorem toString?_ofString (s : String) : (ofString s).toString? = some s := by
  rw [toString?, ofString, mapM_char?]
  simp

/-- A text that is a string is the text of that string. -/
theorem eq_ofString_of_toString? {t : Text} {s : String} (h : t.toString? = some s) :
    t = ofString s := by
  have key : ∀ (t : Text) (cs : List Char), t.mapM Point.char? = some cs → t = cs.map .char := by
    intro t
    induction t with
    | nil => intro cs h; simp at h; simp [← h]
    | cons p rest ih =>
      intro cs h
      cases p with
      | half _ => simp [Point.char?] at h
      | char c =>
        simp only [List.mapM_cons, Point.char?, Option.pure_def, Option.bind_eq_bind,
          Option.bind_some, Option.bind_eq_some_iff, Option.some.injEq] at h
        obtain ⟨r, hr, rfl⟩ := h
        simp [ih r hr]
  obtain ⟨cs, hcs, rfl⟩ := Option.map_eq_some_iff.1 h
  simp [ofString, key t cs hcs]

end Text

end CommandRelay
