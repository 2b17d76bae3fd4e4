import CommandRelay.Document.Toml.Scalar

/-! # TOML tables

A document is a tree of tables. A key of several names leads through tables, which come about on
the way, and through the last table of a list of tables. Marks say which tables may not be opened
again and which values may not be touched any more. -/

namespace CommandRelay.Toml

/-- A key: the names that lead to a value. -/
abbrev Key := List Text

/-- The fields of a table. -/
abbrev Fields := List (Text × Value)

/-- Changes the table that a key leads to, creating what is missing on the way; `lists` says
whether the way may lead through lists. Nothing if something else stands in the way. -/
def atTable (lists : Bool) (change : Fields → Option Fields) : Key → Fields → Option Fields
  | [], fields => change fields
  | name :: key, fields =>
    let set (v : Value) : Fields := Value.put fields name v
    match Value.lookup? fields name with
    | none => (atTable lists change key []).map fun inner => set (.object inner)
    | some (.object inner) =>
      (atTable lists change key inner).map fun inner => set (.object inner)
    | some (.list items) =>
      match lists, items.getLast? with
      | true, some (.object inner) =>
        (atTable lists change key inner).map fun inner =>
          set (.list (items.dropLast ++ [.object inner]))
      | _, _ => none
    | some _ => none

/-- Adds an empty table to the list of tables under a name. -/
def appendTable (name : Text) (fields : Fields) : Option Fields :=
  match Value.lookup? fields name with
  | none => some (Value.put fields name (.list [.object []]))
  | some (.list items) =>
    some (Value.put fields name (.list (items ++ [.object []])))
  | some _ => none

/-- Adds a value under a name that is not there yet. -/
def addValue (name : Text) (v : Value) (fields : Fields) : Option Fields :=
  match Value.lookup? fields name with
  | none => some (Value.put fields name v)
  | some _ => none

/-- What a mark forbids: opening a table again, or any change. -/
inductive MarkKind where
  | declared
  | frozen
  deriving DecidableEq, Repr

/-- A mark on a key; a deep one holds for all that the key leads to. -/
structure Mark where
  key : Key
  kind : MarkKind
  deep : Bool
  deriving DecidableEq, Repr

/-- The marks of a document, and those that hold from the next header on. -/
structure Marks where
  now : List Mark := []
  pending : List Key := []
  deriving DecidableEq, Repr

namespace Marks

/-- Marks a key. -/
def set (m : Marks) (mark : Mark) : Marks :=
  { m with now := mark :: m.now }

/-- Marks a key as declared from the next header on. -/
def setLater (m : Marks) (key : Key) : Marks :=
  { m with pending := key :: m.pending }

/-- Comes to the next header. -/
def settle (m : Marks) : Marks :=
  { now := m.pending.map (⟨·, .declared, false⟩) ++ m.now, pending := [] }

/-- Takes the marks away from all that a key leads to. -/
def clear (m : Marks) (key : Key) : Marks :=
  { m with now := m.now.filter fun mark => !key.isPrefixOf mark.key }

/-- Whether a key is marked, or something deep on the way to it is. -/
def has (m : Marks) (key : Key) (kind : MarkKind) : Bool :=
  m.now.any fun mark =>
    mark.kind = kind && mark.key ≠ [] &&
      (mark.key = key || (mark.deep && mark.key.isPrefixOf key))

end Marks

end CommandRelay.Toml
