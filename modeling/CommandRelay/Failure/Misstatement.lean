import CommandRelay.Failure.Kind

/-! # Misstatements

Whoever states a failure from outside gives its kind, some details in order and perhaps a detail
under a name. Details that do not fit the kind are a misstatement. It is a failure of its own, with
a kind and a wording. -/

namespace CommandRelay

/-- How a number of details is bounded. -/
inductive CountBound where
  | exactly
  | atLeast
  | atMost
  deriving DecidableEq, Repr

/-- The wording of a bound. -/
def CountBound.label : CountBound → String
  | .exactly => "exactly"
  | .atLeast => "at least"
  | .atMost => "at most"

/-- Why details state no failure of a kind. -/
inductive Misstatement where
  | noNames (label : String)
  | strangeName (name label : String)
  | unexpectedName (label name : String)
  | repeatedName (label name : String)
  | missing (label : String) (names : List String)
  | surplus (label : String) (least most given : Nat)
  | miscounted (reader : String) (bound : CountBound) (wanted given : Nat)
  | notText (reader : String) (place : Nat) (given : String)
  | notWhole (given : String)
  | notBytes (given : String)
  | notIterable (given : String)
  | halfEnd
  | notSequence
  | emptyGroup
  | strangeMember
  | tooWide
  | tooLarge
  | outsideText
  deriving DecidableEq, Repr

namespace Misstatement

/-- Names in quotes, with a word before the last one. -/
def namesText : List String → String
  | [] => ""
  | [name] => s!"'{name}'"
  | [first, last] => s!"'{first}' and '{last}'"
  | first :: rest => s!"'{first}', " ++ namesText rest

/-- The wording of a misstatement. What is stated counts among the details that were given. -/
def message : Misstatement → String
  | .noNames label => s!"{label}() takes no keyword arguments"
  | .strangeName name label => s!"'{name}' is an invalid keyword argument for {label}()"
  | .unexpectedName label name =>
    s!"{label}.__init__() got an unexpected keyword argument '{name}'"
  | .repeatedName label name => s!"{label}.__init__() got multiple values for argument '{name}'"
  | .missing label names =>
    let noun := if names.length = 1 then "argument" else "arguments"
    s!"{label}.__init__() missing {names.length} required positional {noun}: " ++ namesText names
  | .surplus label least most given =>
    let range := if least = most then s!"{most + 1}" else s!"from {least + 1} to {most + 1}"
    s!"{label}.__init__() takes {range} positional arguments but {given + 1} were given"
  | .miscounted reader bound wanted given =>
    s!"{reader} takes {bound.label} {wanted} arguments ({given} given)"
  | .notText reader place given =>
    (if reader = "" then "" else reader ++ " ") ++ s!"argument {place} must be str, not {given}"
  | .notWhole given => s!"'{given}' object cannot be interpreted as an integer"
  | .notBytes given => s!"a bytes-like object is required, not '{given}'"
  | .notIterable given => s!"'{given}' object is not iterable"
  | .halfEnd => "end_offset must be provided when end_lineno is provided"
  | .notSequence => "second argument (exceptions) must be a sequence"
  | .emptyGroup => "second argument (exceptions) must be a non-empty sequence"
  | .strangeMember => "Item 0 of second argument (exceptions) is not an exception"
  | .tooWide => "cannot fit 'int' into an index-sized integer"
  | .tooLarge => "Python int too large to convert to C ssize_t"
  | .outsideText => "string index out of range"

/-- The kind of a misstatement. -/
def kind : Misstatement → ErrorKind
  | .emptyGroup | .strangeMember | .tooWide => .value
  | .tooLarge => .overflow
  | .outsideText => .index
  | _ => .type

end Misstatement

end CommandRelay
