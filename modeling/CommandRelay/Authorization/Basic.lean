import CommandRelay.Failure.Basic

/-! # Authorization

An authorizer lets an executable run if it is privileged or if the whitelist holds the name of
the executable. `Authorizer.allowed` is the whitelist in code point order, each name once. -/

namespace CommandRelay

/-- Who may run: everything, or what the whitelist names. -/
structure Authorizer where
  whitelist : List Text
  privileged : Bool := false
  deriving DecidableEq, Repr

/-- What is decided about an executable. -/
inductive Decision where
  | allowed
  | denied
  | privileged
  deriving DecidableEq, Repr

namespace Authorizer

/-- Puts a name into a sorted list, unless it is there. -/
def insertName (name : Text) : List Text → List Text
  | [] => [name]
  | n :: rest =>
    if name.precedes n then name :: n :: rest
    else if name = n then n :: rest
    else n :: insertName name rest

/-- The names of the whitelist, sorted and without repetition. -/
def allowed (a : Authorizer) : List Text :=
  a.whitelist.foldr insertName []

/-- The decision about an executable. -/
def decision (a : Authorizer) (name : Text) : Decision :=
  if a.privileged then .privileged
  else if a.whitelist.contains name then .allowed
  else .denied

/-- The failure of an executable that is denied. -/
def refusal (a : Authorizer) (name : Text) : Failure :=
  .refused name a.allowed

/-- Passes an executable that is not denied. -/
def check (a : Authorizer) (name : Text) : Except Failure Unit :=
  match a.decision name with
  | .denied => .error (a.refusal name)
  | .allowed | .privileged => .ok ()

end Authorizer

end CommandRelay
