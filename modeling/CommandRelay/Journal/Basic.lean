import CommandRelay.Text.Point

/-! # Levels and lines

What happens is noted in lines, each at one of four levels. -/

namespace CommandRelay

/-- The level of a line. -/
inductive Level where
  | debug
  | info
  | warning
  | error
  deriving DecidableEq, Repr

namespace Level

/-- The printed label of a level. -/
def label : Level → String
  | .debug => "DEBUG"
  | .info => "INFO"
  | .warning => "WARNING"
  | .error => "ERROR"

/-- The rank of a level; the higher one is the more urgent one. -/
def rank : Level → Nat
  | .debug => 10
  | .info => 20
  | .warning => 30
  | .error => 40

end Level

/-- A noted line. -/
structure Line where
  level : Level
  text : Text
  deriving DecidableEq, Repr

end CommandRelay
