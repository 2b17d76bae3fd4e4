import CommandRelay.Cancellation.Basic
import CommandRelay.Execution.Child
import CommandRelay.Journal.Basic
import CommandRelay.Sink.Tree

/-! # Sessions

A session is what a run works on: the sinks and the disk below them, the cancellation with the
timers that will ask for it, the lines noted so far and the effects in order.

To note a line always succeeds: runs assume a logger that raises nothing. The journal of a worker
may refuse a line all the same; a worker hands it the lines of a run when the run is over. -/

namespace CommandRelay

/-- What a run does to the world. -/
inductive Effect where
  | consulted (name : Text)
  | opened (path : Text)
  | spawning (argv : List Text) (ownSession : Bool)
  | wrote (channel : Channel) (data : Bytes)
  | flushed (channel : Channel)
  | cancelled (reason : Text)
  | killed (group : Bool)
  | reaped
  | closed (path : Text)
  deriving DecidableEq, Repr

/-- A request to cancel that comes after a time. -/
structure Timer where
  left : Nat
  reason : Text
  deriving DecidableEq, Repr

/-- What a run works on. -/
structure Session where
  outlets : Outlets := {}
  cancellation : Cancellation Unit := {}
  timers : List Timer := []
  lines : List Line := []
  effects : List Effect := []

namespace Session

/-- Notes a line. -/
def note (s : Session) (level : Level) (text : Text) : Session :=
  { s with lines := s.lines ++ [⟨level, text⟩] }

/-- Has an effect. -/
def emit (s : Session) (e : Effect) : Session :=
  { s with effects := s.effects ++ [e] }

/-- Whether a cancellation has been asked for. -/
def isCancelled (s : Session) : Bool :=
  s.cancellation.fired

/-- Asks for the cancellation: the session afterwards and the callbacks to call. -/
def cancel (s : Session) (reason : Text) : Session × List Unit :=
  let (cancellation, calls) := s.cancellation.cancel reason
  let s := if s.isCancelled then s else s.emit (.cancelled reason)
  ({ s with cancellation }, calls)

/-- Asks for the cancellation if there is a reason, when nobody listens yet. -/
def cancelIf (s : Session) : Option Text → Session
  | some reason => (s.cancel reason).1
  | none => s

/-- Shows text on a console. -/
def display (s : Session) (i : Nat) (text : Text) : Session × Except AccessFault Unit :=
  let (outlets, answer) := s.outlets.display i text
  ({ s with outlets }, answer)

end Session

end CommandRelay
