import CommandRelay.Decimal.Binary64
import CommandRelay.Failure.System

/-! # Cancellation

A cancellation is asked for once and keeps the first reason that it is given. Callbacks that were
added before are called when it happens, one that is added later is called at once. Each
operation here is what happens while the lock is held: it gives the next state and the callbacks
to call after the lock is released. A deadline asks for the cancellation by itself. -/

namespace CommandRelay

/-- Whether a cancellation has been asked for, with the reason, and the registered callbacks. -/
structure Cancellation (κ : Type) where
  reason : Option Text := none
  fired : Bool := false
  callbacks : List κ := []
  deriving DecidableEq, Repr

namespace Cancellation

variable {κ : Type}

/-- The reason of a cancellation that is asked for without one. -/
def defaultReason : Text := "cancelled"

/-- The reason of a cancellation that a deadline asks for. -/
def deadlineReason : Text := "timeout"

/-- Asks for the cancellation; only the first request counts. -/
def cancel (c : Cancellation κ) (reason : Text) : Cancellation κ × List κ :=
  if c.fired then (c, []) else ({ c with reason := some reason, fired := true }, c.callbacks)

/-- Adds a callback, or calls it if the cancellation has happened. -/
def add (c : Cancellation κ) (k : κ) : Cancellation κ × List κ :=
  if c.fired then (c, [k]) else ({ c with callbacks := c.callbacks ++ [k] }, [])

/-- Takes away the first registration of a callback. -/
def remove [DecidableEq κ] (c : Cancellation κ) (k : κ) : Cancellation κ :=
  { c with callbacks := c.callbacks.erase k }

end Cancellation

/-- The time in microseconds after which a deadline is due; none if it never is. -/
abbrev Deadline := Option Nat

namespace Deadline

/-- The longest time in seconds that can be waited for. -/
def longest : Nat := 9223372036

/-- Whole microseconds in a time in seconds. -/
def microseconds? : Binary64 → Option Nat
  | .finite _ m e =>
    let (n, d) := Binary64.scale (m * 1000000) 1 (-e)
    let t := n / d
    if t ≤ longest * 1000000 then some t else none
  | _ => none

/-- The deadline after a time in seconds, which must not be below zero. -/
def after (seconds : Binary64) : Except AccessFault Deadline :=
  if seconds.lt (.zero false) then .error (.invalid "Le timeout doit être positif.")
  else .ok (microseconds? seconds)

/-- Whether a deadline is due within a time. -/
def isDueWithin (d : Deadline) (time : Nat) : Bool :=
  match d with
  | some t => t ≤ time
  | none => false

/-- What is left of a deadline after a time. -/
def elapse (d : Deadline) (time : Nat) : Deadline :=
  d.map (· - time)

end Deadline

/-- How long to wait: up to a time, or a time that no clock can measure. -/
inductive Patience where
  | upTo (microseconds : Nat)
  | tooLong (whole : Bool)
  deriving DecidableEq, Repr

namespace Patience

/-- No end to waiting. -/
def endless : Patience :=
  .upTo (Deadline.longest * 1000000)

/-- A whole number of seconds; one below zero is no time at all. -/
def ofInt (seconds : Int) : Patience :=
  if seconds ≤ Deadline.longest then .upTo (seconds.toNat * 1000000) else .tooLong true

/-- A number of seconds; one that is not above zero is no time at all. -/
def ofFloat (seconds : Binary64) : Patience :=
  if (Binary64.zero false).lt seconds then
    match Deadline.microseconds? seconds with
    | some time => .upTo time
    | none => .tooLong false
  else .upTo 0

/-- The wording of a time that no clock can measure. -/
def tooLongMessage (whole : Bool) : Text :=
  if whole then "timestamp too large to convert to C _PyTime_t"
  else "timestamp out of range for platform time_t"

end Patience

end CommandRelay
