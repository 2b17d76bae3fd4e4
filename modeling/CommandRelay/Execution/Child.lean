import CommandRelay.Disk.Edit
import CommandRelay.Stream.Reader

/-! # Children

A child is a process that was started for a command. It makes its moves one after the other:
output on one of its two channels, the end of a channel, a change of the disk, a pause. A channel
that it never ends stays open, as when a process of its own holds it. Its exit comes after its last
move, or before the moves of processes that it leaves behind, and it is reaped when its exit has
been seen. A kill ends it and what it left behind at once, with the channels that would have been
ended. -/

namespace CommandRelay

/-- One of the two output channels of a child. -/
inductive Channel where
  | stdout
  | stderr
  deriving DecidableEq, Repr

namespace Channel

/-- The name of a channel. -/
def name : Channel → String
  | .stdout => "stdout"
  | .stderr => "stderr"

/-- Both channels, in the order in which they are looked after. -/
def all : List Channel :=
  [.stdout, .stderr]

end Channel

/-- Something for each of the two channels. -/
structure PerChannel (α : Type) where
  stdout : α
  stderr : α
  deriving DecidableEq, Repr

namespace PerChannel

variable {α : Type}

/-- What belongs to a channel. -/
def get (p : PerChannel α) : Channel → α
  | .stdout => p.stdout
  | .stderr => p.stderr

/-- Gives a channel something else. -/
def set (p : PerChannel α) (ch : Channel) (a : α) : PerChannel α :=
  match ch with
  | .stdout => { p with stdout := a }
  | .stderr => { p with stderr := a }

@[simp]
theorem get_set_self (p : PerChannel α) (ch : Channel) (a : α) : (p.set ch a).get ch = a := by
  cases ch <;> rfl

theorem get_set_of_ne (p : PerChannel α) {ch ch' : Channel} (h : ch' ≠ ch) (a : α) :
    (p.set ch a).get ch' = p.get ch' := by
  cases ch <;> cases ch' <;> simp_all [set, get]

end PerChannel

/-- What a child does next; a pause without a time lasts until the child is killed. -/
inductive Move where
  | output (channel : Channel) (data : Bytes)
  | close (channel : Channel) (ending : Stream.Ending)
  | edit (change : DiskEdit)
  | exit
  | pause (time : Option Nat)
  deriving DecidableEq, Repr

/-- Where a child is in its life. -/
inductive Life where
  | running
  | exited (code : Int)
  | reaped (code : Int)
  deriving DecidableEq, Repr

/-- A child: the moves that it has left, the code of its own exit, and what closing our end of
its channels raises. `killFault` is what a kill raises; a child that `yields` ends all the same,
on its own. -/
structure Child where
  pid : Nat := 0
  moves : List Move := []
  exitCode : Int := 0
  closing : PerChannel (Option SystemError) := ⟨none, none⟩
  killFault : Option SystemError := none
  yields : Bool := false
  life : Life := .running
  deriving DecidableEq, Repr

namespace Child

/-- The ends of channels among moves, which also come about when nothing else does. -/
def endings (moves : List Move) : List Move :=
  moves.filter fun
    | .close .. => true
    | _ => false

/-- The code of a child that has exited, reaped or not. -/
def code? (c : Child) : Option Int :=
  match c.life with
  | .running => none
  | .exited code | .reaped code => some code

/-- The child once its exit has been seen. -/
def reap (c : Child) : Child :=
  match c.life with
  | .exited code => { c with life := .reaped code }
  | _ => c

/-- The child after it ends early, with a code. -/
def endEarly (c : Child) (code : Int) : Child :=
  match c.life with
  | .running => { c with moves := endings c.moves, life := .exited code }
  | _ => { c with moves := endings c.moves }

/-- Kills a child: what became of it, and what the attempt raises. -/
def kill (c : Child) : Child × Option SystemError :=
  match c.killFault with
  | none => (c.endEarly (-9), none)
  | some e => (if c.yields then c.endEarly c.exitCode else c, some e)

/-- How much of a pause is left, if the child is in one that ends by itself. -/
def pauseLeft? (c : Child) : Option Nat :=
  match c.moves with
  | .pause (some t) :: _ => some t
  | _ => none

/-- The child after time has passed. -/
def elapse (c : Child) (time : Nat) : Child :=
  match c.moves with
  | .pause (some t) :: rest => { c with moves := .pause (some (t - time)) :: rest }
  | _ => c

end Child

end CommandRelay
