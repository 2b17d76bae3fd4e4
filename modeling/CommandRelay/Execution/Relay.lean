import CommandRelay.Execution.Session
import CommandRelay.Failure.Basic

/-! # Relays

A relay carries the output of a child to the sinks of its two channels. Those who take part move
in turns: the child, a reader for each channel, the coordinator, time, and whoever asks for the
cancellation. Readers publish events in a bounded queue, and the coordinator takes them: it writes
a chunk and flushes, watches the cancellation between two events, waits for the exit of the
child and looks after the readers at the end.

`Relay.turn` is one turn, if the one whose turn it is can move; every list of turns is a schedule.
`Relay.settle` runs the schedule in which the child moves only when all others wait for it, and
time passes only when the child does.

## Implementation notes

A write, a flush and a look at the cancellation are turns of their own, so a cancellation can
come between any two of them. -/

namespace CommandRelay

/-- What is published in the queue. -/
inductive Event where
  | chunk (channel : Channel) (data : Bytes)
  | ended (channel : Channel)
  | cancelled
  deriving DecidableEq, Repr

/-- Our end of a channel: what waits in the pipe, how the child ended it, the reader, and the
events that the reader has yet to publish. -/
structure Feed where
  pipe : List Bytes := []
  ended : Option Stream.Ending := none
  reader : Stream.Reader := {}
  outbox : List Event := []
  finished : Bool := false
  error : Option SystemError := none
  deriving DecidableEq, Repr

namespace Feed

/-- How many bytes a pipe holds. -/
def pipeCapacity : Nat := 65536

/-- Whether a pipe has room for a piece. -/
def hasRoom (f : Feed) (piece : Bytes) : Bool :=
  f.pipe.flatten.length + piece.length ≤ pipeCapacity

/-- Whether a reader still has something to do. -/
def isActive (f : Feed) : Bool :=
  !f.finished || !f.outbox.isEmpty

/-- One read: what waits first, or the end of the channel. Nothing if neither is there. -/
def read (ch : Channel) (closing : Option SystemError) (f : Feed) : Option Feed :=
  match f.pipe, f.ended with
  | piece :: pipe, _ =>
    let (cs, reader) := f.reader.feed piece
    some { f with pipe, reader, outbox := cs.map (.chunk ch) }
  | [], some ending =>
    let (cs, error) := f.reader.conclude closing ending
    some { f with outbox := cs.map (.chunk ch) ++ [.ended ch], finished := true, error }
  | [], none => none

end Feed

/-- What the coordinator is about to do. -/
inductive Phase where
  | checking
  | taking
  | writing (channel : Channel) (data : Bytes)
  | flushing (channel : Channel)
  | waiting (left : Nat)
  | abandoning
  | stopping
  | reaping
  | discarding (left : Nat)
  | joining (channel : Channel) (left : Nat)
  | finished
  deriving DecidableEq, Repr

/-- How a relay is set up: the events that the queue holds, the time between two looks at the
cancellation, how long readers are waited for, with its text in seconds, whether the child leads
a group of its own, and the name of the command for messages. -/
structure RelayPlan where
  capacity : Nat := 256
  poll : Nat := 50000
  patience : Nat := 2000000
  patienceText : String := "2.0"
  grouped : Bool := true
  name : Text := []
  deriving DecidableEq, Repr

/-- A relay at work. `draining` is set once output was lost, `lost` and `broken` say why, and
`stopped` says that the coordinator ended the child for a cancellation. `waitAlarms` are requests
to cancel at the beginning of a wait of a given number. -/
structure Relay where
  plan : RelayPlan
  child : Child
  feeds : PerChannel Feed := ⟨{}, {}⟩
  queue : List Event := []
  openChannels : List Channel := Channel.all
  phase : Phase := .checking
  trees : PerChannel SinkTree
  session : Session
  waits : Nat := 0
  waitAlarms : List (Nat × Text) := []
  draining : Bool := false
  lost : Option SystemError := none
  broken : Option AccessFault := none
  stopped : Bool := false

namespace Relay

/-- Whose turn it is. -/
inductive Turn where
  | coordinator
  | reader (channel : Channel)
  | child
  | time
  | cancel (reason : Text)
  deriving DecidableEq, Repr

/-! ## Cancellation and time -/

/-- Calls the callback of the relay: it puts an event in the queue unless that is full. -/
def wake (r : Relay) : Relay :=
  if r.queue.length < r.plan.capacity then { r with queue := r.queue ++ [.cancelled] } else r

/-- Asks for the cancellation. -/
def cancel (r : Relay) (reason : Text) : Relay :=
  let (session, calls) := r.session.cancel reason
  calls.foldl (fun r _ => r.wake) { r with session }

/-- Has the cancellation call the relay. -/
def listen (r : Relay) : Relay :=
  let (cancellation, calls) := r.session.cancellation.add ()
  calls.foldl (fun r _ => r.wake) { r with session := { r.session with cancellation } }

/-- Has the cancellation no longer call the relay. -/
def ignore (r : Relay) : Relay :=
  let cancellation := r.session.cancellation.remove ()
  { r with session := { r.session with cancellation } }

/-- Sets an alarm off: it asks for the cancellation now or after its delay. -/
def sound (r : Relay) (a : Alarm) : Relay :=
  if a.delay = 0 then r.cancel a.reason
  else
    let timers := r.session.timers ++ [⟨a.delay, a.reason⟩]
    { r with session := { r.session with timers } }

/-- The sinks after a write or flush, with the alarms that it set off. -/
def withOutlets (r : Relay) (o : Outlets) : Relay :=
  let session := { r.session with outlets := { o with alarms := [] } }
  o.alarms.foldl sound { r with session }

/-- Begins the next timed wait for the child. -/
def beginWait (r : Relay) : Relay :=
  let n := r.waits + 1
  let r := { r with waits := n, phase := .waiting (max 1 r.plan.poll) }
  (r.waitAlarms.filter (·.1 = n)).foldl (fun r a => r.cancel a.2) r

/-- The time that the coordinator waits for at most. -/
def Phase.left? : Phase → Option Nat
  | .waiting t | .discarding t | .joining _ t => some t
  | _ => none

/-- The phase after time has passed. -/
def Phase.elapse (time : Nat) : Phase → Phase
  | .waiting t => .waiting (t - time)
  | .discarding t => .discarding (t - time)
  | .joining ch t => .joining ch (t - time)
  | p => p

/-- The times after which something happens by itself. -/
def delays (r : Relay) : List Nat :=
  (r.session.timers.map (·.left) ++ (Phase.left? r.phase).toList ++
    r.child.pauseLeft?.toList).filter (0 < ·)

/-- Lets time pass. -/
def elapse (r : Relay) (time : Nat) : Relay :=
  let timers := r.session.timers.map fun t => { t with left := t.left - time }
  { r with
    session := { r.session with timers }
    phase := Phase.elapse time r.phase
    child := r.child.elapse time }

/-- A timer that is due asks for the cancellation; if none is, time passes up to what comes
next. -/
def passTime (r : Relay) : Option Relay :=
  match r.session.timers.find? (·.left = 0) with
  | some t =>
    let timers := r.session.timers.erase t
    some (cancel { r with session := { r.session with timers } } t.reason)
  | none =>
    match r.delays with
    | [] => none
    | d :: ds => some (r.elapse (ds.foldl min d))

/-! ## The child and the readers -/

/-- The next move of the child; a full pipe holds it up. -/
def moveChild (r : Relay) : Option Relay :=
  match r.child.life, r.child.moves with
  | .running, [] => some { r with child := { r.child with life := .exited r.child.exitCode } }
  | _, [] => none
  | .running, .exit :: moves =>
    some { r with child := { r.child with moves, life := .exited r.child.exitCode } }
  | _, .exit :: moves => some { r with child := { r.child with moves } }
  | _, .edit change :: moves =>
    let outlets := { r.session.outlets with disk := r.session.outlets.disk.apply change }
    some { r with child := { r.child with moves }, session := { r.session with outlets } }
  | _, .output ch data :: rest =>
    let f := r.feeds.get ch
    let piece := data.take Stream.readSize
    let data := data.drop Stream.readSize
    let moves := if data = [] then rest else .output ch data :: rest
    let child := { r.child with moves }
    if piece = [] then some { r with child }
    else if f.hasRoom piece then
      some { r with child, feeds := r.feeds.set ch { f with pipe := f.pipe ++ [piece] } }
    else none
  | _, .close ch ending :: moves =>
    let f := r.feeds.get ch
    let f := if f.ended.isNone then { f with ended := some ending } else f
    some { r with child := { r.child with moves }, feeds := r.feeds.set ch f }
  | _, .pause (some 0) :: moves => some { r with child := { r.child with moves } }
  | _, .pause _ :: _ => none

/-- The next move of a reader: it publishes what it has, or reads. A full queue holds it up. -/
def moveReader (r : Relay) (ch : Channel) : Option Relay :=
  let f := r.feeds.get ch
  match f.outbox with
  | e :: outbox =>
    if r.queue.length < r.plan.capacity then
      some { r with queue := r.queue ++ [e], feeds := r.feeds.set ch { f with outbox } }
    else none
  | [] =>
    if f.finished then none
    else (f.read ch (r.child.closing.get ch)).map fun f => { r with feeds := r.feeds.set ch f }

/-! ## The coordinator -/

/-- Gives up copying after a failed write: a refusal of the system lets the rest be drained, any
other fault ends the relay. -/
def lose (r : Relay) : AccessFault → Relay
  | .system e =>
    let session := r.session.note .error (ExecutionCause.outputLost r.plan.name e).message
    { r with session, lost := some e, draining := true, phase := .checking }
  | fault => { r with broken := some fault, phase := .abandoning }

/-- Begins to stop the child for the cancellation. -/
def stop (r : Relay) : Relay :=
  { r with stopped := true, phase := .stopping }

/-- Takes an event from the queue. An event that the full queue kept out is made up for by a new
look at the cancellation. -/
def take (r : Relay) : Option Relay :=
  match r.queue with
  | [] => if r.session.isCancelled then some { r with phase := .checking } else none
  | .cancelled :: queue => some { r with queue }.stop
  | .ended ch :: queue =>
    some { r with queue, openChannels := r.openChannels.erase ch, phase := .checking }
  | .chunk ch data :: queue =>
    some { r with queue, phase := if r.draining then .checking else .writing ch data }

/-- Writes a chunk to the sinks of its channel. -/
def write (r : Relay) (ch : Channel) (data : Bytes) : Relay :=
  let (o, answer) := (r.trees.get ch).write data r.session.outlets
  let r := { r with session := r.session.emit (.wrote ch data) }.withOutlets o
  match answer with
  | .ok _ => { r with phase := .flushing ch }
  | .error fault => r.lose fault

/-- Flushes the sinks of a channel. -/
def flush (r : Relay) (ch : Channel) : Relay :=
  let (o, answer) := (r.trees.get ch).flush r.session.outlets
  let r := { r with session := r.session.emit (.flushed ch) }.withOutlets o
  match answer with
  | .ok _ => { r with phase := .checking }
  | .error fault => r.lose fault

/-- Kills the child, or its whole group. -/
def kill (r : Relay) : Relay :=
  let (child, raised) := r.child.kill
  let session := r.session.emit (.killed r.plan.grouped)
  let session := match raised with
    | none => session
    | some e =>
      if e.isNoSuchProcess then session.note .debug s!"Processus {child.pid} déjà terminé"
      else session.note .warning
        (s!"Erreur lors de l'arrêt du processus {child.pid} : " ++ e.message)
  { r with child, session, phase := .reaping }

/-- Sees the exit of the child and goes on to the end. -/
def reap (r : Relay) : Relay :=
  let r := ignore { r with child := r.child.reap, session := r.session.emit .reaped }
  { r with phase := if r.broken.isSome then .finished else .discarding r.plan.patience }

/-- What comes after the reader of a channel has been waited for. -/
def afterJoin (r : Relay) : Channel → Phase
  | .stdout => .joining .stderr r.plan.patience
  | .stderr => .finished

/-- Waits for the reader of a channel; one that is not done in time is left alone. -/
def join (r : Relay) (ch : Channel) (left : Nat) : Option Relay :=
  let f := r.feeds.get ch
  let next (session : Session) : Relay := { r with session, phase := r.afterJoin ch }
  if !f.isActive then
    match f.error with
    | none => some (next r.session)
    | some e =>
      some (next (r.session.note .debug (s!"Lecteur {ch.name} interrompu : " ++ e.message)))
  else if left = 0 then
    some (next (r.session.note .warning
      s!"Lecteur {ch.name} toujours actif après {r.plan.patienceText}s"))
  else none

/-- The next move of the coordinator. -/
def moveCoordinator (r : Relay) : Option Relay :=
  match r.phase with
  | .checking =>
    if r.openChannels = [] then some r.beginWait
    else if r.session.isCancelled then some r.stop
    else some { r with phase := .taking }
  | .taking => r.take
  | .writing ch data => some (r.write ch data)
  | .flushing ch => some (r.flush ch)
  | .waiting left =>
    if r.child.code?.isSome then some r.reap
    else if left = 0 then
      if r.session.isCancelled then some r.stop else some r.beginWait
    else none
  | .abandoning =>
    if r.child.code?.isSome then some r.reap else some { r with phase := .stopping }
  | .stopping => some r.kill
  | .reaping => if r.child.code?.isSome then some r.reap else none
  | .discarding left =>
    if r.openChannels = [] ∨ left = 0 then
      some { r with phase := .joining .stdout r.plan.patience }
    else
      match r.queue with
      | [] => none
      | .ended ch :: queue => some { r with queue, openChannels := r.openChannels.erase ch }
      | _ :: queue => some { r with queue }
  | .joining ch left => r.join ch left
  | .finished => none

/-! ## Schedules -/

/-- One turn, if the one whose turn it is can move. -/
def turn (r : Relay) : Turn → Option Relay
  | .coordinator => r.moveCoordinator
  | .reader ch => r.moveReader ch
  | .child => r.moveChild
  | .time => r.passTime
  | .cancel reason => some (r.cancel reason)

/-- The turns of a schedule one after the other. -/
def follow (r : Relay) : List Turn → Option Relay
  | [] => some r
  | t :: ts => (r.turn t).bind fun r => r.follow ts

/-- Whether the coordinator is done. -/
def isFinished (r : Relay) : Bool :=
  r.phase = .finished

/-- Whose turn it is when all are served in order. -/
def order : List Turn :=
  [.coordinator, .reader .stdout, .reader .stderr, .child, .time]

/-- The first turn in order that somebody can make. -/
def advance (r : Relay) : Option Relay :=
  order.findSome? r.turn

/-- Lets everybody move in order until the coordinator is done; nothing if it never is, or not
within so many turns. -/
def settleWithin (r : Relay) : Nat → Option Relay
  | 0 => none
  | n + 1 => if r.isFinished then some r else r.advance.bind fun r => r.settleWithin n

/-- How many turns a move of the child can bring about at most. -/
def turnsOfMove (poll : Nat) : Move → Nat
  | .output _ data => 8 * data.length + 8
  | .close .. | .edit _ | .exit => 8
  | .pause none => 8
  | .pause (some t) => 8 * (t / max 1 poll) + 8

/-- How many turns a relay can take in order. -/
def turnBound (r : Relay) : Nat :=
  let moves := r.child.moves.foldl (fun n m => n + turnsOfMove r.plan.poll m) 100
  r.session.timers.foldl (fun n t => n + 8 * (t.left / max 1 r.plan.poll) + 8) moves

/-- Lets everybody move in order until the coordinator is done. -/
def settle (r : Relay) : Option Relay :=
  r.settleWithin r.turnBound

end Relay

end CommandRelay
