import CommandRelay.Execution.Child

/-! # The world of a script

The processes of a script share a world: the disk, what they have opened, and what happened to
the channels so far. Everything that happens has its time, so that processes that run beside each
other can be followed one after the other and put into order afterwards; `World.moves` does that. A
pipe is opened to be filled and then to be read, with the times at which its pieces came. -/

namespace CommandRelay.Program

/-- What can be read: pieces with the times at which they are there, what comes again and again
after them, and the time from which on there is no more. -/
structure Supply where
  pieces : List (Nat × Bytes) := []
  refrain : Bytes := []
  endTime : Nat := 0
  deriving DecidableEq, Repr

namespace Supply

/-- The bytes that are there before the refrain. -/
def data (s : Supply) : Bytes :=
  s.pieces.flatMap (·.2)

/-- Whether a supply has no end. -/
def isEndless (s : Supply) : Bool :=
  s.refrain ≠ []

/-- The first bytes, as far as there are so many, with the time at which the last of them is
there. -/
def takePieces (total : Nat) : List (Nat × Bytes) → Nat → List Bytes → Nat × List Bytes
  | [], time, taken => (time, taken.reverse)
  | (t, piece) :: rest, time, taken =>
    if total = 0 then (time, taken.reverse)
    else
      takePieces (total - piece.length) rest (max time t) (piece.take total :: taken)

/-- A supply with at least so many bytes in its pieces, if it has no end. -/
def unroll (s : Supply) (total : Nat) : Supply :=
  let missing := total - s.data.length
  if s.refrain = [] || missing = 0 then s
  else
    let count := (missing + s.refrain.length - 1) / s.refrain.length
    { s with pieces := s.pieces ++ [(s.endTime, (List.replicate count s.refrain).flatten)] }

/-- The first bytes of a supply, and the time at which the last of them is there. -/
def take (s : Supply) (total : Nat) : Bytes × Nat :=
  let s := s.unroll total
  let (time, taken) := takePieces total s.pieces 0 []
  let data := taken.flatten
  (data, if data.length < total then max time s.endTime else time)

/-- What is left of pieces after their first bytes. -/
def dropPieces : Nat → List (Nat × Bytes) → List (Nat × Bytes)
  | _, [] => []
  | total, (t, piece) :: rest =>
    if piece.length ≤ total then dropPieces (total - piece.length) rest
    else (t, piece.drop total) :: rest

/-- What is left of a supply after its first bytes. -/
def drop (s : Supply) (total : Nat) : Supply :=
  let s := s.unroll total
  { s with pieces := dropPieces total s.pieces }

/-- The supply of bytes that are all there. -/
def ofBytes (data : Bytes) : Supply :=
  { pieces := if data = [] then [] else [(0, data)] }

end Supply

/-- Something open: a channel of the child, a file with the place of the next byte, a directory,
a device, an end of a pipe from which is read or one that is filled. A pipe that is filled has its
pieces last first, and room for so many bytes more if there is a limit. -/
inductive Opening where
  | channel (ch : Channel)
  | file (names : List Text) (offset : Nat) (appends : Bool)
  | directory
  | device (d : Device)
  | source (supply : Supply)
  | drain (pieces : List (Nat × Bytes)) (refrain : Bytes) (room : Option Nat)

/-- What can happen: a move, or a process that holds a channel up to then. -/
inductive Happening where
  | move (m : Move)
  | held (channel : Channel)
  deriving DecidableEq, Repr

/-- A happening with its time and the number of the job that it belongs to. -/
structure Occurrence where
  time : Nat
  job : Nat
  what : Happening
  deriving DecidableEq, Repr

/-- A job that runs aside: its number, the time at which it ends, and how it ends. -/
structure Job where
  number : Nat
  endTime : Nat
  status : Int
  deriving DecidableEq, Repr

/-- What the processes of a script share. `base` is where the disk is, `occurrences` has the last
one first, and `turns` is how many commands may still be performed before the script is taken for
one that never ends. -/
structure World where
  disk : Disk := {}
  base : Text := "/"
  openings : Array Opening := #[]
  occurrences : List Occurrence := []
  jobs : List Job := []
  turns : Nat := 100000

namespace World

/-- Opens something, which gets a number. -/
def add (w : World) (o : Opening) : World × Nat :=
  ({ w with openings := w.openings.push o }, w.openings.size)

/-- What is open under a number. -/
def opening? (w : World) (i : Nat) : Option Opening :=
  w.openings[i]?

/-- Changes what is open under a number. -/
def setOpening (w : World) (i : Nat) (o : Opening) : World :=
  { w with openings := w.openings.setIfInBounds i o }

/-- Has something happen. -/
def note (w : World) (time job : Nat) (what : Happening) : World :=
  { w with occurrences := ⟨time, job, what⟩ :: w.occurrences }

/-- Changes the disk. -/
def edit (w : World) (time job : Nat) (change : DiskEdit) : World :=
  { w with disk := w.disk.apply change }.note time job (.move (.edit change))

/-- The child's own job. -/
def ownJob : Nat := 0

/-- Ends a job before its time: what it would have done later does not happen. -/
def endJob (w : World) (number time : Nat) (status : Int) : World :=
  let cut (o : Occurrence) : Option Occurrence :=
    if o.job ≠ number || o.time ≤ time then some o
    else
      match o.what with
      | .held _ => some { o with time }
      | .move _ => none
  let occurrences := w.occurrences.filterMap cut
  let jobs := w.jobs.map fun j =>
    if j.number = number then { j with endTime := time, status } else j
  { w with occurrences, jobs }

/-- Moves in the order of time, with the pauses between them; `clock` is the time reached. -/
def movesFrom (clock : Nat) : List (Nat × Move) → List Move
  | [] => []
  | (time, m) :: rest =>
    if clock < time then .pause (some (time - clock)) :: m :: movesFrom time rest
    else m :: movesFrom clock rest

/-- The time up to which a channel is held. -/
def heldUntil (w : World) (ch : Channel) : Nat :=
  w.occurrences.foldl (fun time o => if o.what = .held ch then max time o.time else time) 0

/-- The moves of a child that ends at a given time, with those that processes make after it. -/
def moves (w : World) (endTime : Nat) : List Move :=
  let made := w.occurrences.reverse.filterMap fun o =>
    match o.what with
    | .move m => some (o.time, m)
    | .held _ => none
  let closes := Channel.all.map fun ch => (w.heldUntil ch, Move.close ch .quiet)
  movesFrom 0 ((made ++ closes ++ [(endTime, Move.exit)]).mergeSort fun a b => a.1 ≤ b.1)

end World

end CommandRelay.Program
