import CommandRelay.Disk.Basic

/-! # Writers

A writer puts bytes into a file from its start on. Bytes wait in the writer until they are flushed
or too many to wait. The system may refuse the bytes that it is given, which then go nowhere; a
writer may be set up so that it does at given times. A failed flush keeps the bytes waiting; closing
flushes and closes whatever the flush does, and closing again does nothing. -/

namespace CommandRelay

/-- An open file: where the next bytes go, the bytes that wait, how often the system has been given
bytes, and the times, counted from one, at which it refuses them. -/
structure Writer where
  path : Text
  place : Place
  offset : Nat := 0
  waiting : Bytes := []
  closed : Bool := false
  puts : Nat := 0
  refusals : List (Nat × SystemError) := []
  deriving DecidableEq, Repr

namespace Writer

/-- How many bytes may wait. -/
def capacity : Nat := 4096

/-- Why the system refuses the next bytes that it is given, if it does. -/
def refusal? (w : Writer) : Option SystemError :=
  (w.refusals.find? (·.1 = w.puts + 1)).map (·.2)

/-- Puts bytes on the disk at once, unless there are none. -/
def put (w : Writer) (d : Disk) (data : Bytes) : Disk × Writer × Except SystemError Unit :=
  if data = [] then (d, w, .ok ())
  else
    let w' := { w with puts := w.puts + 1 }
    match w.refusal? with
    | some e => (d, w', .error e)
    | none =>
      match d.write w.place w.offset data with
      | .ok d => (d, { w' with offset := w.offset + data.length }, .ok ())
      | .error e => (d, w', .error e)

/-- Puts the waiting bytes on the disk. -/
def drain (w : Writer) (d : Disk) : Disk × Writer × Except SystemError Unit :=
  match w.put d w.waiting with
  | (d, w, .ok ()) => (d, { w with waiting := [] }, .ok ())
  | (d, w, .error e) => (d, w, .error e)

/-- Opens a file, which is created or emptied. -/
def openFile (d : Disk) (path : Text) : Except AccessFault (Disk × Writer) :=
  (d.openForOutput false path).map fun (d, place) => (d, { path, place })

/-- Takes bytes, all of them unless the system refuses. -/
def write (w : Writer) (d : Disk) (data : Bytes) : Disk × Writer × Except AccessFault Nat :=
  if w.closed then (d, w, .error (.invalid "write to closed file"))
  else if w.waiting.length + data.length ≤ capacity then
    (d, { w with waiting := w.waiting ++ data }, .ok data.length)
  else
    match w.drain d with
    | (d, w, .error e) => (d, w, .error (.system e))
    | (d, w, .ok ()) =>
      if data.length ≤ capacity then (d, { w with waiting := data }, .ok data.length)
      else
        match w.put d data with
        | (d, w, .error e) => (d, w, .error (.system e))
        | (d, w, .ok ()) => (d, w, .ok data.length)

/-- Puts the waiting bytes on the disk, if the file is open. -/
def flush (w : Writer) (d : Disk) : Disk × Writer × Except AccessFault Unit :=
  if w.closed then (d, w, .error (.invalid "flush of closed file"))
  else
    match w.drain d with
    | (d, w, answer) => (d, w, answer.mapError .system)

/-- Flushes and closes; a closed file stays closed. -/
def close (w : Writer) (d : Disk) : Disk × Writer × Except SystemError Unit :=
  if w.closed then (d, w, .ok ())
  else
    match w.drain d with
    | (d, w, answer) => (d, { w with closed := true, waiting := [] }, answer)

end Writer

end CommandRelay
