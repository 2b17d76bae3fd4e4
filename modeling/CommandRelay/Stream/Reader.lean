import CommandRelay.Failure.System
import CommandRelay.Stream.Chunk

/-! # Readers

A reader takes a stream in reads, publishes every chunk as soon as it is complete and one end
marker at the end. The stream ends by an empty read or by a fault; a fault loses the pending
bytes. The stream is closed before the end marker, and a failure to close it counts only if no
read failed. -/

namespace CommandRelay.Stream

/-- How many bytes a reader asks for at a time. -/
def readSize : Nat := 4096

/-- How a stream ends after its last read. -/
inductive Ending where
  | quiet
  | fault (f : AccessFault)
  deriving DecidableEq, Repr

/-- A stream to read: its reads, its ending and what closing it raises. -/
structure Source where
  reads : List Bytes
  ending : Ending := .quiet
  closing : Option SystemError := none
  deriving DecidableEq, Repr

namespace Source

/-- Bytes in pieces of at most the read size. -/
def pieces (bytes : Bytes) : List Bytes :=
  if bytes.length ≤ readSize then (if bytes = [] then [] else [bytes])
  else bytes.take readSize :: pieces (bytes.drop readSize)
termination_by bytes.length
decreasing_by simp [readSize] at *; omega

/-- A stream that holds given bytes. -/
def ofBytes (bytes : Bytes) : Source :=
  { reads := pieces bytes }

/-- A stream that is closed already. -/
def closed : Source :=
  { reads := [], ending := .fault (.invalid "I/O operation on closed file.") }

end Source

/-- The error that a fault leaves behind. -/
def errorOfFault : AccessFault → SystemError
  | .system e => e
  | fault => .stated .system fault.message

/-- A reader: the bytes that no complete chunk holds yet. -/
structure Reader where
  pending : Bytes := []
  deriving DecidableEq, Repr

namespace Reader

/-- Takes a read that is not empty: the chunks to publish. -/
def feed (r : Reader) (data : Bytes) : List Bytes × Reader :=
  let (cs, rest) := chunks false (r.pending ++ data)
  (cs, ⟨rest⟩)

/-- Takes an empty read, the end of the stream: the last chunks to publish. -/
def finish (r : Reader) : List Bytes :=
  (chunks true r.pending).1

/-- Comes to the end of a stream: the last chunks to publish and the error that is left. -/
def conclude (r : Reader) (closing : Option SystemError) :
    Ending → List Bytes × Option SystemError
  | .quiet => (r.finish, closing)
  | .fault f => ([], some (errorOfFault f))

end Reader

/-- What a reader leaves behind: the chunks in order, which the end marker follows, the error if
there was one, and the number of reads. -/
structure Published where
  chunks : List Bytes
  error : Option SystemError
  readCount : Nat
  deriving DecidableEq, Repr

/-- Reads a stream to its end. -/
def readAll (ending : Ending) (closing : Option SystemError) (r : Reader) :
    List Bytes → Published
  | [] =>
    let (cs, error) := r.conclude closing ending
    ⟨cs, error, 1⟩
  | [] :: _ =>
    let (cs, error) := r.conclude closing .quiet
    ⟨cs, error, 1⟩
  | data :: rest =>
    let (cs, r) := r.feed data
    let p := readAll ending closing r rest
    ⟨cs ++ p.chunks, p.error, p.readCount + 1⟩

/-- What a fresh reader leaves behind of a stream. -/
def Source.publish (s : Source) : Published :=
  readAll s.ending s.closing {} s.reads

/-! ## What a reader does -/

/-- What a reader does to its stream and to the queue: it asks for a read, publishes a chunk, closes
the stream or publishes the end marker. -/
inductive Act where
  | asked
  | published (chunk : Bytes)
  | closed
  | ended
  deriving DecidableEq, Repr

/-- The chunk that an act publishes. -/
def Act.chunk? : Act → Option Bytes
  | .published chunk => some chunk
  | .asked | .closed | .ended => none

/-- The acts of a reader that has found how its stream ends. -/
def Reader.leave (r : Reader) (ending : Ending) : List Act :=
  (r.conclude none ending).1.map .published ++ [.closed, .ended]

/-- The acts of a reader until it is done with a stream. -/
def actsOf (ending : Ending) (r : Reader) : List Bytes → List Act
  | [] => .asked :: r.leave ending
  | [] :: _ => .asked :: r.leave .quiet
  | data :: rest =>
    let (cs, r) := r.feed data
    .asked :: cs.map .published ++ actsOf ending r rest

/-- The acts of a fresh reader. -/
def Source.acts (s : Source) : List Act :=
  actsOf s.ending {} s.reads

/-- The name of the activity that reads a stream. -/
def readerName (stream : Text) : Text :=
  "exeq-" ++ stream ++ "-reader"

end CommandRelay.Stream
