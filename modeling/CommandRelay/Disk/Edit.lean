import CommandRelay.Disk.Basic

/-! # Edits

What others do to a disk, one edit at a time: they put a node somewhere, write bytes into a file or
take a node away. -/

namespace CommandRelay

/-- A change of a disk. -/
inductive DiskEdit where
  | put (names : List Text) (n : Node)
  | write (names : List Text) (offset : Nat) (data : Bytes)
  | erase (names : List Text)
  deriving DecidableEq, Repr

/-- A disk after a change; bytes are written only into a file that is still there. -/
def Disk.apply (d : Disk) : DiskEdit → Disk
  | .put names n => d.put names n
  | .write names offset data =>
    match d.node? names with
    | some (.file content executable) =>
      d.put names (.file (Disk.overwrite content offset data) executable)
    | _ => d
  | .erase names => d.erase names

end CommandRelay
