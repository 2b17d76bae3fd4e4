import CommandRelay.Program.Follow

/-! # Launching programs

A name without a slash is looked for among the known programs. A path is followed on the disk: what
it leads to must be executable and begin with a line that names an interpreter. -/

namespace CommandRelay.Program

/-- How deep scripts are followed. -/
def depth : Nat := 100000

/-- The process that a child begins as: it reads nothing and writes to the two channels. -/
def initial (base : Text) (d : Disk) : Shell :=
  let exported (v : String) : Variable := { value := some v, exported := true }
  { world :=
      { disk := d
        base
        openings := #[.device .null, .channel .stdout, .channel .stderr] }
    streams := [(0, 0), (1, 1), (2, 2)]
    names := [("HOME", exported "/root"),
      ("PATH", exported "/usr/local/sbin:/usr/local/bin:/usr/sbin:/usr/bin:/sbin:/bin")] }

/-- The child of a program. -/
def childOf (s : Shell) (p : Shell.Plan) (arguments : List String) : Child :=
  (s.performPlan depth p arguments).child

/-- The child of the program that a name means. -/
def childNamed (s : Shell) (name : Text) (arguments : List String) : Except SystemError Child :=
  let octets := Octets.ofText name
  match Shell.known? octets with
  | some p => .ok (childOf s (.known p) arguments)
  | none =>
    if name.contains Path.slash then
      match s.executableAt octets with
      | .ok (.plan p before) => .ok (childOf s p (before ++ arguments))
      | .ok (.plain _) => .error (.execFormat name)
      | .error (.coded number text _) => .error (.coded number text (some name))
      | .error e => .error e
    else if name = "." ∨ name = ".." then .error (.denied name)
    else if Disk.nameLimit < Path.byteSize name then .error (.nameTooLong name)
    else .error (.notFound name)

/-- The greatest number of bytes of an argument. -/
def argumentLimit : Nat := 131071

/-- Starts a program; `base` is the path of the working directory. -/
def launch (base : Text) (d : Disk) (argv : List Text) : Except AccessFault Child :=
  match argv.findSome? Path.fault? with
  | some fault => .error fault
  | none =>
    let name := argv.headD []
    let isTooLong (argument : Text) : Bool := argumentLimit < Path.byteSize argument
    let answer :=
      if argv.any isTooLong then .error (.argumentsTooLong name)
      else childNamed (initial base d) name ((argv.drop 1).map Octets.ofText)
    answer.mapError .system

end CommandRelay.Program
