import CommandRelay.Disk.Directory
import CommandRelay.Program.Utility

/-! # Filing

The programs that make, move, list and take away files and directories. -/

namespace CommandRelay.Program.Shell

/-- The names that a path leads along, and what is there. -/
def nodeAt (s : Shell) (path : String) : Except SystemError (List Text × Option Node) := do
  let place := s.place path
  match ← s.locate (Octets.ofText (Disk.trimSlashes (Octets.toText path))) with
  | .node names n =>
    match n with
    | .file .. =>
      if Disk.trimSlashes place = place then return (names, some n)
      else throw (.notDirectory place)
    | .directory => return (names, some n)
  | .vacant names => return (names, none)
  | .outside | .device _ => throw (.denied place)

/-- Reports that something cannot be done with a path. -/
def cannot (s : Shell) (program what path reason : String) : Shell :=
  (s.report s!"{program}: {what} '{path}': {reason}").done 1

/-! ## Making -/

/-- Makes one directory. -/
def makeOne (s : Shell) (path : String) : Shell :=
  match s.nodeAt path with
  | .error e => s.cannot "mkdir" "cannot create directory" path (reasonOf e)
  | .ok (_, some _) => s.cannot "mkdir" "cannot create directory" path "File exists"
  | .ok (names, none) => s.edit (.put names .directory)

/-- The starts of a path, one name longer each. -/
def pathStarts (path : String) : List String :=
  let parts := path.splitOn "/"
  (List.range parts.length).filterMap fun i =>
    if parts.getD i "" = "" then none else some ("/".intercalate (parts.take (i + 1)))

/-- Makes directories, with those on the way to them if that is asked for. -/
def makeDirectories (s : Shell) (arguments : List String) : Shell :=
  s.withOptions "mkdir" "pv" "m" arguments fun o =>
    let deep (s : Shell) (path : String) : Shell :=
      (pathStarts path).foldl (fun s start =>
        match s.nodeAt start with
        | .ok (_, some .directory) => s
        | _ => if s.status ≠ 0 then s else s.makeOne start) s
    if o.operands = [] then s.refuse "mkdir" "missing operand" 1
    else o.operands.foldl (if o.has 'p' then deep else makeOne) (s.done 0)

/-- Makes files that are not there. -/
def touch (s : Shell) (arguments : List String) : Shell :=
  s.withOptions "touch" "acm" "dtr" arguments fun o =>
    let one (s : Shell) (path : String) : Shell :=
      match s.nodeAt path with
      | .error e =>
        if e.kind = .permission then s
        else s.cannot "touch" "cannot touch" path (reasonOf e)
      | .ok (_, some _) => s
      | .ok (names, none) => if o.has 'c' then s else s.edit (.put names (.file [] false))
    if o.operands = [] then s.refuse "touch" "missing file operand" 1
    else o.operands.foldl one (s.done 0)

/-! ## Taking away -/

/-- The lists of names under a list of names, the longest first. -/
def below (s : Shell) (names : List Text) : List (List Text) :=
  let inner := (s.world.disk.nodes.map (·.1)).filter fun other =>
    names.isPrefixOf other && other ≠ names && Disk.isOuter other = Disk.isOuter names
  inner.mergeSort fun a b => b.length ≤ a.length

/-- Takes away empty directories. -/
def removeDirectories (s : Shell) (arguments : List String) : Shell :=
  s.withOptions "rmdir" "pv" "" arguments fun o =>
    let one (s : Shell) (path : String) : Shell :=
      match s.nodeAt path with
      | .error e => s.cannot "rmdir" "failed to remove" path (reasonOf e)
      | .ok (_, none) => s.cannot "rmdir" "failed to remove" path "No such file or directory"
      | .ok (_, some (.file ..)) => s.cannot "rmdir" "failed to remove" path "Not a directory"
      | .ok (names, some .directory) =>
        if s.below names = [] then s.edit (.erase names)
        else s.cannot "rmdir" "failed to remove" path "Directory not empty"
    if o.operands = [] then s.refuse "rmdir" "missing operand" 1
    else o.operands.foldl one (s.done 0)

/-- Takes away what is under a list of names. -/
def eraseAll (s : Shell) (names : List Text) : Shell :=
  ((s.below names) ++ [names]).foldl (fun s n => s.edit (.erase n)) s

/-- Takes away files, and directories if that is asked for. -/
def remove (s : Shell) (arguments : List String) : Shell :=
  s.withOptions "rm" "rRfvd" "" arguments fun o =>
    let deep := o.has 'r' || o.has 'R'
    let one (s : Shell) (path : String) : Shell :=
      match s.nodeAt path with
      | .error e =>
        if o.has 'f' && (e.kind = .notFound || e.kind = .notDirectory) then s
        else s.cannot "rm" "cannot remove" path (reasonOf e)
      | .ok (_, none) =>
        if o.has 'f' then s else s.cannot "rm" "cannot remove" path "No such file or directory"
      | .ok (names, some (.file ..)) => s.edit (.erase names)
      | .ok (names, some .directory) =>
        if names = [] then
          (s.report s!"rm: refusing to remove '.' or '..' directory: skipping '{path}'").done 1
        else if deep then s.eraseAll names
        else s.cannot "rm" "cannot remove" path "Is a directory"
    if o.operands = [] then (if o.has 'f' then s.done 0 else s.refuse "rm" "missing operand" 1)
    else o.operands.foldl one (s.done 0)

/-! ## Copying and moving -/

/-- The last name in a path. -/
def lastName (path : String) : String :=
  let names := (path.splitOn "/").filter (· ≠ "")
  names.getLastD (if path.startsWith "/" then "/" else "")

/-- Where something goes that is sent to a path: into a directory under its own name. -/
def destination (s : Shell) (source target : String) : String :=
  match s.nodeAt target with
  | .ok (_, some .directory) =>
    (if target.endsWith "/" then target else target ++ "/") ++ lastName source
  | _ => target

/-- Sends operands to the last one of them, which is a directory if there are several. -/
def sendEach (s : Shell) (program : String) (send : Shell → String → String → Shell)
    (operands : List String) : Shell :=
  match operands with
  | [] => s.refuse program "missing file operand" 1
  | [one] => s.refuse program s!"missing destination file operand after '{one}'" 1
  | operands =>
    let target := operands.getLastD ""
    let isDirectory := match s.nodeAt target with
      | .ok (_, some .directory) => true
      | _ => false
    if 2 < operands.length && !isDirectory then
      (s.report s!"{program}: target '{target}': No such file or directory").done 1
    else
      operands.dropLast.foldl (fun s source => send s source (s.destination source target))
        (s.done 0)

/-- Puts the nodes under a list of names also under another one. -/
def copyAll (s : Shell) (source target : List Text) : Shell :=
  let put (s : Shell) (names : List Text) : Shell :=
    match s.world.disk.node? names with
    | some n => s.edit (.put (target ++ names.drop source.length) n)
    | none => s
  (source :: (s.below source).reverse).foldl put s

/-- Copies files, and directories if that is asked for. -/
def copyFiles (s : Shell) (arguments : List String) : Shell :=
  s.withOptions "cp" "rRpafv" "" arguments fun o =>
    let send (s : Shell) (source target : String) : Shell :=
      match s.readFile source, s.nodeAt source, s.nodeAt target with
      | _, .ok (_, none), _ => s.cannot "cp" "cannot stat" source "No such file or directory"
      | .error e, .error _, _ => s.cannot "cp" "cannot stat" source (reasonOf e)
      | _, .ok (names, some .directory), .ok (other, _) =>
        if o.has 'r' || o.has 'R' || o.has 'a' then s.copyAll names other
        else (s.report s!"cp: -r not specified; omitting directory '{source}'").done 1
      | _, .ok (_, some .directory), .error e =>
        s.cannot "cp" "cannot create directory" target (reasonOf e)
      | .ok data, node, .ok (names, old) =>
        let executable := match node, old with
          | _, some (.file _ e) => e
          | .ok (_, some (.file _ e)), _ => e
          | _, _ => false
        s.edit (.put names (.file data executable))
      | .ok _, _, .error e =>
        if s.pathExists target then s
        else s.cannot "cp" "cannot create regular file" target (reasonOf e)
      | .error e, _, _ => s.cannot "cp" "cannot open" source (reasonOf e)
    s.sendEach "cp" send o.operands

/-- Moves files and directories. -/
def moveFiles (s : Shell) (arguments : List String) : Shell :=
  s.withOptions "mv" "fvn" "" arguments fun o =>
    let send (s : Shell) (source target : String) : Shell :=
      match s.nodeAt source, s.nodeAt target with
      | .error e, _ => s.cannot "mv" "cannot stat" source (reasonOf e)
      | .ok (_, none), _ => s.cannot "mv" "cannot stat" source "No such file or directory"
      | .ok (_, some _), .error e =>
        (s.report s!"mv: cannot move '{source}' to '{target}': {reasonOf e}").done 1
      | .ok (names, some _), .ok (other, _) =>
        if names = other then
          (s.report s!"mv: '{source}' and '{target}' are the same file").done 1
        else (s.copyAll names other).eraseAll names
    s.sendEach "mv" send o.operands

/-- Whether a mode makes a file executable, when it is so or not before. -/
def makesExecutable (mode : String) (before : Bool) : Bool :=
  match mode.toNat? with
  | some _ => mode.toList.any fun c => c = '1' || c = '3' || c = '5' || c = '7'
  | none =>
    (mode.splitOn ",").foldl (fun is clause =>
      let cs := clause.toList.dropWhile fun c => ['u', 'g', 'o', 'a'].contains c
      match cs with
      | '+' :: cs => is || cs.contains 'x'
      | '-' :: cs => is && !cs.contains 'x'
      | '=' :: cs => cs.contains 'x'
      | _ => is) before

/-- Makes files executable or takes that away from them. -/
def changeMode (s : Shell) (arguments : List String) : Shell :=
  match arguments with
  | [] => s.refuse "chmod" "missing operand" 1
  | [mode] => s.refuse "chmod" s!"missing operand after '{mode}'" 1
  | mode :: paths =>
    let one (s : Shell) (path : String) : Shell :=
      match s.nodeAt path with
      | .error e => s.cannot "chmod" "cannot access" path (reasonOf e)
      | .ok (_, none) => s.cannot "chmod" "cannot access" path "No such file or directory"
      | .ok (names, some (.file content executable)) =>
        s.edit (.put names (.file content (makesExecutable mode executable)))
      | .ok (_, some .directory) => s
    paths.foldl one (s.done 0)

/-! ## Listing -/

/-- The names in a directory that are to be listed, in order. -/
def listed (s : Shell) (o : Options) (path : String) : List String :=
  let names := (s.entries path).toOption.getD []
  let names := if o.has 'a' then [".", ".."] ++ names else names
  let names := names.filter fun n => n.front ≠ '.' || o.has 'a' || o.has 'A'
  names.mergeSort fun a b => decide (a ≤ b)

/-- Lists directories, one name a line. -/
def list (s : Shell) (arguments : List String) : Shell :=
  match Options.read "aA1dF" "" arguments with
  | .error reason => s.refuse "ls" reason 2
  | .ok o =>
    let operands := (if o.operands = [] then ["."] else o.operands).mergeSort fun a b =>
      decide (a ≤ b)
    let isThere (path : String) : Bool := s.pathExists path
    let isDirectory (path : String) : Bool := !o.has 'd' && (s.entries path).isOk
    let complain (s : Shell) (path : String) : Shell :=
      let reason := match s.locate path with
        | .error e => reasonOf e
        | .ok _ => "No such file or directory"
      (s.report s!"ls: cannot access '{path}': {reason}").done 2
    let s := (operands.filter fun path => !isThere path).foldl complain (s.done 0)
    let there := operands.filter isThere
    let files := there.filter fun path => !isDirectory path
    let directories := there.filter isDirectory
    let text (names : List String) : String := String.join (names.map (· ++ "\n"))
    let blocks := (if files = [] then [] else [text files]) ++ directories.map fun path =>
      (if operands.length ≤ 1 then "" else path ++ ":\n") ++ text (s.listed o path)
    (s.write 1 (Octets.toBytes ("\n".intercalate blocks))).1

/-! ## Names -/

/-- Prints the last name of a path, without an ending. -/
def baseName (s : Shell) (arguments : List String) : Shell :=
  match arguments with
  | [] => s.refuse "basename" "missing operand" 1
  | path :: rest =>
    let name := lastName path
    let ending := rest.headD ""
    let name := if ending ≠ "" && name ≠ ending && name.endsWith ending then
        String.ofList (name.toList.take (name.length - ending.length)) else name
    s.putText "basename" (name ++ "\n")

/-- Prints the directory in which a path names something. -/
def directoryName (s : Shell) (arguments : List String) : Shell :=
  match arguments with
  | [] => s.refuse "dirname" "missing operand" 1
  | paths =>
    let one (path : String) : String :=
      let trim (cs : List Char) : List Char := (cs.reverse.dropWhile (· = '/')).reverse
      let cs := trim path.toList
      let before := (cs.reverse.dropWhile (· ≠ '/')).reverse
      if before = [] then (if cs = [] && path ≠ "" then "/" else ".")
      else if trim before = [] then "/"
      else String.ofList (trim before)
    s.putText "dirname" (String.join (paths.map fun p => one p ++ "\n"))

/-- The absolute path of the working directory. -/
def whereabouts (s : Shell) : String :=
  Octets.ofText (Path.absolute s.world.base s.folder)

end CommandRelay.Program.Shell
