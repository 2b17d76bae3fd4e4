import CommandRelay.Failure.System
import CommandRelay.Text.Case

/-! # Paths

A path is written in its plainest form without single dots and repeated slashes; two slashes at
its start, and no more, are kept. The ending of a file name begins at its last dot, unless that is
its first or last point. -/

namespace CommandRelay.Path

/-- The point between the names of a path. -/
def slash : Point := '/'

/-- The point before the ending of a name. -/
def dot : Point := '.'

/-- Why the system is never given a path: it cannot be encoded, or it holds a NUL. -/
def fault? (path : Text) : Option AccessFault :=
  match Utf8.encodeName path with
  | .error e => some (.unencodable e)
  | .ok bytes => if bytes.contains 0 then some .embeddedNul else none

/-- The number of bytes that a path takes. -/
def byteSize (path : Text) : Nat :=
  match Utf8.encodeName path with
  | .error _ => 0
  | .ok bytes => bytes.length

/-- The slashes that a plain path begins with. -/
def root (path : Text) : Text :=
  match (path.takeWhile (· = slash)).length with
  | 0 => []
  | 2 => [slash, slash]
  | _ => [slash]

/-- The names in a path. -/
def names (path : Text) : List Text :=
  (path.splitOn slash).filter fun n => n ≠ [] ∧ n ≠ "."

/-- The plainest form of a path. -/
def plain (path : Text) : Text :=
  let text := root path ++ Text.join "/" (names path)
  if text = [] then "." else text

/-- The last name in a path. -/
def fileName (path : Text) : Text :=
  (names path).getLastD []

/-- The ending of a file name, with its dot. -/
def ending (path : Text) : Text :=
  let name := fileName path
  let after := name.reverse.takeWhile (· ≠ dot)
  if after = [] ∨ name.length ≤ after.length + 1 then [] else dot :: after.reverse

/-- A path without its last name, and that name; slashes between them are dropped. -/
def split (path : Text) : Text × Text :=
  let last := (path.reverse.takeWhile (· ≠ slash)).reverse
  let before := path.take (path.length - last.length)
  let kept := (before.reverse.dropWhile (· = slash)).reverse
  (if kept = [] then before else kept, last)

/-- The directory that a path names something in. -/
def directory (path : Text) : Text :=
  (split path).1

/-- The names of a path after its double dots have gone up. -/
def resolve (names : List Text) : List Text :=
  let step (done : List Text) (name : Text) : List Text :=
    if name = ".." then done.dropLast else done ++ [name]
  names.foldl step []

/-- The plainest form of a path from the root on, if it starts in a given directory. -/
def absolute (base path : Text) : Text :=
  if root path ≠ [] then root path ++ Text.join "/" (resolve (names path))
  else root base ++ Text.join "/" (resolve (names base ++ names path))

/-- An absolute path from a directory on, if it leads there. -/
def below? (base path : Text) : Option Text :=
  let inner := (names path).drop (names base).length
  if root path ≠ root base ∨ names path ≠ names base ++ inner then none
  else if inner = [] then some "."
  else some (Text.join "/" inner)

/-- The ending of a file name in lower case. -/
def lowerEnding (path : Text) : Text :=
  Case.lower (ending path)

end CommandRelay.Path
