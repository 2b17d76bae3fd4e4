import CommandRelay.Failure.Kind
import CommandRelay.Text.Quoted
import CommandRelay.Text.Utf8

/-! # System errors

The system refuses an operation with a number and a text, sometimes naming a path. The number
settles the kind of the error. An operation that makes no sense, such as writing to a closed
stream, fails without asking the system, and so does a name that cannot be encoded. So does a
sink that holds itself, or one that is asked for what its kind cannot do. -/

namespace CommandRelay

/-- An error of the operating system, or a write that took less than it was given. -/
inductive SystemError where
  | stated (kind : ErrorKind) (text : Text)
  | coded (number : Int) (text : Text) (path : Option Text)
  | shortWrite (sink : String) (written total : Int)
  deriving DecidableEq, Repr

namespace SystemError

/-- The wording of a system error. -/
def message : SystemError → Text
  | .stated _ text => text
  | .coded number text none => s!"[Errno {number}] " ++ text
  | .coded number text (some path) => s!"[Errno {number}] " ++ text ++ ": " ++ Quoted.text path
  | .shortWrite sink written total =>
    s!"Écriture partielle vers {sink} : {written}/{total} octets"

/-- The text alone of an error that has a number, else its wording. -/
def reason : SystemError → Text
  | .coded number text path => if text = [] then message (.coded number text path) else text
  | e => e.message

/-- The kind that a number stands for. -/
def kindOfNumber (number : Int) : ErrorKind :=
  if number = 2 then .notFound
  else if number = 1 ∨ number = 13 then .permission
  else if number = 3 then .noSuchProcess
  else if number = 4 then .interrupted
  else if number = 10 then .childProcess
  else if number = 11 ∨ number = 114 ∨ number = 115 then .blocked
  else if number = 17 then .fileExists
  else if number = 20 then .notDirectory
  else if number = 21 then .isDirectory
  else if number = 32 ∨ number = 108 then .brokenPipe
  else if number = 103 then .connectionAborted
  else if number = 104 then .connectionReset
  else if number = 110 then .timedOut
  else if number = 111 then .connectionRefused
  else .system

/-- The kind of a system error. -/
def kind : SystemError → ErrorKind
  | .stated kind _ => kind
  | .coded number _ _ => kindOfNumber number
  | .shortWrite .. => .shortWrite

/-- No such process. -/
def isNoSuchProcess (e : SystemError) : Bool :=
  e.kind = .noSuchProcess

/-- Nothing is where something was looked for: a path leads nowhere, through something that is no
directory or through links without end, or a handle is not open. -/
def isAbsence : SystemError → Bool
  | .coded number _ _ => number = 2 || number = 20 || number = 9 || number = 40
  | _ => false

/-- A path leads nowhere. -/
def notFound (path : Text) : SystemError :=
  .coded 2 "No such file or directory" (some path)

/-- A path leads through something that is no directory. -/
def notDirectory (path : Text) : SystemError :=
  .coded 20 "Not a directory" (some path)

/-- A directory stands where a file is wanted. -/
def isDirectory (path : Text) : SystemError :=
  .coded 21 "Is a directory" (some path)

/-- Something stands where nothing should. -/
def fileExists (path : Text) : SystemError :=
  .coded 17 "File exists" (some path)

/-- A path, or a part of it, is too long. -/
def nameTooLong (path : Text) : SystemError :=
  .coded 36 "File name too long" (some path)

/-- Something may not be used in this way. -/
def denied (path : Text) : SystemError :=
  .coded 13 "Permission denied" (some path)

/-- A file is no program. -/
def execFormat (path : Text) : SystemError :=
  .coded 8 "Exec format error" (some path)

/-- The arguments of a program take too much room. -/
def argumentsTooLong (path : Text) : SystemError :=
  .coded 7 "Argument list too long" (some path)

/-- A device takes no more. -/
def noSpace : SystemError :=
  .coded 28 "No space left on device" none

end SystemError

/-- Why an operation on a path or a stream failed. -/
inductive AccessFault where
  | system (error : SystemError)
  | unencodable (error : EncodeError)
  | invalid (message : Text)
  | endless
  | unsupported (label operation : String)
  deriving DecidableEq, Repr

namespace AccessFault

/-- The wording of a fault. -/
def message : AccessFault → Text
  | .system e => e.message
  | .unencodable e => e.message
  | .invalid text => text
  | .endless => "maximum recursion depth exceeded"
  | .unsupported label operation => s!"'{label}' object has no attribute '{operation}'"

/-- The kind of a fault. -/
def kind : AccessFault → ErrorKind
  | .system e => e.kind
  | .unencodable _ => .unicodeEncode
  | .invalid _ => .value
  | .endless => .recursion
  | .unsupported .. => .attribute

/-- A path that holds a NUL names nothing. -/
def embeddedNul : AccessFault :=
  .invalid "embedded null byte"

end AccessFault

end CommandRelay
