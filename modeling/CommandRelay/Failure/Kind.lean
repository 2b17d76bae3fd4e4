/-! # Kinds of failure

Every failure has a kind, and the kinds form a tree: `ErrorKind.parent?` leads from a kind to the
more general one, and `ErrorKind.isA` says whether a kind is another one or lies below it.
Reports print the label of a kind and choose their advice by it. -/

namespace CommandRelay

/-- A kind of failure. -/
inductive ErrorKind where
  | everything
  | any
  | application
  | configuration
  | configurationFile
  | command
  | commandParse
  | commandDecode
  | authorization
  | redirectSetup
  | execution
  | streamWrite
  | system
  | shortWrite
  | notFound
  | fileExists
  | isDirectory
  | notDirectory
  | permission
  | blocked
  | childProcess
  | interrupted
  | noSuchProcess
  | timedOut
  | connection
  | brokenPipe
  | connectionAborted
  | connectionRefused
  | connectionReset
  | value
  | jsonDecode
  | tomlDecode
  | unicode
  | unicodeDecode
  | unicodeEncode
  | unicodeTranslate
  | validation
  | type
  | attribute
  | assertion
  | buffer
  | endOfFile
  | loading
  | moduleNotFound
  | memory
  | name
  | unboundLocal
  | reference
  | runtime
  | notImplemented
  | recursion
  | stopIteration
  | stopAsyncIteration
  | grammar
  | indentation
  | tab
  | engine
  | lookup
  | key
  | index
  | arithmetic
  | floatingPoint
  | zeroDivision
  | overflow
  | warning
  | userWarning
  | deprecation
  | pendingDeprecation
  | grammarWarning
  | runtimeWarning
  | futureWarning
  | loadingWarning
  | unicodeWarning
  | bytesWarning
  | resourceWarning
  | encodingWarning
  | group
  | anyGroup
  | keyboardInterrupt
  | systemExit
  | generatorExit
  deriving DecidableEq, Repr

namespace ErrorKind

/-- The printed label of a kind. -/
def label : ErrorKind → String
  | .everything => "BaseException"
  | .any => "Exception"
  | .application => "ApplicationError"
  | .configuration => "ConfigurationError"
  | .configurationFile => "FileConfigurationError"
  | .command => "CommandError"
  | .commandParse => "CommandParseError"
  | .commandDecode => "CommandDecodeError"
  | .authorization => "AuthorizationError"
  | .redirectSetup => "RedirectSetupError"
  | .execution => "ExecutionError"
  | .streamWrite => "StreamWriteError"
  | .system => "OSError"
  | .shortWrite => "ShortWriteError"
  | .notFound => "FileNotFoundError"
  | .fileExists => "FileExistsError"
  | .isDirectory => "IsADirectoryError"
  | .notDirectory => "NotADirectoryError"
  | .permission => "PermissionError"
  | .blocked => "BlockingIOError"
  | .childProcess => "ChildProcessError"
  | .interrupted => "InterruptedError"
  | .noSuchProcess => "ProcessLookupError"
  | .timedOut => "TimeoutError"
  | .connection => "ConnectionError"
  | .brokenPipe => "BrokenPipeError"
  | .connectionAborted => "ConnectionAbortedError"
  | .connectionRefused => "ConnectionRefusedError"
  | .connectionReset => "ConnectionResetError"
  | .value => "ValueError"
  | .jsonDecode => "JSONDecodeError"
  | .tomlDecode => "TOMLDecodeError"
  | .unicode => "UnicodeError"
  | .unicodeDecode => "UnicodeDecodeError"
  | .unicodeEncode => "UnicodeEncodeError"
  | .unicodeTranslate => "UnicodeTranslateError"
  | .validation => "ValidationError"
  | .type => "TypeError"
  | .attribute => "AttributeError"
  | .assertion => "AssertionError"
  | .buffer => "BufferError"
  | .endOfFile => "EOFError"
  | .loading => "ImportError"
  | .moduleNotFound => "ModuleNotFoundError"
  | .memory => "MemoryError"
  | .name => "NameError"
  | .unboundLocal => "UnboundLocalError"
  | .reference => "ReferenceError"
  | .runtime => "RuntimeError"
  | .notImplemented => "NotImplementedError"
  | .recursion => "RecursionError"
  | .stopIteration => "StopIteration"
  | .stopAsyncIteration => "StopAsyncIteration"
  | .grammar => "SyntaxError"
  | .indentation => "IndentationError"
  | .tab => "TabError"
  | .engine => "SystemError"
  | .lookup => "LookupError"
  | .key => "KeyError"
  | .index => "IndexError"
  | .arithmetic => "ArithmeticError"
  | .floatingPoint => "FloatingPointError"
  | .zeroDivision => "ZeroDivisionError"
  | .overflow => "OverflowError"
  | .warning => "Warning"
  | .userWarning => "UserWarning"
  | .deprecation => "DeprecationWarning"
  | .pendingDeprecation => "PendingDeprecationWarning"
  | .grammarWarning => "SyntaxWarning"
  | .runtimeWarning => "RuntimeWarning"
  | .futureWarning => "FutureWarning"
  | .loadingWarning => "ImportWarning"
  | .unicodeWarning => "UnicodeWarning"
  | .bytesWarning => "BytesWarning"
  | .resourceWarning => "ResourceWarning"
  | .encodingWarning => "EncodingWarning"
  | .group => "ExceptionGroup"
  | .anyGroup => "BaseExceptionGroup"
  | .keyboardInterrupt => "KeyboardInterrupt"
  | .systemExit => "SystemExit"
  | .generatorExit => "GeneratorExit"

/-- The next more general kind. -/
def parent? : ErrorKind → Option ErrorKind
  | .everything => none
  | .any | .anyGroup | .keyboardInterrupt | .systemExit | .generatorExit => some .everything
  | .application | .system | .value | .type | .attribute | .assertion | .buffer | .endOfFile
  | .loading | .memory | .name | .reference | .runtime | .stopIteration | .stopAsyncIteration
  | .grammar | .engine | .lookup | .arithmetic | .warning | .group => some .any
  | .configuration | .command => some .application
  | .configurationFile => some .configuration
  | .commandParse | .commandDecode | .authorization | .redirectSetup | .execution => some .command
  | .streamWrite => some .execution
  | .shortWrite | .notFound | .fileExists | .isDirectory | .notDirectory | .permission
  | .blocked | .childProcess | .interrupted | .noSuchProcess | .timedOut | .connection =>
    some .system
  | .brokenPipe | .connectionAborted | .connectionRefused | .connectionReset => some .connection
  | .jsonDecode | .tomlDecode | .unicode | .validation => some .value
  | .unicodeDecode | .unicodeEncode | .unicodeTranslate => some .unicode
  | .moduleNotFound => some .loading
  | .unboundLocal => some .name
  | .notImplemented | .recursion => some .runtime
  | .indentation => some .grammar
  | .tab => some .indentation
  | .key | .index => some .lookup
  | .floatingPoint | .zeroDivision | .overflow => some .arithmetic
  | .userWarning | .deprecation | .pendingDeprecation | .grammarWarning | .runtimeWarning
  | .futureWarning | .loadingWarning | .unicodeWarning | .bytesWarning | .resourceWarning
  | .encodingWarning => some .warning

/-- How far a kind lies below the most general one. -/
def depth : ErrorKind → Nat
  | .everything => 0
  | .any | .anyGroup | .keyboardInterrupt | .systemExit | .generatorExit => 1
  | .configuration | .command | .shortWrite | .notFound | .fileExists | .isDirectory
  | .notDirectory | .permission | .blocked | .childProcess | .interrupted | .noSuchProcess
  | .timedOut | .connection | .jsonDecode | .tomlDecode | .unicode | .validation
  | .moduleNotFound | .unboundLocal | .notImplemented | .recursion | .indentation | .key
  | .index | .floatingPoint | .zeroDivision | .overflow | .userWarning | .deprecation
  | .pendingDeprecation | .grammarWarning | .runtimeWarning | .futureWarning | .loadingWarning
  | .unicodeWarning | .bytesWarning | .resourceWarning | .encodingWarning => 3
  | .configurationFile | .commandParse | .commandDecode | .authorization | .redirectSetup
  | .execution | .brokenPipe | .connectionAborted | .connectionRefused | .connectionReset
  | .unicodeDecode | .unicodeEncode | .unicodeTranslate | .tab => 4
  | .streamWrite => 5
  | _ => 2

theorem depth_parent {k p : ErrorKind} (h : k.parent? = some p) : k.depth = p.depth + 1 := by
  cases k <;> simp [parent?] at h <;> subst h <;> rfl

/-- A kind followed by ever more general ones. -/
def lineage (k : ErrorKind) : List ErrorKind :=
  match _h : k.parent? with
  | none => [k]
  | some p => k :: lineage p
termination_by k.depth
decreasing_by rw [depth_parent _h]; omega

/-- Every kind. -/
def all : List ErrorKind :=
  [.everything, .any, .application, .configuration, .configurationFile, .command, .commandParse,
    .commandDecode, .authorization, .redirectSetup, .execution, .streamWrite, .system, .shortWrite,
    .notFound, .fileExists, .isDirectory, .notDirectory, .permission, .blocked, .childProcess,
    .interrupted, .noSuchProcess, .timedOut, .connection, .brokenPipe, .connectionAborted,
    .connectionRefused, .connectionReset, .value, .jsonDecode, .tomlDecode, .unicode,
    .unicodeDecode, .unicodeEncode, .unicodeTranslate, .validation, .type, .attribute, .assertion,
    .buffer, .endOfFile, .loading, .moduleNotFound, .memory, .name, .unboundLocal, .reference,
    .runtime, .notImplemented, .recursion, .stopIteration, .stopAsyncIteration, .grammar,
    .indentation, .tab, .engine, .lookup, .key, .index, .arithmetic, .floatingPoint, .zeroDivision,
    .overflow, .warning, .userWarning, .deprecation, .pendingDeprecation, .grammarWarning,
    .runtimeWarning, .futureWarning, .loadingWarning, .unicodeWarning, .bytesWarning,
    .resourceWarning, .encodingWarning, .group, .anyGroup, .keyboardInterrupt, .systemExit,
    .generatorExit]

/-- Labels that stand for a kind besides its own. -/
def otherLabels : List (String × ErrorKind) :=
  [("IOError", .system), ("EnvironmentError", .system)]

/-- The kind of a label. -/
def ofLabel? (label : String) : Option ErrorKind :=
  match otherLabels.find? (·.1 = label) with
  | some (_, kind) => some kind
  | none => all.find? (·.label = label)

/-- Whether a kind is another one or lies below it. -/
def isA (k base : ErrorKind) : Bool :=
  k.lineage.contains base

end ErrorKind

end CommandRelay
