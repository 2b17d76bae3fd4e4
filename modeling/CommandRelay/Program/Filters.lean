import CommandRelay.Program.Printing
import CommandRelay.Program.Utility

/-! # Filters

The programs that copy, cut and change what they read: from files or from the standard input to the
standard output. What comes in pieces goes out in pieces, each at its time. -/

namespace CommandRelay.Program.Shell

/-- Prints what can be read as it comes, and waits for its end. -/
def copy (s : Shell) (program : String) (stream : Nat) (supply : Supply) : Shell :=
  let piece (s : Shell) (p : Nat × Bytes) : Shell :=
    if s.stop.isSome then s else (s.awaitTime p.1).put program p.2
  let s := supply.pieces.foldl piece s
  if s.stop.isSome then s
  else if supply.isEndless then (s.writeEndlessly 1 supply.refrain).1
  else s.consumeAll stream

/-- Numbers the lines of a text from a number on. -/
def numbered (first : Nat) (data : Bytes) : Bytes :=
  let number (line : Bytes) (i : Nat) : Bytes :=
    Octets.toBytes ((⟨false, false, false, false, false, 6, none⟩ : Printing.Layout).pad
      (toString (first + i)) ++ "\t") ++ line
  ((lines data).mapIdx fun i line => number line i).flatten

/-- Prints files one after the other. -/
def concatenate (s : Shell) (arguments : List String) : Shell :=
  s.withOptions "cat" "nu" "" arguments fun o =>
    let use (s : Shell) (_ : String) (stream : Nat) (supply : Supply) : Shell :=
      if o.has 'n' then (s.consumeAll stream).put "cat" (numbered 1 supply.data)
      else s.copy "cat" stream supply
    s.readEach (plainly "cat") (plainly "cat") use o.operands

/-! ## Ends of files -/

/-- How much of a file is wanted: so many lines or bytes, counted from the front or from the end. -/
structure Portion where
  ofBytes : Bool
  count : Nat
  other : Bool

/-- A count with the units of bytes that it may have. -/
def count? (text : String) : Option Nat :=
  let ds := text.toList.takeWhile Char.isDigit
  let factor? : Option Nat := match String.ofList (text.toList.drop ds.length) with
    | "" => some 1
    | "b" => some 512
    | "k" | "K" | "KiB" => some 1024
    | "kB" | "KB" => some 1000
    | "M" | "MiB" => some 1048576
    | "MB" => some 1000000
    | _ => none
  match (String.ofList ds).toNat?, factor? with
  | some n, some f => some (n * f)
  | _, _ => none

/-- The arguments with an old count such as `-5` in the form of an option. -/
def withOldCount : List String → List String
  | a :: rest =>
    match a.toList with
    | '-' :: d :: ds =>
      if (d :: ds).all Char.isDigit then "-n" :: String.ofList (d :: ds) :: rest else a :: rest
    | _ => a :: rest
  | [] => []

/-- The portion that options ask for; `mark` before the count counts from the other side. -/
def portion (program : String) (mark : Char) (o : Options) : Except String Portion :=
  let (ofBytes, text) : Bool × String :=
    match o.flags.reverse.find? fun f => f.1 = 'n' || f.1 = 'c' with
    | some (c, v) => (c = 'c', v)
    | none => (false, "10")
  let other := text.toList.head? = some mark
  let isSigned := other || text.toList.head? = some '-' || text.toList.head? = some '+'
  let digits := if isSigned then String.ofList (text.toList.drop 1) else text
  match count? digits with
  | some count => .ok ⟨ofBytes, count, other⟩
  | none =>
    let what := if ofBytes then "bytes" else "lines"
    .error s!"{program}: invalid number of {what}: '{text}'"

/-- The number of bytes in the first lines. -/
def lengthOfLines (n : Nat) (data : Bytes) : Nat :=
  ((lines data).take n).foldl (fun total line => total + line.length) 0

/-- The header of a file among others. -/
def header (path : String) (isFirst : Bool) : String :=
  let name := if path = "-" then "standard input" else path
  (if isFirst then "" else "\n") ++ s!"==> {name} <==\n"

/-- Prints the header of an operand if there are several of them. -/
def withHeader (s : Shell) (program : String) (o : Options) (path : String) : Shell :=
  if (o.operands.length ≤ 1 && !o.has 'v') || o.has 'q' then s
  else s.putText program (header path (o.operands.head? = some path || o.operands = []))

/-- The complaints about files of which a part is wanted. -/
def cannotOpen (program path reason : String) : String :=
  s!"{program}: cannot open '{path}' for reading: {reason}"

/-- The complaint about what is open but cannot be read. -/
def cannotRead (program path reason : String) : String :=
  s!"{program}: error reading '{path}': {reason}"

/-- Prints the front of files. -/
def front (s : Shell) (arguments : List String) : Shell :=
  s.withOptions "head" "qv" "nc" (withOldCount arguments) fun o =>
    match portion "head" '-' o with
    | .error line => (s.report line).done 1
    | .ok p =>
      let use (s : Shell) (path : String) (stream : Nat) (supply : Supply) : Shell :=
        let s := s.withHeader "head" o path
        let supply := if p.ofBytes then supply.unroll p.count
          else supply.unroll (supply.data.length + p.count * supply.refrain.length)
        let data := supply.data
        if p.other then
          let s := s.consumeAll stream
          let kept := if p.ofBytes then data.take (data.length - p.count)
            else data.take (lengthOfLines ((lines data).length - p.count) data)
          s.put "head" kept
        else
          let size := if p.ofBytes then p.count else lengthOfLines p.count data
          let isWhole := if p.ofBytes then p.count ≤ data.length
            else p.count ≤ data.count 10
          let kept := (supply.take size).1
          let s := if isWhole then s.consume stream size else s.consumeAll stream
          s.put "head" kept
      s.readEach (cannotOpen "head") (cannotRead "head") use o.operands

/-- Prints the end of files. -/
def ending (s : Shell) (arguments : List String) : Shell :=
  s.withOptions "tail" "qv" "nc" (withOldCount arguments) fun o =>
    match portion "tail" '+' o with
    | .error line => (s.report line).done 1
    | .ok p =>
      let use (s : Shell) (path : String) (stream : Nat) (supply : Supply) : Shell :=
        let s := (s.withHeader "tail" o path).consumeAll stream
        let data := supply.data
        let ls := lines data
        let dropped :=
          if p.ofBytes then (if p.other then p.count - 1 else data.length - p.count)
          else lengthOfLines (if p.other then p.count - 1 else ls.length - p.count) data
        if supply.isEndless then s.hang else s.put "tail" (data.drop dropped)
      s.readEach (cannotOpen "tail") (cannotRead "tail") use o.operands

/-! ## Counts -/

/-- Whether a byte stands between words. -/
def isSpace (b : UInt8) : Bool :=
  b = 32 || (9 ≤ b && b ≤ 13)

/-- The number of words. -/
def wordCount (data : Bytes) : Nat :=
  ((data.splitBy fun a b => isSpace a = isSpace b).filter fun p => !p.all isSpace).length

/-- The counts of bytes that options ask for: lines, words and bytes. -/
def counts (o : Options) (data : Bytes) : List Nat :=
  let all := !(o.has 'l' || o.has 'w' || o.has 'c' || o.has 'm')
  let characters := data.countP fun b => !(0x80 ≤ b && b < 0xC0)
  (if all || o.has 'l' then [data.count 10] else []) ++
    (if all || o.has 'w' then [wordCount data] else []) ++
    (if o.has 'm' then [characters] else []) ++
    (if all || o.has 'c' then [data.length] else [])

/-- Prints how many lines, words and bytes there are. -/
def tally (s : Shell) (arguments : List String) : Shell :=
  s.withOptions "wc" "lwcm" "" arguments fun o =>
    let isFile (path : String) : Bool :=
      if path = "-" then (match s.opening? 0 with | some (.file ..) => true | _ => false)
      else match s.locate path with | .ok (.node _ (.file ..)) => true | _ => false
    let operands := if o.operands = [] then ["-"] else o.operands
    let size (path : String) : Nat :=
      match s.openOperand path with
      | .ok (s, i) => ((s.supply i).toOption.map fun supply => supply.data.length).getD 0
      | .error _ => 0
    let there := operands.filter fun path => path = "-" || s.pathExists path
    let total := (there.filter isFile).foldl (fun n path => n + size path) 0
    let isOne := operands.length = 1 && (counts o []).length = 1
    let width := if isOne || there.isEmpty then 1
      else max (toString total).length (if there.all isFile then 1 else 7)
    let row (ns : List Nat) (path : String) : String :=
      let l : Printing.Layout := { width }
      " ".intercalate (ns.map fun n => l.pad (toString n)) ++
        (if path = "" then "" else " " ++ path) ++ "\n"
    let add (a b : List Nat) : List Nat := List.zipWith (· + ·) a b
    let one (state : Shell × List Nat) (path : String) : Shell × List Nat :=
      let (s, sums) := state
      match s.openOperand path with
      | .error e => ((s.report (plainly "wc" path (reasonOf e))).done 1, sums)
      | .ok (s, stream) =>
        match s.supply stream with
        | .error reason =>
          (((s.report (plainly "wc" path reason)).done 1).putText "wc" (row (counts o []) path),
            sums)
        | .ok supply =>
          let s := s.consumeAll stream
          let s := if supply.isEndless then s.hang else s
          let ns := counts o supply.data
          (s.putText "wc" (row ns (if o.operands = [] then "" else path)), add sums ns)
    let (s, sums) := operands.foldl one (s, counts o [])
    if 1 < operands.length then s.putText "wc" (row sums "total") else s

/-! ## Characters -/

/-- The characters of a named class, or those of a range. -/
def charactersBetween (a b : Nat) : List Char :=
  (List.range (b + 1 - a)).map fun i => Char.ofNat (a + i)

/-- The characters of a class. -/
def classCharacters : String → List Char
  | "lower" => charactersBetween 97 122
  | "upper" => charactersBetween 65 90
  | "digit" => charactersBetween 48 57
  | "alpha" => charactersBetween 65 90 ++ charactersBetween 97 122
  | "alnum" => charactersBetween 48 57 ++ charactersBetween 65 90 ++ charactersBetween 97 122
  | "space" => charactersBetween 9 13 ++ [' ']
  | "blank" => ['\t', ' ']
  | "punct" => charactersBetween 33 47 ++ charactersBetween 58 64 ++ charactersBetween 91 96 ++
      charactersBetween 123 126
  | "cntrl" => charactersBetween 0 31 ++ ['\x7f']
  | "print" => charactersBetween 32 126
  | "graph" => charactersBetween 33 126
  | _ => []

/-- The characters that a set for replacing stands for; `n` bounds the steps. -/
def setCharacters : Nat → List Char → List Char
  | 0, cs => cs
  | _, [] => []
  | n + 1, '[' :: ':' :: rest =>
    let name := rest.takeWhile Char.isAlpha
    match rest.drop name.length with
    | ':' :: ']' :: rest => classCharacters (String.ofList name) ++ setCharacters n rest
    | _ => '[' :: setCharacters n (':' :: rest)
  | n + 1, cs =>
    let (c, rest) := match cs with
      | '\\' :: rest =>
        match rest with
        | [] => ('\\', [])
        | d :: more =>
          if Printing.isOctal d || (Printing.letterEscape? d).isSome then Printing.escape rest
          else (d, more)
      | c :: rest => (c, rest)
      | [] => (' ', [])
    match rest with
    | '-' :: d :: rest => charactersBetween c.toNat d.toNat ++ setCharacters n rest
    | rest => c :: setCharacters n rest

/-- The bytes that a set for replacing stands for. -/
def byteSet (set : String) : Bytes :=
  (setCharacters (set.length + 1) set.toList).map fun c => UInt8.ofNat c.toNat

/-- Bytes of which those in a set never stand twice together. -/
def squeeze (set : Bytes) : Bytes → Bytes
  | a :: b :: rest =>
    if a = b && set.contains a then squeeze set (b :: rest) else a :: squeeze set (b :: rest)
  | data => data

/-- What replacing does to bytes. -/
def replacement (o : Options) (first second : Bytes) (data : Bytes) : Bytes :=
  let isIn (b : UInt8) : Bool := first.contains b != (o.has 'c' || o.has 'C')
  if o.has 'd' then
    let kept := data.filter fun b => !isIn b
    if o.has 's' then squeeze second kept else kept
  else if second = [] then
    squeeze ((List.range 256).map UInt8.ofNat |>.filter isIn) data
  else
    let swap (b : UInt8) : UInt8 :=
      if o.has 'c' || o.has 'C' then (if isIn b then second.getLastD b else b)
      else
        match first.reverse.findIdx? (· = b) with
        | some i => second.getD (first.length - 1 - i) (second.getLastD b)
        | none => b
    let swapped := data.map swap
    if o.has 's' then squeeze second swapped else swapped

/-- Replaces bytes of the standard input by others, or drops them. -/
def replace (s : Shell) (arguments : List String) : Shell :=
  s.withOptions "tr" "cCds" "" arguments fun o =>
    let go (first second : Bytes) : Shell :=
      match s.supply 0 with
      | .error reason => (s.report s!"tr: read error: {reason}").done 1
      | .ok supply =>
        let piece (s : Shell) (p : Nat × Bytes) : Shell :=
          if s.stop.isSome then s
          else (s.awaitTime p.1).put "tr" (replacement o first second p.2)
        let s := supply.pieces.foldl piece s
        if s.stop.isSome then s
        else if supply.isEndless then
          (s.writeEndlessly 1 (replacement o first second supply.refrain)).1
        else s.consumeAll 0
    match o.operands with
    | [] => s.refuse "tr" "missing operand" 1
    | [first] =>
      if o.has 'd' || o.has 's' then go (byteSet first) []
      else
        ((s.report s!"tr: missing operand after '{first}'").report
          "Two strings must be given when translating.").report
            "Try 'tr --help' for more information." |>.done 1
    | first :: second :: _ => go (byteSet first) (byteSet second)

/-! ## Lines -/

/-- The number at the front of a line. -/
def leadingNumber (line : String) : Int :=
  let cs := line.toList.dropWhile fun c => c = ' ' || c = '\t'
  let (sign, cs) := match cs with
    | '-' :: cs => (-1, cs)
    | cs => (1, cs)
  sign * (((String.ofList (cs.takeWhile Char.isDigit)).toNat?).getD 0 : Nat)

/-- Prints lines. -/
def putLines (s : Shell) (program : String) (ls : List String) : Shell :=
  s.putText program (String.join (ls.map (· ++ "\n")))

/-- Prints the lines of files in order. -/
def sortLines (s : Shell) (arguments : List String) : Shell :=
  s.withOptions "sort" "rnu" "" arguments fun o =>
    let (s, data) := s.gather "sort" o.operands
    let key (line : String) : Int := if o.has 'n' then leadingNumber line else 0
    let before (a b : String) : Bool :=
      if key a ≠ key b then key a < key b else decide (a ≤ b)
    let sorted := (textLines data).mergeSort fun a b => if o.has 'r' then before b a else before a b
    s.putLines "sort" (if o.has 'u' then (sorted.splitBy (· = ·)).filterMap List.head? else sorted)

/-- Prints lines that are alike and stand together once. -/
def uniqueLines (s : Shell) (arguments : List String) : Shell :=
  s.withOptions "uniq" "cdu" "" arguments fun o =>
    let (s, data) := s.gather "uniq" o.operands
    let groups := (textLines data).splitBy (· = ·)
    let groups := groups.filter fun g =>
      !(o.has 'd' && g.length = 1) && !(o.has 'u' && 1 < g.length)
    let l : Printing.Layout := { width := 7 }
    s.putLines "uniq" (groups.map fun g =>
      (if o.has 'c' then l.pad (toString g.length) ++ " " else "") ++ g.headD "")

/-- Whether a list of ranges such as `1,3-5,7-` has a number. -/
def inRanges (ranges : String) (n : Nat) : Bool :=
  (ranges.splitOn ",").any fun range =>
    match range.splitOn "-" with
    | [one] => one.toNat? = some n
    | [first, last] =>
      (first.toNat?.getD 1) ≤ n && (match last.toNat? with | some m => n ≤ m | none => true)
    | _ => false

/-- Prints some fields or characters of every line. -/
def cutLines (s : Shell) (arguments : List String) : Shell :=
  s.withOptions "cut" "s" "dfcb" arguments fun o =>
    let (s, data) := s.gather "cut" o.operands
    let pick {α : Type} (ranges : String) (xs : List α) : List α :=
      (xs.mapIdx fun i x => (i + 1, x)).filterMap fun (i, x) =>
        if inRanges ranges i then some x else none
    let mark := (o.get? 'd').getD "\t"
    let line (l : String) : Option String :=
      match o.get? 'f', o.get? 'c', o.get? 'b' with
      | some ranges, _, _ =>
        match l.splitOn mark with
        | [_] => if o.has 's' then none else some l
        | fields => some (mark.intercalate (pick ranges fields))
      | none, some ranges, _ | none, none, some ranges =>
        some (String.ofList (pick ranges l.toList))
      | none, none, none => none
    if o.flags.any fun f => f.1 = 'f' || f.1 = 'c' || f.1 = 'b' then
      s.putLines "cut" ((textLines data).filterMap line)
    else s.refuse "cut" "you must specify a list of bytes, characters, or fields" 1

/-- Prints lines from their ends on. -/
def reverseLines (s : Shell) (arguments : List String) : Shell :=
  s.withOptions "rev" "" "" arguments fun o =>
    let (s, data) := s.gather "rev" o.operands
    s.put "rev" ((lines data).flatMap fun l =>
      (l.filter (· ≠ 10)).reverse ++ if l.contains 10 then [10] else [])

/-- Prints lines from the last one on. -/
def lastFirst (s : Shell) (arguments : List String) : Shell :=
  s.withOptions "tac" "" "" arguments fun o =>
    let (s, data) := s.gather "tac" o.operands
    s.put "tac" (lines data).reverse.flatten

/-- Prints what comes in and writes it into files. -/
def branchOff (s : Shell) (arguments : List String) : Shell :=
  s.withOptions "tee" "ai" "" arguments fun o =>
    match s.supply 0 with
    | .error reason => (s.report s!"tee: standard input: {reason}").done 1
    | .ok supply =>
      let write (s : Shell) (path : String) : Shell :=
        match s.openOutput path (!o.has 'a') (o.has 'a') with
        | .error e => (s.report (plainly "tee" path (reasonOf e))).done 1
        | .ok (s, i) => ((s.setStream fileStream (some i)).write fileStream supply.data).1
      o.operands.foldl write (s.copy "tee" 0 supply)

/-! ## Numbers and endless text -/

/-- A decimal number as a multiple of a power of ten: the multiple and the count of places. -/
def decimal? (text : String) : Option (Int × Nat) :=
  let cs := text.toList
  let (sign, cs) := match cs with
    | '-' :: cs => ((-1 : Int), cs)
    | '+' :: cs => (1, cs)
    | cs => (1, cs)
  let whole := cs.takeWhile Char.isDigit
  let places := match cs.drop whole.length with
    | '.' :: rest => some rest
    | [] => some []
    | _ => none
  match places with
  | some places =>
    if places.all Char.isDigit then
      (String.ofList (whole ++ places)).toNat?.map fun n => (sign * n, places.length)
    else none
  | none => none

/-- A multiple of a power of ten in decimal. -/
def decimalText (n : Int) (places : Nat) : String :=
  let digits := toString n.natAbs
  let digits := String.ofList (List.replicate (places + 1 - digits.length) '0') ++ digits
  let cs := digits.toList
  let text := String.ofList (cs.take (cs.length - places)) ++
    if places = 0 then "" else "." ++ String.ofList (cs.drop (cs.length - places))
  (if n < 0 then "-" else "") ++ text

/-- Prints numbers from one to another. -/
def countUp (s : Shell) (arguments : List String) : Shell :=
  let isNumber (a : String) : Bool := a.startsWith "-" && (decimal? a).isSome
  let options := arguments.takeWhile fun a => a.startsWith "-" && !isNumber a
  let values := arguments.drop options.length
  let (options, values) := match options.getLast?, values with
    | some "-s", v :: rest => (options ++ [v], rest)
    | _, values => (options, values)
  s.withOptions "seq" "w" "s" options fun o =>
    match values.find? fun v => (decimal? v).isNone with
    | some v => s.refuse "seq" s!"invalid floating point argument: '{v}'" 1
    | none =>
      let go (first step last : Int × Nat) : Shell :=
        let places := max first.2 step.2
        let scale (x : Int × Nat) : Int := x.1 * (Nat.pow 10 (max places last.2 - x.2) : Nat)
        let (a, d, b) := (scale first, scale step, scale last)
        let total := if d = 0 then 0 else ((b - a).tdiv d + 1).toNat
        let total := if (b - a) * d < 0 then 0 else total
        let extra : Int := (Nat.pow 10 (max places last.2 - places) : Nat)
        let texts := (List.range total).map fun i : Nat =>
          decimalText ((a + d * i).tdiv extra) places
        let width := texts.foldl (fun n t => max n t.length) 0
        let widen (t : String) : String :=
          if o.has 'w' then String.ofList (List.replicate (width - t.length) '0') ++ t else t
        let text := ((o.get? 's').getD "\n").intercalate (texts.map widen)
        s.putText "seq" (if texts = [] then "" else text ++ "\n")
      match values.filterMap decimal? with
      | [last] => go (1, 0) (1, 0) last
      | [first, last] => go first (1, 0) last
      | [first, step, last] =>
        if step.1 = 0 then
          s.refuse "seq" ("invalid Zero increment value: '" ++ values.getD 1 "" ++ "'") 1
        else go first step last
      | [] => s.refuse "seq" "missing operand" 1
      | _ => s.refuse "seq" ("extra operand '" ++ values.getD 3 "" ++ "'") 1

/-- Prints the same line for ever. -/
def affirm (s : Shell) (arguments : List String) : Shell :=
  let line := if arguments = [] then "y" else " ".intercalate arguments
  (s.writeEndlessly 1 (Octets.toBytes (line ++ "\n"))).1

/-- The microseconds in a time that a pause is given: a decimal number with a unit. -/
def pauseTime? (text : String) : Option Nat :=
  let number := text.toList.takeWhile fun c => c.isDigit || c = '.'
  let unit? : Option Nat := match String.ofList (text.toList.drop number.length) with
    | "" | "s" => some 1
    | "m" => some 60
    | "h" => some 3600
    | "d" => some 86400
    | _ => none
  match decimal? (String.ofList number), unit? with
  | some (n, places), some unit => some (n.toNat * unit * 1000000 / Nat.pow 10 places)
  | _, _ => none

/-- Lets time pass. -/
def sleep (s : Shell) (arguments : List String) : Shell :=
  s.withOptions "sleep" "" "" arguments fun o =>
    if o.operands = [] then s.refuse "sleep" "missing operand" 1
    else
      let isEver (a : String) : Bool := a = "infinity" || a = "inf"
      match o.operands.find? fun a => !isEver a && (pauseTime? a).isNone with
      | some a => s.refuse "sleep" s!"invalid time interval '{a}'" 1
      | none =>
        if o.operands.any isEver then s.hang
        else s.pause (o.operands.foldl (fun n a => n + (pauseTime? a).getD 0) 0)

end CommandRelay.Program.Shell
