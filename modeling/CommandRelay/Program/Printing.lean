import CommandRelay.Program.Expression

/-! # Printed text

The two ways in which scripts print their arguments: joined by blanks, or as a format says, which is
used again while arguments are left. Escapes stand for octets. -/

namespace CommandRelay.Program.Printing

/-! ## Escapes -/

/-- The value of octal digits. -/
def octal (ds : List Char) : Nat :=
  ds.foldl (fun n d => 8 * n + (d.toNat - '0'.toNat)) 0

/-- Whether a character is an octal digit. -/
def isOctal (c : Char) : Bool :=
  '0' ≤ c && c ≤ '7'

/-- The octet of an escape that is a single letter. -/
def letterEscape? : Char → Option Char
  | 'a' => some '\x07'
  | 'b' => some '\x08'
  | 'e' => some '\x1b'
  | 'f' => some '\x0c'
  | 'n' => some '\n'
  | 'r' => some '\r'
  | 't' => some '\t'
  | 'v' => some '\x0b'
  | '\\' => some '\\'
  | _ => none

/-- The octet of an escape after its backslash, and the rest; a backslash before anything else
stands for itself. -/
def escape (cs : List Char) : Char × List Char :=
  let ds := (cs.take 3).takeWhile isOctal
  match cs with
  | [] => ('\\', [])
  | c :: rest =>
    if ds ≠ [] then (Char.ofNat (octal ds % 256), cs.drop ds.length)
    else
      match letterEscape? c with
      | some d => (d, rest)
      | none => ('\\', cs)

/-- A text with its escapes followed, and whether one of them says to stop; `n` bounds the steps. -/
def unescape : Nat → List Char → List Char × Bool
  | 0, cs => (cs, false)
  | _, [] => ([], false)
  | n + 1, '\\' :: cs =>
    if cs.head? = some 'c' then ([], true)
    else
      let cs := match cs with
        | '0' :: d :: rest => if isOctal d then d :: rest else cs
        | cs => cs
      let (c, rest) := escape cs
      let (more, stops) := unescape n rest
      (c :: more, stops)
  | n + 1, c :: cs =>
    let (more, stops) := unescape n cs
    (c :: more, stops)

/-- A text with its escapes followed, and whether one of them says to stop. -/
def unescaped (s : String) : String × Bool :=
  let (cs, stops) := unescape (s.length + 1) s.toList
  (String.ofList cs, stops)

/-- Arguments joined by blanks, with a line feed unless the first of them forbids it. -/
def joined (arguments : List String) : String :=
  let (ending, arguments) := match arguments with
    | "-n" :: rest => ("", rest)
    | arguments => ("\n", arguments)
  let (text, stops) := unescaped (" ".intercalate arguments)
  if stops then text else text ++ ending

/-! ## Formats -/

/-- How a directive lays out what it shows. -/
structure Layout where
  left : Bool := false
  zeros : Bool := false
  plus : Bool := false
  blank : Bool := false
  alternate : Bool := false
  width : Nat := 0
  precision : Option Nat := none
  deriving DecidableEq, Repr

/-- What has been printed: the text, the arguments that are left, whether any was used, what is
wrong, and whether nothing more is to be printed. -/
structure Progress where
  shown : String := ""
  left : List String
  used : Bool := false
  faults : List String := []
  status : Int := 0
  stops : Bool := false
  deriving Repr

/-- A text in a field of a given width. -/
def Layout.pad (l : Layout) (s : String) : String :=
  let fill := String.ofList (List.replicate (l.width - s.length) ' ')
  if l.left then s ++ fill else fill ++ s

/-- A number in a field, from its sign, the mark of its base and its digits. -/
def Layout.number (l : Layout) (sign mark digits : String) : String :=
  let digits := match l.precision with
    | some p => String.ofList (List.replicate (p - digits.length) '0') ++ digits
    | none => digits
  let size := sign.length + mark.length + digits.length
  if l.zeros && !l.left && l.precision.isNone then
    sign ++ mark ++ String.ofList (List.replicate (l.width - size) '0') ++ digits
  else l.pad (sign ++ mark ++ digits)

/-- The digits of a number in a base. -/
def digitsIn (base n : Nat) : String :=
  String.ofList (Nat.toDigits base n)

/-- The next argument, if there is one. -/
def Progress.next (p : Progress) : Option String × Progress :=
  match p.left with
  | [] => (none, p)
  | a :: rest => (some a, { p with left := rest, used := true })

/-- Notes something wrong with an argument. -/
def Progress.fault (p : Progress) (text : String) : Progress :=
  { p with faults := p.faults ++ [text], status := 1 }

/-- The number that an argument stands for: a number, or the code of a character after a quote. What
is wrong with it is noted. -/
def numberOf (p : Progress) (a : String) : Int × Progress :=
  let isBlank (c : Char) : Bool := c = ' ' || c = '\t' || c = '\n'
  match a.toList with
  | '\'' :: rest | '"' :: rest => ((rest.headD '\x00').toNat, p)
  | cs =>
    let cs := cs.dropWhile isBlank
    let (isNegative, ds) := match cs with
      | '-' :: rest => (true, rest)
      | '+' :: rest => (false, rest)
      | cs => (false, cs)
    match Expression.digitsOf ds with
    | none => (0, if a = "" then p else p.fault s!"{a}: expected numeric value")
    | some (n, rest) =>
      let n : Int := if isNegative then -n else n
      let limit := Expression.greatest
      let bounded := max (-limit - 1) (min n limit)
      let p := if bounded ≠ n then p.fault s!"{a}: Numerical result out of range"
        else if rest ≠ [] then p.fault s!"{a}: not completely converted"
        else p
      (bounded, p)

/-- The flags of a directive, and the rest. -/
def takeFlags (l : Layout) : List Char → Layout × List Char
  | '-' :: rest => takeFlags { l with left := true } rest
  | '0' :: rest => takeFlags { l with zeros := true } rest
  | '+' :: rest => takeFlags { l with plus := true } rest
  | ' ' :: rest => takeFlags { l with blank := true } rest
  | '#' :: rest => takeFlags { l with alternate := true } rest
  | rest => (l, rest)

/-- A size that is written in a directive or given by an argument, and the rest. -/
def takeSize (p : Progress) (cs : List Char) : Option Int × Progress × List Char :=
  match cs with
  | '*' :: rest =>
    match p.next with
    | (some a, p) =>
      let (n, p) := numberOf p a
      (some n, p, rest)
    | (none, p) => (some 0, p, rest)
  | cs =>
    let ds := cs.takeWhile Char.isDigit
    ((String.ofList ds).toNat?.map fun n => (n : Int), p, cs.drop ds.length)

/-- A directive up to its letter: its layout, and the rest. -/
def takeLayout (p : Progress) (cs : List Char) : Layout × Progress × List Char :=
  let (l, rest) := takeFlags {} cs
  let (width, p, rest) := takeSize p rest
  let w := width.getD 0
  let l := { l with left := l.left || w < 0, width := w.natAbs }
  match rest with
  | '.' :: rest =>
    let (precision, p, rest) := takeSize p rest
    let n := precision.getD 0
    ({ l with precision := if n < 0 then none else some n.toNat }, p, rest)
  | rest => (l, p, rest)

/-- What a whole number looks like by a letter. -/
def wholeNumber (l : Layout) (letter : Char) (n : Int) : String :=
  let natural := (n.emod 18446744073709551616).toNat
  match letter with
  | 'd' | 'i' =>
    let sign := if n < 0 then "-" else if l.plus then "+" else if l.blank then " " else ""
    l.number sign "" (toString n.natAbs)
  | 'o' => l.number "" (if l.alternate then "0" else "") (digitsIn 8 natural)
  | 'x' => l.number "" (if l.alternate && n ≠ 0 then "0x" else "") (digitsIn 16 natural)
  | 'X' =>
    l.number "" (if l.alternate && n ≠ 0 then "0X" else "") (digitsIn 16 natural).toUpper
  | _ => l.number "" "" (toString natural)

/-- The start of a text that a precision leaves. -/
def Layout.cut (l : Layout) (s : String) : String :=
  match l.precision with
  | some n => String.ofList (s.toList.take n)
  | none => s

/-- Uses a format once; `n` bounds the steps. -/
def useFormat : Nat → List Char → Progress → Progress
  | 0, _, p => p
  | _, [], p => p
  | n + 1, '\\' :: cs, p =>
    if cs.head? = some 'c' then { p with stops := true }
    else
      let (c, rest) := escape cs
      useFormat n rest { p with shown := p.shown.push c }
  | n + 1, '%' :: '%' :: rest, p => useFormat n rest { p with shown := p.shown.push '%' }
  | n + 1, '%' :: cs, p =>
    let (l, p, rest) := takeLayout p cs
    let more (p : Progress) (s : String) (rest : List Char) : Progress :=
      useFormat n rest { p with shown := p.shown ++ s }
    match rest with
    | [] =>
      let faults := p.faults ++ ["missing format character"]
      { p with faults, status := 1, stops := true }
    | letter :: rest =>
      if ['d', 'i', 'o', 'u', 'x', 'X'].contains letter then
        match p.next with
        | (none, p) => more p (wholeNumber l letter 0) rest
        | (some a, p) =>
          let (v, p) := numberOf p a
          more p (wholeNumber l letter v) rest
      else
        let (a, q) := p.next
        let a := a.getD ""
        match letter with
        | 's' => more q (l.pad (l.cut a)) rest
        | 'c' => more q (l.pad (String.ofList (a.toList.take 1))) rest
        | 'b' =>
          let (text, stops) := unescaped a
          let text := l.pad (l.cut text)
          if stops then { q with shown := q.shown ++ text, stops := true } else more q text rest
        | letter =>
          let written := String.ofList (cs.take (cs.length - rest.length - 1))
          { p with
            faults := p.faults ++ [s!"%{written}{letter}: invalid directive"]
            status := 2
            stops := true }
  | n + 1, c :: cs, p => useFormat n cs { p with shown := p.shown.push c }

/-- Uses a format again while it uses arguments and some are left; `n` bounds the uses. -/
def repeatFormat (format : String) : Nat → Progress → Progress
  | 0, p => p
  | n + 1, p =>
    let p := useFormat (format.length + 1) format.toList { p with used := false }
    if p.stops || !p.used || p.left = [] then p else repeatFormat format n p

/-- What a format prints for arguments. -/
def formatted (format : String) (arguments : List String) : Progress :=
  repeatFormat format (arguments.length + 1) { left := arguments }

end CommandRelay.Program.Printing
