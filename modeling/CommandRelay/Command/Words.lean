import CommandRelay.Text.Point

/-! # Shell words

A line is split into words at blanks outside quotes. Single quotes keep everything up to the next
one; between double quotes a backslash protects only a backslash or a double quote; outside
quotes it protects any character. Nothing is expanded. `Words.quote` writes one word so that
splitting gives it back. -/

namespace CommandRelay.Words

/-- Why a line cannot be split. -/
inductive Fault where
  | openQuotation
  | openEscape
  deriving DecidableEq, Repr

/-- The wording of a fault. -/
def Fault.message : Fault → String
  | .openQuotation => "No closing quotation"
  | .openEscape => "No escaped character"

/-- What the next point of a line belongs to. -/
inductive Mode where
  | blank
  | word
  | single
  | double
  | escaped
  | escapedInDouble
  deriving DecidableEq, Repr

/-- The points that separate words. -/
def isBlank (p : Point) : Bool :=
  p = ' ' || p = '\t' || p = '\r' || p = '\n'

/-- What a point does: the next mode, the points added to the word, and whether the word ends. -/
def advance (mode : Mode) (p : Point) : Mode × Text × Bool :=
  match mode with
  | .blank =>
    if isBlank p then (.blank, [], false)
    else if p = '\'' then (.single, [], false)
    else if p = '"' then (.double, [], false)
    else if p = '\\' then (.escaped, [], false)
    else (.word, [p], false)
  | .word =>
    if isBlank p then (.blank, [], true)
    else if p = '\'' then (.single, [], false)
    else if p = '"' then (.double, [], false)
    else if p = '\\' then (.escaped, [], false)
    else (.word, [p], false)
  | .single => if p = '\'' then (.word, [], false) else (.single, [p], false)
  | .double =>
    if p = '"' then (.word, [], false)
    else if p = '\\' then (.escapedInDouble, [], false)
    else (.double, [p], false)
  | .escaped => (.word, [p], false)
  | .escapedInDouble =>
    if p = '\\' ∨ p = '"' then (.double, [p], false) else (.double, ['\\', p], false)

/-- Splits the rest of a line; `word` holds what is read of the current word. -/
def splitFrom : Mode → Text → Text → Except Fault (List Text)
  | .blank, _, [] => .ok []
  | .word, word, [] => .ok [word]
  | .single, _, [] | .double, _, [] => .error .openQuotation
  | .escaped, _, [] | .escapedInDouble, _, [] => .error .openEscape
  | mode, word, p :: rest =>
    let (next, added, ends) := advance mode p
    if ends then (splitFrom next [] rest).map (word :: ·)
    else splitFrom next (word ++ added) rest

/-- The words of a line. -/
def split (line : Text) : Except Fault (List Text) :=
  splitFrom .blank [] line

/-- The points that need no quotes. -/
def isSafe : Point → Bool
  | .char c => c.isAlphanum || "_@%+=:,./-".toList.contains c
  | .half _ => false

/-- A single quote of a word in single quotes: it stands between double ones outside them. -/
def protectedQuote : Text := "'\"'\"'"

/-- A word in single quotes. -/
def quoted (word : Text) : Text :=
  let inside := word.flatMap fun p : Point => if p = '\'' then protectedQuote else [p]
  .char '\'' :: inside ++ [.char '\'']

/-- The written form of a word: quoted unless every point of it is safe. -/
def quote (word : Text) : Text :=
  if word ≠ [] && word.all isSafe then word else quoted word

end CommandRelay.Words
