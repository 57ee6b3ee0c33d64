import TransformDirective.Scenario.Pattern
import TransformDirective.Parser

namespace TransformDirective.Scenario.Pattern

open TransformDirective.Text

def digits : CharRanges := [('0', '9')]

/-- What a backslash and a character stand for. A backslash gives no meaning to the letters and
digits that are not named here, nor to an angle bracket. -/
def escaped? (c : Char) : Option ClassItem :=
  if c = 'd' then some (.named false digits)
  else if c = 'n' then some (.char '\n')
  else if c.toNat < 128 ∧ ¬c.isAlphanum ∧ c ≠ '<' ∧ c ≠ '>' then some (.char c)
  else none

def escape : Reader ClassItem := do
  match escaped? (← Reader.any) with
  | some item => return item
  | none => Reader.fail

def classItem : Reader ClassItem := do
  let c ← Reader.any
  if c = '\\' then escape else return .char c

/-- A dash stands between the ends of a range, but not before a dash or the closing bracket. -/
def atRangeDash : Reader Bool := do
  if ← Reader.startsWith ['-', '-'] then return false
  if ← Reader.startsWith ['-', ']'] then return false
  Reader.nextIs '-'

/-- Takes an item or a range, whose ends are characters in order. -/
def classRange : Reader ClassItem := do
  let first ← classItem
  if !(← atRangeDash) then return first
  Reader.char '-'
  match first, ← classItem with
  | .char a, .char b => if a ≤ b then return .range a b else Reader.fail
  | _, _ => Reader.fail

def namedSet? : String → Option CharRanges
  | "alnum" => some [('0', '9'), ('A', 'Z'), ('a', 'z')]
  | "alpha" => some [('A', 'Z'), ('a', 'z')]
  | "ascii" => some [('\x00', '\x7f')]
  | "blank" => some [('\t', '\t'), (' ', ' ')]
  | "cntrl" => some [('\x00', '\x1f'), ('\x7f', '\x7f')]
  | "digit" => some digits
  | "graph" => some [('!', '~')]
  | "lower" => some [('a', 'z')]
  | "print" => some [(' ', '~')]
  | "punct" => some [('!', '/'), (':', '@'), ('[', '\x60'), ('\x7b', '~')]
  | "space" => some [('\t', '\r'), (' ', ' ')]
  | "upper" => some [('A', 'Z')]
  | "word" => some [('0', '9'), ('A', 'Z'), ('_', '_'), ('a', 'z')]
  | "xdigit" => some [('0', '9'), ('A', 'F'), ('a', 'f')]
  | _ => none

/-- Takes a set by its name between colons and brackets; a caret takes all but this set. -/
def namedItem : Reader ClassItem := do
  Reader.word ['[', ':']
  let negated ← Reader.nextIs '^'
  if negated then Reader.char '^'
  let name ← Parser.takeWhile (· != ':')
  Reader.word [':', ']']
  match namedSet? (String.ofList name) with
  | some set => return .named negated set
  | none => Reader.fail

/-- Two of a kind that are kept for operations on classes. -/
def atClassOperator : Reader Bool := do
  if ← Reader.startsWith ['&', '&'] then return true
  if ← Reader.startsWith ['-', '-'] then return true
  Reader.startsWith ['~', '~']

/-- Takes the next item of a class, if the class does not end here. -/
def nextClassItem? : Reader (Option ClassItem) := do
  if ← Reader.nextIs ']' then return none
  if ← Reader.nextIs '[' then return some (← namedItem)
  if ← atClassOperator then Reader.fail
  return some (← classRange)

/-- Takes a class behind its opening bracket. The dashes in front are items, and without them a
closing bracket in front is one. -/
def charClass : Reader CharClass := do
  let negated ← Reader.nextIs '^'
  if negated then Reader.char '^'
  let dashes ← Parser.takeWhile (· == '-')
  let bracket := dashes.isEmpty && (← Reader.nextIs ']')
  if bracket then Reader.char ']'
  let front := dashes ++ if bracket then [']'] else []
  let items ← Parser.collect nextClassItem?
  Reader.char ']'
  return ⟨negated, front.map .char ++ items⟩

/-- A character that has to be escaped to stand for itself. -/
def isOperator (c : Char) : Bool := ['(', ')', '|', '?', '*', '+', '{', '['].contains c

/-- Takes what a backslash in front makes of a character: an edge of words, or an item. -/
def escapedPiece : Reader PatternPiece := do
  if ← Reader.nextIs '<' then
    Reader.char '<'
    return .edge .wordStart
  if ← Reader.nextIs '>' then
    Reader.char '>'
    return .edge .wordEnd
  return .one (.ofItem (← escape))

/-- Takes a piece without its repetition. A dot is any character, but a line feed only if asked. -/
def piece (dotMatchesLineFeed : Bool) : Reader PatternPiece := do
  let c ← Reader.any
  if c = '^' then return .edge .textStart
  else if c = '$' then return .edge .textEnd
  else if c = '.' then return .one ⟨true, if dotMatchesLineFeed then [] else [.char '\n']⟩
  else if c = '\\' then escapedPiece
  else if c = '[' then return .one (← charClass)
  else if isOperator c then Reader.fail
  else return .one (.ofItem (.char c))

/-- A piece with the run of repetition marks behind it. -/
structure MarkedPiece where
  piece : PatternPiece
  marks : List Char
  deriving DecidableEq, Repr

/-- The pieces that a marked piece stands for: any star among the marks allows for none. -/
def MarkedPiece.unfold (m : MarkedPiece) : Pattern :=
  match m.piece, m.marks with
  | p, [] => [p]
  | .one k, marks => if '*' ∈ marks then [.many k] else [.one k, .many k]
  | p, marks => if '*' ∈ marks then [] else [p]

def maxNesting : Nat := 50

/-- The nesting of a sequence: one for every mark, and one for a sequence of two or more. -/
def nesting : List MarkedPiece → Nat
  | [] => 0
  | [m] => m.marks.length
  | ms => ms.foldl (fun n m => max n m.marks.length) 0 + 1

def nextPiece? (dotMatchesLineFeed : Bool) : Reader (Option MarkedPiece) := do
  if ← Reader.atEnd then return none
  let p ← piece dotMatchesLineFeed
  return some ⟨p, ← Parser.takeWhile fun c => c == '*' || c == '+'⟩

/-- Takes a pattern; `(?s)` in front lets dots match line feeds. -/
def pattern : Reader Pattern := do
  let flag := ['(', '?', 's', ')']
  let dotAll ← Reader.startsWith flag
  if dotAll then Reader.word flag
  let pieces ← Parser.collect (nextPiece? dotAll)
  if maxNesting < nesting pieces then Reader.fail
  return pieces.flatMap (·.unfold)

def parse? (source : String) : Option Pattern := pattern.readAll? source.toList

end TransformDirective.Scenario.Pattern
