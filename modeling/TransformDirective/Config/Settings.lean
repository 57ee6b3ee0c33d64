import TransformDirective.Parser
import TransformDirective.Text.Character

namespace TransformDirective.Config

open TransformDirective.Text

namespace Toml

inductive Scalar where
  | string (text : String)
  | integer (value : Int)
  deriving DecidableEq, Repr

/-- Line ends as line feeds; a carriage return may only stand before a line feed. -/
def unifyLineEnds? : List Char → Option (List Char)
  | [] => some []
  | '\r' :: '\n' :: cs => (unifyLineEnds? cs).map ('\n' :: ·)
  | c :: cs => if c = '\r' then none else (unifyLineEnds? cs).map (c :: ·)

def isSpace (c : Char) : Bool := c == ' ' || c == '\t'

/-- A character that may stand in comments and strings. -/
def isPlain (c : Char) : Bool := c == '\t' || (' ' ≤ c && c ≠ '\x7F')

def isBareKeyChar (c : Char) : Bool := c.isAlphanum || c == '_' || c == '-'

def spaces : Reader Unit := do
  let _ ← Parser.takeWhile isSpace
  return ()

def hexDigit : Reader Char := Reader.satisfy fun c => (hexDigit? c).isSome

def codePoint (digits : Nat) : Reader Char := do
  match scalar? (hexValue (← Reader.count digits hexDigit)) with
  | some c => return c
  | none => Reader.fail

/-- Takes an escape behind its backslash; a slash needs none. -/
def escape : Reader Char := do
  let c ← Reader.any
  if c = 'u' then codePoint 4
  else if c = 'U' then codePoint 8
  else if c = '/' then Reader.fail
  else match shortEscape? c with
    | some d => return d
    | none => Reader.fail

/-- Takes a string on one line behind its opening quote; escapes are read between double quotes. -/
def lineString (quote : Char) : Reader (List Char) :=
  Parser.collect do
    let c ← Reader.any
    if c = quote then return none
    else if c = '\\' ∧ quote = '"' then return some (← escape)
    else if isPlain c then return some c
    else Reader.fail

/-- Takes what a backslash starts between three double quotes: an escape, or a line end with all
blanks around it, which stands for nothing. -/
def blockEscape : Reader (List Char) := do
  let gap ← Parser.takeWhile isSpace
  if ← Reader.nextIs '\n' then
    let _ ← Parser.takeWhile fun c => isSpace c || c == '\n'
    return []
  else if gap.isEmpty then return [← escape]
  else Reader.fail

/-- The number of quotes that come next. -/
def quoteRun (quote : Char) : Reader Nat := fun s => .ok (s.takeWhile (· == quote)).length s

/-- Takes a string over several lines behind its three opening quotes. Up to two quotes may stand
before the closing ones. -/
def blockString (quote : Char) : Reader (List Char) := do
  if ← Reader.nextIs '\n' then Reader.char '\n'
  let pieces ← Parser.collect do
    let run ← quoteRun quote
    if run = 3 then
      Reader.word [quote, quote, quote]
      return none
    else if 5 < run then Reader.fail
    else
      let c ← Reader.any
      if c = '\\' ∧ quote = '"' then return some (← blockEscape)
      else if c = '\n' ∨ isPlain c then return some [c]
      else Reader.fail
  return pieces.flatten

def stringOf (quote : Char) : Reader String := do
  Reader.char quote
  if ← Reader.startsWith [quote, quote] then
    Reader.word [quote, quote]
    return String.ofList (← blockString quote)
  else return String.ofList (← lineString quote)

/-- Takes a key: bare, or a string on one line. -/
def key : Reader String := do
  match ← Parser.peek with
  | some '"' =>
    Reader.char '"'
    return String.ofList (← lineString '"')
  | some '\'' =>
    Reader.char '\''
    return String.ofList (← lineString '\'')
  | _ =>
    let cs ← Parser.takeWhile isBareKeyChar
    if cs.isEmpty then Reader.fail else return String.ofList cs

/-- The digits without the underscores between two of them. -/
def separatedDigits? (isDigit : Char → Bool) : List Char → Option (List Char)
  | [] => none
  | [c] => if isDigit c then some [c] else none
  | c :: '_' :: cs => if isDigit c then (separatedDigits? isDigit cs).map (c :: ·) else none
  | c :: d :: cs => if isDigit c then (separatedDigits? isDigit (d :: cs)).map (c :: ·) else none

def baseValue (base : Nat) (ds : List Char) : Nat :=
  ds.foldl (fun n d => base * n + (hexDigit? d).getD 0) 0

def isBaseDigit (base : Nat) (c : Char) : Bool := (hexDigit? c).any (· < base)

/-- The number in a base, with underscores. -/
def natural? (base : Nat) (cs : List Char) : Option Nat :=
  (separatedDigits? (isBaseDigit base) cs).map (baseValue base)

/-- The decimal number without leading zeros. -/
def decimal? (cs : List Char) : Option Int :=
  if cs.head? = some '0' ∧ cs ≠ ['0'] then none else (natural? 10 cs).map Int.ofNat

/-- The integer written so; only decimal ones may have a sign. -/
def unboundedInteger? : List Char → Option Int
  | '0' :: 'x' :: cs => (natural? 16 cs).map Int.ofNat
  | '0' :: 'o' :: cs => (natural? 8 cs).map Int.ofNat
  | '0' :: 'b' :: cs => (natural? 2 cs).map Int.ofNat
  | '-' :: cs => (decimal? cs).map Int.neg
  | '+' :: cs => decimal? cs
  | cs => decimal? cs

/-- The integer written so, if it has 64 bits. -/
def integer? (cs : List Char) : Option Int :=
  (unboundedInteger? cs).filter fun n => -0x8000000000000000 ≤ n ∧ n < 0x8000000000000000

def scalar : Reader Scalar := do
  match ← Parser.peek with
  | some '"' => return .string (← stringOf '"')
  | some '\'' => return .string (← stringOf '\'')
  | _ =>
    match integer? (← Parser.takeWhile fun c => isBareKeyChar c || c == '+') with
    | some n => return .integer n
    | none => Reader.fail

/-- Takes the end of a line: a comment if there is one, and a line feed unless the text ends. -/
def lineEnd : Reader Unit := do
  spaces
  if ← Reader.nextIs '#' then
    let _ ← Parser.takeWhile isPlain
  if ← Reader.atEnd then return () else Reader.char '\n'

/-- Takes a line: a pair, or nothing but blanks and a comment. -/
def line : Reader (Option (String × Scalar)) := do
  spaces
  match ← Parser.peek with
  | none | some '\n' | some '#' =>
    lineEnd
    return none
  | some _ =>
    let k ← key
    spaces
    Reader.char '='
    spaces
    let v ← scalar
    lineEnd
    return some (k, v)

def pairs : Reader (List (String × Scalar)) := do
  let ls ← Parser.collect do
    if ← Reader.atEnd then return none else return some (← line)
  return ls.filterMap id

def dropByteOrderMark : List Char → List Char
  | '\uFEFF' :: cs => cs
  | cs => cs

end Toml

/-- The pairs of a TOML document in order. -/
def tomlPairs? (source : String) : Option (List (String × Toml.Scalar)) :=
  (Toml.unifyLineEnds? (Toml.dropByteOrderMark source.toList)).bind Toml.pairs.readAll?

/-- Names and paths used for compiling, and the blanks that indent a level. -/
structure Settings where
  directiveName : String
  modelDirective : String
  inputRoot : String
  entryVar : String
  indent : Nat
  deriving DecidableEq, Repr

namespace Settings

def default : Settings := ⟨"transform", "model", "$ctx.args.input", "entry", 2⟩

/-- The settings with one of them given; `none` for an unknown key or a value of the wrong kind. -/
def assign? (s : Settings) : String × Toml.Scalar → Option Settings
  | ("directive_name", .string v) => some { s with directiveName := v }
  | ("model_directive", .string v) => some { s with modelDirective := v }
  | ("input_root", .string v) => some { s with inputRoot := v }
  | ("entry_var", .string v) => some { s with entryVar := v }
  | ("indent", .integer n) => if 0 ≤ n then some { s with indent := n.toNat } else none
  | _ => none

/-- The settings that pairs give; no key may repeat. -/
def ofPairs? (ps : List (String × Toml.Scalar)) : Option Settings :=
  if (ps.map (·.1)).Nodup then ps.foldlM assign? default else none

def ofToml? (source : String) : Option Settings := (tomlPairs? source).bind ofPairs?

end Settings

end TransformDirective.Config
