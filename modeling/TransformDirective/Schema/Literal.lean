import TransformDirective.Number.Numeral
import TransformDirective.Schema.Lexeme
import TransformDirective.Text.Character
import TransformDirective.Text.Cursor
import TransformDirective.Text.Lines

namespace TransformDirective.Schema

open TransformDirective.Text TransformDirective.Number

/-- The number meant. An integer needs a digit and 64 bits; any other number needs a digit before
the exponent and, behind a marker, one in it. -/
def numeralLexeme? (n : Numeral) : Option Lexeme :=
  if n.isInteger then
    if n.whole ≠ [] ∧ -0x8000000000000000 ≤ n.intValue ∧ n.intValue < 0x8000000000000000 then
      some (.int n.intValue)
    else none
  else if n.digits ≠ [] ∧ n.exponent.all (·.digits ≠ []) then some (.float n.floatValue)
  else none

def scanNumber (first : Char) (cs : List Char) : Scan (Except LexFault Lexeme) :=
  let n := Numeral.take first cs
  ⟨(numeralLexeme? n.1).elim (.error (.invalidNumber n.1.quotedText)) .ok, n.1.text, n.2⟩

theorem scanNumber_splits (first : Char) (cs : List Char) :
    (scanNumber first cs).Splits (first :: cs) := Numeral.take_append first cs

/-- Where a reader stands inside a string: between characters, behind a backslash, or behind the
first digits of a code point. -/
inductive QuoteState where
  | plain
  | escaped
  | hex (digits : List Char)
  deriving DecidableEq, Repr

def pushChar (c : Char) (s : Scan (Except LexFault (List Char))) :
    Scan (Except LexFault (List Char)) := s.map (Except.map (c :: ·))

/-- Takes the rest of a string and its closing quote. -/
def scanQuoted : QuoteState → List Char → Scan (Except LexFault (List Char))
  | .hex _, [] => ⟨.error .shortUnicodeEscape, [], []⟩
  | _, [] => ⟨.error .unterminatedString, [], []⟩
  | .plain, c :: cs =>
    if c = '"' then ⟨.ok [], [c], cs⟩
    else if c = '\n' then ⟨.error .unterminatedString, [c], cs⟩
    else if c = '\\' then (scanQuoted .escaped cs).cons c
    else (pushChar c (scanQuoted .plain cs)).cons c
  | .escaped, c :: cs =>
    if c = 'u' then (scanQuoted (.hex []) cs).cons c
    else match shortEscape? c with
      | some d => (pushChar d (scanQuoted .plain cs)).cons c
      | none => ⟨.error (.invalidEscape c), [c], cs⟩
  | .hex ds, c :: cs =>
    if (hexDigit? c).isNone then ⟨.error .shortUnicodeEscape, [c], cs⟩
    else if ds.length < 3 then (scanQuoted (.hex (ds ++ [c])) cs).cons c
    else match scalar? (hexValue (ds ++ [c])) with
      | some d => (pushChar d (scanQuoted .plain cs)).cons c
      | none => ⟨.error (.surrogateEscape (ds ++ [c])), [c], cs⟩

theorem splits_pushChar {s : Scan (Except LexFault (List Char))} {input : List Char}
    (h : s.Splits input) (c : Char) : (pushChar c s).Splits input := h

theorem scanQuoted_splits (q : QuoteState) (cs : List Char) : (scanQuoted q cs).Splits cs := by
  fun_induction scanQuoted q cs with
  | case1 | case2 | case3 | case4 | case9 | case10 | case13 => rfl
  | case5 | case7 | case11 => exact Scan.splits_cons ‹_› _
  | case6 | case8 | case12 => exact Scan.splits_cons (splits_pushChar ‹_› _) _

/-- Reads a string behind its opening quote. -/
def scanString (cs : List Char) : Scan (Except LexFault Lexeme) :=
  (scanQuoted .plain cs).map (Except.map fun value => .string (String.ofList value))

theorem scanString_splits (cs : List Char) : (scanString cs).Splits cs :=
  scanQuoted_splits .plain cs

/-- Takes the content up to the closing triple quote, in which a backslash before a triple quote
stands for the triple quote; `none` if the text ends first. -/
def scanBlockContent : List Char → Scan (Option (List Char))
  | [] => ⟨none, [], []⟩
  | '"' :: '"' :: '"' :: cs => ⟨some [], ['"', '"', '"'], cs⟩
  | '\\' :: '"' :: '"' :: '"' :: cs =>
    ((((scanBlockContent cs).map (Option.map (['"', '"', '"'] ++ ·))).cons '"').cons '"').cons '"'
      |>.cons '\\'
  | c :: cs => ((scanBlockContent cs).map (Option.map (c :: ·))).cons c

/-- A block string takes the front of its text and leaves the rest. -/
theorem scanBlockContent_splits (cs : List Char) : (scanBlockContent cs).Splits cs := by
  fun_induction scanBlockContent cs with
  | case1 => rfl
  | case2 => rfl
  | case3 cs ih =>
    exact Scan.splits_cons (Scan.splits_cons (Scan.splits_cons (Scan.splits_cons ih _) _) _) _
  | case4 c cs _ _ ih => exact Scan.splits_cons ih c

/-- A blank or tab that may indent a line. -/
def isIndent (c : Char) : Bool := c == ' ' || c == '\t'

/-- The number of blanks and tabs a line starts with. -/
def indentWidth (line : List Char) : Nat := (line.takeWhile isIndent).length

/-- The lines of a block string without carriage returns at their ends. -/
def blockLines (raw : List Char) : List (List Char) :=
  (splitLines raw).map (dropEndWhile (· == '\r'))

/-- The least indentation of the lines that are not blank. -/
def commonIndent (ls : List (List Char)) : Nat :=
  (((ls.filter fun l => !isBlankLine l).map indentWidth).min?).getD 0

/-- A line behind the first without the common indentation; a blank line becomes empty. -/
def dedentLine (width : Nat) (line : List Char) : List Char :=
  if isBlankLine line then [] else line.drop width

/-- The lines with the common indentation of all but the first removed. -/
def dedent : List (List Char) → List (List Char)
  | [] => []
  | l :: ls => l :: ls.map (dedentLine (commonIndent ls))

def blockValue (raw : List Char) : List Char := joinLines (dropBlankEnds (dedent (blockLines raw)))

/-- Reads a block string behind its opening quotes. -/
def scanBlockString (cs : List Char) : Scan (Except LexFault Lexeme) :=
  (scanBlockContent cs).map fun raw =>
    raw.elim (.error .unterminatedString) fun raw => .ok (.string (String.ofList (blockValue raw)))

theorem scanBlockString_splits (cs : List Char) : (scanBlockString cs).Splits cs :=
  scanBlockContent_splits cs

end TransformDirective.Schema
