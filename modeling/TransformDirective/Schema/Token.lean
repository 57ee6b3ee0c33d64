import TransformDirective.Schema.Literal
import TransformDirective.Schema.SyntaxError

namespace TransformDirective.Schema

open TransformDirective.Text

/-- A character that separates words. -/
def isIgnored (c : Char) : Bool := isBlank c || c == ',' || c == '\uFEFF'

/-- Takes the separators and comments at the front; a comment goes from `#` to the line feed. -/
def skipTrivia : Bool → List Char → List Char × List Char
  | _, [] => ([], [])
  | comment, c :: cs =>
    if comment ∨ c = '#' ∨ isIgnored c then
      let r := skipTrivia (c ≠ '\n' ∧ (comment ∨ c = '#')) cs
      (c :: r.1, r.2)
    else ([], c :: cs)

theorem skipTrivia_append (comment : Bool) (cs : List Char) :
    (skipTrivia comment cs).1 ++ (skipTrivia comment cs).2 = cs := by
  induction cs generalizing comment with
  | nil => rfl
  | cons c cs ih =>
    unfold skipTrivia
    split
    · exact congrArg (c :: ·) (ih _)
    · rfl

def isNameStart (c : Char) : Bool := c == '_' || c.isAlpha

def isNameChar (c : Char) : Bool := c == '_' || c.isAlphanum

def scanName (first : Char) (cs : List Char) : Scan (Except LexFault Lexeme) :=
  let more := cs.takeWhile isNameChar
  ⟨.ok (.name (String.ofList (first :: more))), first :: more, cs.dropWhile isNameChar⟩

/-- Reads three points; a lone point is no word. -/
def scanSpread : List Char → Scan (Except LexFault Lexeme)
  | '.' :: '.' :: cs => ⟨.ok (.punct .spread), ['.', '.', '.'], cs⟩
  | cs => ⟨.error (.unexpectedChar '.'), ['.'], cs⟩

/-- Reads a string of either form behind its first quote. -/
def scanText : List Char → Scan (Except LexFault Lexeme)
  | '"' :: '"' :: cs => ((scanBlockString cs).cons '"').cons '"'
  | cs => scanString cs

/-- Reads the word that starts with `c` and goes on in `cs`. -/
def scanLexeme (c : Char) (cs : List Char) : Scan (Except LexFault Lexeme) :=
  match Punct.ofChar? c with
  | some p => ⟨.ok (.punct p), [c], cs⟩
  | none =>
    if c = '.' then scanSpread cs
    else if c = '"' then (scanText cs).cons c
    else if isNameStart c then scanName c cs
    else if c = '-' ∨ c.isDigit then scanNumber c cs
    else ⟨.error (.unexpectedChar c), [c], cs⟩

theorem scanName_splits (c : Char) (cs : List Char) : (scanName c cs).Splits (c :: cs) := by
  simp [Scan.Splits, scanName]

theorem scanSpread_splits (cs : List Char) : (scanSpread cs).Splits ('.' :: cs) := by
  unfold scanSpread; split <;> rfl

theorem scanText_splits (cs : List Char) : (scanText cs).Splits cs := by
  unfold scanText
  split
  · exact Scan.splits_cons (Scan.splits_cons (scanBlockString_splits _) _) _
  · exact scanString_splits _

/-- A word and what it leaves make up the text again. -/
theorem scanLexeme_splits (c : Char) (cs : List Char) : (scanLexeme c cs).Splits (c :: cs) := by
  unfold scanLexeme
  split
  · rfl
  · split
    · next h => subst h; exact scanSpread_splits cs
    · split
      · exact Scan.splits_cons (scanText_splits cs) c
      · split
        · exact scanName_splits c cs
        · split
          · exact scanNumber_splits c cs
          · rfl

theorem scanLexeme_text_ne_nil (c : Char) (cs : List Char) : (scanLexeme c cs).text ≠ [] := by
  unfold scanLexeme
  split
  · simp
  · split
    · unfold scanSpread; split <;> simp
    · split
      · simp [Scan.cons]
      · split
        · simp [scanName]
        · split
          · simp [scanNumber, Number.Numeral.text]
          · simp

/-- Every word takes a character, so the words of a text come to an end. -/
theorem length_scanLexeme_rest_le (c : Char) (cs : List Char) :
    (scanLexeme c cs).rest.length ≤ cs.length := by
  have h := congrArg List.length (scanLexeme_splits c cs)
  have := List.length_pos_iff.mpr (scanLexeme_text_ne_nil c cs)
  rw [List.length_append, List.length_cons] at h
  omega

structure Token where
  lexeme : Lexeme
  span : Span
  deriving DecidableEq, Repr

/-- The words of a text in order, and the place where the text ends. -/
structure Tokens where
  words : List Token
  stop : Cursor
  deriving DecidableEq, Repr

/-- Reads all words of a text that starts at `p`. -/
def tokensFrom (p : Cursor) (cs : List Char) : Except SyntaxError Tokens :=
  let t := skipTrivia false cs
  let p := p.advance t.1
  match _h : t.2 with
  | [] => .ok ⟨[], p⟩
  | c :: r =>
    let s := scanLexeme c r
    let q := p.advance s.text
    match s.value with
    | .error f => .error ⟨.lexical f, .between p q⟩
    | .ok x =>
      match tokensFrom q s.rest with
      | .error e => .error e
      | .ok ts => .ok { ts with words := ⟨x, .between p q⟩ :: ts.words }
termination_by cs.length
decreasing_by
  have hl := length_scanLexeme_rest_le c r
  have := congrArg List.length (skipTrivia_append false cs)
  rw [show (skipTrivia false cs).2 = c :: r from _h, List.length_append, List.length_cons] at this
  exact Nat.lt_of_le_of_lt hl (by omega)

def tokenize (source : String) : Except SyntaxError Tokens := tokensFrom .start source.toList

end TransformDirective.Schema
