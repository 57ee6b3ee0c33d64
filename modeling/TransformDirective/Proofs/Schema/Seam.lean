import TransformDirective.Proofs.Schema.Relocation
import TransformDirective.Proofs.Schema.Spelling
import TransformDirective.Proofs.Text.Position

namespace TransformDirective.Text

/-- The place in a text that has so many more bytes and lines in front. -/
def Cursor.below (p : Cursor) (bytes lines : Nat) : Cursor :=
  ⟨p.offset + bytes, p.line + lines, p.column⟩

def Span.below (s : Span) (bytes lines : Nat) : Span :=
  ⟨s.start + bytes, s.stop + bytes, s.line + lines, s.column⟩

section Below

variable (bytes lines : Nat)

theorem Cursor.step_below (p : Cursor) (c : Char) :
    (p.below bytes lines).step c = (p.step c).below bytes lines := by
  unfold Cursor.step Cursor.below
  split
  · simp only [Cursor.mk.injEq, and_true]
    omega
  · simp only [Cursor.mk.injEq, and_true]
    omega

/-- A text that stands further down moves on there as it does at the start. -/
theorem Cursor.advance_below (p : Cursor) (cs : List Char) :
    (p.below bytes lines).advance cs = (p.advance cs).below bytes lines := by
  induction cs generalizing p with
  | nil => rfl
  | cons c cs ih => rw [advance_cons, advance_cons, step_below, ih]

/-- Behind a text and a line feed a new text starts. -/
theorem Cursor.start_below (a : String) : (start.advance a.toList).step '\n' =
    start.below (a.utf8ByteSize + 1) (a.toList.count '\n' + 1) := by
  have offset := offset_advance start a.toList
  have line := line_advance start a.toList
  have size : Char.utf8Size '\n' = 1 := rfl
  rw [String.ofList_toList] at offset
  rw [step, if_pos rfl, below, Cursor.mk.injEq, offset, line, size, Nat.add_assoc, Nat.add_assoc]
  exact ⟨rfl, rfl, rfl⟩

end Below

end TransformDirective.Text

namespace TransformDirective.Schema

open TransformDirective.Text TransformDirective.Number

def SyntaxError.mapSpan (g : Span → Span) (e : SyntaxError) : SyntaxError := ⟨e.cause, g e.span⟩

/-- A text further down is made of the same words further down, or has the same fault there. -/
theorem tokensFrom_below (bytes lines : Nat) (p : Cursor) (cs : List Char) :
    tokensFrom (p.below bytes lines) cs =
      match tokensFrom p cs with
      | .ok ts => .ok ⟨ts.words.map (·.mapSpan (·.below bytes lines)), ts.stop.below bytes lines⟩
      | .error e => .error (e.mapSpan (·.below bytes lines)) := by
  have between : ∀ p q : Cursor, Span.between (p.below bytes lines) (q.below bytes lines) =
      (Span.between p q).below bytes lines := fun _ _ => rfl
  induction p, cs using tokensFrom_induction with
  | done p cs hcs =>
    rw [tokensFrom_end hcs, tokensFrom_end hcs, Cursor.advance_below]
    rfl
  | fault p cs c r f hcs hv =>
    rw [tokensFrom_fault hcs hv, tokensFrom_fault hcs hv, Cursor.advance_below,
      Cursor.advance_below, between]
    rfl
  | word p cs c r l hcs hv ih =>
    rw [tokensFrom_word hcs hv, tokensFrom_word hcs hv, Cursor.advance_below,
      Cursor.advance_below, ih, between]
    cases tokensFrom _ (scanLexeme c r).rest <;> rfl

/-- The words of two texts with a line feed between them, which ends a comment at the end of the
first one. -/
theorem tokenize_line {a : String} {ta : Tokens} (h : tokenize a = .ok ta) (b : String) :
    let bytes := a.utf8ByteSize + 1
    let lines := a.toList.count '\n' + 1
    tokenize (a ++ "\n" ++ b) =
      match tokenize b with
      | .ok tb => .ok ⟨ta.words ++ tb.words.map (·.mapSpan (·.below bytes lines)),
          tb.stop.below bytes lines⟩
      | .error e => .error (e.mapSpan (·.below bytes lines)) := by
  intro bytes lines
  obtain ⟨ws, last, whole, laid, blank, rfl⟩ := exists_layout h
  have text : (a ++ "\n" ++ b).toList = layout ws ++ (last ++ '\n' :: b.toList) := by
    rw [String.toList_append, String.toList_append, whole, List.append_assoc, List.append_assoc]
    rfl
  have line : isSeparator '\n' := rfl
  have words := (laid.alike (.more line last b.toList)).tokensFrom []
  have front := (trivia_of_end blank).tokensFrom (.behind ([] ++ layout ws)) b.toList
  have start : Cursor.behind ([] ++ layout ws ++ (last ++ ['\n'])) =
      Cursor.start.below bytes lines := by
    rw [List.nil_append, ← List.append_assoc, ← whole, ← Cursor.start_advance,
      Cursor.advance_append, Cursor.advance_cons, Cursor.advance_nil, Cursor.start_below]
  rw [Cursor.advance_behind, start, tokensFrom_below, List.append_assoc,
    List.singleton_append] at front
  rw [tokenize, text]
  apply words.trans
  rw [front, tokenize]
  cases tokensFrom .start b.toList <;> rfl

end TransformDirective.Schema
