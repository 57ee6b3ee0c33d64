import TransformDirective.Proofs.Schema.Layout

namespace TransformDirective.Schema

open TransformDirective.Text

/-- Behind this front of the source the reader looks for a word: words and what separates them stand
in front, and the source goes on with a character that separates nothing. -/
structure WordStarts (source front : List Char) (c : Char) (cs : List Char) : Prop where
  whole : source = front ++ c :: cs
  behind : ∃ ws gap, front = layout ws ++ gap ∧ Laid (gap ++ c :: cs) ws ∧ Trivia gap
  solid : isSeparator c = false

/-- The stretch of a text behind a front. -/
def stretch (front text : List Char) : Span := .between (.behind front) (.behind (front ++ text))

/-- The text behind the front is read as this word. -/
structure TakenAs (source : String) (front text : List Char) (l : Lexeme) : Prop where
  reads : ∃ rest, source.toList = front ++ text ++ rest ∧ Reads text l rest
  word : ∀ ts, tokenize source = .ok ts → ⟨l, stretch front text⟩ ∈ ts.words
  later : ∀ e, tokenize source = .error e → (Cursor.behind (front ++ text)).offset ≤ e.span.start

/-- The text behind the front is what the source is refused for. -/
def RefusedAs (source : String) (front text : List Char) (f : LexFault) : Prop :=
  tokenize source = .error ⟨.lexical f, stretch front text⟩

theorem offset_le_of_error {p : Cursor} {cs : List Char} {e : SyntaxError}
    (h : tokensFrom p cs = .error e) : p.offset ≤ e.span.start := by
  induction p, cs using tokensFrom_induction with
  | done p cs stop =>
    rw [tokensFrom_end stop] at h
    cases h
  | fault p cs c r f stop fault =>
    rw [tokensFrom_fault stop fault] at h
    cases h
    exact Cursor.offset_le_advance p _
  | word p cs c r l stop value ih =>
    rw [tokensFrom_word stop value] at h
    have gap := Cursor.offset_le_advance p (skipTrivia false cs).1
    have text := Cursor.offset_le_advance (p.advance (skipTrivia false cs).1) (scanLexeme c r).text
    cases rest : tokensFrom _ (scanLexeme c r).rest with
    | ok ts =>
      rw [rest] at h
      cases h
    | error e' =>
      rw [rest] at h
      cases h
      have further := ih rest
      omega

namespace WordStarts

variable {source : String} {front cs : List Char} {c : Char}

theorem tokenize (h : WordStarts source.toList front c cs) : ∃ words,
    tokenize source = (tokensFrom (.behind front) (c :: cs)).map fun ts =>
      { ts with words := words ++ ts.words } := by
  obtain ⟨whole, ⟨ws, gap, rfl, laid, trivia⟩, -⟩ := h
  refine ⟨placed [] ws, ?_⟩
  have words := laid.tokensFrom []
  rw [List.nil_append, trivia.tokensFrom, Cursor.advance_behind] at words
  rw [Schema.tokenize, whole, List.append_assoc]
  exact words

theorem skip (h : WordStarts source.toList front c cs) :
    skipTrivia false (c :: cs) = ([], c :: cs) :=
  skipTrivia_word h.solid cs

/-- What is read as a word is taken as that word. -/
theorem takenAs (h : WordStarts source.toList front c cs) {l : Lexeme}
    (value : (scanLexeme c cs).value = .ok l) :
    TakenAs source front (scanLexeme c cs).text l := by
  obtain ⟨words, read⟩ := h.tokenize
  rw [tokensFrom_word (congrArg Prod.snd h.skip) value, h.skip, Cursor.advance_nil,
    Cursor.advance_behind] at read
  obtain ⟨reads, splits⟩ := Reads.of_scan h.solid value
  refine ⟨⟨(scanLexeme c cs).rest, ?_, reads⟩, fun ts hts => ?_, fun e he => ?_⟩
  · rw [h.whole, List.append_assoc, splits]
  · rw [read] at hts
    cases rest : tokensFrom (.behind (front ++ (scanLexeme c cs).text)) (scanLexeme c cs).rest with
    | error e =>
      rw [rest] at hts
      cases hts
    | ok more =>
      rw [rest] at hts
      cases hts
      exact List.mem_append_right _ List.mem_cons_self
  · rw [read] at he
    cases rest : tokensFrom (.behind (front ++ (scanLexeme c cs).text)) (scanLexeme c cs).rest with
    | error e' =>
      rw [rest] at he
      cases he
      exact offset_le_of_error rest
    | ok more =>
      rw [rest] at he
      cases he

/-- Where no word can be read, the source is refused for the text that stands there. -/
theorem refusedAs (h : WordStarts source.toList front c cs) {f : LexFault}
    (value : (scanLexeme c cs).value = .error f) :
    RefusedAs source front (scanLexeme c cs).text f := by
  obtain ⟨words, read⟩ := h.tokenize
  rw [tokensFrom_fault (congrArg Prod.snd h.skip) value, h.skip, Cursor.advance_nil,
    Cursor.advance_behind] at read
  exact read

/-- Only what is read at this place is taken here. -/
theorem scan_of_taken (h : WordStarts source.toList front c cs) {text : List Char} {l : Lexeme}
    (taken : TakenAs source front text l) : ∃ rest, scanLexeme c cs = ⟨.ok l, text, rest⟩ := by
  obtain ⟨rest, whole, d, ds, rfl, -, scan⟩ := taken.reads
  rw [h.whole, List.append_assoc] at whole
  obtain ⟨rfl, rfl⟩ := List.cons.inj (List.append_cancel_left whole)
  exact ⟨rest, scan⟩

end WordStarts

/-- What is taken as a word is not what the source is refused for. -/
theorem TakenAs.not_refused {source : String} {front text bad : List Char} {l : Lexeme}
    {f : LexFault} (taken : TakenAs source front text l) : ¬RefusedAs source front bad f := by
  intro refused
  obtain ⟨rest, -, word⟩ := taken.reads
  have start : (Cursor.behind (front ++ text)).offset ≤ (Cursor.behind front).offset :=
    taken.later _ refused
  have longer := Cursor.offset_behind_lt front word.ne_nil
  omega

/-- Every word of a text was read where a word starts. -/
theorem exists_wordStarts {source : String} {ts : Tokens} (h : tokenize source = .ok ts) {t : Token}
    (ht : t ∈ ts.words) : ∃ front c cs, WordStarts source.toList front c cs ∧
      (scanLexeme c cs).value = .ok t.lexeme ∧ t.span = stretch front (scanLexeme c cs).text := by
  obtain ⟨ws, last, whole, laid, -, rfl⟩ := exists_layout h
  obtain ⟨us, vs, split⟩ := List.append_of_mem ht
  obtain ⟨as, bs, rfl, -, behind⟩ := placed_eq_append split
  obtain ⟨before, here⟩ := Laid.append_iff.mp laid
  cases here with
  | nil => cases behind
  | @cons w bs gap word more =>
    obtain ⟨rfl, -⟩ := List.cons.inj behind
    obtain ⟨c, cs, text, solid, scan⟩ := word
    refine ⟨layout as ++ w.gap, c, cs ++ (layout bs ++ last), ⟨?_, ?_, solid⟩, ?_, ?_⟩
    · rw [whole, layout_append, layout_cons, text]
      simp only [List.append_assoc, List.cons_append]
    · refine ⟨as, w.gap, rfl, ?_, gap⟩
      rw [layout_cons, text] at before
      simpa only [List.append_assoc, List.cons_append] using before
    · rw [scan]
    · rw [scan]
      rfl

end TransformDirective.Schema
