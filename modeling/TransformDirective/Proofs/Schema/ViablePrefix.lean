import TransformDirective.Proofs.Schema.Acceptance
import TransformDirective.Proofs.Schema.Spelling

namespace TransformDirective.Schema

open TransformDirective.Text

/-- The words of a text, and `none` for its end. -/
def Tokens.symbols (ts : Tokens) : List (Option Lexeme) := (lexemes ts.words).map some ++ [none]

def Tokens.places (ts : Tokens) : List Span := ts.words.map (·.span) ++ [.atCursor ts.stop]

/-- Some text that is accepted starts with these words. -/
def ViablePrefix (ss : List (Option Lexeme)) : Prop :=
  ∃ source ts d, tokenize source = .ok ts ∧ Document.parse source = .ok d ∧ ss <+: ts.symbols

theorem parse_eq_of_tokenize {source : String} {ts : Tokens} (h : tokenize source = .ok ts) :
    Document.parse source = ts.parse Rule.document := by
  rw [Document.parse, parseWith, h]
  rfl

theorem parse_of_tokenize_error {source : String} {e : SyntaxError}
    (h : tokenize source = .error e) : Document.parse source = .error e := by
  rw [Document.parse, parseWith, h]
  rfl

/-- A text is accepted if its words are read to their end. -/
theorem words_of_parse {source : String} {d : Document} (h : Document.parse source = .ok d) :
    ∃ ts, tokenize source = .ok ts ∧ Rule.document ts.words = .ok d [] := by
  cases htokens : tokenize source with
  | error e =>
    rw [parse_of_tokenize_error htokens] at h
    cases h
  | ok ts =>
    rw [parse_eq_of_tokenize htokens] at h
    obtain ⟨r, read⟩ := Tokens.parse_ok_iff.mp h
    obtain rfl := document_rest read
    exact ⟨ts, rfl, read⟩

/-- A text is accepted if its words are those of a document. -/
theorem parses_of_words {source : String} {ts : Tokens} {d : Document}
    (h : tokenize source = .ok ts) (hd : Language.document (lexemes ts.words) d) :
    ∃ d', Document.parse source = .ok d' := by
  obtain ⟨d', hread, -⟩ := document_complete hd
  exact ⟨d', by rw [parse_eq_of_tokenize h]; exact Tokens.parse_ok_iff.mpr ⟨[], hread⟩⟩

/-- What can be completed by plain words can be completed in some text. -/
theorem viablePrefix_of_viable {ls : List Lexeme} (hspells : ∀ l ∈ ls, ∃ text, Spells text l)
    (h : Language.document.Viable ls) : ViablePrefix (ls.map some) := by
  obtain ⟨more, d, hplain, hd⟩ := h
  have hall : ∀ l ∈ ls ++ more, ∃ text, Spells text l := by
    intro l hl
    obtain hl | hl := List.mem_append.mp hl
    · exact hspells l hl
    · exact spells_of_isPlain (List.all_eq_true.mp hplain l hl)
  obtain ⟨source, ts, htokens, hwords⟩ := exists_source hall
  rw [← hwords] at hd
  obtain ⟨d', hparse⟩ := parses_of_words htokens hd
  refine ⟨source, ts, d', htokens, hparse, ?_⟩
  rw [Tokens.symbols, hwords, List.map_append, List.append_assoc]
  exact List.prefix_append _ _

theorem symbols_prefix {us ls : List Lexeme} {x : Option Lexeme}
    (h : us.map some ++ [x] <+: ls.map some ++ [none]) :
    x = none ∧ ls = us ∨ ∃ l more, x = some l ∧ ls = us ++ l :: more := by
  induction us generalizing ls with
  | nil =>
    cases ls with
    | nil => exact .inl ⟨by simpa using h, rfl⟩
    | cons l ls => exact .inr ⟨l, ls, by simpa using h, rfl⟩
  | cons u us ih =>
    cases ls with
    | nil => simp at h
    | cons l ls =>
      simp only [List.map_cons, List.cons_append, List.cons_prefix_cons, Option.some.injEq] at h
      obtain ⟨rfl, h⟩ := h
      obtain ⟨hx, rfl⟩ | ⟨l, more, hx, rfl⟩ := ih h
      · exact .inl ⟨hx, rfl⟩
      · exact .inr ⟨l, more, hx, rfl⟩

/-- Where the words that a rule looked at make it fail, no accepted text has them. -/
theorem not_viablePrefix_of_fails {us r : List Token} {e : RuleFault}
    (h : Fails Rule.document us r e) :
    ¬ ViablePrefix ((lexemes us).map some ++ [r.head?.map (·.lexeme)]) := by
  intro hviable
  obtain ⟨source, ts, d, htokens, hparse, hprefix⟩ := hviable
  rw [parse_eq_of_tokenize htokens] at hparse
  obtain ⟨left, hread⟩ := Tokens.parse_ok_iff.mp hparse
  have hd := document_sound hread
  have hrest : ∃ r', r'.head? = r.head? ∧ lexemes (us ++ r') = lexemes ts.words := by
    obtain ⟨hx, hls⟩ | ⟨l, more, hx, hls⟩ := symbols_prefix hprefix
    · refine ⟨[], (Option.map_eq_none_iff.mp hx).symm, ?_⟩
      rw [List.append_nil, hls]
    · obtain ⟨t, ht, rfl⟩ := Option.map_eq_some_iff.mp hx
      refine ⟨t :: unplaced more, ht.symm, ?_⟩
      rw [lexemes_append, hls]
      exact congrArg (lexemes us ++ t.lexeme :: ·) (lexemes_unplaced more)
  obtain ⟨r', hhead, hwords⟩ := hrest
  rw [← hwords] at hd
  obtain ⟨d', hok, -⟩ := document_complete hd
  obtain ⟨left', herror⟩ := h r' hhead
  rw [hok] at herror
  cases herror

section Position

variable {us r : List Token} {stop : Cursor}

theorem symbols_append : Tokens.symbols ⟨us ++ r, stop⟩ =
    (lexemes us).map some ++ ((lexemes r).map some ++ [none]) := by
  rw [Tokens.symbols, lexemes_append, List.map_append, List.append_assoc]

theorem length_lexemes : ((lexemes us).map some).length = us.length := by
  rw [List.length_map, lexemes, List.length_map]

theorem symbols_take :
    (Tokens.symbols ⟨us ++ r, stop⟩).take us.length = (lexemes us).map some := by
  rw [symbols_append, List.take_left' length_lexemes]

theorem symbols_take_succ : (Tokens.symbols ⟨us ++ r, stop⟩).take (us.length + 1) =
    (lexemes us).map some ++ [r.head?.map (·.lexeme)] := by
  rw [symbols_append, ← length_lexemes, List.take_length_add_append]
  cases r <;> rfl

theorem places_get : (Tokens.places ⟨us ++ r, stop⟩)[us.length]? =
    some (r.head?.elim (.atCursor stop) (·.span)) := by
  rw [Tokens.places, List.map_append, List.append_assoc, List.getElem?_append_right (by simp),
    List.length_map, Nat.sub_self]
  cases r <;> rfl

end Position

theorem RuleFault.span_toError (stop : Cursor) (f : RuleFault) :
    (f.toError stop).span = f.found.elim (.atCursor stop) (·.span) := by
  cases f <;> rfl

/-- The error of a refused text stands at the first word, or at the end, that no accepted text has
behind the words in front of it. -/
theorem error_at_first_wrong_word {source : String} {ts : Tokens} {e : SyntaxError}
    (htokens : tokenize source = .ok ts) (herror : Document.parse source = .error e) :
    ∃ i, ts.places[i]? = some e.span ∧ ViablePrefix (ts.symbols.take i) ∧
      ¬ ViablePrefix (ts.symbols.take (i + 1)) := by
  rw [parse_eq_of_tokenize htokens] at herror
  obtain ⟨f, left, hread, rfl⟩ := Tokens.parse_error_iff.mp herror
  obtain ⟨us, r, hwords, hfound, hviable, hfails⟩ :=
    document_recognizes.refuses (Nat.lt_succ_self _) hread
  have hspells : ∀ l ∈ lexemes us, ∃ text, Spells text l := by
    intro l hl
    refine spells_of_tokensFrom htokens l ?_
    rw [hwords, lexemes_append]
    exact List.mem_append_left _ hl
  obtain ⟨words, stop⟩ := ts
  subst hwords
  refine ⟨us.length, ?_, ?_, ?_⟩
  · rw [places_get, RuleFault.span_toError, hfound]
  · rw [symbols_take]
    exact viablePrefix_of_viable hspells hviable
  · rw [symbols_take_succ]
    exact not_viablePrefix_of_fails hfails

theorem error_at_first_wrong_word_unnamed :
    let ts : Tokens :=
      ⟨[⟨.name "type", ⟨0, 4, 1, 1⟩⟩, ⟨.punct .braceOpen, ⟨5, 6, 1, 6⟩⟩], ⟨6, 1, 7⟩⟩
    let e : SyntaxError := ⟨.unexpected .name (some (.punct .braceOpen)), ⟨5, 6, 1, 6⟩⟩
    tokenize "type \x7b" = .ok ts ∧ Document.parse "type \x7b" = .error e ∧
      ∃ i, ts.places[i]? = some e.span ∧ ViablePrefix (ts.symbols.take i) ∧
        ¬ ViablePrefix (ts.symbols.take (i + 1)) := by
  have htokens : tokenize "type \x7b" =
      .ok ⟨[⟨.name "type", ⟨0, 4, 1, 1⟩⟩, ⟨.punct .braceOpen, ⟨5, 6, 1, 6⟩⟩], ⟨6, 1, 7⟩⟩ := by
    decide +kernel
  have herror : Document.parse "type \x7b" =
      .error ⟨.unexpected .name (some (.punct .braceOpen)), ⟨5, 6, 1, 6⟩⟩ := by
    rw [parse_eq_of_tokenize htokens, Tokens.parse_error_iff]
    have hitem : Rule.definition [⟨.name "type", ⟨0, 4, 1, 1⟩⟩, ⟨.punct .braceOpen, ⟨5, 6, 1, 6⟩⟩] =
        .error (.unexpected .name (some ⟨.punct .braceOpen, ⟨5, 6, 1, 6⟩⟩))
          [⟨.punct .braceOpen, ⟨5, 6, 1, 6⟩⟩] := rfl
    exact ⟨_, _, by rw [Rule.document, Parser.bind_apply, repeatWhile_apply, hitem]; rfl, rfl⟩
  exact ⟨htokens, herror, error_at_first_wrong_word htokens herror⟩

end TransformDirective.Schema
