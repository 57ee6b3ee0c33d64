import TransformDirective.Proofs.Schema.Definitions

namespace TransformDirective.Schema

theorem document_rest {ts r : List Token} {d : Document} (h : Rule.document ts = .ok d r) :
    r = [] := by
  rw [Rule.document, Parser.bind_apply] at h
  cases hitems : Parser.repeatWhile (fun _ => true) Rule.definition ts with
  | error e left => rw [hitems] at h; cases h
  | ok ds r' =>
    rw [hitems] at h
    cases h
    have hwhile : itemsWhile (fun _ => true) Rule.definition ts = .ok ds r := hitems
    have hstop := itemsWhile_rest definition_recognizes (fun hn => hn) (Nat.lt_succ_self _) hwhile
    cases r with
    | nil => rfl
    | cons t r => exact absurd (hstop t rfl) (by simp)

/-- A document that is read is a document of the grammar. -/
theorem document_sound {ts r : List Token} {d : Document} (h : Rule.document ts = .ok d r) :
    Language.document (lexemes ts) (d.mapSpans forget) := by
  obtain ⟨us, e, hts, hl, hde, -⟩ := document_recognizes.takes (Nat.lt_succ_self _) h
  obtain rfl := document_rest h
  rw [List.append_nil] at hts
  rw [hts, hde]
  exact hl

/-- A document of the grammar is read. -/
theorem document_complete {ts : List Token} {d : Document}
    (h : Language.document (lexemes ts) d) :
    ∃ d', Rule.document ts = .ok d' [] ∧ d'.mapSpans forget = d := by
  have hread : ∃ d', Rule.document (ts ++ []) = .ok d' [] ∧ d'.mapSpans forget = d :=
    document_recognizes.accepts (Nat.lt_succ_self _) h (by simp)
  rw [List.append_nil] at hread
  exact hread

theorem Tokens.parse_ok_iff {α : Type} {rule : Rule α} {ts : Tokens} {a : α} :
    ts.parse rule = .ok a ↔ ∃ r, rule ts.words = .ok a r := by
  unfold Tokens.parse
  cases rule ts.words with
  | ok a' r => simp [Outcome.toExcept, Except.mapError]
  | error e left => simp [Outcome.toExcept, Except.mapError]

theorem Tokens.parse_error_iff {α : Type} {rule : Rule α} {ts : Tokens} {e : SyntaxError} :
    ts.parse rule = .error e ↔
      ∃ f left, rule ts.words = .error f left ∧ f.toError ts.stop = e := by
  unfold Tokens.parse
  cases rule ts.words with
  | ok a r => simp [Outcome.toExcept, Except.mapError]
  | error f left => simp [Outcome.toExcept, Except.mapError]

/-- The words of some text, without any places. -/
def unplaced (ls : List Lexeme) : List Token := ls.map fun l => ⟨l, nowhere⟩

theorem lexemes_unplaced (ls : List Lexeme) : lexemes (unplaced ls) = ls := by
  induction ls with
  | nil => rfl
  | cons l ls ih => exact congrArg (l :: ·) ih

/-- The words of a text have one meaning at most. -/
theorem document_unique {ls : List Lexeme} {d e : Document} (hd : Language.document ls d)
    (he : Language.document ls e) : d = e := by
  rw [← lexemes_unplaced ls] at hd he
  obtain ⟨d', hread, rfl⟩ := document_complete hd
  obtain ⟨e', hread', rfl⟩ := document_complete he
  rw [hread] at hread'
  cases hread'
  rfl

/-- Reading a document succeeds exactly on the word sequences of the grammar, with the meaning the
grammar gives them, and a word sequence has one meaning. -/
theorem document_parses_iff_derivable :
    (∀ (ts : Tokens) (d : Document),
      (∃ d', ts.parse Rule.document = .ok d' ∧ d'.mapSpans forget = d) ↔
        Language.document (lexemes ts.words) d) ∧
    ∀ ls d e, Language.document ls d → Language.document ls e → d = e := by
  refine ⟨?_, fun _ _ _ => document_unique⟩
  intro ts d
  constructor
  · intro h
    obtain ⟨d', hparse, rfl⟩ := h
    obtain ⟨r, hread⟩ := Tokens.parse_ok_iff.mp hparse
    exact document_sound hread
  · intro h
    obtain ⟨d', hread, hd⟩ := document_complete h
    exact ⟨d', Tokens.parse_ok_iff.mpr ⟨[], hread⟩, hd⟩

end TransformDirective.Schema
