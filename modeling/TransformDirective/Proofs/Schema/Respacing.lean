import TransformDirective.Proofs.Schema.Relocation
import TransformDirective.Proofs.Schema.ViablePrefix

namespace TransformDirective.Schema

open TransformDirective.Text

/-- Words with separators behind each, which only the last word can do without. -/
inductive SpacedBehind : List (List Char) → List Char → Prop
  | nil : SpacedBehind [] []
  | cons {text gap body : List Char} {texts : List (List Char)} (trivia : Trivia gap)
      (apart : texts ≠ [] → gap ≠ []) (more : SpacedBehind texts body) :
      SpacedBehind (text :: texts) (text ++ gap ++ body)

/-- The text is made of these words and of separators. -/
def Spaced (texts : List (List Char)) (cs : List Char) : Prop :=
  ∃ gap body, Trivia gap ∧ SpacedBehind texts body ∧ cs = gap ++ body

/-- The documents differ in their places only; or the errors have the same cause, and each stands at
the word of its text that has the same number, or at the end. -/
def ReadAlike (ts ts' : Tokens) :
    Except SyntaxError Document → Except SyntaxError Document → Prop
  | .ok d, .ok d' => d'.mapSpans forget = d.mapSpans forget
  | .error e, .error e' => e'.cause = e.cause ∧
      ∃ i : Nat, ts.places[i]? = some e.span ∧ ts'.places[i]? = some e'.span
  | _, _ => False

section Words

theorem Trivia.blank {gap : List Char} (h : Trivia gap) : Blank gap := by
  have skip := h.skip []
  rw [List.append_nil] at skip
  rw [Blank, skip]
  rfl

/-- Each word is read again behind and in front of other separators. -/
theorem Laid.respace {last : List Char} {ws : List Written} (h : Laid last ws)
    {gap body : List Char} (trivia : Trivia gap) (spaced : SpacedBehind (ws.map (·.text)) body) :
    ∃ ws' last', gap ++ body = layout ws' ++ last' ∧ Laid last' ws' ∧ Trivia last' ∧
      ws'.map (·.lexeme) = ws.map (·.lexeme) := by
  induction h generalizing gap body with
  | nil =>
    cases spaced
    exact ⟨[], gap, List.append_nil gap, .nil, trivia, rfl⟩
  | @cons w ws _ word _ ih =>
    cases spaced with
    | @cons _ gap' body' _ trivia' apart more =>
      obtain ⟨ws', last', whole, laid, closed, same⟩ := ih trivia' more
      have stops : ∀ c ∈ (gap' ++ body').head?, isSeparator c := by
        cases gap' with
        | cons d gap' => exact trivia'.head
        | nil =>
          have none : ws.map (·.text) = [] := by
            by_contra others
            exact apart others rfl
          rw [none] at more
          cases more
          exact fun c hc => nomatch hc
      have word : Reads w.text w.lexeme (layout ws' ++ last') := by
        rw [← whole]
        exact word.alike (.inr stops)
      refine ⟨⟨gap, w.text, w.lexeme⟩ :: ws', last', ?_, .cons trivia word laid, closed, ?_⟩
      · rw [layout_cons, List.append_assoc, List.append_assoc, List.append_assoc, ← whole]
      · exact congrArg (w.lexeme :: ·) same

/-- The texts that the places of the words cut out are the texts of the words. -/
theorem texts_unique {ws : List Written} {last : List Char} {texts : List (List Char)}
    (cut : List.Forall₂ (fun t text => Excerpt (layout ws ++ last) t.span text) (placed [] ws)
      texts) : texts = ws.map (·.text) := by
  have unique : Relator.RightUnique fun (t : Token) text =>
      Excerpt (layout ws ++ last) t.span text := fun _ _ _ h h' => h.unique h'
  have own := List.forall₂_map_right_iff.mpr (placed_excerpts [] ws last)
  exact unique.forall₂ cut own

end Words

section Reading

theorem map_forget (ts : List Token) : ts.map (·.mapSpan forget) = unplaced (lexemes ts) := by
  induction ts with
  | nil => rfl
  | cons t ts ih => exact congrArg (_ :: ·) ih

section Relocated

variable {α : Type} {g : Span → Span} {R : α → α → Prop} {o : Outcome Token RuleFault α}

theorem Relocated.ok_of {a' : α} {r' : List Token} (h : Relocated g R o (.ok a' r')) :
    ∃ a r, o = .ok a r ∧ R a a' := by
  cases h with
  | ok related => exact ⟨_, _, rfl, related⟩

/-- What is wrong with moved words is wrong with the words as they stood. -/
theorem Relocated.error_of {f' : RuleFault} {left' : List Token}
    (h : Relocated g R o (.error f' left')) :
    ∃ f left, o = .error f left ∧ f.mapSpan g = f' := by
  cases h with
  | error => exact ⟨_, _, rfl, rfl⟩

end Relocated

/-- The same words in other places give the same document in other places, or the same fault. -/
theorem document_alike {ts ts' : List Token} (same : lexemes ts = lexemes ts') :
    (∃ d r d' r', Rule.document ts = .ok d r ∧ Rule.document ts' = .ok d' r' ∧
      d'.mapSpans forget = d.mapSpans forget) ∨
    ∃ f left f' left', Rule.document ts = .error f left ∧ Rule.document ts' = .error f' left' ∧
      f'.mapSpan forget = f.mapSpan forget := by
  have rigid : Rigid forget := fun _ _ => rfl
  have first := (document_relocates rigid).moved ts
  have second := (document_relocates rigid).moved ts'
  rw [map_forget] at first second
  rw [← same] at second
  cases read : Rule.document (unplaced (lexemes ts)) with
  | ok e r =>
    rw [read] at first second
    obtain ⟨d, rest, words, place⟩ := first.ok_of
    obtain ⟨d', rest', words', place'⟩ := second.ok_of
    exact .inl ⟨d, rest, d', rest', words, words', place'.trans place.symm⟩
  | error e left =>
    rw [read] at first second
    obtain ⟨f, rest, words, place⟩ := first.error_of
    obtain ⟨f', rest', words', place'⟩ := second.error_of
    exact .inr ⟨f, rest, f', rest', words, words', place'.trans place.symm⟩

/-- Words that can be completed do not go beyond a fault. -/
theorem length_le_of_fails {us r us' r' : List Token} {e : RuleFault}
    (same : lexemes (us ++ r) = lexemes (us' ++ r'))
    (viable : Language.document.Viable (lexemes us)) (fails : Fails Rule.document us' r' e) :
    us.length ≤ us'.length := by
  rw [lexemes_append, lexemes_append] at same
  have length (ts : List Token) : (lexemes ts).length = ts.length := List.length_map _
  rw [← length us, ← length us']
  obtain ⟨more, front, -⟩ | ⟨more, front, back⟩ := List.append_eq_append_iff.mp same
  · rw [front, List.length_append]
    exact Nat.le_add_right _ _
  · cases more with
    | nil => simp [front]
    | cons l more =>
      obtain ⟨t, r, rfl, rfl, -⟩ := List.map_eq_cons_iff.mp back
      obtain ⟨plain, d, -, hd⟩ := viable
      -- the word of the fault, and behind it what completes the longer words
      let completed := us' ++ t :: unplaced (more ++ plain)
      have words : lexemes us ++ plain = lexemes completed := by
        rw [front, lexemes_append, List.append_assoc, List.cons_append]
        exact congrArg (lexemes us' ++ t.lexeme :: ·) (lexemes_unplaced _).symm
      rw [words] at hd
      obtain ⟨d', read, -⟩ := document_complete hd
      obtain ⟨left, failed⟩ := fails (t :: unplaced (more ++ plain)) rfl
      cases read.symm.trans failed

/-- Faults that are alike up to places have the same cause. -/
theorem cause_toError {f f' : RuleFault} (same : f'.mapSpan forget = f.mapSpan forget)
    (stop stop' : Cursor) : (f'.toError stop').cause = (f.toError stop).cause := by
  have cause (f : RuleFault) (stop : Cursor) :
      (f.toError stop).cause = ((f.mapSpan forget).toError .start).cause := by
    cases f with
    | unexpected e t => cases t <;> rfl
    | variableValue t => cases t <;> rfl
  rw [cause f' stop', same, ← cause f stop]

/-- What the words of a text mean does not depend on their places. -/
theorem parse_alike {ts ts' : Tokens} (same : lexemes ts.words = lexemes ts'.words) :
    ReadAlike ts ts' (ts.parse Rule.document) (ts'.parse Rule.document) := by
  obtain ⟨d, r, d', r', read, read', alike⟩ | ⟨f, left, f', left', read, read', alike⟩ :=
    document_alike same
  · rw [Tokens.parse_ok_iff.mpr ⟨r, read⟩, Tokens.parse_ok_iff.mpr ⟨r', read'⟩]
    exact alike
  · rw [Tokens.parse_error_iff.mpr ⟨f, left, read, rfl⟩,
      Tokens.parse_error_iff.mpr ⟨f', left', read', rfl⟩]
    obtain ⟨us, r, words, found, viable, fails⟩ :=
      document_recognizes.refuses (Nat.lt_succ_self _) read
    obtain ⟨us', r', words', found', viable', fails'⟩ :=
      document_recognizes.refuses (Nat.lt_succ_self _) read'
    obtain ⟨words₀, stop⟩ := ts
    obtain ⟨words₁, stop'⟩ := ts'
    subst words words'
    have le := length_le_of_fails same viable fails'
    have ge := length_le_of_fails same.symm viable' fails
    refine ⟨cause_toError alike stop stop', us.length, ?_, ?_⟩
    · rw [places_get, RuleFault.span_toError, found]
    · rw [Nat.le_antisymm le ge, places_get, RuleFault.span_toError, found']

end Reading

/-- A text that is made of the same words with other separators between them is read alike. -/
theorem respaced_reads_alike {source source' : String} {ts : Tokens} {texts : List (List Char)}
    (words : tokenize source = .ok ts)
    (cut : List.Forall₂ (fun t text => Excerpt source.toList t.span text) ts.words texts)
    (spaced : Spaced texts source'.toList) :
    ∃ ts', tokenize source' = .ok ts' ∧ lexemes ts'.words = lexemes ts.words ∧
      ReadAlike ts ts' (Document.parse source) (Document.parse source') := by
  obtain ⟨ws, last, whole, laid, -, rfl⟩ := exists_layout words
  rw [whole] at cut
  obtain rfl := texts_unique cut
  obtain ⟨gap, body, trivia, behind, whole'⟩ := spaced
  obtain ⟨ws', last', split, laid', closed, same⟩ := laid.respace trivia behind
  have words' := laid'.tokenize closed.blank (whole'.trans split)
  have lexemes' : lexemes (placed [] ws') = lexemes (placed [] ws) := by
    rw [lexemes_placed, lexemes_placed, same]
  refine ⟨_, words', lexemes', ?_⟩
  rw [parse_eq_of_tokenize words, parse_eq_of_tokenize words']
  exact parse_alike lexemes'.symm

theorem respaced_reads_alike_scalar :
    let source := "scalar A"
    let source' := "#c\nscalar,\nA "
    let ts : Tokens := ⟨[⟨.name "scalar", ⟨0, 6, 1, 1⟩⟩, ⟨.name "A", ⟨7, 8, 1, 8⟩⟩], ⟨8, 1, 9⟩⟩
    let texts := ["scalar".toList, "A".toList]
    tokenize source = .ok ts ∧
      List.Forall₂ (fun t text => Excerpt source.toList t.span text) ts.words texts ∧
      Spaced texts source'.toList ∧
      ∃ ts', tokenize source' = .ok ts' ∧ lexemes ts'.words = lexemes ts.words ∧
        ReadAlike ts ts' (Document.parse source) (Document.parse source') := by
  intro source source' ts texts
  have words : tokenize source = .ok ts := by decide +kernel
  have first : Excerpt source.toList ⟨0, 6, 1, 1⟩ "scalar".toList :=
    ⟨[], " A".toList, by decide +kernel, by decide +kernel⟩
  have second : Excerpt source.toList ⟨7, 8, 1, 8⟩ "A".toList :=
    ⟨"scalar ".toList, [], by decide +kernel, by decide +kernel⟩
  have cut : List.Forall₂ (fun t text => Excerpt source.toList t.span text) ts.words texts :=
    .cons first (.cons second .nil)
  have comment : Trivia ('#' :: ['c'] ++ '\n' :: []) := .comment (by decide) .nil
  have comma : Trivia [',', '\n'] := .separator rfl (.separator rfl .nil)
  have blank : Trivia [' '] := .separator rfl .nil
  have behind : SpacedBehind texts
      ("scalar".toList ++ [',', '\n'] ++ ("A".toList ++ [' '] ++ [])) :=
    .cons comma (fun _ => List.cons_ne_nil _ _) (.cons blank (fun h => absurd rfl h) .nil)
  have spaced : Spaced texts source'.toList := ⟨_, _, comment, behind, by decide +kernel⟩
  exact ⟨words, cut, spaced, respaced_reads_alike words cut spaced⟩

end TransformDirective.Schema
