import TransformDirective.Proofs.Schema.Seam
import TransformDirective.Proofs.Schema.Settling
import TransformDirective.Proofs.Schema.ViablePrefix

namespace TransformDirective.Schema

open TransformDirective.Text

/-- A stretch of a text that stands behind `a` and a line feed. -/
def belowText (a : String) (s : Span) : Span :=
  s.below (a.utf8ByteSize + 1) (a.toList.count '\n' + 1)

/-- What `a`, a line feed and `b` mean if `b` is read as it is read alone. -/
def readApart (a : String) (da : Document) (b : String) : Except SyntaxError Document :=
  match Document.parse b with
  | .ok db => .ok (da ++ db.mapSpans (belowText a))
  | .error e => .error (e.mapSpan (belowText a))

/-- No accepted text starts with the first word of `b`, but one has it behind the words of `a`. -/
def GoesOn (a b : String) : Prop :=
  ∃ ta tb w, tokenize a = .ok ta ∧ tokenize b = .ok tb ∧ tb.words.head? = some w ∧
    ViablePrefix ((lexemes ta.words).map some ++ [some w.lexeme]) ∧
    ¬ ViablePrefix [some w.lexeme]

theorem belowText_rigid (a : String) : Rigid (belowText a) := fun _ _ => rfl

section Parse

def Tokens.belowText (a : String) (ts : Tokens) : Tokens :=
  ⟨ts.words.map (·.mapSpan (Schema.belowText a)),
    ts.stop.below (a.utf8ByteSize + 1) (a.toList.count '\n' + 1)⟩

theorem toError_mapSpan (a : String) (stop : Cursor) (f : RuleFault) :
    (f.mapSpan (belowText a)).toError (stop.below (a.utf8ByteSize + 1) (a.toList.count '\n' + 1)) =
      (f.toError stop).mapSpan (belowText a) := by
  cases f with
  | unexpected e t => cases t <;> rfl
  | variableValue t => cases t <;> rfl

/-- The words further down are read as they are read alone. -/
theorem parse_belowText (a : String) (ts : Tokens) :
    (ts.belowText a).parse Rule.document =
      match ts.parse Rule.document with
      | .ok d => .ok (d.mapSpans (belowText a))
      | .error e => .error (e.mapSpan (belowText a)) := by
  have related := (document_relocates (belowText_rigid a)).moved ts.words
  unfold Tokens.parse
  rw [Tokens.belowText]
  generalize Rule.document ts.words = o at related
  generalize Rule.document (ts.words.map (·.mapSpan (belowText a))) = o' at related
  cases related with
  | ok same => rw [← same]; rfl
  | error => exact congrArg Except.error (toError_mapSpan a ts.stop _)

end Parse

/-- Of words that stand one behind the other, only one has a given place. -/
theorem split_unique {us r vs ws : List Token} {t w : Token}
    (sorted : (us ++ t :: r).Pairwise fun s t => s.span.start < t.span.start)
    (h : us ++ t :: r = vs ++ w :: ws) (same : t.span = w.span) : us = vs := by
  induction us generalizing vs with
  | nil =>
    cases vs with
    | nil => rfl
    | cons v vs =>
      obtain ⟨rfl, rfl⟩ := List.cons.inj h
      have later := (List.pairwise_cons.mp sorted).1 w (by simp)
      rw [same] at later
      exact absurd later (Nat.lt_irrefl _)
  | cons u us ih =>
    cases vs with
    | nil =>
      obtain ⟨rfl, -⟩ := List.cons.inj h
      have later := (List.pairwise_cons.mp sorted).1 t (by simp)
      rw [same] at later
      exact absurd later (Nat.lt_irrefl _)
    | cons v vs =>
      obtain ⟨rfl, rest⟩ := List.cons.inj h
      rw [ih (List.pairwise_cons.mp sorted).2 rest]

section Seam

variable {a b : String} {da : Document} {ta tb : Tokens}

def joined (a : String) (ta tb : Tokens) : Tokens :=
  ⟨ta.words ++ (tb.belowText a).words, (tb.belowText a).stop⟩

/-- The words of both texts are the words of the joined text. -/
theorem tokenize_joined (hta : tokenize a = .ok ta) (htb : tokenize b = .ok tb) :
    tokenize (a ++ "\n" ++ b) = .ok (joined a ta tb) := by
  have whole := tokenize_line hta b
  rw [htb] at whole
  exact whole

/-- If the definitions in front are read on their own, so are those behind. -/
theorem parse_of_stops (hta : tokenize a = .ok ta) (htb : tokenize b = .ok tb)
    (stops : Rule.document (ta.words ++ (tb.belowText a).words) =
      match Rule.document (tb.belowText a).words with
      | .error e left => .error e left
      | .ok e left => .ok (da ++ e) left) :
    Document.parse (a ++ "\n" ++ b) = readApart a da b := by
  have alone := parse_belowText a tb
  have whole : (joined a ta tb).parse Rule.document =
      match (tb.belowText a).parse Rule.document with
      | .ok d => .ok (da ++ d)
      | .error e => .error e := by
    unfold Tokens.parse joined
    rw [stops]
    cases Rule.document (tb.belowText a).words <;> rfl
  rw [readApart, parse_eq_of_tokenize htb, parse_eq_of_tokenize (tokenize_joined hta htb), whole,
    alone]
  cases tb.parse Rule.document <;> rfl

theorem found_of_toError {stop : Cursor} {f : RuleFault} {e : Expected} {x : Lexeme} {s : Span}
    (h : f.toError stop = ⟨.unexpected e (some x), s⟩) :
    ∃ t, f.found = some t ∧ t.lexeme = x ∧ t.span = s := by
  cases f with
  | variableValue t => cases h
  | unexpected e' t =>
    cases t with
    | none => cases h
    | some t =>
      cases h
      exact ⟨t, rfl, rfl, rfl⟩

/-- A word with which the first text goes on is wrong when it stands alone. -/
theorem goesOn_of_viable (hta : tokenize a = .ok ta) (htb : tokenize b = .ok tb) {w : Token}
    (hw : tb.words.head? = some w)
    (viable : Language.document.Viable (lexemes ta.words ++ [w.lexeme]))
    (other : ¬ StartsDefinition w.lexeme) : GoesOn a b := by
  have spells : ∀ l ∈ lexemes ta.words ++ [w.lexeme], ∃ text, Spells text l := by
    intro l hl
    obtain hl | hl := List.mem_append.mp hl
    · exact spells_of_tokensFrom hta l hl
    · obtain rfl := List.mem_singleton.mp hl
      exact spells_of_tokensFrom htb _ (List.mem_map_of_mem (List.mem_of_head? hw))
  have together := viablePrefix_of_viable spells viable
  rw [List.map_append] at together
  refine ⟨ta, tb, w, hta, htb, hw, together, ?_⟩
  exact not_viablePrefix_of_fails (document_fails other [])

/-- A word that no accepted text starts with does not start a definition. -/
theorem not_startsDefinition_of_not_viable (htb : tokenize b = .ok tb) {w : Token}
    (hw : tb.words.head? = some w) (h : ¬ ViablePrefix [some w.lexeme]) :
    ¬ StartsDefinition w.lexeme := by
  intro starts
  have spells : ∀ l ∈ [w.lexeme], ∃ text, Spells text l := by
    intro l hl
    obtain rfl := List.mem_singleton.mp hl
    exact spells_of_tokensFrom htb _ (List.mem_map_of_mem (List.mem_of_head? hw))
  exact h (viablePrefix_of_viable spells (viable_of_startsDefinition starts))

/-- Where the second text goes on with the first, the two are not read one by one: the second text
alone is refused at its first word, and no other word has the place of that one. -/
theorem parse_ne_of_goesOn (h : GoesOn a b) :
    Document.parse (a ++ "\n" ++ b) ≠ readApart a da b := by
  obtain ⟨ta, tb, w, hta, htb, hw, together, wrong⟩ := h
  have other := not_startsDefinition_of_not_viable htb hw wrong
  obtain ⟨ws, hwords⟩ := List.head?_eq_some_iff.mp hw
  obtain ⟨left, alone⟩ := document_fails other ws (w :: ws) rfl
  rw [List.nil_append, ← hwords] at alone
  have refused : Document.parse b = .error ⟨.unexpected .definition (some w.lexeme), w.span⟩ := by
    rw [parse_eq_of_tokenize htb]
    exact Tokens.parse_error_iff.mpr ⟨_, _, alone, rfl⟩
  intro same
  rw [readApart, refused, parse_eq_of_tokenize (tokenize_joined hta htb)] at same
  obtain ⟨f, left', read, error⟩ := Tokens.parse_error_iff.mp same
  obtain ⟨us, r, split, found, -, fails⟩ :=
    document_recognizes.refuses (Nat.lt_succ_self _) read
  have sorted := tokenize_ascending (tokenize_joined hta htb)
  obtain ⟨t, ht, hlexeme, hspan⟩ := found_of_toError error
  obtain ⟨r, rfl⟩ := List.head?_eq_some_iff.mp (found.symm.trans ht)
  have behind : (joined a ta tb).words =
      ta.words ++ w.mapSpan (belowText a) :: ws.map (·.mapSpan (belowText a)) := by
    rw [joined, Tokens.belowText, hwords]
    rfl
  have place : t.span = (w.mapSpan (belowText a)).span := hspan
  rw [split] at sorted behind
  obtain rfl := split_unique sorted behind place
  refine not_viablePrefix_of_fails fails ?_
  rw [List.head?_cons, Option.map_some, hlexeme]
  exact together

end Seam

/-- A schema text, a line feed and a second text are read as the second text is read alone, with its
places further down, unless that goes on with the first one. -/
theorem parse_append_line_iff {a : String} {da : Document} (ha : Document.parse a = .ok da)
    (b : String) :
    Document.parse (a ++ "\n" ++ b) = readApart a da b ↔ ¬ GoesOn a b := by
  constructor
  · exact fun same goesOn => parse_ne_of_goesOn goesOn same
  · intro apart
    obtain ⟨ta, hta, read⟩ := words_of_parse ha
    cases htb : tokenize b with
    | error e =>
      have whole := tokenize_line hta b
      rw [htb] at whole
      rw [readApart, parse_of_tokenize_error htb, parse_of_tokenize_error whole]
      rfl
    | ok tb =>
      apply parse_of_stops hta htb
      cases hwords : tb.words with
      | nil =>
        have none : (tb.belowText a).words = [] := by
          rw [Tokens.belowText, hwords]
          rfl
        have whole : da ++ (⟨[]⟩ : Document) = da :=
          congrArg Document.mk (List.append_nil da.definitions)
        rw [none, List.append_nil, read, document_nil]
        simp only [whole]
      | cons w ws =>
        have head : tb.words.head? = some w := by rw [hwords, List.head?_cons]
        have moved : (tb.belowText a).words.head? = some (w.mapSpan (belowText a)) := by
          rw [Tokens.belowText, List.head?_map, head]
          rfl
        obtain stops | ⟨viable, other⟩ := document_stops read (w.mapSpan (belowText a))
        · exact stops _ moved
        · exact absurd (goesOn_of_viable hta htb head viable other) apart

theorem parse_append_line_iff_scalars :
    let a := "scalar A"
    let b := "scalar B"
    let da : Document := ⟨[.scalar ⟨"A", [], ⟨0, 8, 1, 1⟩⟩]⟩
    Document.parse a = .ok da ∧
      (Document.parse (a ++ "\n" ++ b) = readApart a da b ↔ ¬ GoesOn a b) ∧ ¬ GoesOn a b := by
  have front : Document.parse "scalar A" = .ok ⟨[.scalar ⟨"A", [], ⟨0, 8, 1, 1⟩⟩]⟩ := by
    with_unfolding_all rfl
  have alone : Document.parse "scalar B" = .ok ⟨[.scalar ⟨"B", [], ⟨0, 8, 1, 1⟩⟩]⟩ := by
    with_unfolding_all rfl
  have whole : Document.parse ("scalar A" ++ "\n" ++ "scalar B") =
      .ok ⟨[.scalar ⟨"A", [], ⟨0, 8, 1, 1⟩⟩, .scalar ⟨"B", [], ⟨9, 17, 2, 1⟩⟩]⟩ := by
    with_unfolding_all rfl
  intro a b da
  have law := parse_append_line_iff front b
  have place : belowText a ⟨0, 8, 1, 1⟩ = ⟨9, 17, 2, 1⟩ := by decide +kernel
  have same : Document.parse (a ++ "\n" ++ b) = readApart a da b := by
    rw [whole, readApart, alone, ← place]
    rfl
  exact ⟨front, law, law.mp same⟩

/-- The braces of a type may stand on the next line, though no text starts with them. -/
theorem parse_append_line_braces :
    let a := "type A"
    let b := "\x7b\x7d"
    let da : Document := ⟨[.type ⟨.object, "A", [], [], [], ⟨0, 6, 1, 1⟩⟩]⟩
    Document.parse a = .ok da ∧
      readApart a da b =
        .error ⟨.unexpected .definition (some (.punct .braceOpen)), ⟨7, 8, 2, 1⟩⟩ ∧
      Document.parse (a ++ "\n" ++ b) =
        .ok ⟨[.type ⟨.object, "A", [], [], [], ⟨0, 9, 1, 1⟩⟩]⟩ ∧
      Document.parse (a ++ "\n" ++ b) ≠ readApart a da b := by
  have front : Document.parse "type A" =
      .ok ⟨[.type ⟨.object, "A", [], [], [], ⟨0, 6, 1, 1⟩⟩]⟩ := by
    with_unfolding_all rfl
  have alone : Document.parse "\x7b\x7d" =
      .error ⟨.unexpected .definition (some (.punct .braceOpen)), ⟨0, 1, 1, 1⟩⟩ := by
    with_unfolding_all rfl
  have whole : Document.parse ("type A" ++ "\n" ++ "\x7b\x7d") =
      .ok ⟨[.type ⟨.object, "A", [], [], [], ⟨0, 9, 1, 1⟩⟩]⟩ := by
    with_unfolding_all rfl
  intro a b da
  have place : belowText a ⟨0, 1, 1, 1⟩ = ⟨7, 8, 2, 1⟩ := by decide +kernel
  have apart : readApart a da b =
      .error ⟨.unexpected .definition (some (.punct .braceOpen)), ⟨7, 8, 2, 1⟩⟩ := by
    rw [readApart, alone, ← place]
    rfl
  refine ⟨front, apart, whole, ?_⟩
  rw [whole, apart]
  exact fun h => nomatch h

end TransformDirective.Schema
