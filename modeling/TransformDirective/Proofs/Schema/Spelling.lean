import TransformDirective.Proofs.Schema.Layout

namespace TransformDirective.Schema

open TransformDirective.Text

/-- The text in front of a blank is read as the word. -/
def Spells (text : List Char) (l : Lexeme) : Prop :=
  ∃ c cs, text = c :: cs ∧ c ≠ '#' ∧ isIgnored c = false ∧
    ∀ rest, scanLexeme c (cs ++ ' ' :: rest) = ⟨.ok l, text, ' ' :: rest⟩

theorem Reads.spells {text rest : List Char} {l : Lexeme} (h : Reads text l rest) :
    Spells text l := by
  have blank : ∀ rest, Reads text l (' ' :: rest) := fun rest => h.alike (.separator rfl rest)
  obtain ⟨c, cs, rfl, hc, -⟩ := h
  obtain ⟨hash, ignored⟩ := isSeparator_eq_false.mp hc
  refine ⟨c, cs, rfl, hash, ignored, fun rest => ?_⟩
  obtain ⟨d, ds, same, -, scan⟩ := blank rest
  obtain ⟨rfl, rfl⟩ := List.cons.inj same
  exact scan

theorem Spells.reads {text : List Char} {l : Lexeme} (h : Spells text l) (rest : List Char) :
    Reads text l (' ' :: rest) := by
  obtain ⟨c, cs, rfl, hash, ignored, scan⟩ := h
  exact ⟨c, cs, rfl, isSeparator_eq_false.mpr ⟨hash, ignored⟩, scan rest⟩

/-- Every word of a text can be written. -/
theorem spells_of_tokensFrom {source : String} {ts : Tokens} (h : tokenize source = .ok ts) :
    ∀ l ∈ lexemes ts.words, ∃ text, Spells text l := by
  obtain ⟨ws, last, -, laid, -, rfl⟩ := exists_layout h
  intro l hl
  rw [lexemes_placed] at hl
  obtain ⟨w, hw, rfl⟩ := List.mem_map.mp hl
  obtain ⟨rest, word⟩ := laid.reads hw
  exact ⟨w.text, word.spells⟩

/-- Words that can be written can be written one behind the other, with a blank in front of each. -/
theorem exists_laid_of_spells {ls : List Lexeme} (h : ∀ l ∈ ls, ∃ text, Spells text l) :
    ∃ ws, Laid [' '] ws ∧ ws.map (·.lexeme) = ls ∧ ∃ rest, layout ws ++ [' '] = ' ' :: rest := by
  induction ls with
  | nil => exact ⟨[], .nil, rfl, [], rfl⟩
  | cons l ls ih =>
    obtain ⟨text, spells⟩ := h l List.mem_cons_self
    obtain ⟨ws, laid, rfl, rest, behind⟩ := ih fun l' hl' => h l' (List.mem_cons_of_mem l hl')
    have word : Reads text l (layout ws ++ [' ']) := behind ▸ spells.reads rest
    exact ⟨⟨[' '], text, l⟩ :: ws, .cons (.separator rfl .nil) word laid, rfl, _, rfl⟩

section Plain

/-- What is read behind a quote mark is a string. -/
theorem exists_string_of_scanText {cs : List Char} {l : Lexeme} (h : (scanText cs).value = .ok l) :
    ∃ v, l = .string v := by
  unfold scanText at h
  split at h
  · next r =>
    have h : (scanBlockString r).value = .ok l := h
    unfold scanBlockString Scan.map at h
    cases hr : (scanBlockContent r).value with
    | none =>
      rw [hr] at h
      cases h
    | some raw =>
      rw [hr] at h
      exact ⟨_, (Except.ok.inj h).symm⟩
  · unfold scanString Scan.map at h
    cases hcs : (scanQuoted .plain cs).value with
    | error f =>
      rw [hcs] at h
      cases h
    | ok value =>
      rw [hcs] at h
      exact ⟨_, (Except.ok.inj h).symm⟩

theorem ofChar?_eq_some {c : Char} {p : Punct} (h : Punct.ofChar? c = some p) :
    p.text.toList = [c] := by
  have hp := List.find?_some h
  simpa using hp

theorem not_mark_of_isNameStart {c : Char} (h : isNameStart c) : Punct.ofChar? c = none := by
  cases hp : Punct.ofChar? c with
  | none => rfl
  | some p =>
    have htext := ofChar?_eq_some hp
    cases p
    all_goals
      simp [Punct.text] at htext
      try (subst htext; exact absurd h (by decide))

theorem isNameChar_of_isNameStart {c : Char} (h : isNameStart c) : isNameChar c := by
  simp only [isNameStart, isNameChar, Char.isAlphanum, Bool.or_eq_true] at h ⊢
  exact h.imp_right .inl

theorem isNameChar_of_isNameText {n : String} (h : isNameText n) :
    n.toList ≠ [] ∧ ∀ c ∈ n.toList, isNameChar c := by
  unfold isNameText at h
  cases hn : n.toList with
  | nil => rw [hn] at h; cases h
  | cons c cs =>
    rw [hn] at h
    obtain ⟨start, more⟩ := Bool.and_eq_true_iff.mp h
    refine ⟨List.cons_ne_nil c cs, List.forall_mem_cons.mpr ⟨isNameChar_of_isNameStart start, ?_⟩⟩
    exact List.all_eq_true.mp more

theorem not_mem_name {n : String} (h : isNameText n) {c : Char} (hc : isNameChar c = false) :
    c ∉ n.toList := by
  intro mem
  have name := (isNameChar_of_isNameText h).2 c mem
  rw [hc] at name
  cases name

/-- A name is read in front of every text that does not go on with it. -/
theorem reads_name {n : String} (h : isNameText n) {rest : List Char}
    (stops : ∀ c ∈ rest.head?, isNameChar c = false) : Reads n.toList (.name n) rest := by
  unfold isNameText at h
  cases hn : n.toList with
  | nil => rw [hn] at h; cases h
  | cons c cs =>
    rw [hn] at h
    simp only [Bool.and_eq_true, List.all_eq_true] at h
    obtain ⟨hstart, hmore⟩ := h
    have hpoint : c ≠ '.' := by intro he; subst he; exact absurd hstart (by decide)
    have hquote : c ≠ '"' := by intro he; subst he; exact absurd hstart (by decide)
    refine ⟨c, cs, rfl, not_separator_of_isNameChar (isNameChar_of_isNameStart hstart), ?_⟩
    simp only [scanLexeme, not_mark_of_isNameStart hstart, if_neg hpoint, if_neg hquote,
      if_pos hstart, scanName, takeWhile_run hmore stops, dropWhile_run hmore stops]
    rw [← hn, String.ofList_toList]

theorem reads_mark (p : Punct) (rest : List Char) : Reads p.text.toList (.punct p) rest := by
  cases p
  all_goals exact ⟨_, _, rfl, by decide, rfl⟩

theorem spells_name {n : String} (h : isNameText n) : Spells n.toList (.name n) := by
  have word : Reads n.toList (.name n) [] := reads_name h (by simp)
  exact word.spells

theorem spells_mark (p : Punct) : Spells p.text.toList (.punct p) := (reads_mark p []).spells

/-- Marks and names of schema text can be written. -/
theorem spells_of_isPlain {l : Lexeme} (h : l.isPlain) : ∃ text, Spells text l := by
  cases l with
  | name n => exact ⟨_, spells_name h⟩
  | punct p => exact ⟨_, spells_mark p⟩
  | _ => cases h

end Plain

/-- Words that can be written one by one make up some text. -/
theorem exists_source {ls : List Lexeme} (h : ∀ l ∈ ls, ∃ text, Spells text l) :
    ∃ source ts, tokenize source = .ok ts ∧ lexemes ts.words = ls := by
  obtain ⟨ws, laid, rfl, -⟩ := exists_laid_of_spells h
  let source := String.ofList (layout ws ++ [' '])
  have whole : source.toList = layout ws ++ [' '] := String.toList_ofList
  have blank : Blank [' '] := rfl
  exact ⟨source, _, laid.tokenize blank whole, lexemes_placed [] ws⟩

end TransformDirective.Schema
