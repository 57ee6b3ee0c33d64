import TransformDirective.Proofs.Schema.Acceptance
import TransformDirective.Proofs.Schema.Spelling

namespace TransformDirective.Schema

open TransformDirective.Text TransformDirective.Schema.Language

/-- The name is one of schema text, and what is without null is not put without null again. -/
inductive TypeRef.Writable : TypeRef → Prop
  | named {n : String} (name : isNameText n) : Writable (.named n)
  | list {t : TypeRef} (item : Writable t) : Writable (.list t)
  | nonNull {t : TypeRef} (inner : Writable t) (once : ∀ u, t ≠ .nonNull u) : Writable (.nonNull t)

theorem TypeRef.not_writable_twice (t : TypeRef) : ¬Writable (.nonNull (.nonNull t)) := by
  intro h
  cases h with
  | nonNull _ once => exact once t rfl

section Written

def Punct.written (p : Punct) : Written := ⟨[], p.text.toList, .punct p⟩

/-- The words of a type reference as they stand in its text. -/
def TypeRef.written : TypeRef → List Written
  | .named n => [⟨[], n.toList, .name n⟩]
  | .list t => Punct.written .bracketOpen :: (t.written ++ [Punct.written .bracketClose])
  | .nonNull t => t.written ++ [Punct.written .bang]

/-- The words of a reference make up its text. -/
theorem layout_written (t : TypeRef) : layout t.written = t.text.toList := by
  induction t with
  | named n => simp [TypeRef.written, TypeRef.text]
  | list t ih => simp [TypeRef.written, TypeRef.text, Punct.written, Punct.text, ih]
  | nonNull t ih => simp [TypeRef.written, TypeRef.text, Punct.written, Punct.text, ih]

theorem Laid.mark (p : Punct) (last : List Char) : Laid last [p.written] :=
  .cons .nil (reads_mark p _) .nil

/-- The words are read in front of every text that does not go on with a name. -/
theorem TypeRef.Writable.laid {t : TypeRef} (h : t.Writable) {last : List Char}
    (stops : ∀ c ∈ last.head?, isNameChar c = false) : Laid last t.written := by
  induction h generalizing last with
  | named name => exact .cons .nil (reads_name name stops) .nil
  | @list t _ ih =>
    have inner : Laid (']' :: last) t.written := ih fun c hc => Option.some.inj hc ▸ rfl
    have closed := Laid.append_iff.mpr ⟨inner, .mark .bracketClose last⟩
    exact .cons .nil (reads_mark .bracketOpen _) closed
  | @nonNull t _ _ ih =>
    have inner : Laid ('!' :: last) t.written := ih fun c hc => Option.some.inj hc ▸ rfl
    exact Laid.append_iff.mpr ⟨inner, .mark .bang last⟩

theorem TypeRef.Writable.tokenize {t : TypeRef} (h : t.Writable) :
    tokenize t.text = .ok ⟨placed [] t.written, .behind t.text.toList⟩ := by
  have laid : Laid [] t.written := h.laid (by simp)
  apply laid.tokenize rfl
  rw [layout_written, List.append_nil]

end Written

section Words

def TypeRef.words (t : TypeRef) : List Lexeme := t.written.map (·.lexeme)

@[simp] theorem words_list (t : TypeRef) :
    (TypeRef.list t).words = .punct .bracketOpen :: (t.words ++ [.punct .bracketClose]) := by
  simp [TypeRef.words, TypeRef.written, Punct.written]

@[simp] theorem words_nonNull (t : TypeRef) :
    (TypeRef.nonNull t).words = t.words ++ [.punct .bang] := by
  simp [TypeRef.words, TypeRef.written, Punct.written]

theorem typeRef_nonNull {ls : List Lexeme} {t : TypeRef} (h : typeRef ls t)
    (once : ∀ u, t ≠ .nonNull u) : typeRef (ls ++ [.punct .bang]) (.nonNull t) := by
  cases h with
  | named n => exact .namedNonNull n
  | list inner => simpa using typeRef.listNonNull inner
  | namedNonNull | listNonNull => exact absurd rfl (once _)

/-- The words of a reference that can be written mean this reference. -/
theorem typeRef_words {t : TypeRef} (h : t.Writable) : typeRef t.words t := by
  induction h with
  | named => exact .named _
  | list _ ih =>
    rw [words_list]
    exact .list ih
  | nonNull _ once ih =>
    rw [words_nonNull]
    exact typeRef_nonNull ih once

theorem writable_of_typeRef {ls : List Lexeme} {t : TypeRef} (h : typeRef ls t)
    (names : ∀ n, .name n ∈ ls → isNameText n) : t.Writable := by
  induction h with
  | named n => exact .named (names n (by simp))
  | namedNonNull n => exact .nonNull (.named (names n (by simp))) (by simp)
  | list _ ih => exact .list (ih fun n hn => names n (by simp [hn]))
  | listNonNull _ ih => exact .nonNull (.list (ih fun n hn => names n (by simp [hn]))) (by simp)

end Words

section Names

theorem scanNumber_ne_name (c : Char) (cs : List Char) (n : String) :
    (scanNumber c cs).value ≠ .ok (.name n) := by
  show (numeralLexeme? (Number.Numeral.take c cs).1).elim _ _ ≠ _
  unfold numeralLexeme?
  split
  · split <;> simp
  · split <;> simp

/-- What is read as a name is a name of schema text. -/
theorem isNameText_of_scan {c : Char} {cs : List Char} {n : String}
    (h : (scanLexeme c cs).value = .ok (.name n)) : isNameText n := by
  unfold scanLexeme at h
  split at h
  · cases h
  · split at h
    · unfold scanSpread at h
      split at h <;> cases h
    · split at h
      · obtain ⟨v, string⟩ := exists_string_of_scanText h
        cases string
      · split at h
        · next start =>
          cases h
          simp [isNameText, start]
        · split at h
          · exact absurd h (scanNumber_ne_name c cs n)
          · cases h

theorem isNameText_of_tokenize {source : String} {ts : Tokens} (h : tokenize source = .ok ts)
    {n : String} (hn : .name n ∈ lexemes ts.words) : isNameText n := by
  obtain ⟨text, c, cs, -, -, -, scan⟩ := spells_of_tokensFrom h _ hn
  have value : (scanLexeme c (cs ++ [' '])).value = .ok (.name n) := by rw [scan []]
  exact isNameText_of_scan value

end Names

section Reading

theorem wholeTypeRef_iff {ts r : List Token} {t : TypeRef} :
    Rule.wholeTypeRef ts = .ok t r ↔ Rule.typeRef ts = .ok t [] ∧ r = [] := by
  rw [Rule.wholeTypeRef, Parser.bind_apply]
  cases Rule.typeRef ts with
  | error e left => simp
  | ok u rest =>
    cases rest with
    | nil =>
      show Outcome.ok u [] = _ ↔ _
      simp [eq_comm]
    | cons x rest =>
      show Outcome.error _ _ = _ ↔ _
      simp

theorem typeRef_ok_iff {ts : List Token} {t : TypeRef} :
    Rule.typeRef ts = .ok t [] ↔ typeRef (lexemes ts) t := by
  have reads := typeRef_recognizes (ts.length + 1)
  constructor
  · intro h
    obtain ⟨us, u, whole, words, rfl, -⟩ := reads.takes (Nat.lt_succ_self _) h
    rw [List.append_nil] at whole
    rw [whole]
    exact words
  · intro h
    have alone : (ts ++ []).length < ts.length + 1 := by simp
    obtain ⟨u, read, rfl⟩ := reads.accepts alone h (by simp)
    rw [List.append_nil] at read
    exact read

/-- A text is read as a reference if it is made of the words of one. -/
theorem parse_typeRef_iff {source : String} {t : TypeRef} :
    TypeRef.parse source = .ok t ↔
      ∃ ts, tokenize source = .ok ts ∧ typeRef (lexemes ts.words) t := by
  unfold TypeRef.parse parseWith
  cases tokenize source with
  | error e => simp [bind, Except.bind]
  | ok ts =>
    show ts.parse Rule.wholeTypeRef = .ok t ↔ _
    simp [Tokens.parse_ok_iff, wholeTypeRef_iff, typeRef_ok_iff]

theorem TypeRef.Writable.parse {t : TypeRef} (h : t.Writable) : TypeRef.parse t.text = .ok t := by
  refine parse_typeRef_iff.mpr ⟨_, h.tokenize, ?_⟩
  rw [lexemes_placed]
  exact typeRef_words h

/-- Every reference that is read can be written: its name is a name of schema text, and no
exclamation mark follows another one. -/
theorem writable_of_parse {source : String} {t : TypeRef} (h : TypeRef.parse source = .ok t) :
    t.Writable := by
  obtain ⟨ts, words, derived⟩ := parse_typeRef_iff.mp h
  exact writable_of_typeRef derived fun n hn => isNameText_of_tokenize words hn

end Reading

section Lists

theorem head_name_append {n : String} (h : isNameText n) (more : List Char) :
    (n.toList ++ more).head? ≠ some '[' := by
  obtain ⟨nonempty, chars⟩ := isNameChar_of_isNameText h
  rw [List.head?_append_of_ne_nil _ nonempty]
  intro head
  have bracket := chars '[' (List.mem_of_mem_head? head)
  exact absurd bracket (by decide)

theorem TypeRef.Writable.isList_iff {t : TypeRef} (h : t.Writable) :
    t.isList ↔ t.text.toList.head? = some '[' := by
  cases h with
  | @named n name =>
    have head := head_name_append name []
    simp [TypeRef.isList, TypeRef.nullable, TypeRef.text] at head ⊢
    exact head
  | list => simp [TypeRef.isList, TypeRef.nullable, TypeRef.text]
  | nonNull inner once =>
    cases inner with
    | named name =>
      have head := head_name_append name "!".toList
      simp [TypeRef.isList, TypeRef.nullable, TypeRef.text] at head ⊢
      exact head
    | list => simp [TypeRef.isList, TypeRef.nullable, TypeRef.text]
    | nonNull => exact absurd rfl (once _)

end Lists

/-- The references that can be written are those which their own texts are read as, and no text is
read as any other one; of these, the lists, with or without null, are those whose text starts with a
bracket. -/
theorem typeRef_roundTrips (t : TypeRef) :
    (t.Writable ↔ TypeRef.parse t.text = .ok t) ∧
    (∀ source, TypeRef.parse source = .ok t → t.Writable) ∧
    (t.Writable → (t.isList ↔ t.text.toList.head? = some '[')) :=
  ⟨⟨fun h => h.parse, writable_of_parse⟩, fun _ => writable_of_parse, fun h => h.isList_iff⟩

/-- An exclamation mark at two levels, and one behind another. -/
theorem typeRef_roundTrips_nested :
    let t : TypeRef := .nonNull (.list (.nonNull (.list (.named "ID"))))
    let twice : TypeRef := .nonNull (.nonNull (.named "ID"))
    TypeRef.parse "[[ID]!]!" = .ok t ∧ t.isList ∧ ¬twice.Writable ∧
      TypeRef.parse "ID!!" ≠ .ok twice := by
  intro t twice
  obtain ⟨reads, -, list⟩ := typeRef_roundTrips t
  obtain ⟨readsTwice, -, -⟩ := typeRef_roundTrips twice
  have inner : TypeRef.Writable (.list (.named "ID")) := .list (.named (by decide))
  have writable : t.Writable := .nonNull (.list (.nonNull inner (by simp))) (by simp)
  have unwritable : ¬twice.Writable := TypeRef.not_writable_twice _
  exact ⟨reads.mp writable, (list writable).mpr (by decide), unwritable,
    fun h => unwritable (readsTwice.mpr h)⟩

end TransformDirective.Schema
