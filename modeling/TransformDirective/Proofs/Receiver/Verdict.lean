import TransformDirective.Proofs.Receiver.OpenBrackets

namespace TransformDirective.Receiver

open TransformDirective.Text

/-- Some text behind this one makes it balanced. -/
def Completable (cs : List Char) : Prop := ∃ back, Balanced (cs ++ back)

/-- The characters enclose the text: they are the quotes of a literal or the brackets of a group. -/
def Encloses (o : Char) (inner : List Char) (c : Char) : Prop :=
  (isQuote o ∧ c = o ∧ Body o inner) ∨ (closing? o = some c ∧ Balanced inner)

/-- What the character opens is closed in the text behind it. -/
def Closes (o : Char) (back : List Char) : Prop :=
  ∃ inner c rest, back = inner ++ c :: rest ∧ Encloses o inner c

/-- Behind the text, this is a bracket that closes no open one. -/
structure IsStray (front : List Char) (c : Char) : Prop where
  outside : Outside front
  closing : (opening? c).isSome
  unmatched : ¬∃ outer o inner, front = outer ++ o :: inner ∧ Outside outer ∧ closing? o = some c ∧
    Balanced inner

/-- Between the texts, this character opens what is never closed. -/
structure IsUnclosed (front : List Char) (o : Char) (back : List Char) : Prop where
  outside : Outside front
  opens : Opens o
  remains : ¬Closes o back

/-- The text up to this character is the shortest one that cannot be completed, and the character
is the first stray bracket. -/
structure FirstStray (cs front : List Char) (c : Char) : Prop where
  stray : IsStray front c
  dead : ¬Completable (front ++ [c])
  shortest : ∀ p, p <+: cs → ¬Completable p → front ++ [c] <+: p
  first : ∀ front' c' back', cs = front' ++ c' :: back' → IsStray front' c' → front <+: front'

/-- The character is the first one that opens what is never closed. -/
structure FirstUnclosed (cs front : List Char) (o : Char) (back : List Char) : Prop where
  unclosed : IsUnclosed front o back
  first : ∀ front' o' back', cs = front' ++ o' :: back' → IsUnclosed front' o' back' →
    front <+: front'

section Enclosed

variable {front inner back : List Char} {o c : Char}

theorem Encloses.opens (h : Encloses o inner c) : Opens o := by
  rcases h with ⟨quote, -, -⟩ | ⟨fits, -⟩
  · exact .inl quote
  · exact .inr (by rw [fits]; rfl)

theorem Encloses.balanced (h : Encloses o inner c) : Balanced (o :: (inner ++ [c])) := by
  rcases h with ⟨quote, rfl, inside⟩ | ⟨fits, inside⟩
  · exact .literal quote inside .nil
  · exact .group fits inside .nil

theorem Closes.more (h : Closes o back) (ds : List Char) : Closes o (back ++ ds) := by
  obtain ⟨inner, c, rest, rfl, encloses⟩ := h
  exact ⟨inner, c, rest ++ ds, by simp, encloses⟩

/-- Inside what a character opened, the character is open innermost. -/
theorem Encloses.nestingOf (h : Encloses o inner c) (outside : Outside front) :
    nestingOf (front ++ o :: inner) = (nestingOf front).push o (Cursor.behind front).offset := by
  have mode : (Mode.chainStart.after front).IsOutside := (outside_iff front).mp outside
  rw [nestingOf_append, Nesting.after, Nesting.step_opens _ _ mode h.opens]
  rcases h with ⟨quote, rfl, inside⟩ | ⟨fits, inside⟩
  · rw [mode.next_quote quote]
    exact inside.nesting quote _ _
  · exact inside.nesting (mode.next (not_isQuote_of_opening fits)) _ _

end Enclosed

section Unclosed

variable {front back : List Char} {o : Char}

/-- A character that opens something is open behind a text, or it is closed in it. -/
theorem mem_opened_or_closes (outside : Outside front) (opens : Opens o)
    (fits : Fits (front ++ o :: back)) :
    (o, (Cursor.behind front).offset) ∈ (nestingOf (front ++ o :: back)).opened ∨
      Closes o back := by
  have mode : (Mode.chainStart.after front).IsOutside := (outside_iff front).mp outside
  induction back using List.reverseRecOn with
  | nil =>
    rw [nestingOf_append, Nesting.after, Nesting.step_opens _ _ mode opens]
    exact .inl List.mem_cons_self
  | append_singleton back c ih =>
    have text : front ++ o :: (back ++ [c]) = front ++ o :: back ++ [c] := by simp
    rw [text] at fits ⊢
    rcases ih fits.of_append with stands | closed
    · have step := nestingOf_concat (front ++ o :: back) c
      rcases step.opened_or_closed fits stands with stands | ⟨head, literal | ⟨behind, closing⟩⟩
      · exact .inl stands
      · have tells := fits.of_append.openBehind
        rw [literal] at tells
        obtain ⟨rest, front', body, stack, -, quote, inside, same⟩ := tells
        rw [stack] at head
        obtain ⟨rfl, offset⟩ := Prod.mk.inj (Option.some.inj head)
        rw [if_neg Bool.false_ne_true, List.append_nil] at same
        obtain ⟨-, here⟩ := append_cancel_of_offset same offset.symm
        exact .inr ⟨body, c, [], by rw [List.cons.inj here |>.2], .inl ⟨quote, rfl, inside⟩⟩
      · have tells := (OpenBehind.outside_iff behind).mp fits.of_append.openBehind
        obtain ⟨front', inner, same, offset, -, inside⟩ := tells.top head
        obtain ⟨-, here⟩ := append_cancel_of_offset same offset.symm
        exact .inr ⟨inner, c, [], by rw [List.cons.inj here |>.2],
          .inr ⟨closing?_eq_some_iff.mpr closing, inside⟩⟩
    · exact .inr (closed.more [c])

/-- A character whose counterpart was read is not open any more. -/
theorem not_mem_opened_of_closes (outside : Outside front) (h : Closes o back) :
    (o, (Cursor.behind front).offset) ∉ (nestingOf (front ++ o :: back)).opened := by
  obtain ⟨inner, c, rest, rfl, encloses⟩ := h
  have text : front ++ o :: (inner ++ c :: rest) = front ++ o :: (inner ++ [c]) ++ rest := by simp
  intro stands
  rw [text] at stands
  rcases mem_opened_append stands with before | behind
  · rw [nestingOf_append_balanced outside encloses.balanced] at before
    exact Nat.lt_irrefl _ (lt_of_mem_opened before)
  · have wide := Cursor.offset_behind_lt front (List.cons_ne_nil o (inner ++ [c]))
    exact absurd behind (Nat.not_le_of_lt wide)

/-- What stays open is what the reader has open in the end. -/
theorem unclosed_iff (outside : Outside front) (opens : Opens o)
    (fits : Fits (front ++ o :: back)) : IsUnclosed front o back ↔
      (o, (Cursor.behind front).offset) ∈ (nestingOf (front ++ o :: back)).opened := by
  constructor
  · intro h
    exact (mem_opened_or_closes outside opens fits).resolve_right h.remains
  · intro stands
    exact ⟨outside, opens, fun closed => not_mem_opened_of_closes outside closed stands⟩

/-- What closes first closes: no shorter text is enclosed. -/
theorem Encloses.not_closes {inner : List Char} {c : Char} (h : Encloses o inner c) :
    ¬Closes o inner := by
  intro closed
  have stands := not_mem_opened_of_closes .nil closed
  rw [h.nestingOf .nil] at stands
  exact stands List.mem_cons_self

/-- What a character opened is open up to its counterpart. -/
theorem Encloses.mem_opened {p inner : List Char} {c : Char} (h : Encloses o inner c)
    (outside : Outside front) (fits : Fits front) (inside : p <+: inner) :
    (o, (Cursor.behind front).offset) ∈ (Receiver.nestingOf (front ++ o :: p)).opened := by
  obtain ⟨rest, rfl⟩ := inside
  have whole : Fits (front ++ o :: p ++ rest) := by
    rw [List.append_assoc, List.cons_append, Fits, h.nestingOf outside]
    exact fits
  exact (mem_opened_or_closes outside h.opens whole.of_append).resolve_right fun closes =>
    h.not_closes (closes.more rest)

theorem not_mem_opened_before {p : List Char} (before : p <+: front) :
    (o, (Cursor.behind front).offset) ∉ (nestingOf p).opened := by
  obtain ⟨rest, rfl⟩ := before
  intro stands
  exact absurd (lt_of_mem_opened stands) (Nat.not_lt_of_le (Cursor.offset_behind_le p rest))

/-- Behind which fronts of a text a character is open: those that reach over it but not over its
counterpart. -/
theorem Encloses.mem_opened_iff {inner : List Char} {c : Char} (h : Encloses o inner c)
    (outside : Outside front) (fits : Fits front) (back : List Char) (n : Nat) :
    (o, (Cursor.behind front).offset) ∈
        (Receiver.nestingOf ((front ++ o :: (inner ++ c :: back)).take n)).opened ↔
      front.length < n ∧ n ≤ front.length + 1 + inner.length := by
  rcases Nat.lt_or_ge front.length n with behind | before
  · obtain ⟨m, rfl⟩ := Nat.exists_eq_add_of_lt behind
    rw [Nat.add_assoc, List.take_length_add_append, List.take_succ_cons]
    rcases Nat.lt_or_ge inner.length m with closed | stands
    · have closes : Closes o ((inner ++ c :: back).take m) := by
        obtain ⟨rest, rfl⟩ := Nat.exists_eq_add_of_lt closed
        rw [Nat.add_assoc, List.take_length_add_append, List.take_succ_cons]
        exact ⟨inner, c, back.take rest, rfl, h⟩
      refine iff_of_false (not_mem_opened_of_closes outside closes) ?_
      omega
    · rw [List.take_append_of_le_length stands]
      refine iff_of_true (h.mem_opened outside fits (List.take_prefix m inner)) ?_
      omega
  · rw [List.take_append_of_le_length before]
    refine iff_of_false (not_mem_opened_before (List.take_prefix n front)) ?_
    omega

end Unclosed

section Stray

variable {front cs : List Char} {c o : Char}

/-- A closing bracket is stray unless its opening bracket is open innermost. -/
theorem stray_iff (fits : Fits front) (outside : Outside front) (closing : opening? c = some o) :
    IsStray front c ↔ (nestingOf front).opened.head?.map (·.1) ≠ some o := by
  have fit := closing?_eq_some_iff.mpr closing
  constructor
  · intro stray top
    obtain ⟨e, head, rfl⟩ := Option.map_eq_some_iff.mp top
    have mode : (Mode.chainStart.after front).IsOutside := (outside_iff front).mp outside
    have tells := (OpenBehind.outside_iff mode).mp fits.openBehind
    obtain ⟨outer, inner, same, -, opened, inside⟩ := tells.top head
    exact stray.unmatched ⟨outer, e.1, inner, same, opened.outside, fit, inside⟩
  · intro other
    refine ⟨outside, by rw [closing]; rfl, ?_⟩
    rintro ⟨outer, o', inner, rfl, outer_outside, fit', inside⟩
    have same : o' = o := Option.some.inj ((closing?_eq_some_iff.mp fit').symm.trans closing)
    have encloses : Encloses o' inner c := .inr ⟨fit', inside⟩
    rw [encloses.nestingOf outer_outside] at other
    exact other (congrArg some same)

theorem IsStray.not_fits (h : IsStray front c) : ¬Fits (front ++ [c]) := by
  intro fits
  obtain ⟨o, closing⟩ := Option.isSome_iff_exists.mp h.closing
  have other := (stray_iff fits.of_append h.outside closing).mp h
  have mode : (Mode.chainStart.after front).IsOutside := (outside_iff front).mp h.outside
  unfold Fits at fits
  rw [nestingOf_append, Nesting.after, Nesting.step_closing _ _ mode closing, Nesting.close,
    if_neg other] at fits
  simp [Nesting.after] at fits

/-- The first bracket that did not fit, with the text in front of it. -/
theorem exists_stray {k : Nat} (h : (nestingOf cs).mismatch = some k) :
    ∃ front c back, cs = front ++ c :: back ∧ (Cursor.behind front).offset = k ∧ Fits front ∧
      IsStray front c := by
  induction cs using List.reverseRecOn with
  | nil => cases h
  | append_singleton cs c ih =>
    rcases (nestingOf_concat cs c).mismatch_eq_some h with
      before | ⟨fits, rfl, mode, o, closing, other⟩
    · obtain ⟨front, d, back, rfl, rest⟩ := ih before
      exact ⟨front, d, back ++ [c], by simp, rest⟩
    · exact ⟨cs, c, [], rfl, rfl, fits, (stray_iff fits ((outside_iff cs).mpr mode) closing).mpr other⟩

end Stray

section Completable

variable {cs : List Char}

/-- A text whose closing brackets fit can be completed: closing what is open innermost leaves less
open. A backslash at the end of a literal takes one more character along before the quote. -/
theorem Fits.completable (h : Fits cs) : Completable cs := by
  have tells := h.openBehind
  rcases (Mode.chainStart.after cs).cases_outside with mode | ⟨q, escaped, literal⟩
  · obtain ⟨back, completed⟩ := ((OpenBehind.outside_iff mode).mp tells).completes
    exact ⟨back, completed [] .nil⟩
  · rw [literal] at tells
    obtain ⟨rest, front, body, -, opened, quote, inside, same⟩ := tells
    obtain ⟨back, completed⟩ := opened.completes
    let half := if escaped then ['\\'] else []
    have whole : Body q (body ++ (half ++ half)) := by
      cases escaped with
      | true => exact inside.append (.escaped .nil)
      | false => exact inside.append .nil
    refine ⟨half ++ q :: back, ?_⟩
    have text := completed (q :: (body ++ (half ++ half) ++ [q])) (.literal quote whole .nil)
    rw [same]
    simpa using text

theorem Balanced.nestingOf (h : Balanced cs) : nestingOf cs = .empty := h.nesting .start _ _

/-- A text can be completed as long as all its closing brackets fit. -/
theorem completable_iff : Completable cs ↔ Fits cs := by
  refine ⟨?_, Fits.completable⟩
  rintro ⟨back, balanced⟩
  have fits : Fits (cs ++ back) := congrArg Nesting.mismatch balanced.nestingOf
  exact fits.of_append

/-- A text is balanced if all its brackets fit and nothing is open behind it. -/
theorem balanced_iff_empty : Balanced cs ↔ Fits cs ∧ (Receiver.nestingOf cs).opened = [] := by
  constructor
  · intro h
    exact ⟨congrArg Nesting.mismatch h.nestingOf, congrArg Nesting.opened h.nestingOf⟩
  · rintro ⟨fits, none⟩
    have tells := fits.openBehind
    rw [none] at tells
    rcases (Mode.chainStart.after cs).cases_outside with mode | ⟨q, escaped, literal⟩
    · cases (OpenBehind.outside_iff mode).mp tells with
      | none balanced => exact balanced
    · rw [literal] at tells
      obtain ⟨rest, front, body, stack, -⟩ := tells
      cases stack

end Completable

section Verdict

variable {cs : List Char}

theorem Nesting.balance_eq_balanced_iff (n : Nesting) :
    n.balance = .balanced ↔ n.mismatch = none ∧ n.opened = [] := by
  obtain ⟨opened, mismatch⟩ := n
  unfold Nesting.balance
  cases mismatch with
  | some k => simp
  | none =>
    cases last : opened.getLast? with
    | none => simpa using last
    | some e =>
      have some : opened ≠ [] := by
        rintro rfl
        cases last
      simp [some]

theorem Nesting.balance_eq_unbalanced (n : Nesting) {k : Nat} (h : n.balance = .unbalanced k) :
    n.mismatch = some k ∨ n.mismatch = none ∧ ∃ o, n.opened.getLast? = some (o, k) := by
  unfold Nesting.balance at h
  cases mismatch : n.mismatch with
  | some j =>
    rw [mismatch] at h
    cases h
    exact .inl rfl
  | none =>
    cases last : n.opened.getLast? with
    | none =>
      rw [mismatch, last] at h
      cases h
    | some e =>
      rw [mismatch, last] at h
      cases h
      exact .inr ⟨rfl, e.1, rfl⟩

/-- The verdict is that of the grammar of balanced texts. -/
theorem balance_eq_balanced_iff (expression : String) :
    balance expression = .balanced ↔ Balanced expression.toList := by
  rw [balanced_iff_empty]
  exact (nestingOf expression.toList).balance_eq_balanced_iff

/-- The first bracket that does not fit is the first stray one. -/
theorem exists_firstStray {k : Nat} (h : (nestingOf cs).mismatch = some k) :
    ∃ front c back, cs = front ++ c :: back ∧ (Cursor.behind front).offset = k ∧
      FirstStray cs front c := by
  obtain ⟨front, c, back, rfl, offset, fits, stray⟩ := exists_stray h
  have before : ∀ p, p <+: front ++ c :: back → ¬Fits p → front ++ [c] <+: p := by
    intro p whole dead
    have here : front ++ [c] <+: front ++ c :: back := ⟨back, by simp⟩
    rcases List.prefix_or_prefix_of_prefix here whole with longer | shorter
    · exact longer
    rcases List.prefix_concat_iff.mp shorter with rfl | ⟨rest, rfl⟩
    · exact List.prefix_rfl
    · exact absurd fits.of_append dead
  refine ⟨front, c, back, rfl, offset, stray, ?_, fun p whole dead => ?_, ?_⟩
  · exact fun completable => stray.not_fits (completable_iff.mp completable)
  · exact before p whole fun fits => dead fits.completable
  · intro front' c' back' same stray'
    have whole : front' ++ [c'] <+: front ++ c :: back := ⟨back', by simp [same]⟩
    rcases List.prefix_concat_iff.mp (before _ whole stray'.not_fits) with equal | shorter
    · obtain ⟨rfl, -⟩ := List.append_inj' equal rfl
      exact List.prefix_rfl
    · exact (List.prefix_append front [c]).trans shorter

/-- The character that is open outermost is the first one that is never closed. -/
theorem exists_firstUnclosed (fits : Fits cs) {e : Char × Nat}
    (h : (nestingOf cs).opened.getLast? = some e) :
    ∃ front back, cs = front ++ e.1 :: back ∧ (Cursor.behind front).offset = e.2 ∧
      FirstUnclosed cs front e.1 back := by
  have stands := List.mem_of_getLast? h
  obtain ⟨front, back, rfl, offset, outside, opens⟩ := exists_of_mem_opened stands
  have here : (e.1, (Cursor.behind front).offset) = e := by rw [offset]
  rw [← here] at stands
  refine ⟨front, back, rfl, offset, (unclosed_iff outside opens fits).mpr stands, ?_⟩
  intro front' o' back' same unclosed
  rw [same] at fits
  have stands' := (unclosed_iff unclosed.outside unclosed.opens fits).mp unclosed
  rw [← same] at stands'
  refine prefix_of_offset_le same ?_
  rw [offset]
  exact le_of_mem_opened h stands'

end Verdict

/-- The verdict is balanced exactly if the grammar derives the expression. Otherwise the offset is
that of the first stray bracket if some front of the expression cannot be completed, and else that
of the first character that opens what is never closed. -/
theorem balance_verdict (expression : String) :
    (balance expression = .balanced ↔ Balanced expression.toList) ∧
    ∀ offset, balance expression = .unbalanced offset →
      let cs := expression.toList
      ∃ front c back, cs = front ++ c :: back ∧ (Cursor.behind front).offset = offset ∧
        (Opens c ∨ (opening? c).isSome) ∧
        ((∃ p, p <+: cs ∧ ¬Completable p) → FirstStray cs front c) ∧
        ((∀ p, p <+: cs → Completable p) → FirstUnclosed cs front c back) := by
  refine ⟨balance_eq_balanced_iff expression, fun offset h => ?_⟩
  intro cs
  rcases (nestingOf cs).balance_eq_unbalanced h with stray | ⟨fits, o, last⟩
  · obtain ⟨front, c, back, same, place, first⟩ := exists_firstStray stray
    have dead : ¬Completable cs := by
      rw [completable_iff, Fits, stray]
      exact nofun
    exact ⟨front, c, back, same, place, .inr first.stray.closing, fun _ => first,
      fun alive => absurd (alive cs List.prefix_rfl) dead⟩
  · obtain ⟨front, back, same, place, first⟩ := exists_firstUnclosed fits last
    refine ⟨front, o, back, same, place, .inl first.unclosed.opens, ?_, fun _ => first⟩
    rintro ⟨p, ⟨rest, whole⟩, dead⟩
    have fits : Fits cs := fits
    rw [← whole] at fits
    exact absurd fits.of_append.completable dead

/-- A group that is closed by another bracket, and a literal that is not closed, behind a character
of two bytes. -/
theorem balance_verdict_crossed :
    let crossed := "é(.a]"
    let quoted := "é'(a"
    balance crossed = .unbalanced 5 ∧ FirstStray crossed.toList "é(.a".toList ']' ∧
    balance quoted = .unbalanced 2 ∧
      FirstUnclosed quoted.toList "é".toList '\'' "(a".toList := by
  intro crossed quoted
  have stray : balance crossed = .unbalanced 5 := by decide +kernel
  have unclosed : balance quoted = .unbalanced 2 := by decide +kernel
  refine ⟨stray, ?_, unclosed, ?_⟩
  · have dead : ∃ p, p <+: crossed.toList ∧ ¬Completable p := by
      refine ⟨crossed.toList, List.prefix_rfl, ?_⟩
      rw [completable_iff]
      decide +kernel
    obtain ⟨front, c, back, same, place, -, first, -⟩ := (balance_verdict crossed).2 5 stray
    have text : crossed.toList = "é(.a".toList ++ [']'] := by decide
    obtain ⟨rfl, behind⟩ := append_cancel_of_offset (text.symm.trans same)
      (by rw [place]; decide +kernel)
    cases behind
    exact first dead
  · have alive : ∀ p, p <+: quoted.toList → Completable p := by
      rintro p ⟨rest, whole⟩
      have fits : Fits quoted.toList := by decide +kernel
      rw [← whole] at fits
      exact fits.of_append.completable
    obtain ⟨front, c, back, same, place, -, -, first⟩ := (balance_verdict quoted).2 2 unclosed
    have text : quoted.toList = "é".toList ++ "'(a".toList := by decide
    obtain ⟨rfl, behind⟩ := append_cancel_of_offset (text.symm.trans same)
      (by rw [place]; decide +kernel)
    cases behind
    exact first alive

end TransformDirective.Receiver
