import Mathlib.Data.List.Infix
import Mathlib.Data.List.Forall2
import TransformDirective.Template.Block

namespace TransformDirective.Template

/-- The start of a marker does not occur in the text. -/
def Clean (cs : List Char) : Prop := ¬ fieldMark <:+: cs

section Clean

variable {xs ys cs p : List Char} {c : Char}

theorem hash_mem_fieldMark : '#' ∈ fieldMark := by decide

theorem hash_of_marked (h : fieldMark <+: c :: cs) : c = '#' := by
  obtain ⟨rest, whole⟩ := h
  exact (List.cons.inj whole).1.symm

/-- What has no such character does not go beyond it. -/
theorem prefix_of_break (h : p <+: xs ++ c :: ys) (hc : c ∉ p) : p <+: xs := by
  obtain short | ⟨more, rfl⟩ := List.prefix_or_prefix_of_prefix h (List.prefix_append xs (c :: ys))
  · exact short
  · cases more with
    | nil => rw [List.append_nil]
    | cons d more =>
      have rest := (List.prefix_append_right_inj xs).mp h
      obtain ⟨rfl, -⟩ := List.cons_prefix_cons.mp rest
      exact absurd (by simp) hc

namespace Clean

theorem nil : Clean [] := by
  intro h
  cases List.eq_nil_of_infix_nil h

/-- A marker takes two of `#`. -/
theorem of_count (h : cs.count '#' ≤ 1) : Clean cs := by
  intro inside
  have most := inside.sublist.count_le '#'
  have two : fieldMark.count '#' = 2 := by decide
  omega

theorem of_no_hash (none : '#' ∉ cs) : Clean cs := by
  apply of_count
  rw [List.count_eq_zero.mpr none]
  exact Nat.zero_le 1

theorem of_hash (noneFront : '#' ∉ xs) (noneBack : '#' ∉ ys) : Clean (xs ++ '#' :: ys) := by
  apply of_count
  rw [List.count_append, List.count_cons_self, List.count_eq_zero.mpr noneFront,
    List.count_eq_zero.mpr noneBack]

theorem tail (h : Clean (c :: cs)) : Clean cs := fun inside => h (List.infix_cons inside)

theorem of_cons (front : ¬ fieldMark <+: c :: cs) (h : Clean cs) : Clean (c :: cs) := by
  intro inside
  obtain start | inside := List.infix_cons_iff.mp inside
  · exact front start
  · exact h inside

/-- A marker does not start in text without `#`. -/
theorem append_left (h : Clean ys) (none : '#' ∉ xs) : Clean (xs ++ ys) := by
  induction xs with
  | nil => exact h
  | cons x xs ih =>
    rw [List.mem_cons, not_or] at none
    apply of_cons
    · intro start
      exact none.1 (hash_of_marked start).symm
    · exact ih none.2

/-- Two texts with a character between them that breaks every marker. -/
theorem append_break (hx : Clean xs) (hc : c ∉ fieldMark) (hy : Clean ys) :
    Clean (xs ++ c :: ys) := by
  induction xs with
  | nil =>
    apply of_cons _ hy
    intro start
    exact hc (hash_of_marked start ▸ hash_mem_fieldMark)
  | cons x xs ih =>
    apply of_cons
    · intro start
      have inside : fieldMark <+: x :: xs := prefix_of_break start hc
      exact hx inside.isInfix
    · exact ih hx.tail

/-- A text with no marker between texts without `#`. -/
theorem between (h : Clean cs) (noneFront : '#' ∉ xs) (hc : c ∉ fieldMark) (noneBack : '#' ∉ ys) :
    Clean (xs ++ (cs ++ c :: ys)) :=
  (h.append_break hc (.of_no_hash noneBack)).append_left noneFront

theorem of_lines {lines : List String} (h : ∀ l ∈ lines, Clean l.toList) :
    Clean ("\n".intercalate lines).toList := by
  have other : '\n' ∉ fieldMark := by decide
  induction lines with
  | nil => exact .nil
  | cons l lines ih =>
    obtain ⟨first, more⟩ := List.forall_mem_cons.mp h
    cases lines with
    | nil =>
      rw [String.intercalate_singleton]
      exact first
    | cons l' lines =>
      rw [String.intercalate_cons_cons, String.toList_append, String.toList_append,
        List.append_assoc]
      exact first.append_break other (ih more)

end Clean

end Clean

section Rewriting

/-- A text rewritten character by character: a character is kept, or something is written for it
that does not start like a part of a marker and has no `#`. -/
inductive Rewrites : List Char → List Char → Prop
  | nil : Rewrites [] []
  | keep {c : Char} {cs ds : List Char} (more : Rewrites cs ds) : Rewrites (c :: cs) (c :: ds)
  | write {c w : Char} {ws cs ds : List Char} (hw : w ∉ fieldMark) (none : '#' ∉ ws)
      (more : Rewrites cs ds) : Rewrites (c :: cs) (w :: ws ++ ds)

variable {p cs ds : List Char}

/-- What a rewritten text starts with of a marker, the text started with before. -/
theorem Rewrites.prefix_of (h : Rewrites cs ds) (hp : p ⊆ fieldMark) (start : p <+: ds) :
    p <+: cs := by
  induction h generalizing p with
  | nil => exact start
  | keep _ ih =>
    cases p with
    | nil => exact List.nil_prefix
    | cons d p =>
      obtain ⟨rfl, rest⟩ := List.cons_prefix_cons.mp start
      rw [List.cons_prefix_cons]
      exact ⟨rfl, ih (List.subset_of_cons_subset hp) rest⟩
  | write hw _ _ _ =>
    cases p with
    | nil => exact List.nil_prefix
    | cons d p =>
      obtain ⟨rfl, -⟩ := List.cons_prefix_cons.mp start
      exact absurd (hp List.mem_cons_self) hw

/-- No marker comes up by rewriting. -/
theorem Rewrites.clean (h : Rewrites cs ds) (clean : Clean cs) : Clean ds := by
  induction h with
  | nil => exact clean
  | @keep c cs ds more ih =>
    apply Clean.of_cons _ (ih clean.tail)
    intro start
    exact clean (more.keep.prefix_of (List.Subset.refl _) start).isInfix
  | @write c w ws cs ds hw none _ ih =>
    apply (ih clean.tail).append_left
    rw [List.mem_cons, not_or]
    refine ⟨?_, none⟩
    rintro rfl
    exact hw hash_mem_fieldMark

end Rewriting

section Reading

variable {xs cs name : List Char} {c : Char}

theorem blockFieldsOf_skip (h : ¬ fieldMark <+: c :: cs) :
    blockFieldsOf (c :: cs) = blockFieldsOf cs := by
  have none : blockField? (c :: cs) = none := by
    rw [blockField?, dropFront?, if_neg, Option.bind_none]
    rwa [List.isPrefixOf_iff_prefix]
  rw [blockFieldsOf, none]

/-- Behind a marker the name up to the quote is read. -/
theorem blockFieldsOf_mark (filled : name ≠ []) (unquoted : '"' ∉ name) (rest : List Char) :
    blockFieldsOf (fieldMark ++ (name ++ '"' :: rest)) = name :: blockFieldsOf rest := by
  have plain : ∀ x ∈ name, decide (x ≠ '"') = true := by
    intro x hx
    rw [decide_eq_true_iff]
    rintro rfl
    exact unquoted hx
  have taken : (name ++ '"' :: rest).takeWhile (· ≠ '"') = name := by
    rw [List.takeWhile_append_of_pos plain, List.takeWhile_cons_of_neg (by simp), List.append_nil]
  have left : (name ++ '"' :: rest).dropWhile (· ≠ '"') = '"' :: rest := by
    rw [List.dropWhile_append_of_pos plain, List.dropWhile_cons_of_neg (by simp)]
  have quoted : quotedName? (name ++ '"' :: rest) = some (name, rest) := by
    rw [quotedName?, taken, left]
    cases name with
    | nil => exact absurd rfl filled
    | cons x name => rfl
  have field : blockField? (fieldMark ++ (name ++ '"' :: rest)) = some (name, rest) := by
    rw [blockField?, dropFront?, if_pos, Option.bind_some, List.drop_left, quoted]
    rw [List.isPrefixOf_iff_prefix]
    exact List.prefix_append _ _
  obtain ⟨c, cs, whole⟩ : ∃ c cs, fieldMark ++ (name ++ '"' :: rest) = c :: cs := ⟨_, _, rfl⟩
  have shorter : rest.length ≤ cs.length := by
    have length := congrArg List.length whole
    simp only [List.length_append, List.length_cons] at length
    omega
  rw [whole] at field ⊢
  rw [blockFieldsOf, field]
  simp only [if_pos shorter]

/-- Text without the start of a marker is passed over. -/
theorem blockFieldsOf_clean (h : Clean cs) : blockFieldsOf cs = [] := by
  induction cs with
  | nil => rw [blockFieldsOf]
  | cons c cs ih =>
    rw [blockFieldsOf_skip fun start => h start.isInfix, ih h.tail]

/-- Clean lines are passed over. -/
theorem blockFieldsOf_line (h : Clean xs) (cs : List Char) :
    blockFieldsOf (xs ++ '\n' :: cs) = blockFieldsOf cs := by
  have other : '\n' ∉ fieldMark := by decide
  induction xs with
  | nil =>
    apply blockFieldsOf_skip
    intro start
    exact absurd (hash_of_marked start) (by decide)
  | cons x xs ih =>
    rw [List.cons_append, blockFieldsOf_skip, ih h.tail]
    intro start
    have inside : fieldMark <+: x :: xs := prefix_of_break start other
    exact h inside.isInfix

end Reading

/-- The block starts with the marker of the field, and no other marker starts in it. -/
def Marks (block name : String) : Prop :=
  name.toList ≠ [] ∧ '"' ∉ name.toList ∧
    ∃ rest, block.toList = fieldMark ++ (name.toList ++ '"' :: rest) ∧ Clean rest

/-- The names are read back from blocks one behind the other. -/
theorem blockFields_intercalate {blocks names : List String} {base : String}
    (h : List.Forall₂ Marks blocks names) (clean : Clean base.toList) :
    blockFields ("\n\n".intercalate (blocks ++ [base])) = names := by
  induction h with
  | nil =>
    rw [List.nil_append, String.intercalate_singleton, blockFields, blockFieldsOf_clean clean,
      List.map_nil]
  | @cons block name blocks names marks _ ih =>
    obtain ⟨filled, unquoted, rest, text, clean⟩ := marks
    obtain ⟨next, others, more⟩ : ∃ next others, blocks ++ [base] = next :: others :=
      List.exists_cons_of_ne_nil (by simp)
    have lines : ("\n\n").toList = '\n' :: ['\n'] := rfl
    have behind : blockFieldsOf (rest ++ '\n' :: '\n' ::
        ("\n\n".intercalate (blocks ++ [base])).toList) =
          blockFieldsOf ("\n\n".intercalate (blocks ++ [base])).toList := by
      rw [blockFieldsOf_line clean]
      exact blockFieldsOf_line .nil _
    rw [blockFields] at ih ⊢
    rw [← ih, ← behind, List.cons_append, more, String.intercalate_cons_cons, ← more,
      String.toList_append, String.toList_append, text, lines]
    simp only [List.append_assoc, List.cons_append, List.nil_append]
    rw [blockFieldsOf_mark filled unquoted, List.map_cons, String.ofList_toList]

end TransformDirective.Template
