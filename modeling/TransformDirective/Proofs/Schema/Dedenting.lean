import Mathlib.Data.List.Forall2
import Mathlib.Order.Bounds.Defs
import TransformDirective.Proofs.Text.Lines
import TransformDirective.Proofs.Text.Position
import TransformDirective.Schema.Literal

namespace TransformDirective.Schema

open TransformDirective.Text

section Indentation

variable {k : Nat} {l front : List Char} {ls : List (List Char)}

theorem isIndent_iff {c : Char} : isIndent c ↔ c = ' ' ∨ c = '\t' := by
  simp [isIndent]

theorem utf8Size_of_isIndent {c : Char} (h : isIndent c) : c.utf8Size = 1 := by
  obtain rfl | rfl := isIndent_iff.mp h <;> rfl

theorem isBlank_of_isIndent {c : Char} (h : isIndent c) : isBlank c := by
  obtain rfl | rfl := isIndent_iff.mp h <;> decide

theorem bytes_of_isIndent (h : ∀ c ∈ front, isIndent c) : bytes front = front.length :=
  bytes_eq_length fun c hc => utf8Size_of_isIndent (h c hc)

/-- The indentation of the lines that are not blank. -/
def indentations (ls : List (List Char)) : List Nat :=
  (ls.filter fun l => !isBlankLine l).map indentWidth

theorem mem_indentations {n : Nat} :
    n ∈ indentations ls ↔ ∃ l ∈ ls, isBlankLine l = false ∧ indentWidth l = n := by
  simp [indentations, and_assoc]

theorem indentations_eq_nil : indentations ls = [] ↔ ∀ l ∈ ls, isBlankLine l := by
  simp [indentations]

theorem commonIndent_eq (h : IsLeast {n | n ∈ indentations ls} k) : commonIndent ls = k := by
  have least : (indentations ls).min? = some k := List.min?_eq_some_iff.mpr h
  rw [commonIndent, ← indentations, least, Option.getD_some]

/-- The common indentation is the least one of the lines that are not blank. -/
theorem commonIndent_isLeast (h : ∃ l ∈ ls, isBlankLine l = false) :
    IsLeast {n | n ∈ indentations ls} (commonIndent ls) := by
  cases least : (indentations ls).min? with
  | none =>
    obtain ⟨l, hl, solid⟩ := h
    have blank := indentations_eq_nil.mp (List.min?_eq_none_iff.mp least) l hl
    rw [blank] at solid
    cases solid
  | some k =>
    have isLeast : IsLeast {n | n ∈ indentations ls} k := List.min?_eq_some_iff.mp least
    rw [commonIndent_eq isLeast]
    exact isLeast

theorem commonIndent_le (hl : l ∈ ls) (solid : isBlankLine l = false) :
    commonIndent ls ≤ indentWidth l := by
  have least := commonIndent_isLeast ⟨l, hl, solid⟩
  exact least.2 (mem_indentations.mpr ⟨l, hl, solid, rfl⟩)

/-- The characters that are cut off a line are blanks and tabs, and there are so many. -/
theorem take_indent (h : k ≤ indentWidth l) :
    (∀ c ∈ l.take k, isIndent c) ∧ (l.take k).length = k := by
  have cut : (l.takeWhile isIndent ++ l.dropWhile isIndent).take k =
      (l.takeWhile isIndent).take k := List.take_append_of_le_length h
  rw [List.takeWhile_append_dropWhile] at cut
  rw [cut]
  refine ⟨fun c hc => ?_, List.length_take_of_le h⟩
  exact List.all_eq_true.mp List.all_takeWhile c (List.mem_of_mem_take hc)

end Indentation

section ByBytes

variable {l : List Char} {ls : List (List Char)}

/-- The bytes of the blanks and tabs a line starts with. -/
def indentBytes (line : List Char) : Nat := bytes line - bytes (line.dropWhile isIndent)

def commonIndentBytes (ls : List (List Char)) : Nat :=
  (((ls.filter fun l => !isBlankLine l).map indentBytes).min?).getD 0

/-- A line behind the first, cut behind so many bytes if it can be cut there. -/
def cutLine? (width : Nat) (line : List Char) : Option (List Char) :=
  if isBlankLine line then some [] else sliceFrom? width line

/-- Dedenting with cuts that may fail. -/
def cutLines? : List (List Char) → Option (List (List Char))
  | [] => some []
  | l :: ls => (ls.mapM (cutLine? (commonIndentBytes ls))).map (l :: ·)

theorem indentBytes_eq (l : List Char) : indentBytes l = indentWidth l := by
  have whole := List.takeWhile_append_dropWhile (p := isIndent) (l := l)
  have front : ∀ c ∈ l.takeWhile isIndent, isIndent c :=
    fun c hc => List.all_eq_true.mp List.all_takeWhile c hc
  have width := bytes_append (l.takeWhile isIndent) (l.dropWhile isIndent)
  rw [whole, bytes_of_isIndent front] at width
  rw [indentBytes, width, Nat.add_sub_cancel, indentWidth]

/-- Indentation is made of characters of one byte each, so lines can be cut by counting bytes. -/
theorem commonIndentBytes_eq (ls : List (List Char)) : commonIndentBytes ls = commonIndent ls := by
  rw [commonIndentBytes, commonIndent, funext indentBytes_eq]

/-- A line is cut behind as many bytes as characters, all of which indent it. -/
theorem cutLine?_eq (hl : l ∈ ls) :
    cutLine? (commonIndent ls) l = some (dedentLine (commonIndent ls) l) := by
  unfold cutLine? dedentLine
  split
  · rfl
  · next solid =>
    have fits := commonIndent_le hl (Bool.eq_false_iff.mpr solid)
    obtain ⟨indent, width⟩ := take_indent fits
    have cut := sliceFrom?_bytes (l.take (commonIndent ls)) (l.drop (commonIndent ls))
    rwa [bytes_of_isIndent indent, width, List.take_append_drop] at cut

theorem mapM_eq_some {α β : Type} {f : α → Option β} {g : α → β} {xs : List α}
    (h : ∀ x ∈ xs, f x = some (g x)) : xs.mapM f = some (xs.map g) := by
  induction xs with
  | nil => rfl
  | cons x xs ih =>
    obtain ⟨first, more⟩ := List.forall_mem_cons.mp h
    simp [List.mapM_cons, first, ih more]

/-- No cut fails. -/
theorem cutLines?_eq (ls : List (List Char)) : cutLines? ls = some (dedent ls) := by
  cases ls with
  | nil => rfl
  | cons l ls =>
    rw [cutLines?, commonIndentBytes_eq, mapM_eq_some fun m hm => cutLine?_eq hm, Option.map_some,
      dedent]

end ByBytes

section Exactly

variable {raw : List Char} {l m : List Char} {ls : List (List Char)} {k : Nat}

/-- The lines of a text between its line feeds, without carriage returns at their ends. -/
def LinesOf (raw : List Char) (ls : List (List Char)) : Prop :=
  ∃ pieces, pieces ≠ [] ∧ raw = joinLines pieces ∧ (∀ p ∈ pieces, '\n' ∉ p) ∧
    List.Forall₂ (fun p l => (∃ n, p = l ++ List.replicate n '\r') ∧ l.getLast? ≠ some '\r')
      pieces ls

/-- What is left of a line behind the first. -/
inductive Dedents (k : Nat) : List Char → List Char → Prop
  | blank {l : List Char} (h : isBlankLine l) : Dedents k l []
  | cut {front l : List Char} (solid : isBlankLine (front ++ l) = false)
      (indent : ∀ c ∈ front, c = ' ' ∨ c = '\t') (width : bytes front = k) :
      Dedents k (front ++ l) l

/-- The lines without the longest runs of blank lines at both ends. -/
def WithoutBlankEnds (ls kept : List (List Char)) : Prop :=
  ∃ front back, ls = front ++ kept ++ back ∧ (∀ l ∈ front, isBlankLine l) ∧
    (∀ l ∈ back, isBlankLine l) ∧ (∀ l ∈ kept.head?, isBlankLine l = false) ∧
      ∀ l ∈ kept.getLast?, isBlankLine l = false

/-- The lines `kept` are what is meant by a block string with this content. -/
structure Means (raw : List Char) (kept : List (List Char)) (first : List Char)
    (later cut : List (List Char)) (k : Nat) : Prop where
  lines : LinesOf raw (first :: later)
  least : (∃ l ∈ later, isBlankLine l = false) →
    IsLeast {n | ∃ l ∈ later, isBlankLine l = false ∧ indentWidth l = n} k
  each : List.Forall₂ (Dedents k) later cut
  ends : WithoutBlankEnds (first :: cut) kept

theorem linesOf_blockLines (raw : List Char) : LinesOf raw (blockLines raw) := by
  refine ⟨splitLines raw, splitLines_ne_nil raw, (joinLines_splitLines raw).symm,
    not_mem_splitLines, ?_⟩
  rw [blockLines, List.forall₂_map_right_iff, List.forall₂_same]
  intro p _
  obtain ⟨⟨tail, whole, returns⟩, last⟩ := dropAtEnd_split (· == '\r') p
  have same : tail = List.replicate tail.length '\r' :=
    List.eq_replicate_of_mem fun c hc => eq_of_beq (returns c hc)
  refine ⟨⟨tail.length, by rw [← same]; exact whole⟩, fun ends => ?_⟩
  have other := last '\r' ends
  cases other

theorem dedents_dedentLine (hl : l ∈ ls) :
    Dedents (commonIndent ls) l (dedentLine (commonIndent ls) l) := by
  unfold dedentLine
  split
  · next blank => exact .blank blank
  · next solid =>
    have solid := Bool.eq_false_iff.mpr solid
    obtain ⟨indent, width⟩ := take_indent (commonIndent_le hl solid)
    have whole := List.take_append_drop (commonIndent ls) l
    have cut : Dedents (commonIndent ls) (l.take (commonIndent ls) ++ l.drop (commonIndent ls))
        (l.drop (commonIndent ls)) :=
      .cut (by rw [whole, solid]) (fun c hc => isIndent_iff.mp (indent c hc))
        (by rw [bytes_of_isIndent indent, width])
    rwa [whole] at cut

/-- Only blank lines at the ends are dropped, and all of these. -/
theorem withoutBlankEnds_dropBlankEnds (ls : List (List Char)) :
    WithoutBlankEnds ls (dropBlankEnds ls) := by
  obtain ⟨⟨back, whole, blank⟩, last⟩ := dropAtEnd_split isBlankLine (ls.dropWhile isBlankLine)
  have whole : ls.dropWhile isBlankLine = dropBlankEnds ls ++ back := whole
  refine ⟨ls.takeWhile isBlankLine, back, ?_, ?_, blank, ?_, last⟩
  · rw [List.append_assoc, ← whole, List.takeWhile_append_dropWhile]
  · exact fun l hl => List.all_eq_true.mp List.all_takeWhile l hl
  · intro l hl
    have stop := List.head?_dropWhile_not isBlankLine ls
    have head : (ls.dropWhile isBlankLine).head? = some l := by
      rw [whole, List.head?_append_of_ne_nil _ (List.ne_nil_of_mem (List.mem_of_mem_head? hl))]
      exact hl
    rw [head] at stop
    exact stop

/-- The lines of a block string that are kept. -/
def keptLines (raw : List Char) : List (List Char) := dropBlankEnds (dedent (blockLines raw))

/-- The kept lines are what is meant by the content, for every content. -/
theorem means_keptLines (raw : List Char) :
    ∃ first later cut k, Means raw (keptLines raw) first later cut k := by
  have lines := linesOf_blockLines raw
  cases hls : blockLines raw with
  | nil =>
    have none : splitLines raw = [] := by simpa [blockLines] using hls
    exact absurd none (splitLines_ne_nil raw)
  | cons first later =>
    let cut := later.map (dedentLine (commonIndent later))
    refine ⟨first, later, cut, commonIndent later, hls ▸ lines, fun solid => ?_, ?_, ?_⟩
    · simpa only [mem_indentations] using commonIndent_isLeast solid
    · rw [List.forall₂_map_right_iff, List.forall₂_same]
      exact fun l hl => dedents_dedentLine hl
    · rw [keptLines, hls]
      exact withoutBlankEnds_dropBlankEnds (dedent (first :: later))

theorem not_mem_blockLines : ∀ l ∈ blockLines raw, '\n' ∉ l := by
  intro l hl
  obtain ⟨p, hp, rfl⟩ := List.mem_map.mp hl
  obtain ⟨⟨tail, whole, -⟩, -⟩ := dropAtEnd_split (· == '\r') p
  have front : dropEndWhile (· == '\r') p <+: p := ⟨tail, whole.symm⟩
  exact fun inside => not_mem_splitLines p hp (front.subset inside)

theorem not_mem_keptLines : ∀ l ∈ keptLines raw, '\n' ∉ l := by
  intro l hl inside
  obtain ⟨front, back, whole, -⟩ := withoutBlankEnds_dropBlankEnds (dedent (blockLines raw))
  have hl : l ∈ dedent (blockLines raw) := by
    rw [whole]
    exact List.mem_append_left _ (List.mem_append_right _ hl)
  have none : ∀ l ∈ blockLines raw, '\n' ∉ l := not_mem_blockLines
  cases hls : blockLines raw with
  | nil =>
    rw [hls] at hl
    cases hl
  | cons first later =>
    rw [hls] at hl none
    obtain rfl | hl := List.mem_cons.mp hl
    · exact none l List.mem_cons_self inside
    · obtain ⟨m, hm, rfl⟩ := List.mem_map.mp hl
      refine none m (List.mem_cons_of_mem first hm) ?_
      unfold dedentLine at inside
      split at inside
      · cases inside
      · exact List.mem_of_mem_drop inside

/-- A value that is not empty starts and ends with a line that is not blank. -/
theorem blockValue_ends (h : blockValue raw ≠ []) :
    (∀ l ∈ (splitLines (blockValue raw)).head?, isBlankLine l = false) ∧
      ∀ l ∈ (splitLines (blockValue raw)).getLast?, isBlankLine l = false := by
  have nonempty : keptLines raw ≠ [] := by
    intro none
    have value : blockValue raw = joinLines (keptLines raw) := rfl
    exact h (by rw [value, none]; rfl)
  obtain ⟨front, back, -, -, -, ends⟩ := withoutBlankEnds_dropBlankEnds (dedent (blockLines raw))
  have lines : splitLines (blockValue raw) = keptLines raw :=
    splitLines_joinLines nonempty not_mem_keptLines
  rw [lines]
  exact ends

end Exactly

section Deeper

variable {pad raw l : List Char} {ls : List (List Char)}

/-- The text with the same indentation put behind each of its line feeds. -/
def indentLater (pad raw : List Char) : List Char :=
  raw.flatMap fun c => if c = '\n' then '\n' :: pad else [c]

/-- The lines with the same indentation put in front of all but the first. -/
def padLater (pad : List Char) : List (List Char) → List (List Char)
  | [] => []
  | l :: ls => l :: ls.map (pad ++ ·)

theorem splitLines_append (h : '\n' ∉ l) {cs m : List Char} (hs : splitLines cs = m :: ls) :
    splitLines (l ++ cs) = (l ++ m) :: ls := by
  induction l with
  | nil => exact hs
  | cons c l ih =>
    rw [List.mem_cons, not_or] at h
    rw [List.cons_append, splitLines, if_neg (Ne.symm h.1), ih h.2]
    rfl

theorem splitLines_indentLater (h : '\n' ∉ pad) (raw : List Char) :
    splitLines (indentLater pad raw) = padLater pad (splitLines raw) := by
  induction raw with
  | nil => rfl
  | cons c raw ih =>
    obtain ⟨m, ms, hs⟩ := List.exists_cons_of_ne_nil (splitLines_ne_nil raw)
    rw [hs, padLater] at ih
    by_cases line : c = '\n'
    · have whole : indentLater pad (c :: raw) = '\n' :: (pad ++ indentLater pad raw) := by
        simp [indentLater, line]
      rw [whole, splitLines, if_pos rfl, splitLines_append h ih, line, splitLines, if_pos rfl, hs]
      rfl
    · have whole : indentLater pad (c :: raw) = c :: indentLater pad raw := by
        simp [indentLater, line]
      rw [whole, splitLines, if_neg line, ih, splitLines, if_neg line, hs]
      rfl

theorem blockLines_indentLater (h : ∀ c ∈ pad, isIndent c) (raw : List Char) :
    blockLines (indentLater pad raw) = padLater pad (blockLines raw) := by
  have noLine : '\n' ∉ pad := fun mem => absurd (h _ mem) (by decide)
  have noReturn : ∀ c ∈ pad, (c == '\r') = false := by
    intro c hc
    obtain rfl | rfl := isIndent_iff.mp (h c hc) <;> decide
  rw [blockLines, splitLines_indentLater noLine, blockLines]
  cases splitLines raw with
  | nil => rfl
  | cons m ms => simp [padLater, dropEndWhile_append noReturn]

theorem isBlankLine_pad (h : ∀ c ∈ pad, isIndent c) (l : List Char) :
    isBlankLine (pad ++ l) = isBlankLine l := by
  have blank : pad.all isBlank :=
    List.all_eq_true.mpr fun c hc => isBlank_of_isIndent (h c hc)
  rw [isBlankLine, List.all_append, blank, Bool.true_and, isBlankLine]

theorem indentWidth_pad (h : ∀ c ∈ pad, isIndent c) (l : List Char) :
    indentWidth (pad ++ l) = pad.length + indentWidth l := by
  rw [indentWidth, List.takeWhile_append_of_pos h, List.length_append, indentWidth]

theorem commonIndent_pad (h : ∀ c ∈ pad, isIndent c) (solid : ∃ l ∈ ls, isBlankLine l = false) :
    commonIndent (ls.map (pad ++ ·)) = pad.length + commonIndent ls := by
  obtain ⟨shared, least⟩ := commonIndent_isLeast solid
  apply commonIndent_eq
  constructor
  · obtain ⟨l, hl, notBlank, width⟩ := mem_indentations.mp shared
    refine mem_indentations.mpr ⟨pad ++ l, List.mem_map_of_mem hl, ?_, ?_⟩
    · rw [isBlankLine_pad h, notBlank]
    · rw [indentWidth_pad h, width]
  · intro n hn
    obtain ⟨l', hl', notBlank, rfl⟩ := mem_indentations.mp hn
    obtain ⟨l, hl, rfl⟩ := List.mem_map.mp hl'
    rw [isBlankLine_pad h] at notBlank
    rw [indentWidth_pad h]
    exact Nat.add_le_add_left (least (mem_indentations.mpr ⟨l, hl, notBlank, rfl⟩)) _

theorem dedent_padLater (h : ∀ c ∈ pad, isIndent c) (ls : List (List Char)) :
    dedent (padLater pad ls) = dedent ls := by
  cases ls with
  | nil => rfl
  | cons first later =>
    rw [padLater, dedent, dedent, List.map_map]
    refine congrArg (first :: ·) (List.map_congr_left fun l hl => ?_)
    show dedentLine _ (pad ++ l) = _
    unfold dedentLine
    rw [isBlankLine_pad h]
    split
    · rfl
    · next solid =>
      rw [commonIndent_pad h ⟨l, hl, Bool.eq_false_iff.mpr solid⟩]
      simp

/-- More indentation on all later lines makes no difference. -/
theorem blockValue_indentLater (h : ∀ c ∈ pad, isIndent c) (raw : List Char) :
    blockValue (indentLater pad raw) = blockValue raw := by
  rw [blockValue, blockLines_indentLater h, dedent_padLater h, blockValue]

end Deeper

/-- Of every content of a block string: no cut by bytes fails; the lines that are meant are kept,
and the ones at both ends are not blank; and indentation that is put behind all line feeds makes no
difference. -/
theorem blockValue_dedents (raw : List Char) :
    cutLines? (blockLines raw) = some (dedent (blockLines raw)) ∧
    (∃ kept first later cut k, Means raw kept first later cut k ∧ blockValue raw = joinLines kept) ∧
    (blockValue raw ≠ [] →
      (∀ l ∈ (splitLines (blockValue raw)).head?, isBlankLine l = false) ∧
      ∀ l ∈ (splitLines (blockValue raw)).getLast?, isBlankLine l = false) ∧
    ∀ pad, (∀ c ∈ pad, c = ' ' ∨ c = '\t') → blockValue (indentLater pad raw) = blockValue raw := by
  refine ⟨cutLines?_eq _, ?_, blockValue_ends, fun pad h => ?_⟩
  · obtain ⟨first, later, cut, k, means⟩ := means_keptLines raw
    exact ⟨keptLines raw, first, later, cut, k, means, rfl⟩
  · exact blockValue_indentLater (fun c hc => isIndent_iff.mpr (h c hc)) raw

/-- Tabs and blanks as indentation, carriage returns, and two blank lines, one of them with a blank
that indents nothing. -/
theorem blockValue_dedents_mixed :
    let raw := "\r\n\t a\n\u00a0\n\t \tb\r\n ".toList
    let value := "a\n\n\tb".toList
    blockValue (indentLater [' ', '\t'] raw) = value ∧
    cutLines? (blockLines raw) = some [[], ['a'], [], ['\t', 'b'], []] ∧
    (∃ kept first later cut k, Means raw kept first later cut k ∧ value = joinLines kept) ∧
    ∀ l ∈ (splitLines value).head?, isBlankLine l = false := by
  intro raw value
  obtain ⟨cuts, means, ends, deeper⟩ := blockValue_dedents raw
  have read : blockValue raw = value := by decide +kernel
  have lines : dedent (blockLines raw) = [[], ['a'], [], ['\t', 'b'], []] := by decide +kernel
  rw [read] at means ends deeper
  exact ⟨deeper [' ', '\t'] (by simp), lines ▸ cuts, means, (ends (by decide)).1⟩

end TransformDirective.Schema
