import TransformDirective.Text.Lines

namespace TransformDirective.Text

variable {c : Char} {cs : List Char}

section Trimming

theorem dropWhile_of_head {p : Char → Bool} (h : ∀ c ∈ cs.head?, p c = false) :
    cs.dropWhile p = cs := by
  cases cs with
  | nil => rfl
  | cons c cs => exact List.dropWhile_cons_of_neg (by simp [h c rfl])

theorem getLast?_trim (cs : List Char) : ∀ c ∈ (trim cs).getLast?, isBlank c = false := by
  intro c hc
  have stop := List.head?_dropWhile_not isBlank (cs.dropWhile isBlank).reverse
  rw [trim, dropEndWhile, List.getLast?_reverse] at hc
  rw [hc] at stop
  exact stop

/-- A text that neither starts nor ends with a blank is trimmed. -/
theorem trim_of_ends (first : ∀ c ∈ cs.head?, isBlank c = false)
    (last : ∀ c ∈ cs.getLast?, isBlank c = false) : trim cs = cs := by
  rw [← List.head?_reverse] at last
  rw [trim, dropEndWhile, dropWhile_of_head first, dropWhile_of_head last, List.reverse_reverse]

theorem trim_cons_blank (blank : isBlank c) (cs : List Char) : trim (c :: cs) = trim cs := by
  rw [trim, List.dropWhile_cons_of_pos blank, trim]

theorem trim_concat_blank (blank : isBlank c) (cs : List Char) : trim (cs ++ [c]) = trim cs := by
  rw [trim, List.dropWhile_append, trim]
  split
  · next none =>
    rw [List.isEmpty_iff.mp none, List.dropWhile_cons_of_pos blank, List.dropWhile_nil]
  · rw [dropEndWhile, List.reverse_concat, List.dropWhile_cons_of_pos blank, dropEndWhile]

theorem dropEndWhile_append {p : Char → Bool} {xs : List Char} (h : ∀ x ∈ xs, p x = false)
    (ys : List Char) : dropEndWhile p (xs ++ ys) = xs ++ dropEndWhile p ys := by
  have kept : xs.reverse.dropWhile p = xs.reverse :=
    dropWhile_of_head fun x hx => h x (List.mem_reverse.mp (List.mem_of_mem_head? hx))
  rw [dropEndWhile, List.reverse_append, List.dropWhile_append, dropEndWhile]
  split
  · next none => simp [kept, List.isEmpty_iff.mp none]
  · simp

/-- What is dropped at the end are exactly the last elements that satisfy the test. -/
theorem dropAtEnd_split {α : Type} (p : α → Bool) (xs : List α) :
    let kept := (xs.reverse.dropWhile p).reverse
    (∃ tail, xs = kept ++ tail ∧ ∀ x ∈ tail, p x) ∧ ∀ x ∈ kept.getLast?, p x = false := by
  intro kept
  constructor
  · refine ⟨(xs.reverse.takeWhile p).reverse, ?_, ?_⟩
    · rw [← List.reverse_append, List.takeWhile_append_dropWhile, List.reverse_reverse]
    · intro x hx
      exact List.all_eq_true.mp List.all_takeWhile x (List.mem_reverse.mp hx)
  · intro x hx
    have stop := List.head?_dropWhile_not p xs.reverse
    rw [List.getLast?_reverse] at hx
    rw [hx] at stop
    exact stop

end Trimming

section Lines

variable {l : List Char} {ls : List (List Char)}

/-- Lines with a line feed behind each. -/
def endLines (ls : List (List Char)) : List Char := ls.flatMap (· ++ ['\n'])

def withoutReturn (l : List Char) : List Char :=
  if l.getLast? = some '\r' then l.dropLast else l

theorem trim_withoutReturn (l : List Char) : trim (withoutReturn l) = trim l := by
  unfold withoutReturn
  split
  · next last =>
    obtain ⟨front, rfl⟩ := List.getLast?_eq_some_iff.mp last
    rw [List.dropLast_concat, trim_concat_blank (by decide)]
  · rfl

theorem splitLines_line (h : '\n' ∉ l) (cs : List Char) :
    splitLines (l ++ '\n' :: cs) = l :: splitLines cs := by
  induction l with
  | nil => simp [splitLines]
  | cons c l ih =>
    rw [List.mem_cons, not_or] at h
    rw [List.cons_append, splitLines, if_neg (Ne.symm h.1), ih h.2]

/-- Lines that were written one by one are taken apart again. -/
theorem splitLines_endLines (h : ∀ l ∈ ls, '\n' ∉ l) : splitLines (endLines ls) = ls ++ [[]] := by
  induction ls with
  | nil => rfl
  | cons l ls ih =>
    have more := ih fun m hm => h m (List.mem_cons_of_mem l hm)
    have first := splitLines_line (h l List.mem_cons_self) (endLines ls)
    rw [more] at first
    simpa [endLines] using first

/-- The lines of a text whose lines are all ended are read back. -/
theorem textLines_endLines (h : ∀ l ∈ ls, '\n' ∉ l) :
    textLines (endLines ls) = ls.map withoutReturn := by
  unfold textLines
  rw [splitLines_endLines h]
  simp [withoutReturn]

theorem not_mem_splitLines : ∀ l ∈ splitLines cs, '\n' ∉ l := by
  induction cs with
  | nil => simp [splitLines]
  | cons c cs ih =>
    unfold splitLines
    split
    · simpa using ih
    · next other =>
      split
      · simpa using Ne.symm other
      · next l ls lines =>
        rw [lines] at ih
        have front := ih l List.mem_cons_self
        intro m hm
        obtain rfl | hm := List.mem_cons.mp hm
        · simp [Ne.symm other, front]
        · exact ih m (List.mem_cons_of_mem l hm)

theorem joinLines_cons_cons (l m : List Char) (ls : List (List Char)) :
    joinLines (l :: m :: ls) = l ++ '\n' :: joinLines (m :: ls) := by
  simp [joinLines, List.intercalate]

theorem endLines_eq (h : ls ≠ []) : endLines ls = joinLines ls ++ ['\n'] := by
  induction ls with
  | nil => exact absurd rfl h
  | cons l ls ih =>
    cases ls with
    | nil => simp [endLines, joinLines]
    | cons m ls =>
      have more := ih (List.cons_ne_nil m ls)
      rw [joinLines_cons_cons, List.append_assoc, List.cons_append, ← more]
      simp [endLines]

theorem endLines_splitLines (cs : List Char) : endLines (splitLines cs) = cs ++ ['\n'] := by
  rw [endLines_eq (splitLines_ne_nil cs), joinLines_splitLines]

theorem withoutReturn_line (l cs : List Char) :
    withoutReturn (l ++ '\n' :: cs) = l ++ '\n' :: withoutReturn cs := by
  cases cs with
  | nil => simp [withoutReturn]
  | cons d ds =>
    have last : (l ++ '\n' :: d :: ds).getLast? = (d :: ds).getLast? := by
      simp [List.getLast?_append, List.getLast?_cons]
    unfold withoutReturn
    rw [last]
    split
    · simp [List.dropLast_append_of_ne_nil]
    · rfl

/-- Only a carriage return at the very end is lost if none stands in front of a line feed. -/
theorem joinLines_withoutReturn (h : ¬['\r', '\n'] <:+: joinLines ls) :
    joinLines (ls.map withoutReturn) = withoutReturn (joinLines ls) := by
  induction ls with
  | nil => rfl
  | cons l ls ih =>
    cases ls with
    | nil => simp [joinLines]
    | cons m ls =>
      rw [joinLines_cons_cons] at h
      have kept : withoutReturn l = l := by
        refine if_neg fun last => h ?_
        obtain ⟨front, rfl⟩ := List.getLast?_eq_some_iff.mp last
        exact ⟨front, joinLines (m :: ls), by simp⟩
      have more : joinLines ((m :: ls).map withoutReturn) = withoutReturn (joinLines (m :: ls)) :=
        ih fun inside => h (inside.trans ⟨l ++ ['\n'], [], by simp⟩)
      rw [joinLines_cons_cons, withoutReturn_line, ← more, List.map_cons, kept, List.map_cons,
        joinLines_cons_cons]

/-- Lines without line feeds are taken apart where they were put together. -/
theorem splitLines_joinLines (nonempty : ls ≠ []) (h : ∀ l ∈ ls, '\n' ∉ l) :
    splitLines (joinLines ls) = ls := by
  have ended : splitLines (joinLines ls ++ ['\n']) = ls ++ [[]] := by
    rw [← endLines_eq nonempty, splitLines_endLines h]
  have lines : ∀ l ∈ splitLines (joinLines ls), '\n' ∉ l := not_mem_splitLines
  have whole := splitLines_endLines lines
  rw [endLines_splitLines, ended] at whole
  exact (List.append_cancel_right whole).symm

end Lines

end TransformDirective.Text
