import Mathlib.Data.List.Basic
import TransformDirective.Text.Cursor

namespace TransformDirective.Text

namespace Cursor

/-- An offset counts UTF-8 bytes. -/
theorem offset_advance (p : Cursor) (cs : List Char) :
    (p.advance cs).offset = p.offset + (String.ofList cs).utf8ByteSize := by
  unfold String.utf8ByteSize
  induction cs generalizing p with
  | nil => simp
  | cons c cs ih =>
    rw [advance_cons, ih, offset_step, String.toByteArray_ofList, String.toByteArray_ofList,
      List.utf8Encode_cons, ByteArray.size_append, List.utf8Encode_singleton,
      List.size_toByteArray, String.length_utf8EncodeChar, Nat.add_assoc]

theorem offset_le_advance (p : Cursor) (cs : List Char) : p.offset ≤ (p.advance cs).offset := by
  rw [offset_advance]
  exact Nat.le_add_right _ _

theorem offset_lt_advance (p : Cursor) {cs : List Char} (h : cs ≠ []) :
    p.offset < (p.advance cs).offset := by
  cases cs with
  | nil => exact absurd rfl h
  | cons c cs =>
    have wide := c.utf8Size_pos
    have step := p.offset_step c
    have rest := offset_le_advance (p.step c) cs
    rw [advance_cons]
    omega

/-- The characters behind the last line feed. -/
def lastLine (front : List Char) : List Char := (front.reverse.takeWhile (· ≠ '\n')).reverse

/-- The place behind the front of a text. -/
def behind (front : List Char) : Cursor where
  offset := (String.ofList front).utf8ByteSize
  line := 1 + front.count '\n'
  column := 1 + (lastLine front).length

theorem lastLine_concat (front : List Char) (c : Char) :
    lastLine (front ++ [c]) = if c = '\n' then [] else lastLine front ++ [c] := by
  unfold lastLine
  rw [List.reverse_append, List.reverse_singleton, List.singleton_append, List.takeWhile_cons]
  by_cases h : c = '\n'
  · simp [h]
  · simp [h]

theorem step_behind (front : List Char) (c : Char) :
    (behind front).step c = behind (front ++ [c]) := by
  have offset : (String.ofList (front ++ [c])).utf8ByteSize =
      (String.ofList front).utf8ByteSize + c.utf8Size := by
    have whole := offset_advance start (front ++ [c])
    have part := offset_advance start front
    rw [advance_append, advance_cons, advance_nil, offset_step] at whole
    omega
  unfold step behind
  rw [lastLine_concat, offset, List.count_append]
  by_cases h : c = '\n'
  · simp [h, Nat.add_assoc]
  · have other : List.count '\n' [c] = 0 := List.count_eq_zero.mpr (by simp [Ne.symm h])
    simp [h, other, Nat.add_assoc]

/-- Who reads on from behind the front of a text stands behind what was read. -/
theorem advance_behind (front cs : List Char) :
    (behind front).advance cs = behind (front ++ cs) := by
  induction cs generalizing front with
  | nil => rw [advance_nil, List.append_nil]
  | cons c cs ih =>
    rw [advance_cons, step_behind, ih, List.append_assoc, List.singleton_append]

theorem offset_behind_le (front cs : List Char) :
    (behind front).offset ≤ (behind (front ++ cs)).offset := by
  rw [← advance_behind]
  exact offset_le_advance (behind front) cs

theorem offset_behind_lt (front : List Char) {cs : List Char} (h : cs ≠ []) :
    (behind front).offset < (behind (front ++ cs)).offset := by
  rw [← advance_behind]
  exact offset_lt_advance (behind front) h

theorem offset_behind_append (front cs : List Char) :
    (behind (front ++ cs)).offset = (behind front).offset + (behind cs).offset := by
  rw [← advance_behind, offset_advance]
  rfl

theorem offset_behind_singleton (c : Char) : (behind [c]).offset = c.utf8Size := by
  rw [← List.nil_append [c], ← step_behind, offset_step]
  exact Nat.zero_add _

theorem start_advance (cs : List Char) : start.advance cs = behind cs := advance_behind [] cs

end Cursor

/-- The fronts of a text are told apart by their bytes. -/
theorem append_cancel_of_offset {us vs us' vs' : List Char} (whole : us ++ vs = us' ++ vs')
    (bytes : (Cursor.behind us).offset = (Cursor.behind us').offset) : us = us' ∧ vs = vs' := by
  have longer : ∀ (front more : List Char),
      (Cursor.behind (front ++ more)).offset = (Cursor.behind front).offset → more = [] := by
    intro front more same
    by_contra some
    have farther := Cursor.offset_behind_lt front some
    omega
  obtain ⟨more, rfl, rfl⟩ | ⟨more, rfl, rfl⟩ := List.append_eq_append_iff.mp whole
  · obtain rfl := longer us more bytes.symm
    exact ⟨(List.append_nil us).symm, rfl⟩
  · obtain rfl := longer us' more bytes
    exact ⟨List.append_nil us', rfl⟩

/-- Of two fronts of a text, the one with fewer bytes is a front of the other. -/
theorem prefix_of_offset_le {us vs us' vs' : List Char} (whole : us ++ vs = us' ++ vs')
    (bytes : (Cursor.behind us).offset ≤ (Cursor.behind us').offset) : us <+: us' := by
  obtain ⟨more, rfl, rfl⟩ | ⟨more, rfl, rfl⟩ := List.append_eq_append_iff.mp whole
  · exact List.prefix_append us more
  · have longer := Cursor.offset_behind_le us' more
    obtain ⟨same, -⟩ := append_cancel_of_offset whole (Nat.le_antisymm bytes longer)
    exact ⟨[], by rw [List.append_nil, same]⟩

section Bytes

def bytes (cs : List Char) : Nat := (String.ofList cs).utf8ByteSize

theorem bytes_append (xs ys : List Char) : bytes (xs ++ ys) = bytes xs + bytes ys :=
  Cursor.offset_behind_append xs ys

theorem bytes_cons (c : Char) (cs : List Char) : bytes (c :: cs) = c.utf8Size + bytes cs := by
  have first : bytes [c] = c.utf8Size := Cursor.offset_behind_singleton c
  rw [← first, ← bytes_append, List.singleton_append]

theorem bytes_eq_length {cs : List Char} (h : ∀ c ∈ cs, c.utf8Size = 1) :
    bytes cs = cs.length := by
  induction cs with
  | nil => rfl
  | cons c cs ih =>
    obtain ⟨first, more⟩ := List.forall_mem_cons.mp h
    rw [bytes_cons, first, ih more, List.length_cons, Nat.add_comm]

/-- The text behind so many bytes, if it has them and no character lies across the cut. -/
def sliceFrom? (n : Nat) : List Char → Option (List Char)
  | [] => if n = 0 then some [] else none
  | c :: cs =>
    if n = 0 then some (c :: cs)
    else if c.utf8Size ≤ n then sliceFrom? (n - c.utf8Size) cs
    else none

/-- A cut between two characters succeeds. -/
theorem sliceFrom?_bytes (front back : List Char) :
    sliceFrom? (bytes front) (front ++ back) = some back := by
  induction front with
  | nil => cases back <;> simp [sliceFrom?, bytes]
  | cons c front ih =>
    have wide := c.utf8Size_pos
    have inside : bytes (c :: front) ≠ 0 := by
      rw [bytes_cons]
      omega
    rw [List.cons_append, sliceFrom?, if_neg inside, bytes_cons, if_pos (Nat.le_add_right _ _),
      Nat.add_sub_cancel_left, ih]

end Bytes

/-- The stretch cuts this text out of the source: it starts and ends between two characters, and
its line and column are those of its start. -/
def Excerpt (source : List Char) (s : Span) (text : List Char) : Prop :=
  ∃ front back, source = front ++ text ++ back ∧
    s = .between (.behind front) (.behind (front ++ text))

namespace Excerpt

variable {source text text' : List Char} {s : Span}

/-- A stretch cuts out one text only. -/
theorem unique (h : Excerpt source s text) (h' : Excerpt source s text') : text = text' := by
  obtain ⟨front, back, whole, rfl⟩ := h
  obtain ⟨front', back', whole', same⟩ := h'
  have start : (Cursor.behind front).offset = (Cursor.behind front').offset :=
    congrArg Span.start same
  have stop : (Cursor.behind (front ++ text)).offset = (Cursor.behind (front' ++ text')).offset :=
    congrArg Span.stop same
  obtain ⟨inside, -⟩ := append_cancel_of_offset (whole.symm.trans whole') stop
  rw [List.append_assoc] at whole
  rw [List.append_assoc, whole] at whole'
  obtain ⟨rfl, -⟩ := append_cancel_of_offset whole' start
  exact List.append_cancel_left inside

end Excerpt

end TransformDirective.Text
