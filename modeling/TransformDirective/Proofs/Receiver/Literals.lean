import TransformDirective.Receiver.Expression

namespace TransformDirective.Receiver

open TransformDirective.Text

/-- The inside of a literal: a backslash takes the next character along, and no other character is
the quote. -/
inductive Body (q : Char) : List Char → Prop
  | nil : Body q []
  | plain {c : Char} {cs : List Char} : c ≠ '\\' → c ≠ q → Body q cs → Body q (c :: cs)
  | escaped {c : Char} {cs : List Char} : Body q cs → Body q ('\\' :: c :: cs)

/-- The text ends outside literals: it consists of whole literals and characters that are no
quotes. -/
inductive Outside : List Char → Prop
  | nil : Outside []
  | char {cs : List Char} {c : Char} : Outside cs → ¬isQuote c → Outside (cs ++ [c])
  | literal {cs body : List Char} {q : Char} :
      Outside cs → isQuote q → Body q body → Outside (cs ++ q :: (body ++ [q]))

/-- The last character of the text is a quote that closes a literal. -/
def ClosesLiteral (cs : List Char) : Prop :=
  ∃ outer q body, Outside outer ∧ isQuote q ∧ Body q body ∧ cs = outer ++ q :: (body ++ [q])

/-- A character that a dot continues. -/
def Continues (c : Char) : Prop := isAlphanumeric c ∨ c ∈ ['_', '$', '.', ')', ']', '}']

/-- A dot behind the text continues what stands there. -/
def Continued (cs : List Char) : Prop :=
  (∃ c ∈ cs.getLast?, Continues c) ∨ ClosesLiteral cs

theorem endsOperand_iff (c : Char) : endsOperand c ↔ Continues c := by
  have closing : (opening? c).isSome ↔ c = ')' ∨ c = ']' ∨ c = '}' := by
    unfold opening?
    split <;> simp_all
  simp [endsOperand, Continues, closing, or_assoc]

theorem ne_backslash_of_isQuote {q : Char} (h : isQuote q) : q ≠ '\\' := by
  rintro rfl
  simp [isQuote] at h

section Body

variable {q : Char} {cs ds : List Char}

theorem Body.append (h : Body q cs) (h' : Body q ds) : Body q (cs ++ ds) := by
  induction h with
  | nil => exact h'
  | plain backslash quote _ ih => exact .plain backslash quote ih
  | escaped _ ih => exact .escaped ih

theorem Body.after (h : Body q cs) :
    (Mode.literal q false).after cs = .literal q false := by
  induction h with
  | nil => rfl
  | plain backslash quote _ ih => simpa [Mode.next, backslash, quote] using ih
  | escaped _ ih => simpa [Mode.next] using ih

end Body

namespace Mode

/-- What a mode tells about the text that was read. -/
def Tells : Mode → List Char → Prop
  | chainStart, front => Outside front ∧ ¬Continued front
  | operand, front => Outside front ∧ Continued front
  | literal q escaped, front => ∃ outer body, Outside outer ∧ isQuote q ∧ Body q body ∧
      front = outer ++ q :: (body ++ if escaped then ['\\'] else [])

theorem next_outside {m : Mode} (h : m = chainStart ∨ m = operand) (c : Char) :
    m.next c =
      if isQuote c then literal c false else if endsOperand c then operand else chainStart := by
  rcases h with rfl | rfl <;> rfl

theorem tells_outside {front : List Char} (outside : Outside front) (c : Char) :
    (chainStart.next c).Tells (front ++ [c]) := by
  rw [next_outside (.inl rfl)]
  by_cases quote : isQuote c = true
  · rw [if_pos quote]
    exact ⟨front, [], outside, quote, .nil, rfl⟩
  have further : Outside (front ++ [c]) := .char outside quote
  rw [if_neg quote]
  by_cases ends : endsOperand c = true
  · rw [if_pos ends]
    exact ⟨further, .inl ⟨c, by simp, (endsOperand_iff c).mp ends⟩⟩
  · rw [if_neg ends]
    refine ⟨further, ?_⟩
    rintro (⟨d, last, continues⟩ | ⟨outer, q, body, -, closes, -, same⟩)
    · obtain rfl : c = d := by simpa using last
      exact ends ((endsOperand_iff c).mpr continues)
    · have split : front ++ [c] = (outer ++ q :: body) ++ [q] := by simp [same]
      obtain rfl : c = q := by simpa using (List.append_inj' split rfl).2
      exact quote closes

/-- One more character changes the mode as it changes what is told. -/
theorem Tells.next {m : Mode} {front : List Char} (h : m.Tells front) (c : Char) :
    (m.next c).Tells (front ++ [c]) := by
  match m, h with
  | chainStart, h => exact tells_outside h.1 c
  | operand, h => exact tells_outside h.1 c
  | literal q true, ⟨outer, body, outside, quote, inside, same⟩ =>
    refine ⟨outer, body ++ ['\\', c], outside, quote, inside.append (.escaped .nil), ?_⟩
    simp [same]
  | literal q false, ⟨outer, body, outside, quote, inside, same⟩ =>
    have step : (literal q false).next c =
        if c = '\\' then literal q true else if c = q then operand else literal q false := rfl
    rw [step]
    by_cases backslash : c = '\\'
    · rw [if_pos backslash]
      exact ⟨outer, body, outside, quote, inside, by simp [same, backslash]⟩
    rw [if_neg backslash]
    by_cases closes : c = q
    · have whole : front ++ [c] = outer ++ q :: (body ++ [q]) := by simp [same, closes]
      rw [if_pos closes, whole]
      exact ⟨.literal outside quote inside, .inr ⟨outer, q, body, outside, quote, inside, rfl⟩⟩
    · rw [if_neg closes]
      exact ⟨outer, body ++ [c], outside, quote, inside.append (.plain backslash closes .nil),
        by simp [same]⟩

/-- The mode behind a text tells whether it ends in a literal and, if not, whether a dot would
continue what it ends with. -/
theorem Tells.after {m : Mode} {front : List Char} (h : m.Tells front) (cs : List Char) :
    (m.after cs).Tells (front ++ cs) := by
  induction cs generalizing m front with
  | nil => simpa using h
  | cons c cs ih => simpa using ih (h.next c)

/-- What the mode behind a text tells is true of the text. -/
theorem tells_after (cs : List Char) : (chainStart.after cs).Tells cs := by
  have start : chainStart.Tells [] := by
    refine ⟨.nil, ?_⟩
    rintro (⟨c, last, -⟩ | ⟨outer, q, body, -, -, -, same⟩)
    · cases last
    · simp at same
  exact start.after cs

end Mode

theorem Outside.after {cs : List Char} (h : Outside cs) :
    Mode.chainStart.after cs = .chainStart ∨ Mode.chainStart.after cs = .operand := by
  induction h with
  | nil => exact .inl rfl
  | @char cs c _ quote ih =>
    rw [Mode.after_append, Mode.after_cons, Mode.after_nil, Mode.next_outside ih, if_neg quote]
    by_cases ends : endsOperand c = true <;> simp [ends]
  | @literal cs body q _ quote inside ih =>
    have backslash := ne_backslash_of_isQuote quote
    rw [Mode.after_append, Mode.after_cons, Mode.next_outside ih, if_pos quote, Mode.after_append,
      inside.after]
    simp [Mode.next, backslash]

/-- A text ends outside literals if its reader does. -/
theorem outside_iff (cs : List Char) : Outside cs ↔
    Mode.chainStart.after cs = .chainStart ∨ Mode.chainStart.after cs = .operand := by
  refine ⟨Outside.after, fun h => ?_⟩
  have tells := Mode.tells_after cs
  rcases h with start | operand
  · rw [start] at tells
    exact tells.1
  · rw [operand] at tells
    exact tells.1

theorem after_eq_chainStart_iff (cs : List Char) :
    Mode.chainStart.after cs = .chainStart ↔ Outside cs ∧ ¬Continued cs := by
  have tells := Mode.tells_after cs
  constructor
  · intro start
    rw [start] at tells
    exact tells
  · rintro ⟨outside, fresh⟩
    refine outside.after.resolve_right fun operand => ?_
    rw [operand] at tells
    exact fresh tells.2

instance (cs : List Char) : Decidable (Outside cs) := decidable_of_iff _ (outside_iff cs).symm

end TransformDirective.Receiver
