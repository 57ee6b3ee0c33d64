import TransformDirective.Proofs.Receiver.Literals
import TransformDirective.Proofs.Text.Position

namespace TransformDirective.Receiver

open TransformDirective.Text

/-- A character that opens a literal or a group. -/
def Opens (c : Char) : Prop := isQuote c ∨ (closing? c).isSome

instance (c : Char) : Decidable (Opens c) := inferInstanceAs (Decidable (_ ∨ _))

/-- A character that neither opens nor closes anything. -/
structure IsPlain (c : Char) : Prop where
  notQuote : ¬isQuote c
  notOpening : closing? c = none
  notClosing : opening? c = none

/-- The text consists of plain characters, whole literals, and groups of such texts in brackets that
fit. -/
inductive Balanced : List Char → Prop
  | nil : Balanced []
  | plain {c : Char} {cs : List Char} : IsPlain c → Balanced cs → Balanced (c :: cs)
  | literal {q : Char} {body cs : List Char} :
      isQuote q → Body q body → Balanced cs → Balanced (q :: (body ++ q :: cs))
  | group {o c : Char} {inner cs : List Char} :
      closing? o = some c → Balanced inner → Balanced cs → Balanced (o :: (inner ++ c :: cs))

section Characters

variable {c d o : Char}

theorem closing?_eq_some_iff : closing? o = some c ↔ opening? c = some o := by
  unfold closing? opening?
  constructor <;> intro h <;> split at h <;> simp_all [eq_comm]

theorem not_isQuote_of_opening (h : closing? o = some c) : ¬isQuote o := by
  unfold closing? at h
  split at h <;> simp_all [isQuote]

theorem not_opens_of_closing (h : opening? c = some o) : ¬Opens c := by
  unfold opening? at h
  split at h <;> simp_all [Opens, isQuote, closing?]

/-- A character is plain, opens something, or is a closing bracket. -/
theorem plain_or_bracket (c : Char) : IsPlain c ∨ Opens c ∨ ∃ o, opening? c = some o := by
  by_cases quote : isQuote c = true
  · exact .inr (.inl (.inl quote))
  cases opening : closing? c with
  | some d => exact .inr (.inl (.inr (by rw [opening]; rfl)))
  | none =>
    cases closing : opening? c with
    | some o => exact .inr (.inr ⟨o, rfl⟩)
    | none => exact .inl ⟨quote, opening, closing⟩

end Characters

section Balanced

variable {cs ds : List Char}

theorem Balanced.append (h : Balanced cs) (h' : Balanced ds) : Balanced (cs ++ ds) := by
  induction h with
  | nil => exact h'
  | plain here _ ih => exact .plain here ih
  | @literal q body cs quote inside _ ih =>
    rw [List.cons_append, List.append_assoc, List.cons_append]
    exact .literal quote inside ih
  | @group o c inner cs fits inside _ _ ih =>
    rw [List.cons_append, List.append_assoc, List.cons_append]
    exact .group fits inside ih

theorem Balanced.of_plain (h : ∀ c ∈ cs, IsPlain c) : Balanced cs := by
  induction cs with
  | nil => exact .nil
  | cons c cs ih =>
    obtain ⟨here, rest⟩ := List.forall_mem_cons.mp h
    exact .plain here (ih rest)

end Balanced

namespace Mode

def IsOutside (m : Mode) : Prop := m = chainStart ∨ m = operand

theorem IsOutside.start : chainStart.IsOutside := .inl rfl

variable {m : Mode} {c : Char}

theorem IsOutside.next (h : m.IsOutside) (quote : ¬isQuote c) : (m.next c).IsOutside := by
  rw [next_outside h, if_neg quote]
  by_cases ends : endsOperand c = true
  · rw [if_pos ends]
    exact .inr rfl
  · rw [if_neg ends]
    exact .inl rfl

theorem IsOutside.next_quote (h : m.IsOutside) (quote : isQuote c) :
    m.next c = literal c false := by
  rw [next_outside h, if_pos quote]

theorem next_closing_quote (quote : isQuote c) : (literal c false).next c = operand := by
  have backslash := ne_backslash_of_isQuote quote
  simp [Mode.next, backslash]

end Mode

namespace Nesting

variable (n : Nesting) {m : Mode} (k : Nat) {c o q : Char}

/-- A plain character outside literals leaves the nesting as it is. -/
theorem step_plain (outside : m.IsOutside) (plain : IsPlain c) : n.step m k c = n := by
  have idle : ¬(isQuote c ∨ (closing? c).isSome) := by
    simp [plain.notQuote, plain.notOpening]
  rcases outside with rfl | rfl <;> simp only [step, if_neg idle, plain.notClosing]

theorem step_opens (outside : m.IsOutside) (opens : Opens c) : n.step m k c = n.push c k := by
  rcases outside with rfl | rfl <;> exact if_pos opens

theorem step_closing (outside : m.IsOutside) (closing : opening? c = some o) :
    n.step m k c = n.close o k := by
  have idle : ¬(isQuote c ∨ (closing? c).isSome) := not_opens_of_closing closing
  rcases outside with rfl | rfl <;> simp only [step, if_neg idle, closing]

theorem step_closing_quote : n.step (.literal q false) k q = n.pop := if_pos rfl

/-- Nothing but the quote of a literal counts inside the literal. -/
theorem step_inside (h : c ≠ q) : n.step (.literal q false) k c = n := if_neg h

theorem pop_push : (n.push c k).pop = n := rfl

theorem close_push (j : Nat) : (n.push o j).close o k = n := if_pos rfl

theorem after_append (m : Mode) (cs ds : List Char) : n.after m k (cs ++ ds) =
    (n.after m k cs).after (m.after cs) (k + (Cursor.behind cs).offset) ds := by
  induction cs generalizing n m k with
  | nil => rfl
  | cons c cs ih =>
    have wide : (Cursor.behind (c :: cs)).offset = c.utf8Size + (Cursor.behind cs).offset := by
      rw [← List.singleton_append, Cursor.offset_behind_append, Cursor.offset_behind_singleton]
    rw [List.cons_append, after, after, ih, wide, Nat.add_assoc, Mode.after_cons]

end Nesting

section Reading

variable {q : Char} {cs body : List Char}

/-- Nothing opens or closes inside a literal. -/
theorem Body.nesting (h : Body q body) (quote : isQuote q) (n : Nesting) (k : Nat) :
    n.after (.literal q false) k body = n := by
  have backslash := ne_backslash_of_isQuote quote
  induction h generalizing k with
  | nil => rfl
  | @plain c cs escape other inside ih =>
    have next : (Mode.literal q false).next c = .literal q false := by
      simp [Mode.next, escape, other]
    rw [Nesting.after, Nesting.step_inside n k other, next]
    exact ih _
  | @escaped c cs inside ih =>
    rw [Nesting.after, Nesting.step_inside n k backslash.symm]
    exact ih _

/-- Whoever reads a balanced text is outside literals behind it, as before. -/
theorem Balanced.isOutside (h : Balanced cs) {m : Mode} (outside : m.IsOutside) :
    (m.after cs).IsOutside := by
  induction h generalizing m with
  | nil => exact outside
  | plain here _ ih => exact ih (outside.next here.notQuote)
  | literal quote inside _ ih =>
    rw [Mode.after_cons, outside.next_quote quote, Mode.after_append, inside.after, Mode.after_cons,
      Mode.next_closing_quote quote]
    exact ih (.inr rfl)
  | group fits inside _ ih ih' =>
    have closing := not_opens_of_closing (closing?_eq_some_iff.mp fits)
    rw [Mode.after_cons, Mode.after_append, Mode.after_cons]
    exact ih' ((ih (outside.next (not_isQuote_of_opening fits))).next fun quote =>
      closing (.inl quote))

/-- Behind a balanced text the same brackets are open as in front of it. -/
theorem Balanced.nesting (h : Balanced cs) {m : Mode} (outside : m.IsOutside) (n : Nesting)
    (k : Nat) : n.after m k cs = n := by
  induction h generalizing m n k with
  | nil => rfl
  | plain here _ ih =>
    rw [Nesting.after, n.step_plain k outside here]
    exact ih (outside.next here.notQuote) n _
  | literal quote inside _ ih =>
    rw [Nesting.after, n.step_opens k outside (.inl quote), outside.next_quote quote,
      Nesting.after_append, inside.nesting quote, inside.after, Nesting.after,
      Nesting.step_closing_quote, Nesting.pop_push, Mode.next_closing_quote quote]
    exact ih (.inr rfl) n _
  | @group o c inner cs fits inside _ ih ih' =>
    have closing := closing?_eq_some_iff.mp fits
    have opens : Opens o := .inr (by rw [fits]; rfl)
    have within := outside.next (not_isQuote_of_opening fits)
    have behind := inside.isOutside within
    rw [Nesting.after, n.step_opens k outside opens, Nesting.after_append, ih within, Nesting.after,
      Nesting.step_closing _ _ behind closing, Nesting.close_push]
    exact ih' (behind.next fun quote => not_opens_of_closing closing (.inl quote)) n _

end Reading

end TransformDirective.Receiver
