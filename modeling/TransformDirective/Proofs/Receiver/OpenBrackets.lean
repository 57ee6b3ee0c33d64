import Mathlib.Data.List.Induction
import TransformDirective.Proofs.Receiver.Brackets

namespace TransformDirective.Receiver

open TransformDirective.Text

def nestingOf (cs : List Char) : Nesting := Nesting.empty.after .chainStart 0 cs

/-- All closing brackets of the text fit. -/
def Fits (cs : List Char) : Prop := (nestingOf cs).mismatch = none

instance (cs : List Char) : Decidable (Fits cs) := inferInstanceAs (Decidable (_ = _))

/-- What one more character does to a nesting, and when. -/
inductive Nesting.Step (n : Nesting) (m : Mode) (k : Nat) (c : Char) : Nesting → Prop
  | inside (q : Char) (escaped : Bool) :
      m = .literal q escaped → (escaped = false → c ≠ q) → Step n m k c n
  | plain : m.IsOutside → IsPlain c → Step n m k c n
  | opens : m.IsOutside → Opens c → Step n m k c (n.push c k)
  | ends : m = .literal c false → Step n m k c n.pop
  | closes (o : Char) : m.IsOutside → opening? c = some o → n.opened.head?.map (·.1) = some o →
      Step n m k c n.pop
  | strays (o : Char) : m.IsOutside → opening? c = some o → n.opened.head?.map (·.1) ≠ some o →
      Step n m k c { n.pop with mismatch := n.mismatch <|> some k }

theorem Mode.cases_outside (m : Mode) : m.IsOutside ∨ ∃ q escaped, m = .literal q escaped := by
  cases m with
  | chainStart => exact .inl (.inl rfl)
  | operand => exact .inl (.inr rfl)
  | literal q escaped => exact .inr ⟨q, escaped, rfl⟩

/-- One more character leaves the nesting alone, opens something, closes what is open innermost, or
does not fit. -/
theorem Nesting.step_cases (n : Nesting) (m : Mode) (k : Nat) (c : Char) :
    n.Step m k c (n.step m k c) := by
  rcases m.cases_outside with outside | ⟨q, escaped, rfl⟩
  · rcases plain_or_bracket c with plain | opens | ⟨o, closing⟩
    · rw [n.step_plain k outside plain]
      exact .plain outside plain
    · rw [n.step_opens k outside opens]
      exact .opens outside opens
    · rw [n.step_closing k outside closing, Nesting.close]
      by_cases top : n.opened.head?.map (·.1) = some o
      · rw [if_pos top]
        exact .closes o outside closing top
      · rw [if_neg top]
        exact .strays o outside closing top
  · cases escaped with
    | true => exact .inside q true rfl fun never => nomatch never
    | false =>
      by_cases same : c = q
      · subst same
        rw [n.step_closing_quote]
        exact .ends rfl
      · rw [n.step_inside k same]
        exact .inside q false rfl fun _ => same

namespace Nesting.Step

variable {n n' : Nesting} {m : Mode} {k : Nat} {c : Char}

theorem mismatch_eq_none (h : n.Step m k c n') (fits : n'.mismatch = none) : n.mismatch = none := by
  cases h with
  | inside => exact fits
  | plain => exact fits
  | opens => exact fits
  | ends => exact fits
  | closes => exact fits
  | strays => simp at fits

/-- The first bracket that does not fit is the one that is remembered. -/
theorem mismatch_eq_some (h : n.Step m k c n') {j : Nat} (stray : n'.mismatch = some j) :
    n.mismatch = some j ∨ n.mismatch = none ∧ j = k ∧ m.IsOutside ∧
      ∃ o, opening? c = some o ∧ n.opened.head?.map (·.1) ≠ some o := by
  cases h with
  | inside => exact .inl stray
  | plain => exact .inl stray
  | opens => exact .inl stray
  | ends => exact .inl stray
  | closes => exact .inl stray
  | strays o outside closing top =>
    cases before : n.mismatch with
    | some i =>
      simp only [before] at stray
      exact .inl stray
    | none =>
      simp only [before] at stray
      cases stray
      exact .inr ⟨rfl, rfl, outside, o, closing, top⟩

theorem mem_opened (h : n.Step m k c n') {e : Char × Nat} (he : e ∈ n'.opened) :
    e ∈ n.opened ∨ e = (c, k) ∧ m.IsOutside ∧ Opens c := by
  cases h with
  | inside => exact .inl he
  | plain => exact .inl he
  | opens outside opens =>
    rcases List.mem_cons.mp he with rfl | he
    · exact .inr ⟨rfl, outside, opens⟩
    · exact .inl he
  | ends => exact .inl (List.mem_of_mem_tail he)
  | closes => exact .inl (List.mem_of_mem_tail he)
  | strays => exact .inl (List.mem_of_mem_tail he)

/-- What is open stays open, unless it is open innermost and the character closes it. -/
theorem opened_or_closed (h : n.Step m k c n') (fits : n'.mismatch = none) {e : Char × Nat}
    (he : e ∈ n.opened) : e ∈ n'.opened ∨ n.opened.head? = some e ∧
      (m = .literal c false ∨ m.IsOutside ∧ opening? c = some e.1) := by
  have tail_or_head : e ∈ n.opened.tail ∨ n.opened.head? = some e := by
    cases stack : n.opened with
    | nil => simp [stack] at he
    | cons f es => simpa [stack, eq_comm, or_comm] using he
  cases h with
  | inside => exact .inl he
  | plain => exact .inl he
  | opens => exact .inl (List.mem_cons_of_mem _ he)
  | ends literal => exact tail_or_head.imp_right fun head => ⟨head, .inl literal⟩
  | closes o outside closing top =>
    refine tail_or_head.imp_right fun head => ⟨head, .inr ⟨outside, ?_⟩⟩
    rw [head] at top
    rw [closing, ← top]
    rfl
  | strays => simp at fits

end Nesting.Step

section Concat

variable {cs ds : List Char} {c : Char}

theorem nestingOf_append (cs ds : List Char) : nestingOf (cs ++ ds) =
    (nestingOf cs).after (Mode.chainStart.after cs) (Cursor.behind cs).offset ds := by
  unfold nestingOf
  rw [Nesting.after_append, Nat.zero_add]

theorem nestingOf_concat_eq (cs : List Char) (c : Char) : nestingOf (cs ++ [c]) =
    (nestingOf cs).step (Mode.chainStart.after cs) (Cursor.behind cs).offset c :=
  nestingOf_append cs [c]

theorem nestingOf_concat (cs : List Char) (c : Char) :
    (nestingOf cs).Step (Mode.chainStart.after cs) (Cursor.behind cs).offset c
      (nestingOf (cs ++ [c])) := by
  rw [nestingOf_concat_eq]
  exact (nestingOf cs).step_cases _ _ c

theorem Fits.of_append (h : Fits (cs ++ ds)) : Fits cs := by
  induction ds using List.reverseRecOn with
  | nil => rwa [List.append_nil] at h
  | append_singleton ds c ih =>
    rw [← List.append_assoc] at h
    exact ih ((nestingOf_concat _ c).mismatch_eq_none h)

/-- Behind a balanced text the nesting is as in front of it. -/
theorem nestingOf_append_balanced (outside : Outside cs) (h : Balanced ds) :
    nestingOf (cs ++ ds) = nestingOf cs := by
  rw [nestingOf_append]
  exact h.nesting ((outside_iff cs).mp outside) _ _

/-- What is open behind a text opened somewhere in it. -/
theorem exists_of_mem_opened {e : Char × Nat} (he : e ∈ (nestingOf cs).opened) :
    ∃ front back, cs = front ++ e.1 :: back ∧ (Cursor.behind front).offset = e.2 ∧
      Outside front ∧ Opens e.1 := by
  induction cs using List.reverseRecOn with
  | nil => cases he
  | append_singleton cs c ih =>
    rcases (nestingOf_concat cs c).mem_opened he with he | ⟨rfl, outside, opens⟩
    · obtain ⟨front, back, rfl, offset, rest⟩ := ih he
      exact ⟨front, back ++ [c], by simp, offset, rest⟩
    · exact ⟨cs, [], rfl, rfl, (outside_iff cs).mpr outside, opens⟩

theorem lt_of_mem_opened {e : Char × Nat} (he : e ∈ (nestingOf cs).opened) :
    e.2 < (Cursor.behind cs).offset := by
  obtain ⟨front, back, rfl, offset, -⟩ := exists_of_mem_opened he
  rw [← offset]
  exact Cursor.offset_behind_lt front (List.cons_ne_nil _ back)

/-- What opened later stands in front of what opened earlier. -/
theorem opened_pairwise (cs : List Char) :
    (nestingOf cs).opened.Pairwise fun d e => e.2 < d.2 := by
  induction cs using List.reverseRecOn with
  | nil => exact .nil
  | append_singleton cs c ih =>
    have shorter : (nestingOf cs).opened.tail.Pairwise fun d e => e.2 < d.2 := ih.tail
    have step := nestingOf_concat cs c
    generalize nestingOf (cs ++ [c]) = n at step ⊢
    cases step with
    | inside => exact ih
    | plain => exact ih
    | opens => exact List.pairwise_cons.mpr ⟨fun e he => lt_of_mem_opened he, ih⟩
    | ends => exact shorter
    | closes => exact shorter
    | strays => exact shorter

/-- What is open outermost was opened first. -/
theorem le_of_mem_opened {d e : Char × Nat} (last : (nestingOf cs).opened.getLast? = some e)
    (hd : d ∈ (nestingOf cs).opened) : e.2 ≤ d.2 := by
  have ordered := opened_pairwise cs
  obtain ⟨later, stack⟩ := List.getLast?_eq_some_iff.mp last
  rw [stack] at hd ordered
  rcases List.mem_append.mp hd with hd | hd
  · exact Nat.le_of_lt ((List.pairwise_append.mp ordered).2.2 d hd e (List.mem_singleton_self e))
  · exact Nat.le_of_eq (congrArg (·.2) (List.mem_singleton.mp hd).symm)

/-- What is open behind a longer text was open before or opens behind. -/
theorem mem_opened_append {e : Char × Nat} (he : e ∈ (nestingOf (cs ++ ds)).opened) :
    e ∈ (nestingOf cs).opened ∨ (Cursor.behind cs).offset ≤ e.2 := by
  induction ds using List.reverseRecOn with
  | nil => exact .inl (by rwa [List.append_nil] at he)
  | append_singleton ds c ih =>
    rw [← List.append_assoc] at he
    rcases (nestingOf_concat _ c).mem_opened he with he | ⟨rfl, -⟩
    · exact ih he
    · exact .inr (Cursor.offset_behind_le cs ds)

end Concat

/-- The text falls apart at the characters that are open, innermost first, with a balanced text
behind each of them. -/
inductive Opened : List (Char × Nat) → List Char → Prop
  | none {cs : List Char} : Balanced cs → Opened [] cs
  | group {stack : List (Char × Nat)} {front inner : List Char} {o : Char} :
      Opened stack front → (closing? o).isSome → Balanced inner →
      Opened ((o, (Cursor.behind front).offset) :: stack) (front ++ o :: inner)

namespace Opened

variable {stack : List (Char × Nat)} {cs ds : List Char}

theorem append (h : Opened stack cs) (h' : Balanced ds) : Opened stack (cs ++ ds) := by
  cases h with
  | none balanced => exact .none (balanced.append h')
  | group front opening inner =>
    rw [List.append_assoc]
    exact .group front opening (inner.append h')

theorem outside (h : Opened stack cs) : Outside cs := by
  rw [outside_iff]
  induction h with
  | none balanced => exact balanced.isOutside .start
  | group _ opening inner ih =>
    obtain ⟨c, fits⟩ := Option.isSome_iff_exists.mp opening
    rw [Mode.after_append, Mode.after_cons]
    exact inner.isOutside (Mode.IsOutside.next ih (not_isQuote_of_opening fits))

/-- What is open innermost has a balanced text behind it. -/
theorem top (h : Opened stack cs) {e : Char × Nat} (head : stack.head? = some e) :
    ∃ front inner, cs = front ++ e.1 :: inner ∧ (Cursor.behind front).offset = e.2 ∧
      Opened stack.tail front ∧ Balanced inner := by
  cases h with
  | none => cases head
  | group opened _ inside =>
    cases head
    exact ⟨_, _, rfl, rfl, opened, inside⟩

/-- Everything that is open can be closed. -/
theorem completes (h : Opened stack cs) :
    ∃ back, ∀ text, Balanced text → Balanced (cs ++ (text ++ back)) := by
  induction h with
  | none balanced =>
    refine ⟨[], fun text h => ?_⟩
    rw [List.append_nil]
    exact balanced.append h
  | @group stack front inner o _ opening balanced ih =>
    obtain ⟨c, fits⟩ := Option.isSome_iff_exists.mp opening
    obtain ⟨back, completed⟩ := ih
    refine ⟨c :: back, fun text h => ?_⟩
    have whole := completed (o :: ((inner ++ text) ++ c :: []))
      (.group fits (balanced.append h) .nil)
    have same : front ++ (o :: ((inner ++ text) ++ [c]) ++ back) =
        front ++ o :: inner ++ (text ++ c :: back) := by simp
    rwa [same] at whole

end Opened

/-- What is open behind a text that is read in a mode; an open literal is open innermost. -/
def OpenBehind : Mode → List (Char × Nat) → List Char → Prop
  | .literal q escaped, stack, cs => ∃ outside front body,
      stack = (q, (Cursor.behind front).offset) :: outside ∧ Opened outside front ∧ isQuote q ∧
        Body q body ∧ cs = front ++ q :: (body ++ if escaped then ['\\'] else [])
  | _, stack, cs => Opened stack cs

namespace OpenBehind

variable {m : Mode} {stack : List (Char × Nat)} {cs : List Char} {q c o : Char}

theorem outside_iff (outside : m.IsOutside) : OpenBehind m stack cs ↔ Opened stack cs := by
  rcases outside with rfl | rfl <;> exact Iff.rfl

theorem ends (h : OpenBehind (.literal c false) stack cs) : Opened stack.tail (cs ++ [c]) := by
  obtain ⟨outside, front, body, rfl, opened, quote, inside, rfl⟩ := h
  have text : front ++ c :: (body ++ []) ++ [c] = front ++ c :: (body ++ [c]) := by simp
  rw [if_neg Bool.false_ne_true, text]
  exact opened.append (.literal quote inside .nil)

/-- A closing bracket that fits closes what is open innermost. -/
theorem closes (h : Opened stack cs) (closing : opening? c = some o)
    (top : stack.head?.map (·.1) = some o) : Opened stack.tail (cs ++ [c]) := by
  obtain ⟨e, head, rfl⟩ := Option.map_eq_some_iff.mp top
  obtain ⟨front, inner, rfl, -, opened, inside⟩ := h.top head
  rw [List.append_assoc, List.cons_append]
  exact opened.append (.group (closing?_eq_some_iff.mpr closing) inside .nil)

/-- One more character keeps what is told about the open characters, unless it does not fit. -/
theorem step {n n' : Nesting} (h : OpenBehind m n.opened cs)
    (step : n.Step m (Cursor.behind cs).offset c n') (fits : n'.mismatch = none) :
    OpenBehind (m.next c) n'.opened (cs ++ [c]) := by
  cases step with
  | inside q escaped literal other =>
    subst literal
    obtain ⟨outside, front, body, stack, opened, quote, inside, rfl⟩ := h
    cases escaped with
    | true =>
      -- the backslash was kept out of the body until its character is read
      refine ⟨outside, front, body ++ ['\\', c], stack, opened, quote,
        inside.append (.escaped .nil), ?_⟩
      simp
    | false =>
      have next : (Mode.literal q false).next c = .literal q (c == '\\') := by
        by_cases backslash : c = '\\' <;> simp [Mode.next, backslash, other rfl]
      rw [next]
      by_cases backslash : c = '\\'
      · exact ⟨outside, front, body, stack, opened, quote, inside, by simp [backslash]⟩
      · exact ⟨outside, front, body ++ [c], stack, opened, quote,
          inside.append (.plain backslash (other rfl) .nil), by simp [backslash]⟩
  | plain outside plain =>
    rw [outside_iff (outside.next plain.notQuote)]
    exact ((outside_iff outside).mp h).append (.plain plain .nil)
  | opens outside opens =>
    have opened := (outside_iff outside).mp h
    by_cases quote : isQuote c = true
    · rw [outside.next_quote quote]
      exact ⟨n.opened, cs, [], rfl, opened, quote, .nil, rfl⟩
    · rw [outside_iff (outside.next quote)]
      exact .group opened (opens.resolve_left quote) .nil
  | ends literal =>
    subst literal
    obtain ⟨-, -, -, -, -, quote, -, -⟩ := id h
    rw [Mode.next_closing_quote quote]
    exact h.ends
  | closes o outside closing top =>
    have opened := (outside_iff outside).mp h
    rw [outside_iff (outside.next fun quote => not_opens_of_closing closing (.inl quote))]
    exact closes opened closing top
  | strays => simp at fits

end OpenBehind

/-- Behind a text in which everything fits, the nesting lists what is open. -/
theorem Fits.openBehind {cs : List Char} (h : Fits cs) :
    OpenBehind (Mode.chainStart.after cs) (nestingOf cs).opened cs := by
  induction cs using List.reverseRecOn with
  | nil => exact .none .nil
  | append_singleton cs c ih =>
    rw [Mode.after_append]
    exact (ih h.of_append).step (nestingOf_concat cs c) h

end TransformDirective.Receiver
