import TransformDirective.Proofs.Receiver.OpenBrackets
import TransformDirective.Proofs.Receiver.References

namespace TransformDirective.Receiver

open TransformDirective.Config TransformDirective.Schema TransformDirective.Text
open TransformDirective.Usage

section Text

variable {receiver : List Char}

/-- The dot of a decimal number is the only one in whose place no receiver is written. -/
theorem receiverDot_cases (receiver : List Char) (first : Bool) (cs : List Char) :
    receiverDot receiver first cs = receiver ∨ receiverDot receiver first cs = receiver ++ ['.'] ∨
      receiverDot receiver first cs = ['.'] ∧ first = false ∧
        ∃ d rest, cs = d :: rest ∧ ¬startsName d ∧ d.isDigit := by
  cases cs with
  | nil => exact .inl rfl
  | cons d rest =>
    rw [receiverDot]
    by_cases name : startsName d = true
    · rw [if_pos name]
      exact .inr (.inl rfl)
    rw [if_neg name]
    by_cases digit : d.isDigit = true
    · rw [if_pos digit]
      cases first with
      | true => exact .inr (.inl rfl)
      | false => exact .inr (.inr ⟨rfl, rfl, d, rest, rfl, name, digit⟩)
    · rw [if_neg digit]
      exact .inl rfl

theorem isReceiverDot_eq_true {m : Mode} {c : Char} (h : m.isReceiverDot c = true) :
    m = .chainStart ∧ c = '.' := by
  simpa [Mode.isReceiverDot] using h

/-- The dot of a decimal number or of an operand is read on as an operand. -/
theorem next_dot {m : Mode} (outside : m.IsOutside) : m.next '.' = .operand := by
  rcases outside with rfl | rfl <;> decide +kernel

/-- A character that is no receiver dot is copied. -/
theorem substituteFrom_copies {m : Mode} {c : Char} (h : ¬m.isReceiverDot c) (first : Bool)
    (cs : List Char) :
    substituteFrom receiver first m (c :: cs) =
      c :: substituteFrom receiver false (m.next c) cs := by
  rw [substituteFrom, if_neg h]
  rfl

/-- The text of a substitution stays as it is, read on from the same mode. A dot that was kept is
met in that mode again, still with the digit behind it. -/
theorem substituteFrom_again (h : IsReference receiver) (first : Bool) (m : Mode) (cs : List Char) :
    substituteFrom receiver first m (substituteFrom receiver first m cs) =
      substituteFrom receiver first m cs := by
  induction cs generalizing first m with
  | nil => rfl
  | cons c cs ih =>
    by_cases dot : m.isReceiverDot c = true
    · obtain ⟨rfl, rfl⟩ := isReceiverDot_eq_true dot
      have kept : ¬Mode.operand.isReceiverDot '.' := by decide
      have further := next_dot (.inr rfl : Mode.operand.IsOutside)
      rw [substituteFrom, if_pos dot, next_dot .start]
      rcases receiverDot_cases receiver first cs with
        bare | member | ⟨decimal, rfl, d, rest, rfl, name, digit⟩
      · rw [bare, h.substituteFrom_append .start, ih]
      · rw [member, List.append_assoc, h.substituteFrom_append .start, List.singleton_append,
          substituteFrom_copies kept, further, ih]
      · have digitKept : ¬Mode.operand.isReceiverDot d := by simp [Mode.isReceiverDot]
        have again := ih false .operand
        rw [substituteFrom_copies digitKept] at again ⊢
        rw [decimal, List.singleton_append, substituteFrom, if_pos dot, next_dot .start, again,
          receiverDot, if_neg name, if_pos digit, if_neg Bool.false_ne_true]
        rfl
    · rw [substituteFrom_copies dot, substituteFrom_copies dot, ih]

end Text

/-- A bracket or quote at a place of the expression, and the same one at the image of the place. -/
structure Carried (receiver cs : List Char) (e e' : Char × Nat) : Prop where
  same : e.1 = e'.1
  bracket : Opens e.1 ∨ (opening? e.1).isSome
  place : ∃ front back, cs = front ++ e.1 :: back ∧ (Cursor.behind front).offset = e.2 ∧
    imageAt receiver cs front.length = [e.1] ∧
    (Cursor.behind (images receiver cs 0 front.length)).offset = e'.2

/-- The nestings list the same characters, at a place and at its image. -/
structure CarriedNesting (receiver cs : List Char) (n n' : Nesting) : Prop where
  opened : List.Forall₂ (Carried receiver cs) n.opened n'.opened
  mismatch : Option.Rel (fun k k' => ∃ c, Carried receiver cs (c, k) (c, k')) n.mismatch n'.mismatch

namespace CarriedNesting

variable {receiver cs : List Char} {n n' : Nesting}

/-- Both nestings have the same character open innermost. -/
theorem head_eq (h : CarriedNesting receiver cs n n') :
    n.opened.head?.map (·.1) = n'.opened.head?.map (·.1) := by
  obtain ⟨opened, mismatch⟩ := n
  obtain ⟨opened', mismatch'⟩ := n'
  cases h.opened with
  | nil => rfl
  | cons here _ => exact congrArg some here.same

theorem pop (h : CarriedNesting receiver cs n n') : CarriedNesting receiver cs n.pop n'.pop := by
  obtain ⟨opened, mismatch⟩ := n
  obtain ⟨opened', mismatch'⟩ := n'
  refine ⟨?_, h.mismatch⟩
  cases h.opened with
  | nil => exact .nil
  | cons _ rest => exact rest

theorem mismatched {c : Char} {k k' : Nat} (h : CarriedNesting receiver cs n n')
    (here : Carried receiver cs (c, k) (c, k')) :
    Option.Rel (fun k k' => ∃ c, Carried receiver cs (c, k) (c, k')) (n.mismatch <|> some k)
      (n'.mismatch <|> some k') := by
  obtain ⟨opened, mismatch⟩ := n
  obtain ⟨opened', mismatch'⟩ := n'
  cases h.mismatch with
  | none => exact .some ⟨c, here⟩
  | some before => exact .some before

variable {c : Char} {k k' : Nat}

/-- A character does the same to both nestings if it stands at a place and at its image. -/
theorem step (h : CarriedNesting receiver cs n n') (m : Mode)
    (carried : Opens c ∨ (opening? c).isSome → Carried receiver cs (c, k) (c, k')) :
    CarriedNesting receiver cs (n.step m k c) (n'.step m k' c) := by
  rcases m.cases_outside with outside | ⟨q, escaped, rfl⟩
  · rcases plain_or_bracket c with plain | opens | ⟨o, closing⟩
    · rw [n.step_plain k outside plain, n'.step_plain k' outside plain]
      exact h
    · rw [n.step_opens k outside opens, n'.step_opens k' outside opens]
      exact ⟨.cons (carried (.inl opens)) h.opened, h.mismatch⟩
    · rw [n.step_closing k outside closing, n'.step_closing k' outside closing, Nesting.close,
        Nesting.close, h.head_eq]
      by_cases top : n'.opened.head?.map (·.1) = some o
      · rw [if_pos top, if_pos top]
        exact h.pop
      · rw [if_neg top, if_neg top]
        exact ⟨h.pop.opened, h.mismatched (carried (.inr (by rw [closing]; rfl)))⟩
  · cases escaped with
    | true => exact h
    | false =>
      by_cases same : c = q
      · subst same
        rw [n.step_closing_quote, n'.step_closing_quote]
        exact h.pop
      · rw [n.step_inside k same, n'.step_inside k' same]
        exact h

end CarriedNesting

section Places

variable {receiver : List Char} (h : IsReference receiver)
include h

theorem receiverDot_chars (first : Bool) (cs : List Char) :
    ∀ c ∈ receiverDot receiver first cs, IsReferenceChar c := by
  have dot : ∀ c ∈ ['.'], IsReferenceChar c := by
    rintro c hc
    exact .inr (by simp_all)
  rcases receiverDot_cases receiver first cs with bare | member | ⟨decimal, -⟩
  · rw [bare]
    exact h.chars
  · rw [member]
    exact List.forall_mem_append.mpr ⟨h.chars, dot⟩
  · rw [decimal]
    exact dot

/-- Every receiver that was written is read as one operand. -/
theorem receiverDot_after (first : Bool) (cs : List Char) :
    Mode.chainStart.after (receiverDot receiver first cs) = .operand := by
  rcases receiverDot_cases receiver first cs with bare | member | ⟨decimal, -⟩
  · rw [bare, h.after .start]
  · rw [member, Mode.after_append, h.after .start, Mode.after_cons, next_dot (.inr rfl)]
    rfl
  · rw [decimal, Mode.after_cons, next_dot .start]
    rfl

/-- Behind the image of a front of the expression the mode is the one behind the front, and the same
brackets and quotes are open or did not fit. -/
theorem images_carry (front back : List Char) :
    let cs := front ++ back
    Mode.chainStart.after (images receiver cs 0 front.length) = Mode.chainStart.after front ∧
      CarriedNesting receiver cs (nestingOf front)
        (nestingOf (images receiver cs 0 front.length)) := by
  induction front using List.reverseRecOn generalizing back with
  | nil => exact ⟨rfl, .nil, .none⟩
  | append_singleton front c ih =>
    have text : front ++ [c] ++ back = front ++ c :: back := by simp
    rw [text]
    intro cs
    obtain ⟨mode, nesting⟩ := ih (c :: back)
    have further : images receiver cs 0 (front ++ [c]).length =
        images receiver cs 0 front.length ++ imageAt receiver cs front.length := by
      rw [List.length_append, images_add, Nat.zero_add]
      simp [images]
    have here := imageAt_length receiver front c back
    rw [further, Mode.after_append, Mode.after_append, mode]
    by_cases dot : (Mode.chainStart.after front).isReceiverDot c = true
    · obtain ⟨start, rfl⟩ := isReceiverDot_eq_true dot
      have plain : IsPlain '.' := by constructor <;> decide
      have outside : Outside (images receiver cs 0 front.length) :=
        (outside_iff _).mpr (by rw [mode, start]; exact Mode.IsOutside.start)
      rw [if_pos dot] at here
      rw [here, start]
      have same : Mode.chainStart.after (receiverDot receiver front.isEmpty back) =
          Mode.chainStart.after ['.'] := by
        rw [receiverDot_after h, Mode.after_cons, next_dot .start]
        rfl
      refine ⟨same, ?_⟩
      rw [nestingOf_append_balanced outside (balanced_of_reference (receiverDot_chars h _ _)),
        nestingOf_concat_eq, Nesting.step_plain _ _ (by rw [start]; exact .start) plain]
      exact nesting
    · rw [if_neg dot] at here
      have carried (bracket : Opens c ∨ (opening? c).isSome) :
          Carried receiver cs (c, (Cursor.behind front).offset)
            (c, (Cursor.behind (images receiver cs 0 front.length)).offset) :=
        ⟨rfl, bracket, front, back, rfl, rfl, here, rfl⟩
      rw [here, nestingOf_concat_eq, nestingOf_concat_eq, mode]
      exact ⟨rfl, nesting.step _ carried⟩

end Places

/-- The verdicts on nestings with the same brackets and quotes agree, up to the place. -/
theorem CarriedNesting.balance {receiver cs : List Char} {n n' : Nesting}
    (h : CarriedNesting receiver cs n n') :
    (n.balance = .balanced ∧ n'.balance = .balanced) ∨
      ∃ c k k', n.balance = .unbalanced k ∧ n'.balance = .unbalanced k' ∧
        Carried receiver cs (c, k) (c, k') := by
  obtain ⟨opened, mismatch⟩ := n
  obtain ⟨opened', mismatch'⟩ := n'
  cases h.mismatch with
  | @some k k' stray =>
    obtain ⟨c, here⟩ := stray
    exact .inr ⟨c, k, k', rfl, rfl, here⟩
  | none =>
    have outermost := List.forall₂_reverse_iff.mpr h.opened
    unfold Nesting.balance
    rw [List.getLast?_eq_head?_reverse, List.getLast?_eq_head?_reverse]
    generalize opened.reverse = l at outermost ⊢
    generalize opened'.reverse = l' at outermost ⊢
    cases outermost with
    | nil => exact .inl ⟨rfl, rfl⟩
    | @cons e e' _ _ here =>
      obtain ⟨c, k⟩ := e
      obtain ⟨c', k'⟩ := e'
      obtain rfl : c = c' := here.same
      exact .inr ⟨c, k, k', rfl, rfl, here⟩

section Verdict

variable {expression receiver : String} (h : IsReference receiver.toList)
include h

/-- Substituting a reference again changes nothing. -/
theorem substitute_again :
    substitute (substitute expression receiver) receiver = substitute expression receiver := by
  unfold substitute
  rw [String.toList_ofList, substituteFrom_again h]

/-- The substituted text meets the same brackets and quotes as the expression, only further behind.
-/
theorem carriedNesting_substitute (expression : String) :
    CarriedNesting receiver.toList expression.toList (nestingOf expression.toList)
      (nestingOf (substitute expression receiver).toList) := by
  have whole := (images_carry h expression.toList []).2
  rw [List.append_nil, ← toList_substitute] at whole
  exact whole

/-- The verdict on the substituted text is the one on the expression. -/
theorem balance_substitute : balance (substitute expression receiver) = .balanced ↔
    balance expression = .balanced := by
  rcases (carriedNesting_substitute h expression).balance with
    ⟨before, behind⟩ | ⟨c, k, k', before, behind, -⟩
  · exact ⟨fun _ => before, fun _ => behind⟩
  · have before : balance expression = .unbalanced k := before
    have behind : balance (substitute expression receiver) = .unbalanced k' := behind
    rw [before, behind]
    exact ⟨nofun, nofun⟩

end Verdict

/-- A reference that is substituted again changes nothing. Both verdicts are balanced, or both name
the same bracket or quote: the one in the expression and its image in the substituted text. Value
paths and entry variables are such references. -/
theorem substitute_idempotent :
    (∀ (settings : Settings) (fieldName : String), IsVariablePath settings.inputRoot →
      isNameText fieldName → IsReference (valuePath settings fieldName).toList) ∧
    (∀ settings : Settings, isNameText settings.entryVar →
      IsReference (entryPath settings).toList) ∧
    ∀ expression receiver : String, IsReference receiver.toList →
      let text := substitute expression receiver
      let image := images receiver.toList expression.toList
      substitute text receiver = text ∧
      (balance text = .balanced ↔ balance expression = .balanced) ∧
      ∀ k k', balance expression = .unbalanced k → balance text = .unbalanced k' →
        ∃ front c back, expression.toList = front ++ c :: back ∧
          (Opens c ∨ (opening? c).isSome) ∧ (Cursor.behind front).offset = k ∧
          text.toList = image 0 front.length ++ c :: image (front.length + 1) back.length ∧
          (Cursor.behind (image 0 front.length)).offset = k' := by
  refine ⟨fun _ _ => isReference_valuePath, fun _ => isReference_entryPath,
    fun expression receiver h => ⟨substitute_again h, balance_substitute h, fun k k' hk hk' => ?_⟩⟩
  rcases (carriedNesting_substitute h expression).balance with
    ⟨before, -⟩ | ⟨c, j, j', before, behind, here⟩
  · exact absurd (hk.symm.trans before) nofun
  · cases hk.symm.trans before
    cases hk'.symm.trans behind
    obtain ⟨front, back, split, place, same, image⟩ := here.place
    refine ⟨front, c, back, split, here.bracket, place, ?_, image⟩
    have length : expression.toList.length = front.length + (1 + back.length) := by
      rw [split, List.length_append, List.length_cons, Nat.add_comm back.length]
    have single : images receiver.toList expression.toList front.length 1 = [c] := by
      simpa [images] using same
    rw [toList_substitute, length, images_add, images_add, Nat.zero_add, single]
    rfl

/-- A number in front, a decimal, a bracket in a literal and one that does not fit. -/
theorem substitute_idempotent_crossed :
    let value := valuePath .default "title"
    let entry := entryPath .default
    let expression := ".5*.5,'.)',.]"
    let text := substitute expression value
    let image := images value.toList expression.toList
    IsReference value.toList ∧ IsReference entry.toList ∧
    text = "$ctx.args.input.title.5*.5,'.)',$ctx.args.input.title]" ∧
    substitute text value = text ∧
    substitute (substitute expression entry) entry = substitute expression entry ∧
    balance expression = .unbalanced 12 ∧ balance text = .unbalanced 53 ∧
    ∃ front, expression.toList = front ++ [']'] ∧ (Cursor.behind front).offset = 12 ∧
      text.toList = image 0 front.length ++ [']'] ∧
      (Cursor.behind (image 0 front.length)).offset = 53 := by
  intro value entry expression text image
  obtain ⟨values, entries, again⟩ := substitute_idempotent
  have root : IsVariablePath Settings.default.inputRoot :=
    ⟨["ctx", "args", "input"], by decide +kernel, by decide +kernel⟩
  have isValue := values .default "title" root (by decide +kernel)
  have isEntry := entries .default (by decide +kernel)
  have before : balance expression = .unbalanced 12 := by decide +kernel
  have rewritten : text = "$ctx.args.input.title.5*.5,'.)',$ctx.args.input.title]" := by
    decide +kernel
  have behind : balance text = .unbalanced 53 := by
    rw [rewritten]
    decide +kernel
  obtain ⟨same, -, fault⟩ := again expression value isValue
  obtain ⟨front, c, back, split, -, place, written, further⟩ := fault 12 53 before behind
  have whole : expression.toList = ".5*.5,'.)',.".toList ++ [']'] := by decide
  obtain ⟨rfl, last⟩ := append_cancel_of_offset (whole.symm.trans split)
    (by rw [place]; decide +kernel)
  cases last
  exact ⟨isValue, isEntry, rewritten, same, (again expression entry isEntry).1, before,
    behind, _, split, place, written, further⟩

end TransformDirective.Receiver
