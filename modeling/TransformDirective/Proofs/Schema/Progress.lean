import TransformDirective.Proofs.Schema.Relocation

namespace TransformDirective.Schema

open TransformDirective.Text

variable {α β : Type}

/-- The rule takes a word wherever it succeeds. -/
def TakesWord (rule : Rule α) : Prop := ∀ ⦃ts a r⦄, rule ts = .ok a r → r.length < ts.length

section Progress

/-- Whatever reads a language without the empty sequence takes a word. -/
theorem takesWord_of_solid {L : Language β} {rule : Rule α} {R : α → β → Prop} {s : Language.Shape}
    (h : ∀ n, Recognizes n rule L R s) (solid : ¬ s.nullable) : TakesWord rule :=
  fun _ _ _ => length_lt_of_solid h solid

theorem punct_takesWord (p : Punct) : TakesWord (Rule.punct p) :=
  takesWord_of_solid (fun _ => punct_recognizes p) (by simp)

theorem name_takesWord : TakesWord Rule.name :=
  takesWord_of_solid (fun _ => name_recognizes) (by simp)

theorem separatedName_takesWord (p : Punct) : TakesWord (do Rule.punct p; Rule.name) :=
  takesWord_of_solid (fun _ => (punct_recognizes p).bind (fun _ _ _ => name_recognizes) (by simp))
    (by simp)

theorem typeRef_takesWord : TakesWord Rule.typeRef :=
  takesWord_of_solid typeRef_recognizes (by simp)

theorem value_takesWord : TakesWord Rule.value := takesWord_of_solid value_recognizes (by simp)

theorem member_takesWord : TakesWord (Rule.member Rule.value) :=
  takesWord_of_solid (fun n => member_recognizes (value_recognizes n)) (by simp)

theorem argument_takesWord : TakesWord Rule.argument :=
  takesWord_of_solid (fun _ => argument_recognizes) (by simp)

theorem directive_takesWord : TakesWord Rule.directive :=
  takesWord_of_solid (fun _ => directive_recognizes) (by simp)

theorem inputValue_takesWord : TakesWord Rule.inputValue :=
  takesWord_of_solid (fun _ => inputValue_recognizes) (by simp)

theorem field_takesWord : TakesWord Rule.field :=
  takesWord_of_solid (fun _ => field_recognizes) (by simp)

theorem enumItem_takesWord : TakesWord Rule.enumItem :=
  takesWord_of_solid (fun _ => enumItem_recognizes) (by simp)

theorem definitionNode_takesWord : TakesWord definitionNode :=
  takesWord_of_solid (fun _ => definitionNode_recognizes) (by simp)

theorem definition_takesWord : TakesWord Rule.definition :=
  takesWord_of_solid (fun _ => definition_recognizes) (by simp)

variable {n : Nat} {ts r : List Token}

/-- Behind the word fewer words are left. -/
theorem left_of_acceptWord {x : Lexeme} {taken : Bool} (hn : ts.length < n + 1)
    (h : acceptWord x ts = .ok taken r) : r.length < if taken then n else n + 1 := by
  cases ts with
  | nil =>
    cases h
    exact hn
  | cons t ts =>
    rw [acceptWord_cons] at h
    split at h
    · cases h
      exact Nat.lt_of_succ_lt_succ hn
    · cases h
      exact hn

theorem left_of_next {t : Option Token} (hn : ts.length < n + 1)
    (h : Parser.next ts = (.ok t r : Outcome Token RuleFault _)) :
    r.length < if t.isSome then n else n + 1 := by
  cases ts with
  | nil =>
    cases h
    exact hn
  | cons u ts =>
    cases h
    exact Nat.lt_of_succ_lt_succ hn

end Progress

section Unbounded

/-- A repetition goes on as long as the test passes. -/
theorem repeatWhile_unbounded (test : Token → Bool) {item : Rule α} (takes : TakesWord item) :
    Parser.repeatWhile test item = do
      if (← Parser.peek).any test then
        let a ← item
        let as ← Parser.repeatWhile test item
        return a :: as
      else return [] := by
  funext ts
  rw [repeatWhile_apply, Parser.bind_apply, Parser.peek]
  dsimp only
  split
  · rw [Parser.bind_apply]
    cases first : item ts with
    | error e left => rfl
    | ok a r =>
      simp only [takes first, if_true]
      rw [Parser.bind_apply]
      cases Parser.repeatWhile test item r <;> rfl
  · rfl

/-- The bound that makes the rule total never decides anything: it calls itself behind a word only.
-/
theorem typeRef_unbounded :
    Rule.typeRef = (do
      if ← Rule.accept (Rule.isPunct .bracketOpen) then Rule.listType Rule.typeRef >>= bangRule
      else Rule.namedType >>= bangRule) := by
  funext ts
  cases ts with
  | nil => exact Parser.recursive_apply _ _ _
  | cons t ts =>
    rw [typeRef_cons]
    symm
    exact acceptWord_bind_cons (.punct .bracketOpen) _ t ts

/-- What is read behind the first word of a value, and what is wrong if none starts with that. -/
def valueBehind (t : Option Token) : Rule Value :=
  ((lexeme? t).bind valueBy).getD <| Parser.fail fun _ =>
    if lexeme? t = some (.punct .dollar) then .variableValue t else .unexpected .value t

/-- The bound that makes the rule total never decides anything: it calls itself behind a word only.
-/
theorem value_unbounded : Rule.value = (Parser.next >>= valueBehind) := by
  funext ts
  cases ts with
  | nil => exact Parser.recursive_apply _ _ _
  | cons t ts =>
    show Rule.value (t :: ts) = valueBehind (some t) ts
    cases way : valueBy t.lexeme with
    | some q =>
      have behind : (lexeme? (some t)).bind valueBy = some q := way
      rw [value_byFirst.taken way, valueBehind, behind]
      rfl
    | none =>
      obtain ⟨l, span⟩ := t
      cases l with
      | punct p =>
        cases p with
        | bracketOpen => cases way
        | braceOpen => cases way
        | _ => exact Parser.recursive_apply _ _ _
      | _ => cases way

end Unbounded

end TransformDirective.Schema
