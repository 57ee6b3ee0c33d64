import TransformDirective.Proofs.Receiver.Idempotence
import TransformDirective.Proofs.Receiver.Verdict

namespace TransformDirective.Template

/-- What a part of a template stands in: under a guard, or in a loop. -/
inductive Surrounding where
  | guard (condition : Tree)
  | loop (var collection : String)

namespace Tree

mutual

/-- The calls in order, each with what it stands in, the outermost first. -/
def callsWithin : Tree → List (List Surrounding × String)
  | guarded g b => g.callsWithin ++ b.callsWithin.map (Prod.map (.guard g :: ·) id)
  | loop v c body => (callsWithinAll body).map (Prod.map (.loop v c :: ·) id)
  | call t => [([], t)]
  | raw _ => []

def callsWithinAll : List Tree → List (List Surrounding × String)
  | [] => []
  | t :: ts => t.callsWithin ++ callsWithinAll ts

end

theorem texts_within (s : Surrounding) (xs : List (List Surrounding × String)) :
    (xs.map (Prod.map (s :: ·) id)).map (·.2) = xs.map (·.2) := by
  simp [Function.comp_def]

mutual

/-- The calls are the same, with what they stand in and without. -/
theorem texts_callsWithin : ∀ t : Tree, t.callsWithin.map (·.2) = t.calls
  | guarded g b => by
    have none : call? (guarded g b) = none := rfl
    rw [callsWithin, List.map_append, texts_within, texts_callsWithin g, texts_callsWithin b]
    simp only [calls, nodes, List.filterMap_cons_none none, List.filterMap_append]
  | loop v c body => by
    have none : call? (loop v c body) = none := rfl
    rw [callsWithin, texts_within, texts_callsWithinAll body]
    simp only [calls, nodes, List.filterMap_cons_none none]
  | call t => rfl
  | raw t => rfl

theorem texts_callsWithinAll :
    ∀ ts : List Tree, (callsWithinAll ts).map (·.2) = (nodesOfAll ts).filterMap call?
  | [] => rfl
  | t :: ts => by
    rw [callsWithinAll, List.map_append, texts_callsWithin t, texts_callsWithinAll ts]
    simp only [calls, nodesOfAll, List.filterMap_append]

end

end Tree

/-- Nothing is doubled in a text without quotes. -/
theorem doubleQuotes_of_notMem {cs : List Char} (h : '\'' ∉ cs) : doubleQuotes cs = cs := by
  induction cs with
  | nil => rfl
  | cons c cs ih =>
    obtain ⟨other, rest⟩ := List.ne_and_not_mem_of_not_mem_cons h
    rw [doubleQuotes, List.flatMap_cons, if_neg other.symm]
    exact congrArg (c :: ·) (ih rest)

end TransformDirective.Template

namespace TransformDirective.Usage

open TransformDirective.Config TransformDirective.Receiver TransformDirective.Schema
open TransformDirective.Template TransformDirective.Text

/-- The text is a call with two arguments. It is balanced, and its first bracket is open from its own
place up to the last character. -/
structure EnclosingCall (text callee argument expression : String) : Prop where
  written : text = callee ++ "(" ++ argument ++ ", " ++ expression ++ ")"
  balanced : balance text = .balanced
  opened : ∀ n, ('(', (Cursor.behind callee.toList).offset) ∈
      (nestingOf (text.toList.take n)).opened ↔
    callee.toList.length < n ∧ n < text.toList.length

section Call

variable {callee argument expression : String}

/-- A call closes its bracket last if its arguments are balanced. -/
theorem enclosingCall (reference : ∀ c ∈ callee.toList, IsReferenceChar c)
    (first : Balanced argument.toList) (second : Balanced expression.toList) :
    EnclosingCall (callee ++ "(" ++ argument ++ ", " ++ expression ++ ")") callee argument
      expression := by
  have front := balanced_of_reference reference
  have comma : Balanced [',', ' '] :=
    .plain (by constructor <;> decide) (.plain (by constructor <;> decide) .nil)
  have inside : Encloses '(' (argument.toList ++ [',', ' '] ++ expression.toList) ')' :=
    .inr ⟨rfl, (first.append comma).append second⟩
  have text : (callee ++ "(" ++ argument ++ ", " ++ expression ++ ")").toList = callee.toList ++
      '(' :: (argument.toList ++ [',', ' '] ++ expression.toList ++ [')']) := by simp
  have fits : Fits callee.toList := (balanced_iff_empty.mp front).1
  have outside : Outside callee.toList := (outside_iff _).mpr (front.isOutside .start)
  refine ⟨rfl, ?_, fun n => ?_⟩
  · rw [balance_eq_balanced_iff, text]
    exact front.append inside.balanced
  · rw [text, inside.mem_opened_iff outside fits]
    simp only [List.length_append, List.length_cons, List.length_nil]
    omega

end Call

section Statement

variable {settings : Settings} {fieldName : String}

theorem balanced_quoted (name : isNameText fieldName) : Balanced (quoted fieldName).toList := by
  have chars (c : Char) (hc : c ∈ fieldName.toList) := isReferenceChar_of_mem_name name hc
  have single : isQuote '\'' := rfl
  have none : '\'' ∉ fieldName.toList := fun inside =>
    (chars _ inside).plain.notQuote single
  rw [quoted, String.toList_ofList, doubleQuotes_of_notMem none]
  exact .literal single (body_of_reference chars single) .nil

/-- A balanced text in the brackets of the call closes neither of them. -/
theorem enclosingCall_setCall (root : IsVariablePath settings.inputRoot)
    (name : isNameText fieldName) {expression : String} (h : Balanced expression.toList) :
    EnclosingCall (setCall settings fieldName expression) (valuePath settings fieldName ++ ".set")
      "$foreach.index" expression := by
  have written : setCall settings fieldName expression = valuePath settings fieldName ++ ".set" ++
      "(" ++ "$foreach.index" ++ ", " ++ expression ++ ")" := by
    simp only [setCall, String.append_assoc]
    rfl
  have callee : (valuePath settings fieldName ++ ".set").toList =
      (valuePath settings fieldName).toList ++ '.' :: "set".toList := by simp
  have index : IsVariablePath "$foreach.index" :=
    ⟨["foreach", "index"], by decide +kernel, by decide +kernel⟩
  rw [written]
  refine enclosingCall ?_ (balanced_of_reference index.chars) h
  rw [callee]
  exact referenceChars_member (isReference_valuePath root name).chars (by decide +kernel)

/-- A balanced text in the brackets of the call closes neither of them. -/
theorem enclosingCall_putCall (root : IsVariablePath settings.inputRoot)
    (name : isNameText fieldName) {expression : String} (h : Balanced expression.toList) :
    EnclosingCall (putCall settings fieldName expression) (settings.inputRoot ++ ".put")
      (quoted fieldName) expression := by
  have written : putCall settings fieldName expression = settings.inputRoot ++ ".put" ++ "(" ++
      quoted fieldName ++ ", " ++ expression ++ ")" := by
    simp only [putCall, String.append_assoc]
    rfl
  have callee : (settings.inputRoot ++ ".put").toList =
      settings.inputRoot.toList ++ '.' :: "put".toList := by simp
  rw [written]
  refine enclosingCall ?_ (balanced_quoted name) h
  rw [callee]
  exact referenceChars_member root.chars (by decide +kernel)

/-- The call that a usage makes. -/
def callText (settings : Settings) (fieldName : String) (a : Arguments) : String :=
  if a.foreach then setCall settings fieldName (substitute a.expression (entryPath settings))
  else putCall settings fieldName (substitute a.expression (valuePath settings fieldName))

/-- What the call of a usage stands in. -/
def surroundings (settings : Settings) (fieldName : String) (a : Arguments) : List Surrounding :=
  let value := valuePath settings fieldName
  (if a.always then [] else [.guard (.negation ("$util.isNull(" ++ value ++ ")"))]) ++
    if a.foreach then [.loop settings.entryVar value] else []

/-- A statement has one call. What it stands in follows from the arguments. -/
theorem callsWithin_statement (settings : Settings) (fieldName : String) (a : Arguments) :
    (statement settings fieldName a).callsWithin =
      [(surroundings settings fieldName a, callText settings fieldName a)] := by
  obtain ⟨expression, foreach, always⟩ := a
  cases foreach <;> cases always <;> rfl

theorem guard_mem_surroundings (settings : Settings) (fieldName : String) (a : Arguments)
    (g : Tree) : .guard g ∈ surroundings settings fieldName a ↔
      a.always = false ∧ g = .negation ("$util.isNull(" ++ valuePath settings fieldName ++ ")") := by
  unfold surroundings
  cases a.always <;> cases a.foreach <;> simp

theorem loop_mem_surroundings (settings : Settings) (fieldName : String) (a : Arguments)
    (v c : String) : .loop v c ∈ surroundings settings fieldName a ↔
      a.foreach = true ∧ v = settings.entryVar ∧ c = valuePath settings fieldName := by
  unfold surroundings
  cases a.always <;> cases a.foreach <;> simp

/-- The call of a usage encloses its expression if that is balanced. -/
theorem enclosingCall_of_balanced {a : Arguments} (root : IsVariablePath settings.inputRoot)
    (entry : isNameText settings.entryVar) (name : isNameText fieldName)
    (h : balance a.expression = .balanced) :
    let value := valuePath settings fieldName
    let text := callText settings fieldName a
    (a.foreach = true → EnclosingCall text (value ++ ".set") "$foreach.index"
      (substitute a.expression (entryPath settings))) ∧
    (a.foreach = false → EnclosingCall text (settings.inputRoot ++ ".put") (quoted fieldName)
      (substitute a.expression value)) := by
  intro value text
  have balanced {receiver : String} (reference : IsReference receiver.toList) :
      Balanced (substitute a.expression receiver).toList :=
    (balance_eq_balanced_iff _).mp ((balance_substitute reference).mpr h)
  refine ⟨fun foreach => ?_, fun single => ?_⟩
  · have written : text = setCall settings fieldName (substitute a.expression (entryPath settings)) :=
      if_pos foreach
    rw [written]
    exact enclosingCall_setCall root name (balanced (isReference_entryPath entry))
  · have written : text = putCall settings fieldName (substitute a.expression value) :=
      if_neg (Bool.eq_false_iff.mp single)
    rw [written]
    exact enclosingCall_putCall root name (balanced (isReference_valuePath root name))

end Statement

/-- The statement of a usage makes one call. It stands under a guard against null unless it is always
wanted, in a loop over the entries if there is one, and under nothing else. A balanced expression is
substituted in full as the last argument, and the call ends with the bracket that closes it. -/
theorem statement_encloses {settings : Settings} {fieldName : String} (a : Arguments)
    (root : IsVariablePath settings.inputRoot) (entry : isNameText settings.entryVar)
    (name : isNameText fieldName) :
    let value := valuePath settings fieldName
    let tree := statement settings fieldName a
    ∃ around text, tree.callsWithin = [(around, text)] ∧ tree.calls = [text] ∧
      (∀ g, .guard g ∈ around ↔
        a.always = false ∧ g = .negation ("$util.isNull(" ++ value ++ ")")) ∧
      (∀ v c, .loop v c ∈ around ↔
        a.foreach = true ∧ v = settings.entryVar ∧ c = value) ∧
      (balance a.expression = .balanced →
        (a.foreach = true → EnclosingCall text (value ++ ".set") "$foreach.index"
          (substitute a.expression (entryPath settings))) ∧
        (a.foreach = false → EnclosingCall text (settings.inputRoot ++ ".put") (quoted fieldName)
          (substitute a.expression value))) := by
  intro value tree
  have within := callsWithin_statement settings fieldName a
  have calls : tree.calls = [callText settings fieldName a] := by
    rw [← tree.texts_callsWithin, within]
    rfl
  exact ⟨surroundings settings fieldName a, callText settings fieldName a, within, calls,
    guard_mem_surroundings settings fieldName a, loop_mem_surroundings settings fieldName a,
    enclosingCall_of_balanced root entry name⟩

/-- A guarded loop and a call that is always made, over expressions with brackets in literals. -/
theorem statement_encloses_literals :
    let value := "$ctx.args.input.title"
    let looped : Arguments := ⟨"f(.a, ')\\'(')", true, false⟩
    let put : Arguments := ⟨"[.trim(\"]\"), 1.5]", false, true⟩
    (∃ around text, (statement .default "title" looped).callsWithin = [(around, text)] ∧
      .guard (.negation ("$util.isNull(" ++ value ++ ")")) ∈ around ∧
      .loop "entry" value ∈ around ∧
      EnclosingCall text "$ctx.args.input.title.set" "$foreach.index" "f($entry.a, ')\\'(')") ∧
    ∃ around text, (statement .default "title" put).callsWithin = [(around, text)] ∧
      (∀ g, .guard g ∉ around) ∧ (∀ v c, .loop v c ∉ around) ∧
      EnclosingCall text "$ctx.args.input.put" "'title'"
        "[$ctx.args.input.title.trim(\"]\"), 1.5]" := by
  intro value looped put
  have root : IsVariablePath Settings.default.inputRoot :=
    ⟨["ctx", "args", "input"], by decide +kernel, by decide +kernel⟩
  have entry : isNameText Settings.default.entryVar := by decide +kernel
  have name : isNameText "title" := by decide +kernel
  constructor
  · have balanced : balance looped.expression = .balanced := by decide +kernel
    have written : substitute looped.expression (entryPath .default) = "f($entry.a, ')\\'(')" := by
      decide +kernel
    obtain ⟨around, text, within, -, guard, loop, encloses⟩ :=
      statement_encloses looped root entry name
    have call := (encloses balanced).1 rfl
    rw [written] at call
    exact ⟨around, text, within, (guard _).mpr ⟨rfl, rfl⟩, (loop _ _).mpr ⟨rfl, rfl, rfl⟩, call⟩
  · have balanced : balance put.expression = .balanced := by decide +kernel
    have written : substitute put.expression (valuePath .default "title") =
        "[$ctx.args.input.title.trim(\"]\"), 1.5]" := by
      decide +kernel
    obtain ⟨around, text, within, -, guard, loop, encloses⟩ :=
      statement_encloses put root entry name
    have call := (encloses balanced).2 rfl
    rw [written] at call
    have unguarded : ∀ g, .guard g ∉ around := fun g inside =>
      absurd ((guard g).mp inside).1 nofun
    have single : ∀ v c, .loop v c ∉ around := fun v c inside =>
      absurd ((loop v c).mp inside).1 nofun
    exact ⟨around, text, within, unguarded, single, call⟩

end TransformDirective.Usage
