import TransformDirective.Proofs.Compile.Splicing

namespace TransformDirective.Compile

open TransformDirective.Config TransformDirective.Resolver TransformDirective.Schema
open TransformDirective.Usage

/-- A usage that is handed over for processing. -/
structure Call where
  parent : TypeDefinition
  field : Field
  directive : Directive

namespace Compiler

/-- Processes one usage: the answer, and the store that is left. -/
def call (c : Compiler) (x : Call) (s : Store) : Except Misuse Splice × Store :=
  (c.processIn x.parent x.field x.directive).applyTo s

/-- Processes usages in order, whatever the answers: all answers, and the store that is left. -/
def run (c : Compiler) : List Call → Store → List (Except Misuse Splice) × Store
  | [], s => ([], s)
  | x :: xs, s =>
    let r := c.call x s
    let rs := c.run xs r.2
    (r.1 :: rs.1, rs.2)

/-- The block that a call succeeds with. -/
def block? (c : Compiler) (x : Call) : Option String :=
  (check c.settings x.parent x.field x.directive).toOption.map (c.block x.field.name)

end Compiler

/-- The calls on the types with a name, in order. -/
def callsOn (typeName : String) (xs : List Call) : List Call :=
  xs.filter (·.parent.name = typeName)

/-- The block that an answer is about, if the call succeeded. -/
def answeredBlock? (answer : Except Misuse Splice) : Option String := answer.toOption.map (·.block)

/-- The blocks of the successful calls on the types with a name, in order. -/
def blocksAnswered (typeName : String) (xs : List Call) (answers : List (Except Misuse Splice)) :
    List String :=
  ((xs.zip answers).filter (·.1.parent.name = typeName)).filterMap fun x => answeredBlock? x.2

section Call

variable (c : Compiler) (x : Call) (s : Store)

/-- A refused call leaves the store as it was. -/
theorem call_error {e : Misuse} (h : check c.settings x.parent x.field x.directive = .error e) :
    c.call x s = (.error e, s) := by
  rw [Compiler.call, Compiler.applyTo_processIn, h]

theorem call_ok {a : Arguments} (h : check c.settings x.parent x.field x.directive = .ok a) :
    c.call x s =
      (.ok (splice x.parent.name (c.block x.field.name a) s).1,
        (splice x.parent.name (c.block x.field.name a) s).2) := by
  rw [Compiler.call, Compiler.applyTo_processIn, h]

/-- The block of an answer does not depend on the store. -/
theorem answeredBlock?_call : answeredBlock? (c.call x s).1 = c.block? x := by
  unfold Compiler.block?
  cases h : check c.settings x.parent x.field x.directive with
  | error e =>
    rw [call_error c x s h]
    rfl
  | ok a =>
    rw [call_ok c x s h]
    rfl

theorem ids_splice (typeName block : String) : (splice typeName block s).2.ids = s.ids := by
  simp only [splice, Key.ofType, Kind.all, List.map_cons, List.map_nil, List.foldl_cons,
    List.foldl_nil, Store.ids_modify]

theorem ids_call : (c.call x s).2.ids = s.ids := by
  cases h : check c.settings x.parent x.field x.directive with
  | error e => rw [call_error c x s h]
  | ok a =>
    rw [call_ok c x s h]
    exact ids_splice s _ _

/-- A call puts its block in front of the templates of its type, if it succeeds, and leaves the keys
of other types alone. -/
theorem get?_call (k : Key) : (c.call x s).2.get? k =
    if x.parent.name = k.typeName then (s.get? k).map (stacked (c.block? x).toList)
    else s.get? k := by
  have idle : stacked [] = id := funext stacked_nil
  cases h : check c.settings x.parent x.field x.directive with
  | error e =>
    have none : c.block? x = none := by simp [Compiler.block?, h, Except.toOption]
    rw [call_error c x s h, none, Option.toList_none, idle, Option.map_id, id, ite_self]
  | ok a =>
    have some : c.block? x = some (c.block x.field.name a) := by
      simp [Compiler.block?, h, Except.toOption]
    have one : stacked [c.block x.field.name a] = (·.prepend (c.block x.field.name a)) := by
      funext b
      rw [stacked_cons, stacked_nil]
    rw [call_ok c x s h, some, Option.toList_some, one, get?_splice]
    simp only [eq_comm]

theorem find?_call (id : String) (foreign : ∀ kind, id ≠ Key.id ⟨x.parent.name, kind⟩) :
    (c.call x s).2.find? id = s.find? id := by
  cases h : check c.settings x.parent x.field x.directive with
  | error e => rw [call_error c x s h]
  | ok a =>
    rw [call_ok c x s h]
    exact find?_splice _ _ s id foreign

end Call

section Run

variable (c : Compiler) (xs : List Call) (s : Store)

/-- A run goes on behind refused calls too, so the answers and the stores of two runs are put
together. -/
theorem run_append (ys : List Call) : c.run (xs ++ ys) s =
    ((c.run xs s).1 ++ (c.run ys (c.run xs s).2).1, (c.run ys (c.run xs s).2).2) := by
  induction xs generalizing s with
  | nil => rfl
  | cons x xs ih =>
    rw [List.cons_append, Compiler.run, ih]
    rfl

theorem blocksAnswered_cons (typeName : String) (x : Call) (answer : Except Misuse Splice)
    (answers : List (Except Misuse Splice)) :
    blocksAnswered typeName (x :: xs) (answer :: answers) =
      (if x.parent.name = typeName then (answeredBlock? answer).toList else []) ++
        blocksAnswered typeName xs answers := by
  by_cases same : x.parent.name = typeName
  · cases h : answeredBlock? answer <;> simp [blocksAnswered, same, h]
  · simp [blocksAnswered, same]

/-- The answered blocks are those of the calls on the name, taken by themselves. -/
theorem blocksAnswered_run (typeName : String) :
    blocksAnswered typeName xs (c.run xs s).1 = (callsOn typeName xs).filterMap c.block? := by
  induction xs generalizing s with
  | nil => rfl
  | cons x xs ih =>
    have step : c.run (x :: xs) s =
        ((c.call x s).1 :: (c.run xs (c.call x s).2).1, (c.run xs (c.call x s).2).2) := rfl
    rw [step, blocksAnswered_cons, ih, answeredBlock?_call]
    by_cases same : x.parent.name = typeName
    · cases h : c.block? x <;> simp [callsOn, same, h]
    · simp [callsOn, same]

theorem ids_run : (c.run xs s).2.ids = s.ids := by
  induction xs generalizing s with
  | nil => rfl
  | cons x xs ih => exact (ih (c.call x s).2).trans (ids_call c x s)

theorem find?_run (id : String)
    (foreign : ∀ x ∈ xs, ∀ kind, id ≠ Key.id ⟨x.parent.name, kind⟩) :
    (c.run xs s).2.find? id = s.find? id := by
  induction xs generalizing s with
  | nil => rfl
  | cons x xs ih =>
    have rest := ih (c.call x s).2 fun y hy => foreign y (List.mem_cons_of_mem x hy)
    have here := find?_call c x s id (foreign x List.mem_cons_self)
    exact rest.trans here

theorem stacked_append (bs cs : List String) (a : Artifact) :
    stacked (bs ++ cs) a = stacked cs (stacked bs a) := by
  induction bs generalizing a with
  | nil => rw [List.nil_append, stacked_nil]
  | cons b bs ih => rw [List.cons_append, stacked_cons, stacked_cons, ih]

/-- A run stacks the blocks of its successful calls, so the order of calls on different types does
not matter. -/
theorem get?_run (k : Key) : (c.run xs s).2.get? k =
    (s.get? k).map (stacked ((callsOn k.typeName xs).filterMap c.block?)) := by
  induction xs generalizing s with
  | nil => simp [Compiler.run, callsOn, funext stacked_nil]
  | cons x xs ih =>
    have step : (c.run (x :: xs) s).2 = (c.run xs (c.call x s).2).2 := rfl
    rw [step, ih, get?_call]
    by_cases same : x.parent.name = k.typeName
    · have blocks : (callsOn k.typeName (x :: xs)).filterMap c.block? =
          (c.block? x).toList ++ (callsOn k.typeName xs).filterMap c.block? := by
        cases h : c.block? x <;> simp [callsOn, same, h]
      rw [if_pos same, Option.map_map, blocks]
      exact congrArg (Option.map · (s.get? k)) (funext fun a => (stacked_append _ _ a).symm)
    · have blocks : callsOn k.typeName (x :: xs) = callsOn k.typeName xs := by
        simp [callsOn, same]
      rw [if_neg same, blocks]

end Run

/-- Only the request template of an entry changes. -/
theorem run_keeps (c : Compiler) (xs : List Call) (s : Store) (id : String) {a : Artifact}
    (h : s.find? id = some a) : ∃ request, (c.run xs s).2.find? id = some { a with request } := by
  by_cases known : ∃ k : Key, id = k.id
  · obtain ⟨k, rfl⟩ := known
    have final := get?_run c xs s k
    have stored : s.get? k = some a := h
    rw [stored, Option.map_some] at final
    exact ⟨_, final⟩
  · have foreign : ∀ x ∈ xs, ∀ kind, id ≠ Key.id ⟨x.parent.name, kind⟩ := fun _ _ _ he =>
      known ⟨_, he⟩
    exact ⟨a.request, (find?_run c xs s id foreign).trans h⟩

/-- Runs with the same calls on every type leave the same store. -/
theorem run_eq_of_callsOn (c : Compiler) {xs ys : List Call} (s : Store)
    (h : ∀ typeName, callsOn typeName xs = callsOn typeName ys) :
    (c.run xs s).2 = (c.run ys s).2 := by
  refine Store.ext_find? fun id => ?_
  by_cases known : ∃ k : Key, id = k.id
  · obtain ⟨k, rfl⟩ := known
    have left := get?_run c xs s k
    have right := get?_run c ys s k
    rw [h k.typeName] at left
    exact left.trans right.symm
  · have foreign : ∀ zs : List Call, ∀ x ∈ zs, ∀ kind, id ≠ Key.id ⟨x.parent.name, kind⟩ :=
      fun _ _ _ _ he => known ⟨_, he⟩
    rw [find?_run c xs s id (foreign xs), find?_run c ys s id (foreign ys)]

/-- A run keeps all entries and puts the blocks of its successful calls in front of the request
templates of their types; how calls on different types are mixed makes no difference. -/
theorem run_effect (c : Compiler) (s : Store) :
    (∀ xs, (c.run xs s).2.ids = s.ids ∧
      (∀ k, (c.run xs s).2.get? k =
        (s.get? k).map (stacked (blocksAnswered k.typeName xs (c.run xs s).1))) ∧
      ∀ id a, s.find? id = some a → ∃ request, (c.run xs s).2.find? id = some { a with request }) ∧
    ∀ xs ys, (∀ typeName, callsOn typeName xs = callsOn typeName ys) →
      (c.run xs s).2 = (c.run ys s).2 := by
  refine ⟨fun xs => ⟨ids_run c xs s, fun k => ?_, fun id a => run_keeps c xs s id⟩, fun xs ys h => ?_⟩
  · rw [blocksAnswered_run]
    exact get?_run c xs s k
  · exact run_eq_of_callsOn c s h

def modelCall (typeName fieldName : String) (arguments : List Argument) : Call :=
  let span := .atCursor .start
  let d : Directive := ⟨"transform", arguments, span⟩
  let f : Field := ⟨fieldName, [], .named "String", [d], span⟩
  ⟨⟨.object, typeName, [], [⟨"model", [], span⟩], [f], span⟩, f, d⟩

/-- Two types, where one call on the first type is refused. -/
theorem run_effect_mixed :
    let c := Compiler.ofSettings .default
    let first := modelCall "Post" "title" [⟨"expression", .string ".trim()", .atCursor .start⟩]
    let refused := modelCall "Post" "body" []
    let other := modelCall "Note" "text" [⟨"expression", .string ".trim()", .atCursor .start⟩]
    let a := Artifact.ofRequest "Mutation" "createPost" "CUSTOM"
    let s := Store.empty.set ⟨"Post", .create⟩ a
    (∀ typeName, callsOn typeName [first, refused, other] =
      callsOn typeName [other, first, refused]) ∧
    (c.run [first, refused, other] s).2 = (c.run [other, first, refused] s).2 ∧
    (c.run [first, refused, other] s).2.get? ⟨"Post", .create⟩ =
      some (a.prepend (c.block "title" ⟨".trim()", false, false⟩)) := by
  intro c first refused other a s
  have same : ∀ typeName, callsOn typeName [first, refused, other] =
      callsOn typeName [other, first, refused] := by
    intro typeName
    by_cases post : "Post" = typeName
    · subst post
      rfl
    · by_cases note : "Note" = typeName <;>
        simp [callsOn, first, refused, other, modelCall, post, note]
  obtain ⟨every, orders⟩ := run_effect c s
  refine ⟨same, orders _ _ same, ?_⟩
  obtain ⟨-, stacked, -⟩ := every [first, refused, other]
  have blocks : blocksAnswered "Post" [first, refused, other] (c.run [first, refused, other] s).1 =
      [c.block "title" ⟨".trim()", false, false⟩] := rfl
  have stored : s.get? ⟨"Post", .create⟩ = some a := rfl
  have final := stacked ⟨"Post", .create⟩
  rw [blocks, stored, Option.map_some, stacked_cons, stacked_nil] at final
  exact final

end TransformDirective.Compile
