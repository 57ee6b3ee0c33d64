import TransformDirective.Proofs.Compile.Reporting

namespace TransformDirective.Compile

open TransformDirective.Config TransformDirective.Resolver TransformDirective.Schema
open TransformDirective.Usage

section Absent

variable (es : List (Key × Artifact)) (s : Store)

/-- Nothing is added to a store that has all the keys. -/
theorem addAbsent_of_present (h : ∀ e ∈ es, s.contains e.1) : addAbsent es s = ([], s) := by
  induction es with
  | nil => rfl
  | cons e es ih =>
    rw [addAbsent, if_pos (h e List.mem_cons_self)]
    exact ih fun f hf => h f (List.mem_cons_of_mem e hf)

/-- Every key that could be added is there from then on. -/
theorem contains_addAbsent_of_mem {e : Key × Artifact} (he : e ∈ es) :
    (addAbsent es s).2.contains e.1 := by
  rw [contains_addAbsent, mem_addAbsent]
  by_cases present : s.contains e.1 = true
  · exact .inl present
  · exact .inr ⟨present, e, he, rfl⟩

/-- An entry that is there stays as it is. -/
theorem find?_addAbsent_of_some {id : String} {a : Artifact} (h : s.find? id = some a) :
    (addAbsent es s).2.find? id = some a := by
  rw [find?_addAbsent, h, Option.some_or]

end Absent

/-- Processed usages take no key away. -/
theorem contains_run (c : Compiler) (xs : List Call) (s : Store) (k : Key) :
    (c.run xs s).2.contains k = s.contains k := by
  unfold Store.contains
  rw [get?_run, Option.isSome_map]

/-- A store that has every key of a seeded store is seeded. -/
theorem seed_of_contains (settings : Settings) (d : Document) (s t : Store)
    (h : ∀ k, (seed settings d s).2.contains k → t.contains k) : seed settings d t = ([], t) :=
  addAbsent_of_present _ t fun e he => h e.1 (contains_addAbsent_of_mem _ s he)

/-- Seeding the same document again finds nothing to do. -/
theorem seed_seed (settings : Settings) (d : Document) (s : Store) :
    seed settings d (seed settings d s).2 = ([], (seed settings d s).2) :=
  seed_of_contains settings d s _ fun _ present => present

/-- Seeding keeps all entries; a second time it adds nothing, also behind processed usages; and a
transform of a store that is seeded before does what it does otherwise, but for the seeding. -/
theorem seed_idempotent (settings : Settings) (d : Document) (s : Store) :
    let seeded := (seed settings d s).2
    (∀ id a, s.find? id = some a → seeded.find? id = some a) ∧
    seed settings d seeded = ([], seeded) ∧
    (∀ (c : Compiler) xs, seed settings d (c.run xs seeded).2 = ([], (c.run xs seeded).2)) ∧
    ∀ (c : Compiler) report t, c.settings = settings →
      (c.transformIn d).applyTo s = (.ok report, t) →
      (c.transformIn d).applyTo seeded = (.ok ⟨[], report.splices⟩, t) := by
  intro seeded
  refine ⟨fun id a => find?_addAbsent_of_some _ s, seed_seed settings d s, fun c xs => ?_, ?_⟩
  · refine seed_of_contains settings d s _ fun k present => ?_
    rw [contains_run]
    exact present
  · rintro c report t rfl h
    obtain ⟨us, found, rfl, rfl⟩ := transformIn_ok h
    rw [transformIn_of_sites c found, seed_seed]

/-- A document whose first definition disables what the second one enables, with an entry in the
store before, and processed usages of which one is refused. -/
theorem seed_idempotent_same_name :
    let c := Compiler.ofSettings .default
    let span := .atCursor .start
    let mutations := .object [("create", .null), ("update", .string "editPost")]
    let first := { annotatedModel "title" ".trim()" with
      directives := [⟨"model", [⟨"mutations", mutations, span⟩], span⟩] }
    let d : Document := ⟨[.type first, .type (annotatedModel "body" ".toUpperCase()")]⟩
    let a := Artifact.ofRequest "Mutation" "changePost" "CUSTOM"
    let s := Store.empty.set ⟨"Post", .update⟩ a
    let seeded := (seed c.settings d s).2
    let calls := [modelCall "Post" "title" [⟨"expression", .string ".trim()", span⟩],
      modelCall "Post" "body" []]
    (seed c.settings d s).1 = [⟨"Post", .create⟩] ∧
    seeded.find? "UpdatePostResolver" = some a ∧
    (c.run calls seeded).2 ≠ seeded ∧
    seed c.settings d (c.run calls seeded).2 = ([], (c.run calls seeded).2) ∧
    ∃ report t, (c.transformIn d).applyTo s = (.ok report, t) ∧
      (c.transformIn d).applyTo seeded = (.ok ⟨[], report.splices⟩, t) := by
  intro c span mutations first d a s seeded calls
  obtain ⟨kept, -, behind, transformed⟩ := seed_idempotent c.settings d s
  have run := transformIn_of_sites c (d := d) rfl s
  have there : s.find? "UpdatePostResolver" = some a := rfl
  have added : (seed c.settings d s).1 = [⟨"Post", .create⟩] := by decide
  have changed : (c.run calls seeded).2 ≠ seeded := by
    intro same
    have request := congrArg (fun t => t.find? "UpdatePostResolver") same
    rw [kept _ _ there] at request
    revert request
    decide
  exact ⟨added, kept _ _ there, changed, behind c calls, _, _, run, transformed c _ _ rfl run⟩

end TransformDirective.Compile
