import TransformDirective.Proofs.Compile.Splicing
import TransformDirective.Proofs.Usage.Sites

namespace TransformDirective.Compile

open TransformDirective.Config TransformDirective.Resolver TransformDirective.Schema
open TransformDirective.Usage

/-- A transform is refused for what the search for usages is refused for. -/
theorem transformIn_error_iff (c : Compiler) (d : Document) (s : Store) (e : Misuse) :
    ((c.transformIn d).applyTo s).1 = .error e ↔ sites c.settings d = .error e := by
  rw [Compiler.applyTo_transformIn]
  cases sites c.settings d <;> simp

/-- A transform is refused exactly if some field has a fault, for the first such field and the
least of its faults, and then the store is what it was; otherwise it succeeds. -/
theorem transformIn_all_or_nothing (c : Compiler) (d : Document) (s : Store) :
    ((∃ e, ((c.transformIn d).applyTo s).1 = .error e) ↔
      ∃ t ∈ d.types, ∃ f ∈ t.fields, ∃ r, Fault c.settings t f r) ∧
    (∀ e, ((c.transformIn d).applyTo s).1 = .error e ↔ FirstFault c.settings d e) ∧
    (∀ e, ((c.transformIn d).applyTo s).1 = .error e → ((c.transformIn d).applyTo s).2 = s) ∧
    ((∀ t ∈ d.types, ∀ f ∈ t.fields, ∀ r, ¬Fault c.settings t f r) →
      ∃ report, ((c.transformIn d).applyTo s).1 = .ok report) := by
  have good := sites_isOk_iff c.settings d
  refine ⟨?_, fun e => ?_, fun e h => ?_, fun none => ?_⟩
  · simp only [transformIn_error_iff]
    constructor
    · rintro ⟨e, h⟩
      by_contra none
      push Not at none
      obtain ⟨us, hus⟩ := good.mpr none
      rw [hus] at h
      cases h
    · rintro ⟨t, ht, f, hf, r, fault⟩
      cases h : sites c.settings d with
      | error e => exact ⟨e, rfl⟩
      | ok us => exact absurd fault (good.mp ⟨us, h⟩ t ht f hf r)
  · rw [transformIn_error_iff, sites_eq_error_iff]
  · rw [transformIn_error_iff] at h
    rw [Compiler.applyTo_transformIn, h]
  · obtain ⟨us, hus⟩ := good.mpr none
    rw [Compiler.applyTo_transformIn, hus]
    exact ⟨_, rfl⟩

/-- The fields that carry the directive on any of the types with a name, in order. -/
def annotatedOf (settings : Settings) (d : Document) (typeName : String) :
    List (TypeDefinition × Field) :=
  (annotated settings d).filter (·.1.name = typeName)

/-- The block that the only usage on a field is compiled to. -/
def IsBlock (c : Compiler) (x : TypeDefinition × Field) (block : String) : Prop :=
  ∃ d a, x.2.directivesNamed c.settings.directiveName = [d] ∧ Arguments.read d = .ok a ∧
    block = c.block x.2.name a

/-- The usages on the types of a name are compiled to the blocks of the annotated fields, in order.
-/
theorem blocksOf_sites (c : Compiler) (typeName : String) {xs : List (TypeDefinition × Field)}
    {us : List Site} (h : List.Forall₂ (IsSite c.settings) xs us) :
    List.Forall₂ (IsBlock c) (xs.filter (·.1.name = typeName)) (blocksOf c typeName us) := by
  induction h with
  | nil => exact .nil
  | @cons x u xs us site rest ih =>
    obtain ⟨parent, field, d, one, checked⟩ := site
    unfold blocksOf at ih ⊢
    by_cases same : x.1.name = typeName
    · rw [List.filter_cons_of_pos (by simpa using same),
        List.filter_cons_of_pos (by simpa [parent] using same), List.map_cons]
      exact .cons ⟨d, u.args, one, read_of_check checked, by rw [field]⟩ ih
    · rw [List.filter_cons_of_neg (by simpa using same),
        List.filter_cons_of_neg (by simpa [parent] using same)]
      exact ih

/-- A transform changes the request templates of the keys of its types by the blocks of the usages
on them, and nothing else but the resolvers it seeds. -/
theorem transformIn_effect (c : Compiler) (d : Document) (s t : Store) (report : Report)
    (h : (c.transformIn d).applyTo s = (.ok report, t)) :
    (∀ typeName, ∃ blocks,
      List.Forall₂ (IsBlock c) (annotatedOf c.settings d typeName) blocks ∧
      ∀ kind, t.get? ⟨typeName, kind⟩ =
        (baseResolver? c.settings d s ⟨typeName, kind⟩).map (stacked blocks)) ∧
    ∀ id, (∀ u ∈ d.types, ∀ kind, id ≠ Key.id ⟨u.name, kind⟩) → t.find? id = s.find? id := by
  rw [Compiler.applyTo_transformIn] at h
  cases hus : sites c.settings d with
  | error e => rw [hus] at h; cases h
  | ok us =>
    rw [hus] at h
    cases h
    refine ⟨fun typeName => ⟨blocksOf c typeName us, blocksOf_sites c typeName (sites_ok hus).2,
      fun kind => ?_⟩, fun id foreign => ?_⟩
    · rw [get?_spliceAll, get?_seed]
    · rw [find?_spliceAll, find?_seed _ _ _ _ foreign]
      intro u hu
      exact foreign u.parent (parent_mem_types hus hu)

def annotatedModel (fieldName expression : String) : TypeDefinition :=
  let span := .atCursor .start
  ⟨.object, "Post", [], [⟨"model", [], span⟩],
    [⟨fieldName, [], .named "String",
      [⟨"transform", [⟨"expression", .string expression, span⟩], span⟩], span⟩], span⟩

/-- Two types of one name, where a resolver is in the store before. -/
theorem transformIn_effect_same_name :
    let c := Compiler.ofSettings .default
    let d : Document := ⟨[.type (annotatedModel "title" ".trim()"),
      .type (annotatedModel "body" ".toUpperCase()")]⟩
    let a := Artifact.ofRequest "Mutation" "editPost" "CUSTOM"
    ∃ report t, (c.transformIn d).applyTo (Store.empty.set ⟨"Post", .update⟩ a) = (.ok report, t) ∧
      t.get? ⟨"Post", .update⟩ =
        some ((a.prepend (c.block "title" ⟨".trim()", false, false⟩)).prepend
          (c.block "body" ⟨".toUpperCase()", false, false⟩)) := by
  intro c d a
  refine ⟨_, _, rfl, ?_⟩
  obtain ⟨blocks, isBlock, final⟩ := (transformIn_effect c d _ _ _ rfl).1 "Post"
  have fields : annotatedOf c.settings d "Post" = [(_, _), (_, _)] := rfl
  rw [fields] at isBlock
  cases isBlock with
  | cons first rest =>
    cases rest with
    | cons second rest =>
      cases rest
      obtain ⟨_, _, one, read, rfl⟩ := first
      cases one
      cases read
      obtain ⟨_, _, one, read, rfl⟩ := second
      cases one
      cases read
      rw [final .update]
      have base : baseResolver? c.settings d (Store.empty.set ⟨"Post", .update⟩ a)
          ⟨"Post", .update⟩ = some a := rfl
      rw [base, Option.map_some, stacked_cons, stacked_cons, stacked_nil]

end TransformDirective.Compile
