import TransformDirective.Proofs.Compile.Calls
import TransformDirective.Proofs.Usage.Sites

namespace TransformDirective.Compile

open TransformDirective.Config TransformDirective.Resolver TransformDirective.Schema
open TransformDirective.Usage

/-- The stores hold the same resolvers for the types with these names. -/
def AgreeOn (names : List String) (s t : Store) : Prop :=
  ∀ name ∈ names, ∀ kind, s.get? ⟨name, kind⟩ = t.get? ⟨name, kind⟩

/-- What the step answers and does follows from the resolvers of the types with these names, and
it changes no others. -/
structure Confined {α : Type} (names : List String) (f : Store → α × Store) : Prop where
  frame : ∀ s id, (∀ name ∈ names, ∀ kind, id ≠ Key.id ⟨name, kind⟩) →
    (f s).2.find? id = s.find? id
  answer : ∀ s t, AgreeOn names s t → (f s).1 = (f t).1
  agree : ∀ s t, AgreeOn names s t → AgreeOn names (f s).2 (f t).2

section Commuting

variable {α β : Type} {names others : List String} {f : Store → α × Store}
  {g : Store → β × Store}

/-- A step on some names is not seen on other names. -/
theorem Confined.agreeOn_other (hf : Confined names f)
    (apart : ∀ name ∈ names, name ∉ others) (s : Store) : AgreeOn others (f s).2 s := by
  intro name mem kind
  refine hf.frame s _ fun other mem' kind' same => ?_
  have key := Key.id_injective same
  cases key
  exact apart name mem' mem

/-- Steps on different names do not change each other's answer. -/
theorem Confined.answer_after (hf : Confined names f) (hg : Confined others g)
    (apart : ∀ name ∈ names, name ∉ others) (s : Store) : (g (f s).2).1 = (g s).1 :=
  hg.answer _ _ (hf.agreeOn_other apart s)

/-- What a step leaves for its names is left by a step on other names as well. -/
theorem Confined.find?_after (hf : Confined names f) (hg : Confined others g)
    (apart : ∀ name ∈ names, name ∉ others) {name : String} (mem : name ∈ names) (kind : Kind)
    (s : Store) :
    (g (f s).2).2.find? (Key.id ⟨name, kind⟩) = (f (g s).2).2.find? (Key.id ⟨name, kind⟩) := by
  have back : ∀ other ∈ others, other ∉ names := fun other mem' mem => apart other mem mem'
  have outer : (g (f s).2).2.find? (Key.id ⟨name, kind⟩) = (f s).2.find? (Key.id ⟨name, kind⟩) :=
    hg.agreeOn_other back (f s).2 name mem kind
  have inner : AgreeOn names (f (g s).2).2 (f s).2 := hf.agree _ _ (hg.agreeOn_other back s)
  exact outer.trans (inner name mem kind).symm

/-- Steps on different names leave the same store in either order. -/
theorem Confined.comm (hf : Confined names f) (hg : Confined others g)
    (apart : ∀ name ∈ names, name ∉ others) (s : Store) :
    (g (f s).2).2 = (f (g s).2).2 := by
  have back : ∀ other ∈ others, other ∉ names := fun other mem' mem => apart other mem mem'
  refine Store.ext_find? fun id => ?_
  by_cases first : ∃ name ∈ names, ∃ kind, id = Key.id ⟨name, kind⟩
  · obtain ⟨name, mem, kind, rfl⟩ := first
    exact hf.find?_after hg apart mem kind s
  by_cases second : ∃ name ∈ others, ∃ kind, id = Key.id ⟨name, kind⟩
  · obtain ⟨name, mem, kind, rfl⟩ := second
    exact (hg.find?_after hf back mem kind s).symm
  · have foreignFirst : ∀ name ∈ names, ∀ kind, id ≠ Key.id ⟨name, kind⟩ :=
      fun name mem kind he => first ⟨name, mem, kind, he⟩
    have foreignSecond : ∀ name ∈ others, ∀ kind, id ≠ Key.id ⟨name, kind⟩ :=
      fun name mem kind he => second ⟨name, mem, kind, he⟩
    rw [hg.frame _ id foreignSecond, hf.frame _ id foreignFirst, hf.frame _ id foreignFirst,
      hg.frame _ id foreignSecond]

end Commuting

def typeNames (d : Document) : List String := d.types.map (·.name)

section Seed

variable (settings : Settings)

theorem addAbsent_append (es fs : List (Key × Artifact)) (s : Store) :
    addAbsent (es ++ fs) s =
      ((addAbsent es s).1 ++ (addAbsent fs (addAbsent es s).2).1,
        (addAbsent fs (addAbsent es s).2).2) := by
  induction es generalizing s with
  | nil => rfl
  | cons e es ih =>
    rw [List.cons_append, addAbsent, addAbsent]
    by_cases present : s.contains e.1 = true
    · rw [if_pos present, if_pos present, ih]
    · rw [if_neg present, if_neg present]
      simp only [ih, List.cons_append]

theorem seed_append (d e : Document) (s : Store) :
    seed settings (d ++ e) s =
      ((seed settings d s).1 ++ (seed settings e (seed settings d s).2).1,
        (seed settings e (seed settings d s).2).2) := by
  have resolvers : modelResolvers settings (d ++ e) =
      modelResolvers settings d ++ modelResolvers settings e := by
    unfold modelResolvers
    rw [Document.types_append, List.flatMap_append]
  unfold seed
  rw [resolvers, addAbsent_append]

/-- Which keys are added is told by the store under these keys. -/
theorem addAbsent_answer (es : List (Key × Artifact)) (s t : Store)
    (h : ∀ e ∈ es, s.get? e.1 = t.get? e.1) : (addAbsent es s).1 = (addAbsent es t).1 := by
  induction es generalizing s t with
  | nil => rfl
  | cons e es ih =>
    have here : s.contains e.1 = t.contains e.1 := by
      unfold Store.contains
      rw [h e List.mem_cons_self]
    have rest : ∀ f ∈ es, s.get? f.1 = t.get? f.1 := fun f hf => h f (List.mem_cons_of_mem e hf)
    rw [addAbsent, addAbsent, here]
    by_cases present : t.contains e.1 = true
    · rw [if_pos present, if_pos present]
      exact ih s t rest
    · rw [if_neg present, if_neg present]
      have added := ih (s.set e.1 e.2) (t.set e.1 e.2) fun f hf => by
        rw [Store.get?_set, Store.get?_set, rest f hf]
      exact congrArg (e.1 :: ·) added

theorem typeName_of_mem_modelResolvers {d : Document} {e : Key × Artifact}
    (h : e ∈ modelResolvers settings d) : e.1.typeName ∈ typeNames d := by
  obtain ⟨t, ht, he⟩ := List.mem_flatMap.mp h
  unfold resolversOfType at he
  split at he
  · obtain ⟨kind, -, hk⟩ := List.mem_filterMap.mp he
    obtain ⟨name, -, rfl⟩ := Option.map_eq_some_iff.mp hk
    exact List.mem_map_of_mem ht
  · cases he

/-- Seeding neither sees nor changes the resolvers of types that the document does not define. -/
theorem seed_confined (d : Document) : Confined (typeNames d) (seed settings d) where
  frame s id foreign := find?_seed settings d s id fun t ht kind =>
    foreign t.name (List.mem_map_of_mem ht) kind
  answer s t h := addAbsent_answer _ s t fun e he =>
    h _ (typeName_of_mem_modelResolvers settings he) e.1.kind
  agree s t h := fun name mem kind => by
    rw [get?_seed, get?_seed, baseResolver?, baseResolver?, h name mem kind]

end Seed

section Splice

variable (c : Compiler)

theorem spliceAll_append (us vs : List Site) (s : Store) :
    c.spliceAll (us ++ vs) s =
      ((c.spliceAll us s).1 ++ (c.spliceAll vs (c.spliceAll us s).2).1,
        (c.spliceAll vs (c.spliceAll us s).2).2) := by
  induction us generalizing s with
  | nil => rfl
  | cons u us ih =>
    simp only [List.cons_append, Compiler.spliceAll, ih]

theorem spliceAll_answer (us : List Site) (s t : Store)
    (h : AgreeOn (us.map (·.parent.name)) s t) : (c.spliceAll us s).1 = (c.spliceAll us t).1 := by
  induction us generalizing s t with
  | nil => rfl
  | cons u us ih =>
    have same : ∀ kind, s.contains ⟨u.parent.name, kind⟩ = t.contains ⟨u.parent.name, kind⟩ :=
      fun kind => congrArg Option.isSome (h u.parent.name List.mem_cons_self kind)
    have here := splice_answer (c.block u.field.name u.args) same
    have rest : AgreeOn (us.map (·.parent.name))
        (splice u.parent.name (c.block u.field.name u.args) s).2
        (splice u.parent.name (c.block u.field.name u.args) t).2 := by
      intro name mem kind
      rw [get?_splice, get?_splice, h name (List.mem_cons_of_mem _ mem) kind]
    rw [Compiler.spliceAll, Compiler.spliceAll]
    simp only [here, ih _ _ rest]

/-- Splicing the usages of a document neither sees nor changes the resolvers of other types. -/
theorem spliceAll_confined {d : Document} {us : List Site}
    (h : sites c.settings d = .ok us) : Confined (typeNames d) (c.spliceAll us) := by
  have parents : ∀ u ∈ us, u.parent.name ∈ typeNames d := fun u hu =>
    List.mem_map_of_mem (parent_mem_types h hu)
  constructor
  · intro s id foreign
    exact find?_spliceAll c us s id fun u hu => foreign _ (parents u hu)
  · intro s t agree
    refine spliceAll_answer c us s t fun name mem kind => ?_
    obtain ⟨u, hu, rfl⟩ := List.mem_map.mp mem
    exact agree _ (parents u hu) kind
  · intro s t agree name mem kind
    rw [get?_spliceAll, get?_spliceAll, agree name mem kind]

end Splice

theorem fieldsOf_append (d e : Document) : fieldsOf (d ++ e) = fieldsOf d ++ fieldsOf e := by
  unfold fieldsOf
  rw [Document.types_append, List.flatMap_append]

/-- The usages of two documents are collected in order; the first refusal decides. -/
theorem sites_append (settings : Settings) (d e : Document) :
    sites settings (d ++ e) =
      (sites settings d).bind fun us => (sites settings e).map (us ++ ·) := by
  unfold sites
  rw [fieldsOf_append, List.mapM_append]
  cases (fieldsOf d).mapM fun x => siteOf settings x.1 x.2 with
  | error m => rfl
  | ok os =>
    cases (fieldsOf e).mapM fun x => siteOf settings x.1 x.2 with
    | error m => rfl
    | ok ps => exact congrArg Except.ok List.filterMap_append

/-- Where the usages are allowed, a transform seeds and then splices them. -/
theorem transformIn_of_sites (c : Compiler) {d : Document} {us : List Site}
    (h : sites c.settings d = .ok us) (s : Store) :
    (c.transformIn d).applyTo s =
      (.ok ⟨(seed c.settings d s).1, (c.spliceAll us (seed c.settings d s).2).1⟩,
        (c.spliceAll us (seed c.settings d s).2).2) := by
  rw [Compiler.applyTo_transformIn, h]

section Joint

variable (c : Compiler) {d e : Document} {us vs : List Site}
  (apart : ∀ name ∈ typeNames d, name ∉ typeNames e)
  (hus : sites c.settings d = .ok us) (hvs : sites c.settings e = .ok vs) (s : Store)
include apart hus hvs

/-- Two documents leave the same store in either order. -/
theorem transformIn_comm_of_sites :
    ((c.transformIn d).applyTo ((c.transformIn e).applyTo s).2).2 =
      ((c.transformIn e).applyTo ((c.transformIn d).applyTo s).2).2 := by
  have seedD := seed_confined c.settings d
  have seedE := seed_confined c.settings e
  have spliceD := spliceAll_confined c hus
  have spliceE := spliceAll_confined c hvs
  have back : ∀ name ∈ typeNames e, name ∉ typeNames d := fun name he hd => apart name hd he
  simp only [transformIn_of_sites c hus, transformIn_of_sites c hvs]
  rw [spliceE.comm seedD back, spliceE.comm spliceD back, seedE.comm seedD back,
    ← seedE.comm spliceD back]

/-- Seeding both documents before splicing any usage does the same as one document after the other,
since splicing the first one and seeding the second one can be exchanged. -/
theorem transformIn_append_of_sites :
    ∃ r₁ r₂ t, ((c.transformIn d).applyTo s).1 = .ok r₁ ∧
      (c.transformIn e).applyTo ((c.transformIn d).applyTo s).2 = (.ok r₂, t) ∧
      (c.transformIn (d ++ e)).applyTo s =
        (.ok ⟨r₁.seeded ++ r₂.seeded, r₁.splices ++ r₂.splices⟩, t) := by
  have seedE := seed_confined c.settings e
  have spliceD := spliceAll_confined c hus
  have back : ∀ name ∈ typeNames e, name ∉ typeNames d := fun name he hd => apart name hd he
  have both : sites c.settings (d ++ e) = .ok (us ++ vs) := by
    rw [sites_append, hus, hvs]
    rfl
  have store := seedE.comm spliceD back (seed c.settings d s).2
  have splices := seedE.answer_after spliceD back (seed c.settings d s).2
  have seeds := spliceD.answer_after seedE apart (seed c.settings d s).2
  have jointly := transformIn_of_sites c both s
  rw [seed_append, spliceAll_append] at jointly
  simp only [store, splices] at jointly
  have firstly := transformIn_of_sites c hus s
  have secondly := transformIn_of_sites c hvs (c.spliceAll us (seed c.settings d s).2).2
  simp only [seeds] at secondly
  rw [firstly]
  exact ⟨_, _, _, rfl, secondly, jointly⟩

end Joint

/-- A refusal leaves the store as it was. -/
theorem transformIn_error_of_sites (c : Compiler) {d : Document} {m : Misuse}
    (h : sites c.settings d = .error m) (s : Store) : (c.transformIn d).applyTo s = (.error m, s) := by
  rw [Compiler.applyTo_transformIn, h]

/-- Two documents without a type name in common are transformed together exactly if each of them
is, with the first one's error before the second one's, and together they leave the store that they
leave one after the other in either order, with their reports joined. -/
theorem transformIn_append (c : Compiler) (d e : Document) (s : Store)
    (apart : ∀ t ∈ d.types, ∀ u ∈ e.types, t.name ≠ u.name) :
    let first := (c.transformIn d).applyTo s
    let second := (c.transformIn e).applyTo s
    let joint := (c.transformIn (d ++ e)).applyTo s
    ((∃ r, joint.1 = .ok r) ↔ (∃ r, first.1 = .ok r) ∧ ∃ r, second.1 = .ok r) ∧
    (∀ m, first.1 = .error m → joint.1 = .error m) ∧
    (∀ r m, first.1 = .ok r → second.1 = .error m → joint.1 = .error m) ∧
    ∀ r, joint.1 = .ok r →
      (∃ r₁ r₂, first.1 = .ok r₁ ∧ (c.transformIn e).applyTo first.2 = (.ok r₂, joint.2) ∧
        r = ⟨r₁.seeded ++ r₂.seeded, r₁.splices ++ r₂.splices⟩) ∧
      ∃ r₃, (c.transformIn d).applyTo second.2 = (.ok r₃, joint.2) := by
  have names : ∀ name ∈ typeNames d, name ∉ typeNames e := by
    intro name hd he
    obtain ⟨t, ht, rfl⟩ := List.mem_map.mp hd
    obtain ⟨u, hu, same⟩ := List.mem_map.mp he
    exact apart t ht u hu same.symm
  have both := sites_append c.settings d e
  intro first second joint
  cases hus : sites c.settings d with
  | error m =>
    rw [hus] at both
    have firstError : first = (.error m, s) := transformIn_error_of_sites c hus s
    have jointError : joint = (.error m, s) := transformIn_error_of_sites c both s
    simp [firstError, jointError]
  | ok us =>
    have firstOk : first = _ := transformIn_of_sites c hus s
    cases hvs : sites c.settings e with
    | error m =>
      rw [hus, hvs] at both
      have secondError : second = (.error m, s) := transformIn_error_of_sites c hvs s
      have jointError : joint = (.error m, s) := transformIn_error_of_sites c both s
      simp [firstOk, secondError, jointError]
    | ok vs =>
      obtain ⟨r₁, r₂, t, firstly, secondly, jointly⟩ :=
        transformIn_append_of_sites c names hus hvs s
      have jointOk : joint = (.ok ⟨r₁.seeded ++ r₂.seeded, r₁.splices ++ r₂.splices⟩, t) := jointly
      have secondOk : second = _ := transformIn_of_sites c hvs s
      have reversed : ∃ r₃, (c.transformIn d).applyTo second.2 = (.ok r₃, t) := by
        have swapped := transformIn_comm_of_sites c names hus hvs s
        rw [secondly] at swapped
        have answered := congrArg Prod.fst (transformIn_of_sites c hus second.2)
        exact ⟨_, Prod.ext answered swapped⟩
      refine ⟨by simp [firstOk, secondOk, jointOk], by simp [firstOk], by simp [secondOk], ?_⟩
      intro r hr
      rw [jointOk] at hr ⊢
      cases hr
      exact ⟨⟨r₁, r₂, firstly, secondly, rfl⟩, reversed⟩

/-- A type with a usage in each of two documents. -/
theorem transformIn_append_two_types :
    let c := Compiler.ofSettings .default
    let trim := [⟨"expression", .string ".trim()", .atCursor .start⟩]
    let d : Document := ⟨[.type (modelCall "Post" "title" trim).parent]⟩
    let e : Document := ⟨[.type (modelCall "Note" "text" trim).parent]⟩
    let first := (c.transformIn d).applyTo .empty
    let joint := (c.transformIn (d ++ e)).applyTo .empty
    (∀ t ∈ d.types, ∀ u ∈ e.types, t.name ≠ u.name) ∧
    ∃ r, joint.1 = .ok r ∧
      ∃ r₁ r₂, first.1 = .ok r₁ ∧ (c.transformIn e).applyTo first.2 = (.ok r₂, joint.2) ∧
        r = ⟨r₁.seeded ++ r₂.seeded, r₁.splices ++ r₂.splices⟩ := by
  intro c trim d e first joint
  have apart : ∀ t ∈ d.types, ∀ u ∈ e.types, t.name ≠ u.name := by
    intro t ht u hu
    obtain rfl := List.mem_singleton.mp ht
    obtain rfl := List.mem_singleton.mp hu
    simp [modelCall]
  obtain ⟨-, -, -, joined⟩ := transformIn_append c d e .empty apart
  exact ⟨apart, _, rfl, (joined _ rfl).1⟩

end TransformDirective.Compile
