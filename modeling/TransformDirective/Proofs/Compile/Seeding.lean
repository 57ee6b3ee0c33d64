import TransformDirective.Compile.Seed

namespace TransformDirective.Compile

open TransformDirective.Config TransformDirective.Resolver TransformDirective.Schema

/-- The resolver of a kind that a concrete model type starts with, unless its model directive
disables the kind. -/
def typeResolver? (settings : Settings) (t : TypeDefinition) (k : Kind) : Option Artifact :=
  if t.kind = .object then
    (t.directive? settings.modelDirective).bind fun model =>
      (mutationField? (model.argument? "mutations") t.name k).map (initialResolver k)
  else none

/-- The resolver for a key that the first type of its name gives that gives one. -/
def modelResolver? (settings : Settings) (d : Document) (k : Key) : Option Artifact :=
  (d.types.filter (·.name = k.typeName)).findSome? (typeResolver? settings · k.kind)

/-- What a key holds once the resolvers of the model types are added to a store. -/
def baseResolver? (settings : Settings) (d : Document) (s : Store) (k : Key) : Option Artifact :=
  (s.get? k).or (modelResolver? settings d k)

/-- What is in the store stays, and of two resolvers for one key the first is added. -/
theorem find?_addAbsent (es : List (Key × Artifact)) (s : Store) (x : String) :
    (addAbsent es s).2.find? x = (s.find? x).or ((es.find? (·.1.id = x)).map (·.2)) := by
  induction es generalizing s with
  | nil => simp [addAbsent]
  | cons e es ih =>
    unfold addAbsent
    by_cases present : s.contains e.1 = true
    · rw [if_pos present, ih]
      by_cases here : e.1.id = x
      · obtain ⟨a, ha⟩ := Option.isSome_iff_exists.mp present
        have found : s.find? x = some a := by rw [← here]; exact ha
        simp [found]
      · simp [here]
    · rw [if_neg present]
      have absent : s.find? e.1.id = none := by
        simpa [Store.contains, Store.get?] using present
      show (addAbsent es (s.set e.1 e.2)).2.find? x = _
      rw [ih, Store.set, Store.find?_insert]
      by_cases here : e.1.id = x
      · simp [← here, absent]
      · simp [here, Ne.symm here]

theorem find?_resolversOfType (settings : Settings) (t : TypeDefinition) (k : Key) :
    ((resolversOfType settings t).find? (·.1 = k)).map (·.2) =
      if t.name = k.typeName then typeResolver? settings t k.kind else none := by
  obtain ⟨name, kind⟩ := k
  unfold resolversOfType typeResolver?
  cases t.kind with
  | interface => simp
  | object =>
    cases t.directive? settings.modelDirective with
    | none => simp
    | some model =>
      rcases Decidable.em (t.name = name) with rfl | other
      all_goals
        cases kind <;>
          cases hc : mutationField? (model.argument? "mutations") t.name .create <;>
          cases hu : mutationField? (model.argument? "mutations") t.name .update <;>
          simp_all [Kind.all]

theorem find?_modelResolvers (settings : Settings) (d : Document) (k : Key) :
    ((modelResolvers settings d).find? (·.1 = k)).map (·.2) = modelResolver? settings d k := by
  unfold modelResolvers modelResolver?
  rw [List.find?_flatMap, List.map_findSome?]
  induction d.types with
  | nil => rfl
  | cons t ts ih =>
    rw [List.findSome?_cons, Function.comp_apply, find?_resolversOfType, ih]
    by_cases same : t.name = k.typeName <;> simp [same, List.findSome?_cons]

/-- Behind seeding a key holds the resolver that was there, or else the one that the first concrete
model type of the name starts with. -/
theorem get?_seed (settings : Settings) (d : Document) (s : Store) (k : Key) :
    (seed settings d s).2.get? k = baseResolver? settings d s k := by
  unfold seed baseResolver? Store.get?
  rw [find?_addAbsent]
  simp only [Key.id_inj]
  rw [find?_modelResolvers]

/-- Seeding leaves everything alone that does not belong to a type of the document. -/
theorem find?_seed (settings : Settings) (d : Document) (s : Store) (x : String)
    (foreign : ∀ t ∈ d.types, ∀ k, x ≠ Key.id ⟨t.name, k⟩) :
    (seed settings d s).2.find? x = s.find? x := by
  have none : (modelResolvers settings d).find? (·.1.id = x) = none := by
    rw [List.find?_eq_none]
    intro e he
    obtain ⟨t, ht, he⟩ := List.mem_flatMap.mp he
    unfold resolversOfType at he
    split at he
    · obtain ⟨k, -, hk⟩ := List.mem_filterMap.mp he
      obtain ⟨f, -, rfl⟩ := Option.map_eq_some_iff.mp hk
      simpa using (foreign t ht k).symm
    · cases he
  unfold seed
  rw [find?_addAbsent, none]
  simp

end TransformDirective.Compile
