import TransformDirective.Proofs.Compile.Reporting

namespace TransformDirective.Compile

open TransformDirective.Config TransformDirective.Resolver TransformDirective.Schema

/-- The first entry for a kind, if the `mutations` argument is an object. -/
def kindValue? (mutations : Option Value) (k : Kind) : Option Value :=
  mutations.bind (Value.member? k.fieldStart)

/-- Null stands for all kinds or in the entry for the kind. -/
def Nulled (mutations : Option Value) (k : Kind) : Prop :=
  mutations = some .null ∨ kindValue? mutations k = some .null

/-- The entry for the kind is neither null nor a string. -/
def Mistyped (mutations : Option Value) (k : Kind) : Prop :=
  ∃ v, kindValue? mutations k = some v ∧ v ≠ .null ∧ v.string? = none

/-- The mutation field that a string in the entry for the kind names, or else the default one. -/
def chosenField (mutations : Option Value) (typeName : String) (k : Kind) : String :=
  ((kindValue? mutations k).bind Value.string?).getD (k.mutationField typeName)

section Field

variable {mutations : Option Value} {k : Kind} (typeName : String)

/-- A `mutations` argument of any other type than an object disables nothing. -/
theorem mutationField?_of_not_null (h : mutations ≠ some .null) :
    mutationField? mutations typeName k =
      (kindValue? mutations k).elim (some (k.mutationField typeName)) Value.string? := by
  cases mutations with
  | none => rfl
  | some v =>
    cases v with
    | null => exact absurd rfl h
    | object ms =>
      rw [mutationField?, kindValue?, Option.bind_some]
      cases Value.member? k.fieldStart (.object ms) <;> rfl
    | _ => rfl

theorem mutationField?_of_nulled (h : Nulled mutations k) :
    mutationField? mutations typeName k = none := by
  by_cases null : mutations = some .null
  · rw [null]
    rfl
  · rw [mutationField?_of_not_null typeName null, h.resolve_left null]
    rfl

theorem Mistyped.not_nulled (h : Mistyped mutations k) : ¬Nulled mutations k := by
  obtain ⟨v, entry, other, -⟩ := h
  rintro (rfl | null)
  · cases entry
  · rw [entry, Option.some.injEq] at null
    exact other null

/-- An entry of any other type than a string disables its kind, as null does. -/
theorem mutationField?_of_mistyped (h : Mistyped mutations k) :
    mutationField? mutations typeName k = none := by
  rw [mutationField?_of_not_null typeName fun null => h.not_nulled (.inl null)]
  obtain ⟨v, entry, -, untexted⟩ := h
  rw [entry, Option.elim_some, untexted]

theorem mutationField?_of_chosen (live : ¬Nulled mutations k) (typed : ¬Mistyped mutations k) :
    mutationField? mutations typeName k = some (chosenField mutations typeName k) := by
  rw [mutationField?_of_not_null typeName fun null => live (.inl null), chosenField]
  cases entry : kindValue? mutations k with
  | none => rfl
  | some v =>
    have other : v ≠ .null := fun null => live (.inr (by rw [entry, null]))
    cases text : v.string? with
    | none => exact absurd ⟨v, entry, other, text⟩ typed
    | some name => rw [Option.elim_some, Option.bind_some, text, Option.getD_some]

end Field

section Seeded

variable (settings : Settings) {d : Document} {t : TypeDefinition} (s : Store)

/-- What the only definition of a name leaves under its keys. -/
theorem get?_seed_single (single : d.types.filter (·.name = t.name) = [t]) {model : Directive}
    (concrete : t.kind = .object) (carries : t.directive? settings.modelDirective = some model)
    {k : Kind} (fresh : s.contains ⟨t.name, k⟩ = false) :
    (seed settings d s).2.get? ⟨t.name, k⟩ =
      (mutationField? (model.argument? "mutations") t.name k).map (initialResolver k) := by
  have absent : s.get? ⟨t.name, k⟩ = none := by simpa [Store.contains] using fresh
  have own : modelResolver? settings d ⟨t.name, k⟩ = typeResolver? settings t k := by
    rw [modelResolver?, single, List.findSome?_singleton]
  rw [get?_seed, baseResolver?, absent, Option.none_or, own, typeResolver?, if_pos concrete, carries,
    Option.bind_some]

/-- For a concrete model type that is the only definition of its name, and whose keys are not in
the store, null alone disables a kind exactly if the entry for the kind is not mistyped. A mistyped
entry leaves the kind without a resolver, and the keys that are reported are those that have one. -/
theorem seed_nulled_iff (single : d.types.filter (·.name = t.name) = [t]) (model : Directive)
    (concrete : t.kind = .object) (carries : t.directive? settings.modelDirective = some model)
    (fresh : ∀ k, s.contains ⟨t.name, k⟩ = false) (k : Kind) :
    let mutations := model.argument? "mutations"
    let r := seed settings d s
    ((Nulled mutations k → r.2.get? ⟨t.name, k⟩ = none) ∧
      (¬Nulled mutations k → r.2.get? ⟨t.name, k⟩ =
        some (initialResolver k (chosenField mutations t.name k))) ↔ ¬Mistyped mutations k) ∧
    (Mistyped mutations k → r.2.get? ⟨t.name, k⟩ = none) ∧
    (⟨t.name, k⟩ ∈ r.1 ↔ r.2.contains ⟨t.name, k⟩) := by
  intro mutations r
  have kept := get?_seed_single settings s single concrete carries (fresh k)
  have dropped (h : mutationField? mutations t.name k = none) : r.2.get? ⟨t.name, k⟩ = none := by
    rw [kept, h, Option.map_none]
  have mistyped (h : Mistyped mutations k) : r.2.get? ⟨t.name, k⟩ = none :=
    dropped (mutationField?_of_mistyped t.name h)
  refine ⟨⟨?_, fun typed => ⟨fun nulled => ?_, fun live => ?_⟩⟩, mistyped, ?_⟩
  · intro ⟨_, rule⟩ h
    have held := rule h.not_nulled
    rw [mistyped h] at held
    cases held
  · exact dropped (mutationField?_of_nulled t.name nulled)
  · rw [kept, mutationField?_of_chosen t.name live typed, Option.map_some]
  · have added := contains_addAbsent (modelResolvers settings d) s ⟨t.name, k⟩
    rw [fresh k] at added
    constructor
    · intro reported
      exact added.mpr (.inr reported)
    · intro present
      exact (added.mp present).resolve_left Bool.false_ne_true

end Seeded

/-- A model directive whose `mutations` argument has some entries. -/
def modelOf (entries : List (String × Value)) : Directive :=
  ⟨"model", [⟨"mutations", .object entries, .atCursor .start⟩], .atCursor .start⟩

def typeWith (model : Directive) : TypeDefinition :=
  ⟨.object, "Post", [], [model], [], .atCursor .start⟩

/-- A kind that is disabled, though a second entry names its field, and one that is renamed, while
a type of another name stands in front. -/
theorem seed_nulled_iff_named :
    let model := modelOf
      [("create", .null), ("update", .string "editPost"), ("create", .string "addPost")]
    let note := { typeWith (modelOf []) with name := "Note" }
    let r := seed .default ⟨[.type note, .type (typeWith model)]⟩ .empty
    r.2.get? ⟨"Post", .create⟩ = none ∧
    r.2.get? ⟨"Post", .update⟩ = some (initialResolver .update "editPost") ∧
    ⟨"Post", .update⟩ ∈ r.1 := by
  intro model note r
  have main := seed_nulled_iff .default (d := ⟨[.type note, .type (typeWith model)]⟩)
    (t := typeWith model) .empty rfl model rfl rfl fun _ => rfl
  obtain ⟨create, -, -⟩ := main .create
  obtain ⟨update, -, reported⟩ := main .update
  have typed : ∀ k, ¬Mistyped (model.argument? "mutations") k := by
    intro k ⟨v, entry, other, untexted⟩
    cases k <;> cases entry
    · exact other rfl
    · cases untexted
  have live : ¬Nulled (model.argument? "mutations") .update := by
    rintro (null | null) <;> cases null
  have kept := (update.mpr (typed .update)).2 live
  refine ⟨(create.mpr (typed .create)).1 (.inr rfl), kept, reported.mpr ?_⟩
  rw [Store.contains, kept]
  rfl

/-- A truth value for a kind is not null, and yet the kind is disabled. -/
theorem seed_mistyped :
    let model := modelOf [("create", .bool true)]
    let t := typeWith model
    t.directive? Settings.default.modelDirective = some model ∧
    ¬Nulled (model.argument? "mutations") .create ∧
    (seed .default ⟨[.type t]⟩ .empty).2.get? ⟨"Post", .create⟩ = none := by
  intro model t
  refine ⟨rfl, ?_, rfl⟩
  rintro (null | null) <;> cases null

end TransformDirective.Compile
