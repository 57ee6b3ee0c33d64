import TransformDirective.Proofs.Compile.Effect
import TransformDirective.Proofs.Usage.Unmarked

namespace TransformDirective.Compile

open TransformDirective.Config TransformDirective.Resolver TransformDirective.Schema
open TransformDirective.Template TransformDirective.Usage

variable {settings : Settings}

/-- The only marker that starts in a block is that of its field. -/
theorem block_marks (indent : Nat) (root : settings.inputRoot = Settings.default.inputRoot)
    (entry : settings.entryVar = Settings.default.entryVar) {name : String} {a : Arguments}
    (isName : isNameText name) (clean : Clean a.expression.toList) :
    Marks (Compiler.block ⟨settings, .printer indent⟩ name a) name := by
  have line : '\n' ∉ fieldMark := by decide
  have unquoted : '"' ∉ name.toList := not_mem_name isName (by decide)
  have header := clean_markerBack clean
  have body := clean_statement indent root entry isName clean
  have last := clean_endMarker isName clean
  refine ⟨(isNameChar_of_isNameText isName).1, unquoted, _, ?_,
    header.append_break line (body.append_break line last)⟩
  have whole : Compiler.block ⟨settings, .printer indent⟩ name a =
      markedBlock (a.header name) ((statement settings name a).text indent) := rfl
  rw [whole, markedBlock]
  simp only [String.toList_append, startMarker_toList, List.append_assoc, List.cons_append]
  rfl

/-- Nothing but a block looks like one: the templates that resolvers start with have no start of a
marker. -/
theorem clean_initialRequest (kind : Kind) : Clean (initialRequest kind).toList := by
  cases kind
  all_goals
    apply Clean.of_lines
    intro l hl
    apply Clean.of_count
    revert l
    decide +kernel

theorem modelResolver?_request {d : Document} {k : Key} {a : Artifact}
    (h : modelResolver? settings d k = some a) : a.request = initialRequest k.kind := by
  obtain ⟨t, -, found⟩ := List.exists_of_findSome?_eq_some h
  unfold typeResolver? at found
  split at found
  · obtain ⟨model, -, found⟩ := Option.bind_eq_some_iff.mp found
    obtain ⟨f, -, rfl⟩ := Option.map_eq_some_iff.mp found
    rfl
  · cases found

/-- What the usages on the fields must satisfy to be told apart in a template: the names are
words, and no expression has the start of a marker. -/
def Readable (settings : Settings) (x : TypeDefinition × Field) : Prop :=
  isNameText x.2.name ∧ ∀ u ∈ x.2.directivesNamed settings.directiveName, ∀ a,
    Arguments.read u = .ok a → Clean a.expression.toList

/-- The blocks of readable fields are marked by the names of the fields. -/
theorem isBlock_marks (indent : Nat) (root : settings.inputRoot = Settings.default.inputRoot)
    (entry : settings.entryVar = Settings.default.entryVar) {xs : List (TypeDefinition × Field)}
    {blocks : List String} (readable : ∀ x ∈ xs, Readable settings x)
    (h : List.Forall₂ (IsBlock ⟨settings, .printer indent⟩) xs blocks) :
    List.Forall₂ Marks blocks (xs.map (·.2.name)) := by
  induction h with
  | nil => exact .nil
  | @cons x block xs blocks isBlock _ ih =>
    obtain ⟨⟨isName, clean⟩, more⟩ := List.forall_mem_cons.mp readable
    obtain ⟨u, a, one, read, rfl⟩ := isBlock
    have used : u ∈ x.2.directivesNamed settings.directiveName := by
      rw [one]
      exact List.mem_singleton_self u
    have marks := block_marks indent root entry isName (clean u used a read)
    exact .cons marks (ih more)

/-- The request template of every resolver tells which fields on the types of its name are
transformed, each one once and the last one first. -/
theorem blockFields_of_transform (indent : Nat) (d : Document) (report : Report) (t : Store)
    (root : settings.inputRoot = Settings.default.inputRoot)
    (entry : settings.entryVar = Settings.default.entryVar)
    (readable : ∀ x ∈ annotated settings d, Readable settings x)
    (h : (Compiler.transformIn ⟨settings, .printer indent⟩ d).applyTo .empty = (.ok report, t))
    (k : Key) (a : Artifact) (stored : t.get? k = some a) :
    blockFields a.request = ((annotatedOf settings d k.typeName).map (·.2.name)).reverse := by
  rw [Compiler.applyTo_transformIn] at h
  cases hus : sites settings d with
  | error e =>
    rw [hus] at h
    cases h
  | ok us =>
    rw [hus] at h
    cases h
    rw [get?_spliceAll, get?_seed] at stored
    obtain ⟨base, seeded, rfl⟩ := Option.map_eq_some_iff.mp stored
    have initial : modelResolver? settings d k = some base := seeded
    have clean : Clean base.request.toList := by
      rw [modelResolver?_request initial]
      exact clean_initialRequest k.kind
    have fields : ∀ x ∈ annotatedOf settings d k.typeName, Readable settings x := by
      intro x hx
      exact readable x (List.mem_of_mem_filter hx)
    have isBlock := blocksOf_sites ⟨settings, .printer indent⟩ k.typeName (sites_ok hus).2
    have marks := isBlock_marks indent root entry fields isBlock
    exact blockFields_intercalate (List.rel_reverse marks) clean

/-- Two types of one name, where an expression has quotes, brackets, most of a marker and a line
break. -/
theorem blockFields_of_transform_same_name :
    let d : Document := ⟨[.type (annotatedModel "title" ".replace('\"', \"## [Start]\")\n"),
      .type (annotatedModel "body" ".trim()")]⟩
    let c : Compiler := ⟨.default, .printer 4⟩
    ∃ report t a, (c.transformIn d).applyTo .empty = (.ok report, t) ∧
      t.get? ⟨"Post", .create⟩ = some a ∧ blockFields a.request = ["body", "title"] := by
  intro d c
  have clean : Clean ".replace('\"', \"## [Start]\")\n".toList := by
    unfold Clean
    decide
  have readable : ∀ x ∈ annotated .default d, Readable .default x := by
    have fields : annotated .default d = [(_, _), (_, _)] := rfl
    rw [fields, List.forall_mem_cons, List.forall_mem_singleton]
    refine ⟨⟨by decide, ?_⟩, by decide, ?_⟩
    · intro u hu a read
      have used : u = _ := List.mem_singleton.mp hu
      subst used
      cases read
      exact clean
    · intro u hu a read
      have used : u = _ := List.mem_singleton.mp hu
      subst used
      cases read
      exact Clean.of_count (by decide)
  obtain ⟨us, allowed⟩ : ∃ us, sites .default d = .ok us := ⟨_, rfl⟩
  have done := c.applyTo_transformIn d .empty
  rw [allowed] at done
  have base : baseResolver? .default d .empty ⟨"Post", .create⟩ =
      some (initialResolver .create "createPost") := rfl
  have stored := get?_spliceAll c us (seed .default d .empty).2 ⟨"Post", .create⟩
  rw [get?_seed, base, Option.map_some] at stored
  refine ⟨_, _, _, done, stored, ?_⟩
  exact blockFields_of_transform 4 d _ _ rfl rfl readable done ⟨"Post", .create⟩ _ stored

end TransformDirective.Compile
