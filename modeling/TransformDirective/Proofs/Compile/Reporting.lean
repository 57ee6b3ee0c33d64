import TransformDirective.Proofs.Compile.Effect
import TransformDirective.Proofs.Compile.Independence

namespace TransformDirective.Compile

open TransformDirective.Config TransformDirective.Resolver TransformDirective.Schema
open TransformDirective.Usage

/-- The type definition gives a resolver for the key. -/
def Enables (settings : Settings) (u : TypeDefinition) (k : Key) : Prop :=
  u.name = k.typeName ∧ (typeResolver? settings u k.kind).isSome

instance (settings : Settings) (u : TypeDefinition) (k : Key) :
    Decidable (Enables settings u k) :=
  inferInstanceAs (Decidable (_ ∧ _))

/-- How many definitions stand in front of the first one that enables the key. -/
def enabledAt (settings : Settings) (us : List TypeDefinition) (k : Key) : Nat :=
  us.findIdx (Enables settings · k)

/-- The order by the first enabling definition, creation in front of update. -/
def Precedes (settings : Settings) (us : List TypeDefinition) (k l : Key) : Prop :=
  enabledAt settings us k < enabledAt settings us l ∨
    enabledAt settings us k = enabledAt settings us l ∧ k.kind = .create ∧ l.kind = .update

/-- A splice for the usage on a field tells which keys of the type a store has, and which not. -/
structure Describes (c : Compiler) (t : Store) (x : TypeDefinition × Field) (r : Splice) :
    Prop where
  block : IsBlock c x r.block
  rearranged : (r.updated ++ r.skipped).Perm (Key.ofType x.1.name)
  updated : r.updated = (Key.ofType x.1.name).filter (t.contains ·)
  skipped : r.skipped = (Key.ofType x.1.name).filter (!t.contains ·)

/-- The report tells how a transform led from one store to another. -/
structure Accounts (c : Compiler) (d : Document) (s t : Store) (report : Report) : Prop where
  distinct : report.seeded.Nodup
  added : ∀ k, k ∈ report.seeded ↔ t.contains k ∧ ¬s.contains k
  ids : ∀ id, id ∈ t.ids ↔ id ∈ s.ids ∨ ∃ k ∈ report.seeded, k.id = id
  enabled : ∀ k ∈ report.seeded, ∃ u ∈ d.types, Enables c.settings u k
  ordered : report.seeded.Pairwise (Precedes c.settings d.types)
  splices : List.Forall₂ (Describes c t) (annotated c.settings d) report.splices
  alike : ∀ x r y q, (x, r) ∈ (annotated c.settings d).zip report.splices →
    (y, q) ∈ (annotated c.settings d).zip report.splices → x.1.name = y.1.name →
    r.updated = q.updated ∧ r.skipped = q.skipped

section Added

variable (es : List (Key × Artifact)) (s : Store)

theorem contains_set (k l : Key) (a : Artifact) :
    (s.set k a).contains l ↔ l = k ∨ s.contains l := by
  unfold Store.contains
  rw [Store.get?_set]
  by_cases here : l = k <;> simp [here]

/-- The keys that are added are those that the store lacks. -/
theorem mem_addAbsent (k : Key) :
    k ∈ (addAbsent es s).1 ↔ ¬s.contains k ∧ ∃ e ∈ es, e.1 = k := by
  induction es generalizing s with
  | nil => simp [addAbsent]
  | cons e es ih =>
    rw [addAbsent]
    by_cases present : s.contains e.1 = true
    · rw [if_pos present, ih]
      by_cases here : e.1 = k
      · simp [← here, present]
      · simp [here]
    · rw [if_neg present, List.mem_cons, ih, contains_set]
      by_cases here : e.1 = k
      · simp [← here, present]
      · simp [here, Ne.symm here]

/-- No key is added twice, since it is in the store behind the first time. -/
theorem nodup_addAbsent : (addAbsent es s).1.Nodup := by
  induction es generalizing s with
  | nil => exact List.nodup_nil
  | cons e es ih =>
    rw [addAbsent]
    by_cases present : s.contains e.1 = true
    · rw [if_pos present]
      exact ih s
    · rw [if_neg present]
      refine List.nodup_cons.mpr ⟨fun again => ?_, ih _⟩
      have absent := ((mem_addAbsent es _ _).mp again).1
      exact absent ((contains_set s _ _ _).mpr (.inl rfl))

theorem addAbsent_sublist : (addAbsent es s).1.Sublist (es.map (·.1)) := by
  induction es generalizing s with
  | nil => exact .slnil
  | cons e es ih =>
    rw [addAbsent, List.map_cons]
    by_cases present : s.contains e.1 = true
    · rw [if_pos present]
      exact (ih s).cons _
    · rw [if_neg present]
      exact (ih _).cons_cons _

/-- An identifier is in the store afterwards if it was before or belongs to an added key. -/
theorem mem_ids_addAbsent (id : String) :
    id ∈ (addAbsent es s).2.ids ↔ id ∈ s.ids ∨ ∃ k ∈ (addAbsent es s).1, k.id = id := by
  rw [Store.mem_ids, Store.mem_ids, find?_addAbsent, Option.isSome_or, Bool.or_eq_true,
    Option.isSome_map, List.find?_isSome]
  refine or_congr_right' fun absent => ?_
  constructor
  · rintro ⟨e, he, same⟩
    obtain rfl := of_decide_eq_true same
    exact ⟨e.1, (mem_addAbsent es s _).mpr ⟨absent, e, he, rfl⟩, rfl⟩
  · rintro ⟨k, hk, rfl⟩
    obtain ⟨-, e, he, rfl⟩ := (mem_addAbsent es s k).mp hk
    exact ⟨e, he, decide_eq_true rfl⟩

theorem contains_iff_mem_ids (k : Key) : s.contains k ↔ k.id ∈ s.ids :=
  (Store.mem_ids s k.id).symm

theorem contains_addAbsent (k : Key) :
    (addAbsent es s).2.contains k ↔ s.contains k ∨ k ∈ (addAbsent es s).1 := by
  rw [contains_iff_mem_ids, contains_iff_mem_ids, mem_ids_addAbsent]
  simp only [Key.id_inj, exists_eq_right]

end Added

section Order

variable (settings : Settings)

theorem mem_resolversOfType (u : TypeDefinition) (k : Key) :
    (∃ e ∈ resolversOfType settings u, e.1 = k) ↔ Enables settings u k := by
  have found := congrArg Option.isSome (find?_resolversOfType settings u k)
  rw [Option.isSome_map] at found
  have listed : (∃ e ∈ resolversOfType settings u, e.1 = k) ↔
      ((resolversOfType settings u).find? (·.1 = k)).isSome := by
    simp [List.find?_isSome]
  rw [listed, found, Enables]
  by_cases same : u.name = k.typeName <;> simp [same]

theorem enables_of_added {u : TypeDefinition} {s : Store} {k : Key}
    (h : k ∈ (addAbsent (resolversOfType settings u) s).1) : Enables settings u k :=
  (mem_resolversOfType settings u k).mp ((mem_addAbsent _ s k).mp h).2

theorem resolversOfType_sublist (u : TypeDefinition) :
    ((resolversOfType settings u).map (·.1)).Sublist (Key.ofType u.name) := by
  unfold resolversOfType
  split
  · next model _ _ =>
    cases hc : mutationField? (model.argument? "mutations") u.name .create <;>
      cases hu : mutationField? (model.argument? "mutations") u.name .update <;>
      simp [Kind.all, Key.ofType, hc, hu]
  · exact List.nil_sublist _

theorem enabledAt_cons_of_enables {u : TypeDefinition} {k : Key} (h : Enables settings u k)
    (us : List TypeDefinition) : enabledAt settings (u :: us) k = 0 := by
  simp [enabledAt, List.findIdx_cons, h]

theorem enabledAt_cons_of_not {u : TypeDefinition} {k : Key} (h : ¬Enables settings u k)
    (us : List TypeDefinition) :
    enabledAt settings (u :: us) k = enabledAt settings us k + 1 := by
  simp [enabledAt, List.findIdx_cons, h]

/-- A definition adds its keys in order. -/
theorem pairwise_addAbsent_type (u : TypeDefinition) (us : List TypeDefinition) (s : Store) :
    (addAbsent (resolversOfType settings u) s).1.Pairwise (Precedes settings (u :: us)) := by
  have kinds : (Key.ofType u.name).Pairwise fun k l => k.kind = .create ∧ l.kind = .update := by
    simp [Key.ofType, Kind.all]
  have shorter := (addAbsent_sublist (resolversOfType settings u) s).trans
    (resolversOfType_sublist settings u)
  refine (kinds.sublist shorter).imp_of_mem fun {k l} hk hl kinds => .inr ⟨?_, kinds⟩
  have first := enables_of_added settings hk
  have second := enables_of_added settings hl
  rw [enabledAt_cons_of_enables settings first, enabledAt_cons_of_enables settings second]

/-- The keys are added in the order of the definitions that enable them. What a definition enables
is in the store by then, so those behind it do not add it again. -/
theorem pairwise_addAbsent (us : List TypeDefinition) (s : Store) :
    (addAbsent (us.flatMap (resolversOfType settings)) s).1.Pairwise (Precedes settings us) := by
  induction us generalizing s with
  | nil => exact .nil
  | cons u us ih =>
    rw [List.flatMap_cons, addAbsent_append]
    let own := addAbsent (resolversOfType settings u) s
    have later : ∀ k ∈ (addAbsent (us.flatMap (resolversOfType settings)) own.2).1,
        ¬Enables settings u k := by
      intro k hk enables
      have absent := ((mem_addAbsent _ own.2 k).mp hk).1
      rw [contains_addAbsent, mem_addAbsent, mem_resolversOfType] at absent
      tauto
    refine List.pairwise_append.mpr ⟨pairwise_addAbsent_type settings u us s,
      (ih own.2).imp_of_mem fun {k l} hk hl before => ?_, fun k hk l hl => ?_⟩
    · unfold Precedes at before ⊢
      rw [enabledAt_cons_of_not settings (later k hk), enabledAt_cons_of_not settings (later l hl)]
      exact before.imp Nat.succ_lt_succ fun ⟨same, kinds⟩ => ⟨congrArg (· + 1) same, kinds⟩
    · have enables := enables_of_added settings hk
      refine .inl ?_
      rw [enabledAt_cons_of_enables settings enables, enabledAt_cons_of_not settings (later l hl)]
      omega

/-- The keys that are added are those that the store lacks and a definition enables. -/
theorem mem_seed (d : Document) (s : Store) (k : Key) :
    k ∈ (seed settings d s).1 ↔ ¬s.contains k ∧ ∃ u ∈ d.types, Enables settings u k := by
  have listed : (∃ e ∈ modelResolvers settings d, e.1 = k) ↔
      ∃ u ∈ d.types, Enables settings u k := by
    simp only [modelResolvers, List.mem_flatMap, ← mem_resolversOfType]
    constructor
    · rintro ⟨e, ⟨u, hu, he⟩, same⟩
      exact ⟨u, hu, e, he, same⟩
    · rintro ⟨u, hu, e, he, same⟩
      exact ⟨e, ⟨u, hu, he⟩, same⟩
  rw [seed, mem_addAbsent, listed]

end Order

section Splices

variable (c : Compiler)

/-- Splicing neither adds nor removes a key, so the presence that is seen at each splice is the
final one. -/
theorem contains_spliceAll (us : List Site) (s : Store) (k : Key) :
    (c.spliceAll us s).2.contains k = s.contains k := by
  unfold Store.contains
  rw [get?_spliceAll, Option.isSome_map]

theorem ids_spliceAll (us : List Site) (s : Store) : (c.spliceAll us s).2.ids = s.ids := by
  induction us generalizing s with
  | nil => rfl
  | cons u us ih => exact (ih _).trans (ids_splice s _ _)

/-- Each splice answers as if it were done alone on the store that all of them start from. -/
theorem spliceAll_answers (us : List Site) (s : Store) :
    (c.spliceAll us s).1 =
      us.map fun u => (splice u.parent.name (c.block u.field.name u.args) s).1 := by
  induction us generalizing s with
  | nil => rfl
  | cons u us ih =>
    rw [Compiler.spliceAll, List.map_cons, ih]
    refine congrArg (_ :: ·) (List.map_congr_left fun v _ => splice_answer _ fun kind => ?_)
    exact contains_splice _ _ s _

/-- A splice names the keys of its type that the store has, and the block of its usage. -/
theorem describes_splice {x : TypeDefinition × Field} {u : Site} (site : IsSite c.settings x u)
    {s t : Store} (same : ∀ k, t.contains k = s.contains k) :
    Describes c t x (splice u.parent.name (c.block u.field.name u.args) s).1 := by
  obtain ⟨parent, field, d, one, checked⟩ := site
  have present : t.contains = s.contains := funext same
  refine ⟨⟨d, u.args, one, read_of_check checked, by rw [field]; rfl⟩, ?_, ?_, ?_⟩
  · rw [← parent]
    exact List.filter_append_perm _ _
  · rw [← parent, present]
    rfl
  · rw [← parent, present]
    rfl

theorem Describes.alike {t : Store} {x y : TypeDefinition × Field} {r q : Splice}
    (hr : Describes c t x r) (hq : Describes c t y q) (same : x.1.name = y.1.name) :
    r.updated = q.updated ∧ r.skipped = q.skipped := by
  rw [hr.updated, hq.updated, hr.skipped, hq.skipped, same]
  exact ⟨rfl, rfl⟩

end Splices

/-- A transform that succeeds seeds the store and then splices all usages. -/
theorem transformIn_ok {c : Compiler} {d : Document} {s t : Store} {report : Report}
    (h : (c.transformIn d).applyTo s = (.ok report, t)) :
    ∃ us, sites c.settings d = .ok us ∧
      report = ⟨(seed c.settings d s).1, (c.spliceAll us (seed c.settings d s).2).1⟩ ∧
      t = (c.spliceAll us (seed c.settings d s).2).2 := by
  cases found : sites c.settings d with
  | error e =>
    rw [transformIn_error_of_sites c found] at h
    cases h
  | ok us =>
    rw [transformIn_of_sites c found] at h
    cases h
    exact ⟨us, rfl, rfl, rfl⟩

/-- The report of a transform tells what happened to the store. -/
theorem transformIn_accounts (c : Compiler) (d : Document) (s t : Store) (report : Report)
    (h : (c.transformIn d).applyTo s = (.ok report, t)) : Accounts c d s t report := by
  obtain ⟨us, found, rfl, rfl⟩ := transformIn_ok h
  have present := contains_spliceAll c us (seed c.settings d s).2
  have described : List.Forall₂ (Describes c (c.spliceAll us (seed c.settings d s).2).2)
      (annotated c.settings d) (c.spliceAll us (seed c.settings d s).2).1 := by
    rw [spliceAll_answers, List.forall₂_map_right_iff]
    exact (sites_ok found).2.imp fun x u site => describes_splice c site present
  refine {
    distinct := nodup_addAbsent _ s
    added := fun k => ?_
    ids := fun id => ?_
    enabled := fun k hk => ((mem_seed c.settings d s k).mp hk).2
    ordered := pairwise_addAbsent c.settings d.types s
    splices := described
    alike := fun x r y q hr hq => ?_ }
  · have absent : k ∈ (seed c.settings d s).1 → ¬s.contains k := fun hk =>
      ((mem_seed c.settings d s k).mp hk).1
    have reached := contains_addAbsent (modelResolvers c.settings d) s k
    rw [present, seed, reached, ← seed]
    tauto
  · rw [ids_spliceAll]
    exact mem_ids_addAbsent _ s id
  · exact (List.forall₂_zip described hr).alike c (List.forall₂_zip described hq)

/-- A key that only the last of three definitions enables comes last, and one that is there before
is not listed. -/
theorem transformIn_accounts_three_types :
    let c := Compiler.ofSettings .default
    let span := .atCursor .start
    let again := annotatedModel "body" ".trim()"
    let first := { annotatedModel "title" ".trim()" with
      directives := [⟨"model", [⟨"mutations", .object [("create", .null)], span⟩], span⟩] }
    let d : Document := ⟨[.type first, .type { again with name := "Note" }, .type again]⟩
    let s := Store.empty.set ⟨"Note", .update⟩ (Artifact.ofRequest "Mutation" "editNote" "CUSTOM")
    ∃ report t, (c.transformIn d).applyTo s = (.ok report, t) ∧
      report.seeded = [⟨"Post", .update⟩, ⟨"Note", .create⟩, ⟨"Post", .create⟩] ∧
      Accounts c d s t report := by
  intro c span again first d s
  have run := transformIn_of_sites c (d := d) rfl s
  have seeded : (seed c.settings d s).1 =
      [⟨"Post", .update⟩, ⟨"Note", .create⟩, ⟨"Post", .create⟩] := by decide
  exact ⟨_, _, run, seeded, transformIn_accounts c d s _ _ run⟩

end TransformDirective.Compile
