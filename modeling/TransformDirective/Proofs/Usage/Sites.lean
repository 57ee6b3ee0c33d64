import TransformDirective.Proofs.Traversal
import TransformDirective.Proofs.Usage.Fault

namespace TransformDirective.Usage

open TransformDirective.Schema TransformDirective.Config

/-- The fields that carry the directive, with their types and in order. -/
def annotated (settings : Settings) (d : Document) : List (TypeDefinition × Field) :=
  (fieldsOf d).filter fun x => x.2.directivesNamed settings.directiveName ≠ []

/-- The usage that is collected for a field that carries the directive. -/
def IsSite (settings : Settings) (x : TypeDefinition × Field) (u : Site) : Prop :=
  u.parent = x.1 ∧ u.field = x.2 ∧
    ∃ d, x.2.directivesNamed settings.directiveName = [d] ∧ check settings x.1 x.2 d = .ok u.args

/-- What is collected for a field. -/
def Collects (settings : Settings) (x : TypeDefinition × Field) : Option Site → Prop
  | none => x.2.directivesNamed settings.directiveName = []
  | some u => x.2.directivesNamed settings.directiveName ≠ [] ∧ IsSite settings x u

section Field

variable {settings : Settings} {t : TypeDefinition} {f : Field}

theorem name_of_directivesNamed {name : String} {d : Directive}
    (h : f.directivesNamed name = [d]) : d.name = name := by
  have mem : d ∈ f.directivesNamed name := by simp [h]
  simpa [Field.directivesNamed] using (List.mem_filter.mp mem).2

theorem read_of_check {d : Directive} {a : Arguments} (h : check settings t f d = .ok a) :
    Arguments.read d = .ok a := by
  unfold check at h
  dsimp only at h
  split at h
  · cases h
  · split at h
    · cases h
    · split at h
      · cases h
      · split at h
        · cases h
        · cases h
          assumption

/-- What is collected on a field without a fault. -/
theorem siteOf_ok {o : Option Site} (h : siteOf settings t f = .ok o) :
    (∀ r, ¬Fault settings t f r) ∧ Collects settings (t, f) o := by
  unfold siteOf at h
  split at h
  · next none =>
    cases h
    refine ⟨fun r fault => ?_, none⟩
    cases fault with
    | repeated h => simp [none] at h
    | usage d r h _ => simp [none] at h
  · next d one =>
    have faults := check_faults (t := t) (f := f) (name_of_directivesNamed one)
    cases hc : check settings t f d with
    | error e => rw [hc] at h; cases h
    | ok a =>
      rw [hc] at h faults
      cases h
      refine ⟨fun r fault => ?_, by simp [one], rfl, rfl, d, one, hc⟩
      cases fault with
      | repeated h => simp [one] at h
      | usage d' r h fault =>
        obtain rfl : d = d' := by simpa [one] using h
        exact faults r fault
  · cases h

/-- The refusal of a field is for its least fault. -/
theorem siteOf_error {e : Misuse} (h : siteOf settings t f = .error e) :
    ∃ r, Fault settings t f r ∧ (∀ q, Fault settings t f q → rank r ≤ rank q) ∧
      e = refusal settings t f r := by
  unfold siteOf at h
  split at h
  · cases h
  · next d one =>
    have faults := check_faults (t := t) (f := f) (name_of_directivesNamed one)
    cases hc : check settings t f d with
    | ok a => rw [hc] at h; cases h
    | error e' =>
      rw [hc] at h faults
      cases h
      obtain ⟨r, he, fault, least⟩ := faults
      refine ⟨r, .usage d r one fault, fun q hq => ?_, he⟩
      cases hq with
      | repeated h => simp [one] at h
      | usage d' q h fault' =>
        obtain rfl : d = d' := by simpa [one] using h
        exact least q fault'
  · next notNone notOne =>
    cases h
    refine ⟨.repeated, .repeated ?_, fun _ _ => Nat.zero_le _, rfl⟩
    match hl : f.directivesNamed settings.directiveName with
    | [] => exact absurd hl notNone
    | [d] => exact absurd hl (notOne d)
    | _ :: _ :: _ => simp

theorem fault_unique {r q : Reason} (hr : Fault settings t f r) (hq : Fault settings t f q)
    (same : rank r = rank q) : r = q := by
  have positive {d : Directive} {r : Reason} (h : UsageFault settings t f d r) : 0 < rank r := by
    rw [usageFault_iff] at h
    omega
  cases hr with
  | repeated hr =>
    cases hq with
    | repeated => rfl
    | usage d q one fault => simp [one] at hr
  | usage d r one fault =>
    cases hq with
    | repeated hq => simp [one] at hq
    | usage d' q one' fault' =>
      obtain rfl : d = d' := by simpa [one] using one'
      exact usageFault_unique fault fault' same

/-- A field is refused exactly for the least of its faults. -/
theorem siteOf_eq_error_iff (e : Misuse) : siteOf settings t f = .error e ↔
    ∃ r, Fault settings t f r ∧ (∀ q, Fault settings t f q → rank r ≤ rank q) ∧
      e = refusal settings t f r := by
  refine ⟨siteOf_error, ?_⟩
  rintro ⟨r, fault, least, rfl⟩
  cases h : siteOf settings t f with
  | ok o => exact absurd fault ((siteOf_ok h).1 r)
  | error e =>
    obtain ⟨q, fault', least', rfl⟩ := siteOf_error h
    rw [fault_unique fault fault' (Nat.le_antisymm (least q fault') (least' r fault))]

/-- A field is accepted exactly when it has no fault. -/
theorem siteOf_isOk_iff : (∃ o, siteOf settings t f = .ok o) ↔ ∀ r, ¬Fault settings t f r := by
  constructor
  · rintro ⟨o, h⟩
    exact (siteOf_ok h).1
  · intro none
    cases h : siteOf settings t f with
    | ok o => exact ⟨o, rfl⟩
    | error e =>
      obtain ⟨r, fault, -⟩ := siteOf_error h
      exact absurd fault (none r)

end Field

theorem mem_fieldsOf (d : Document) (t : TypeDefinition) (f : Field) :
    (t, f) ∈ fieldsOf d ↔ t ∈ d.types ∧ f ∈ t.fields := by
  simp only [fieldsOf, List.mem_flatMap, List.mem_map, Prod.mk.injEq]
  constructor
  · rintro ⟨t, ht, f, hf, rfl, rfl⟩
    exact ⟨ht, hf⟩
  · rintro ⟨ht, hf⟩
    exact ⟨t, ht, f, hf, rfl, rfl⟩

/-- The first field with a fault is refused, for the least of its faults. -/
theorem sites_eq_error_iff (settings : Settings) (d : Document) (e : Misuse) :
    sites settings d = .error e ↔ FirstFault settings d e := by
  have traversal : sites settings d = .error e ↔
      ((fieldsOf d).mapM fun x => siteOf settings x.1 x.2) = .error e := by
    unfold sites
    cases (fieldsOf d).mapM fun x => siteOf settings x.1 x.2 <;> simp [Except.map]
  rw [traversal, Traversal.mapM_eq_error_iff]
  constructor
  · rintro ⟨front, ⟨t, f⟩, back, split, good, bad⟩
    obtain ⟨r, fault, least, he⟩ := siteOf_error bad
    exact ⟨front, t, f, back, r, split, fun x hx => siteOf_isOk_iff.mp (good x hx), fault, least,
      he⟩
  · rintro ⟨front, t, f, back, r, split, good, fault, least, he⟩
    exact ⟨front, (t, f), back, split, fun x hx => siteOf_isOk_iff.mpr (good x hx),
      (siteOf_eq_error_iff e).mpr ⟨r, fault, least, he⟩⟩

theorem collected {settings : Settings} {xs : List (TypeDefinition × Field)}
    {os : List (Option Site)}
    (h : List.Forall₂ (fun x o => siteOf settings x.1 x.2 = .ok o) xs os) :
    (∀ x ∈ xs, ∀ r, ¬Fault settings x.1 x.2 r) ∧
      List.Forall₂ (IsSite settings)
        (xs.filter fun x => x.2.directivesNamed settings.directiveName ≠ []) (os.filterMap id) := by
  induction h with
  | nil => simp
  | @cons x o xs os hx rest ih =>
    obtain ⟨good, site⟩ := siteOf_ok hx
    refine ⟨List.forall_mem_cons.mpr ⟨good, ih.1⟩, ?_⟩
    cases o with
    | none =>
      rw [List.filter_cons_of_neg (by simpa [Collects] using site), List.filterMap_cons_none rfl]
      exact ih.2
    | some u =>
      have step : (some u :: os).filterMap id = u :: os.filterMap id := rfl
      rw [List.filter_cons_of_pos (by simpa using site.1), step]
      exact .cons site.2 ih.2

/-- One usage is collected for every field that carries the directive. -/
theorem sites_ok {settings : Settings} {d : Document} {us : List Site}
    (h : sites settings d = .ok us) :
    (∀ x ∈ fieldsOf d, ∀ r, ¬Fault settings x.1 x.2 r) ∧
      List.Forall₂ (IsSite settings) (annotated settings d) us := by
  unfold sites at h
  cases hm : (fieldsOf d).mapM fun x => siteOf settings x.1 x.2 with
  | error e => rw [hm] at h; cases h
  | ok os =>
    rw [hm] at h
    cases h
    exact collected ((Traversal.mapM_eq_ok_iff _ _ _).mp hm)

/-- The usages are collected exactly if no field has a fault. -/
theorem sites_isOk_iff (settings : Settings) (d : Document) :
    (∃ us, sites settings d = .ok us) ↔
      ∀ t ∈ d.types, ∀ f ∈ t.fields, ∀ r, ¬Fault settings t f r := by
  constructor
  · rintro ⟨us, h⟩ t ht f hf
    exact (sites_ok h).1 (t, f) ((mem_fieldsOf d t f).mpr ⟨ht, hf⟩)
  · intro good
    cases h : sites settings d with
    | ok us => exact ⟨us, rfl⟩
    | error e =>
      obtain ⟨front, t, f, back, r, split, -, fault, -⟩ := (sites_eq_error_iff settings d e).mp h
      obtain ⟨ht, hf⟩ := (mem_fieldsOf d t f).mp (by simp [split])
      exact absurd fault (good t ht f hf r)

theorem exists_field_of_site {settings : Settings} {xs : List (TypeDefinition × Field)}
    {us : List Site} (h : List.Forall₂ (IsSite settings) xs us) {u : Site} (hu : u ∈ us) :
    ∃ x ∈ xs, IsSite settings x u := by
  induction h with
  | nil => cases hu
  | @cons x v xs us site rest ih =>
    rcases List.mem_cons.mp hu with rfl | hu
    · exact ⟨x, by simp, site⟩
    · obtain ⟨y, hy, site'⟩ := ih hu
      exact ⟨y, by simp [hy], site'⟩

theorem parent_mem_types {settings : Settings} {d : Document} {us : List Site}
    (h : sites settings d = .ok us) {u : Site} (hu : u ∈ us) : u.parent ∈ d.types := by
  obtain ⟨⟨t, f⟩, hx, parent, -⟩ := exists_field_of_site (sites_ok h).2 hu
  rw [parent]
  exact ((mem_fieldsOf d t f).mp (List.mem_filter.mp hx).1).1

end TransformDirective.Usage
