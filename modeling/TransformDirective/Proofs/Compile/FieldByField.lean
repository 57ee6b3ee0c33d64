import TransformDirective.Proofs.Compile.Calls
import TransformDirective.Proofs.Usage.Sites

namespace TransformDirective.Compile

open TransformDirective.Config TransformDirective.Resolver TransformDirective.Schema
open TransformDirective.Usage

/-- The call for a field that carries the directive, with the first one on it. -/
def callFor? (settings : Settings) (x : TypeDefinition × Field) : Option Call :=
  (x.2.directive? settings.directiveName).map fun d => ⟨x.1, x.2, d⟩

/-- One call for every field that carries the directive, in order. -/
def callsFor (settings : Settings) (xs : List (TypeDefinition × Field)) : List Call :=
  xs.filterMap (callFor? settings)

/-- The call on the place of a usage that is allowed with the usage's arguments. -/
def Allows (settings : Settings) (x : Call) (u : Site) : Prop :=
  u.parent = x.parent ∧ u.field = x.field ∧
    check settings x.parent x.field x.directive = .ok u.args

section Field

variable {settings : Settings} {x : TypeDefinition × Field}

theorem directive?_eq_head? (f : Field) (name : String) :
    f.directive? name = (f.directivesNamed name).head? := by
  rw [Field.directive?, findDirective?, Field.directivesNamed, List.head?_filter]

theorem callFor?_eq_none (h : x.2.directivesNamed settings.directiveName = []) :
    callFor? settings x = none := by
  rw [callFor?, directive?_eq_head?, h]
  rfl

theorem callFor?_eq_some {d : Directive} {ds : List Directive}
    (h : x.2.directivesNamed settings.directiveName = d :: ds) :
    callFor? settings x = some ⟨x.1, x.2, d⟩ := by
  rw [callFor?, directive?_eq_head?, h]
  rfl

/-- A field without a refused usage is called for exactly if a usage is collected on it. -/
theorem callsFor_siteOf {o : Option Site} (h : siteOf settings x.1 x.2 = .ok o) :
    List.Forall₂ (Allows settings) (callFor? settings x).toList o.toList := by
  have collects := (siteOf_ok h).2
  cases o with
  | none =>
    rw [callFor?_eq_none collects]
    exact .nil
  | some u =>
    obtain ⟨-, parent, field, d, one, checked⟩ := collects
    rw [callFor?_eq_some one]
    exact .cons ⟨parent, field, checked⟩ .nil

/-- The refusal of a field with one usage is the refusal of its call. -/
theorem call_of_siteOf_error {e : Misuse}
    (once : (x.2.directivesNamed settings.directiveName).length ≤ 1)
    (h : siteOf settings x.1 x.2 = .error e) :
    ∃ d, callFor? settings x = some ⟨x.1, x.2, d⟩ ∧ check settings x.1 x.2 d = .error e := by
  unfold siteOf at h
  match hds : x.2.directivesNamed settings.directiveName with
  | [] =>
    rw [hds] at h
    cases h
  | [d] =>
    rw [hds] at h
    refine ⟨d, callFor?_eq_some hds, ?_⟩
    cases checked : check settings x.1 x.2 d with
    | ok a =>
      simp only [checked] at h
      cases h
    | error e' =>
      simp only [checked] at h
      cases h
      rfl
  | d :: d' :: ds =>
    rw [hds] at once
    simp at once

end Field

theorem callsFor_cons (settings : Settings) (x : TypeDefinition × Field)
    (xs : List (TypeDefinition × Field)) :
    callsFor settings (x :: xs) = (callFor? settings x).toList ++ callsFor settings xs := by
  cases h : callFor? settings x <;> simp [callsFor, h]

/-- The calls for fields without a refused usage are the collected usages, one by one. -/
theorem callsFor_allows {settings : Settings} {xs : List (TypeDefinition × Field)}
    {os : List (Option Site)}
    (h : List.Forall₂ (fun x o => siteOf settings x.1 x.2 = .ok o) xs os) :
    List.Forall₂ (Allows settings) (callsFor settings xs) (os.filterMap id) := by
  induction h with
  | nil => exact .nil
  | @cons x o xs os here rest ih =>
    have split : (o :: os).filterMap id = o.toList ++ os.filterMap id := by
      cases o <;> rfl
    rw [callsFor_cons, split]
    exact List.rel_append (callsFor_siteOf here) ih

theorem callsFor_append (settings : Settings) (xs ys : List (TypeDefinition × Field)) :
    callsFor settings (xs ++ ys) = callsFor settings xs ++ callsFor settings ys :=
  List.filterMap_append

/-- Where no field is refused, the usages of all of them are collected. -/
theorem exists_siteOf {settings : Settings} {xs : List (TypeDefinition × Field)}
    (good : ∀ x ∈ xs, ∃ o, siteOf settings x.1 x.2 = .ok o) :
    ∃ os, List.Forall₂ (fun x o => siteOf settings x.1 x.2 = .ok o) xs os := by
  induction xs with
  | nil => exact ⟨[], .nil⟩
  | cons x xs ih =>
    obtain ⟨o, here⟩ := good x List.mem_cons_self
    obtain ⟨os, rest⟩ := ih fun y hy => good y (List.mem_cons_of_mem x hy)
    exact ⟨o :: os, .cons here rest⟩

/-- Calls that are allowed do what splicing the usages does. -/
theorem run_eq_spliceAll (c : Compiler) {xs : List Call} {us : List Site}
    (h : List.Forall₂ (Allows c.settings) xs us) (s : Store) :
    c.run xs s = ((c.spliceAll us s).1.map .ok, (c.spliceAll us s).2) := by
  induction h generalizing s with
  | nil => rfl
  | @cons x u xs us here rest ih =>
    obtain ⟨parent, field, checked⟩ := here
    have called := call_ok c x s checked
    rw [← parent, ← field] at called
    rw [Compiler.run, called, ih]
    rfl

/-- Where the first refused field carries the directive once, its call is the first refused one. -/
theorem run_of_refused (c : Compiler) {front : List (TypeDefinition × Field)}
    {x : TypeDefinition × Field} {e : Misuse}
    (good : ∀ y ∈ front, ∃ o, siteOf c.settings y.1 y.2 = .ok o)
    (once : (x.2.directivesNamed c.settings.directiveName).length ≤ 1)
    (bad : siteOf c.settings x.1 x.2 = .error e) (back : List (TypeDefinition × Field))
    (s : Store) :
    ∃ (splices : List Splice) (answers : List (Except Misuse Splice)),
      (c.run (callsFor c.settings (front ++ x :: back)) s).1 =
        splices.map .ok ++ .error e :: answers := by
  obtain ⟨os, sites⟩ := exists_siteOf good
  obtain ⟨d, call, refused⟩ := call_of_siteOf_error once bad
  have calls : callsFor c.settings (front ++ x :: back) =
      callsFor c.settings front ++ ⟨x.1, x.2, d⟩ :: callsFor c.settings back := by
    rw [callsFor_append, callsFor_cons, call]
    rfl
  have before := run_eq_spliceAll c (callsFor_allows sites) s
  have here := call_error c ⟨x.1, x.2, d⟩ (c.spliceAll (os.filterMap id) s).2 refused
  rw [calls, run_append, before, Compiler.run, here]
  exact ⟨_, _, rfl⟩

/-- Transforming a document as a whole is seeding it and then calling for every field that carries
the directive; where no field carries it twice, a refused transform has the error of the first
refused call. -/
theorem transformIn_field_by_field (c : Compiler) (d : Document) (s : Store) :
    let seeded := seed c.settings d s
    let calls := c.run (callsFor c.settings (fieldsOf d)) seeded.2
    (∀ report t, (c.transformIn d).applyTo s = (.ok report, t) →
      report.seeded = seeded.1 ∧ calls = (report.splices.map .ok, t)) ∧
    ∀ e, (∀ x ∈ fieldsOf d, (x.2.directivesNamed c.settings.directiveName).length ≤ 1) →
      ((c.transformIn d).applyTo s).1 = .error e →
      ∃ (splices : List Splice) (answers : List (Except Misuse Splice)),
        calls.1 = splices.map .ok ++ .error e :: answers := by
  intro seeded calls
  rw [Compiler.applyTo_transformIn]
  cases collected : (fieldsOf d).mapM fun x => siteOf c.settings x.1 x.2 with
  | ok os =>
    have found : sites c.settings d = .ok (os.filterMap id) := by
      rw [sites, collected]
      rfl
    have allowed := callsFor_allows ((Traversal.mapM_eq_ok_iff _ _ _).mp collected)
    have spliced := run_eq_spliceAll c allowed seeded.2
    rw [found]
    refine ⟨fun report t h => ?_, fun e _ h => ?_⟩
    · cases h
      exact ⟨rfl, spliced⟩
    · cases h
  | error e =>
    have found : sites c.settings d = .error e := by
      rw [sites, collected]
      rfl
    rw [found]
    refine ⟨fun report t h => ?_, fun e' once h => ?_⟩
    · cases h
    · cases h
      obtain ⟨front, x, back, split, good, bad⟩ :=
        (Traversal.mapM_eq_error_iff _ _ _).mp collected
      have single := once x (by simp [split])
      have refused := run_of_refused c good single bad back seeded.2
      rw [← split] at refused
      exact refused

/-- Two types, where both usages are allowed, and where the second one is refused. -/
theorem transformIn_field_by_field_two_types :
    let c := Compiler.ofSettings .default
    let trim := [⟨"expression", .string ".trim()", .atCursor .start⟩]
    let post := (modelCall "Post" "title" trim).parent
    let allowed : Document := ⟨[.type post, .type (modelCall "Note" "text" trim).parent]⟩
    let refused : Document := ⟨[.type post, .type (modelCall "Note" "text" []).parent]⟩
    let calls (d : Document) :=
      c.run (callsFor c.settings (fieldsOf d)) (seed c.settings d .empty).2
    let missing : Misuse := ⟨"transform", "Note", "text", .arguments (.missing "expression")⟩
    (∃ report t, (c.transformIn allowed).applyTo .empty = (.ok report, t) ∧
      report.splices.length = 2 ∧ calls allowed = (report.splices.map .ok, t)) ∧
    ((c.transformIn refused).applyTo .empty).1 = .error missing ∧
    ∃ (splices : List Splice) (answers : List (Except Misuse Splice)),
      (calls refused).1 = splices.map .ok ++ .error missing :: answers := by
  intro c trim post allowed refused calls missing
  obtain ⟨equal, -⟩ := transformIn_field_by_field c allowed .empty
  obtain ⟨-, first⟩ := transformIn_field_by_field c refused .empty
  have once : ∀ x ∈ fieldsOf refused,
      (x.2.directivesNamed c.settings.directiveName).length ≤ 1 := by
    intro x hx
    have fields : fieldsOf refused = [(post, _), ((modelCall "Note" "text" []).parent, _)] := rfl
    rw [fields] at hx
    rcases List.mem_pair.mp hx with rfl | rfl <;> exact Nat.le_refl 1
  have missed : ((c.transformIn refused).applyTo .empty).1 = .error missing := rfl
  exact ⟨⟨_, _, rfl, rfl, (equal _ _ rfl).2⟩, missed, first missing once missed⟩

end TransformDirective.Compile
