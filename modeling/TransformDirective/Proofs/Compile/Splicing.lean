import TransformDirective.Compile.Transform
import TransformDirective.Proofs.Compile.Seeding

namespace TransformDirective.Compile

open TransformDirective.Config TransformDirective.Resolver TransformDirective.Schema
open TransformDirective.Usage

/-- The resolver with blocks in front of its request template, the last block first and a blank
line behind each. -/
def stacked (blocks : List String) (a : Artifact) : Artifact :=
  { a with request := "\n\n".intercalate (blocks.reverse ++ [a.request]) }

theorem stacked_nil (a : Artifact) : stacked [] a = a := by
  simp [stacked]

theorem intercalate_append_pair (front : List String) (sep b r : String) :
    sep.intercalate (front ++ [b, r]) = sep.intercalate (front ++ [b ++ sep ++ r]) := by
  have pair : sep.intercalate [b, r] = b ++ sep ++ r := by
    rw [String.intercalate_cons_cons, String.intercalate_singleton]
  cases front with
  | nil => simp
  | cons c cs =>
    have some : c :: cs ≠ [] := by simp
    rw [String.intercalate_append_of_ne_nil some (by simp),
      String.intercalate_append_of_ne_nil some (by simp), pair, String.intercalate_singleton]

/-- The blocks behind the first one stand in front of it. -/
theorem stacked_cons (b : String) (bs : List String) (a : Artifact) :
    stacked (b :: bs) a = stacked bs (a.prepend b) := by
  have blocks : (b :: bs).reverse ++ [a.request] = bs.reverse ++ [b, a.request] := by simp
  unfold stacked Artifact.prepend
  rw [blocks, intercalate_append_pair]

theorem find?_modify (s : Store) (k : Key) (f : Artifact → Artifact) (x : String) :
    (s.modify k f).find? x = if x = k.id then (s.find? x).map f else s.find? x := by
  unfold Store.modify Store.get?
  split
  · next a ha =>
    rw [Store.set, Store.find?_insert]
    by_cases here : x = k.id <;> simp [here, ha]
  · next ha =>
    by_cases here : x = k.id <;> simp [here, ha]

/-- A splice puts its block in front of the templates of its type only. -/
theorem get?_splice (typeName block : String) (s : Store) (k : Key) :
    (splice typeName block s).2.get? k =
      if k.typeName = typeName then (s.get? k).map (·.prepend block) else s.get? k := by
  obtain ⟨name, kind⟩ := k
  simp only [splice, Key.ofType, Kind.all, List.map_cons, List.map_nil, List.foldl_cons,
    List.foldl_nil, Store.get?_modify, Key.mk.injEq]
  by_cases same : name = typeName
  · subst same
    cases kind <;> simp
  · simp [same]

theorem contains_splice (typeName block : String) (s : Store) (k : Key) :
    (splice typeName block s).2.contains k = s.contains k := by
  unfold Store.contains
  rw [get?_splice]
  by_cases same : k.typeName = typeName <;> simp [same]

/-- The answer of a splice only depends on which keys of the type are there. -/
theorem splice_answer {typeName : String} (block : String) {s t : Store}
    (h : ∀ kind, s.contains ⟨typeName, kind⟩ = t.contains ⟨typeName, kind⟩) :
    (splice typeName block s).1 = (splice typeName block t).1 := by
  have same : ∀ k ∈ Key.ofType typeName, s.contains k = t.contains k := by
    intro k hk
    obtain ⟨kind, -, rfl⟩ := List.mem_map.mp hk
    exact h kind
  have updated : (Key.ofType typeName).filter s.contains =
      (Key.ofType typeName).filter t.contains := List.filter_congr same
  have skipped : (Key.ofType typeName).filter (fun k => !s.contains k) =
      (Key.ofType typeName).filter fun k => !t.contains k :=
    List.filter_congr fun k hk => congrArg (!·) (same k hk)
  simp only [splice, updated, skipped]

theorem find?_splice (typeName block : String) (s : Store) (x : String)
    (foreign : ∀ k, x ≠ Key.id ⟨typeName, k⟩) :
    (splice typeName block s).2.find? x = s.find? x := by
  simp only [splice, Key.ofType, Kind.all, List.map_cons, List.map_nil, List.foldl_cons,
    List.foldl_nil, find?_modify, if_neg (foreign _)]

/-- The blocks of the usages on the types with a name, in order. -/
def blocksOf (c : Compiler) (typeName : String) (us : List Site) : List String :=
  (us.filter (·.parent.name = typeName)).map fun u => c.block u.field.name u.args

/-- The blocks of the usages on a type stand in front of the template that was there, the last one
first. -/
theorem get?_spliceAll (c : Compiler) (us : List Site) (s : Store) (k : Key) :
    (c.spliceAll us s).2.get? k = (s.get? k).map (stacked (blocksOf c k.typeName us)) := by
  induction us generalizing s with
  | nil => simp [Compiler.spliceAll, blocksOf, funext stacked_nil]
  | cons u us ih =>
    have step : (c.spliceAll (u :: us) s).2 =
        (c.spliceAll us (splice u.parent.name (c.block u.field.name u.args) s).2).2 := rfl
    rw [step, ih, get?_splice]
    by_cases same : u.parent.name = k.typeName
    · have blocks : blocksOf c k.typeName (u :: us) =
          c.block u.field.name u.args :: blocksOf c k.typeName us := by
        simp [blocksOf, same]
      rw [if_pos same.symm, Option.map_map, blocks]
      exact congrArg (Option.map · (s.get? k)) (funext fun a => (stacked_cons _ _ a).symm)
    · have blocks : blocksOf c k.typeName (u :: us) = blocksOf c k.typeName us := by
        simp [blocksOf, same]
      rw [if_neg (Ne.symm same), blocks]

/-- Splicing leaves everything alone that does not belong to a type with a usage. -/
theorem find?_spliceAll (c : Compiler) (us : List Site) (s : Store) (x : String)
    (foreign : ∀ u ∈ us, ∀ k, x ≠ Key.id ⟨u.parent.name, k⟩) :
    (c.spliceAll us s).2.find? x = s.find? x := by
  induction us generalizing s with
  | nil => rfl
  | cons u us ih =>
    have step : (c.spliceAll (u :: us) s).2 =
        (c.spliceAll us (splice u.parent.name (c.block u.field.name u.args) s).2).2 := rfl
    rw [step, ih _ fun v hv => foreign v (by simp [hv]), find?_splice _ _ _ _ (foreign u (by simp))]

end TransformDirective.Compile
