import Mathlib.Data.Finmap
import TransformDirective.Resolver.Store

namespace TransformDirective.Resolver

/-- What can be done to a store or asked of it. `get` asks for a copy of a resolver, and `resolver`
for the one that is stored. -/
inductive Operation where
  | set (k : Key) (a : Artifact)
  | remove (k : Key)
  | get (k : Key)
  | resolver (k : Key)
  | contains (k : Key)
  | len

inductive Answer where
  | done
  | resolver (a : Option Artifact)
  | present (b : Bool)
  | count (n : Nat)
  deriving DecidableEq

/-- A way to keep resolvers by key. Removing a key tells what was there. -/
structure Keeper (σ : Type) where
  set : σ → Key → Artifact → σ
  remove : σ → Key → Option Artifact × σ
  get? : σ → Key → Option Artifact
  contains : σ → Key → Bool
  size : σ → Nat

namespace Keeper

variable {σ : Type} (K : Keeper σ)

/-- The answer to an operation, and what is kept behind it. -/
def perform (s : σ) : Operation → Answer × σ
  | .set k a => (.done, K.set s k a)
  | .remove k => (.resolver (K.remove s k).1, (K.remove s k).2)
  | .get k => (.resolver (K.get? s k), s)
  | .resolver k => (.resolver (K.get? s k), s)
  | .contains k => (.present (K.contains s k), s)
  | .len => (.count (K.size s), s)

/-- The answers to operations in order, and what is kept behind them. -/
def run (s : σ) : List Operation → List Answer × σ
  | [] => ([], s)
  | op :: ops =>
    let r := K.perform s op
    let rs := run r.2 ops
    (r.1 :: rs.1, rs.2)

end Keeper

def Store.keeper : Keeper Store where
  set := set
  remove s k := (s.get? k, s.remove k)
  get? := get?
  contains := contains
  size := size

abbrev KeyMap : Type := Finmap fun _ : Key => Artifact

def KeyMap.keeper : Keeper KeyMap where
  set m k a := m.insert k a
  remove m k := m.extract k
  get? m k := m.lookup k
  contains m k := k ∈ m
  size m := m.keys.card

section Refinement

/-- The store holds what the map holds, and nothing under an identifier of no key. -/
structure Represents (s : Store) (m : KeyMap) : Prop where
  get? : ∀ k, s.get? k = m.lookup k
  known : ∀ x ∈ s.ids, ∃ k : Key, x = k.id

variable {s : Store} {m : KeyMap}

theorem Represents.empty : Represents .empty ∅ := by
  constructor
  · intro k
    rw [Finmap.lookup_empty]
    rfl
  · intro x mem
    cases mem

theorem Represents.set (h : Represents s m) (k : Key) (a : Artifact) :
    Represents (s.set k a) (m.insert k a) := by
  constructor
  · intro l
    rw [Store.get?_set]
    split
    · next same => rw [same, Finmap.lookup_insert]
    · next other => rw [Finmap.lookup_insert_of_ne _ other, h.get?]
  · intro x mem
    rw [Store.mem_ids, Store.set, Store.find?_insert] at mem
    split at mem
    · next same => exact ⟨k, same⟩
    · exact h.known x ((s.mem_ids x).mpr mem)

theorem Represents.remove (h : Represents s m) (k : Key) :
    Represents (s.remove k) (m.erase k) := by
  constructor
  · intro l
    rw [Store.get?_remove]
    split
    · next same => rw [same, Finmap.lookup_erase]
    · next other => rw [Finmap.lookup_erase_ne other, h.get?]
  · intro x mem
    rw [Store.mem_ids, Store.find?_remove] at mem
    split at mem
    · cases mem
    · exact h.known x ((s.mem_ids x).mpr mem)

theorem Represents.mem_ids (h : Represents s m) (k : Key) : k.id ∈ s.ids ↔ k ∈ m.keys := by
  rw [Store.mem_ids, Finmap.mem_keys, ← Finmap.lookup_isSome, ← h.get?]
  rfl

theorem Represents.contains (h : Represents s m) (k : Key) : s.contains k = decide (k ∈ m) := by
  rw [Store.contains, h.get?, Bool.eq_iff_iff, Finmap.lookup_isSome, decide_eq_true_iff]

/-- Keys are as many as their identifiers, since no two keys share one. -/
theorem Represents.size (h : Represents s m) : s.size = m.keys.card := by
  have ids : s.ids.toFinset = m.keys.map ⟨Key.id, fun _ _ => Key.id_injective⟩ := by
    ext x
    rw [List.mem_toFinset, Finset.mem_map]
    constructor
    · intro mem
      obtain ⟨k, rfl⟩ := h.known x mem
      exact ⟨k, (h.mem_ids k).mp mem, rfl⟩
    · rintro ⟨k, mem, rfl⟩
      exact (h.mem_ids k).mpr mem
  calc s.size = s.ids.length := (List.length_map ..).symm
    _ = s.ids.toFinset.card := (List.toFinset_card_of_nodup s.nodup_ids).symm
    _ = m.keys.card := by rw [ids, Finset.card_map]

/-- An operation is answered alike, and keeps the store like the map. -/
theorem Represents.perform (h : Represents s m) (op : Operation) :
    (Store.keeper.perform s op).1 = (KeyMap.keeper.perform m op).1 ∧
      Represents (Store.keeper.perform s op).2 (KeyMap.keeper.perform m op).2 := by
  cases op with
  | set k a => exact ⟨rfl, h.set k a⟩
  | remove k =>
    have taken : m.extract k = (m.lookup k, m.erase k) := Finmap.extract_eq_lookup_erase k m
    simp only [Keeper.perform, Store.keeper, KeyMap.keeper, taken]
    exact ⟨congrArg Answer.resolver (h.get? k), h.remove k⟩
  | get k => exact ⟨congrArg Answer.resolver (h.get? k), h⟩
  | resolver k => exact ⟨congrArg Answer.resolver (h.get? k), h⟩
  | contains k => exact ⟨congrArg Answer.present (h.contains k), h⟩
  | len => exact ⟨congrArg Answer.count h.size, h⟩

/-- A store under a sequence of operations answers as a finite map from keys does, though it goes by
identifiers. -/
theorem Represents.run (h : Represents s m) (ops : List Operation) :
    (Store.keeper.run s ops).1 = (KeyMap.keeper.run m ops).1 ∧
      Represents (Store.keeper.run s ops).2 (KeyMap.keeper.run m ops).2 := by
  induction ops generalizing s m with
  | nil => exact ⟨rfl, h⟩
  | cons op ops ih =>
    obtain ⟨answer, next⟩ := h.perform op
    obtain ⟨answers, last⟩ := ih next
    simp only [Keeper.run, answer, answers]
    exact ⟨trivial, last⟩

end Refinement

section History

/-- What an operation leaves under a key, unless it leaves the key alone. -/
def Operation.effect? (k : Key) : Operation → Option (Option Artifact)
  | .set l a => if l = k then some (some a) else none
  | .remove l => if l = k then some none else none
  | _ => none

/-- The key that an operation puts a resolver under. -/
def Operation.setKey? : Operation → Option Key
  | .set k _ => some k
  | _ => none

/-- The resolver that was last set under a key and not removed since. -/
def lastSet? (k : Key) (history : List Operation) : Option Artifact :=
  (history.filterMap (·.effect? k)).getLast?.join

/-- The keys under which a resolver was set and not removed since. -/
def present (history : List Operation) : Finset Key :=
  (history.filterMap Operation.setKey?).toFinset.filter fun k => (lastSet? k history).isSome

/-- The answer to an operation, told by the operations before it. -/
def answerBehind (history : List Operation) : Operation → Answer
  | .set _ _ => .done
  | .remove k => .resolver (lastSet? k history)
  | .get k => .resolver (lastSet? k history)
  | .resolver k => .resolver (lastSet? k history)
  | .contains k => .present (lastSet? k history).isSome
  | .len => .count (present history).card

theorem lookup_perform (m : KeyMap) (op : Operation) (k : Key) :
    (KeyMap.keeper.perform m op).2.lookup k = (op.effect? k).getD (m.lookup k) := by
  cases op with
  | set l a =>
    show (m.insert l a).lookup k = _
    by_cases same : l = k
    · simp [same, Operation.effect?]
    · simp [same, Operation.effect?, Finmap.lookup_insert_of_ne _ (Ne.symm same)]
  | remove l =>
    have erased : (KeyMap.keeper.perform m (.remove l)).2 = m.erase l :=
      congrArg Prod.snd (Finmap.extract_eq_lookup_erase l m)
    rw [erased]
    by_cases same : l = k
    · simp [same, Operation.effect?]
    · simp [same, Operation.effect?, Finmap.lookup_erase_ne (Ne.symm same)]
  | _ => rfl

/-- A run leaves under a key what its last operation on that key leaves. -/
theorem lookup_run (m : KeyMap) (ops : List Operation) (k : Key) :
    (KeyMap.keeper.run m ops).2.lookup k =
      (ops.filterMap (·.effect? k)).getLast?.getD (m.lookup k) := by
  induction ops generalizing m with
  | nil => rfl
  | cons op ops ih =>
    have step : (KeyMap.keeper.run m (op :: ops)).2 =
        (KeyMap.keeper.run (KeyMap.keeper.perform m op).2 ops).2 := rfl
    rw [step, ih, lookup_perform]
    cases here : op.effect? k <;> simp [here, List.getLast?_cons]

/-- What is under a key follows from the operations on this key. -/
theorem lookup_run_empty (ops : List Operation) (k : Key) :
    (KeyMap.keeper.run ∅ ops).2.lookup k = lastSet? k ops := by
  rw [lookup_run, Finmap.lookup_empty, lastSet?]
  cases (ops.filterMap (·.effect? k)).getLast? <;> rfl

theorem setKey?_of_effect? {k : Key} {a : Artifact} {op : Operation}
    (h : op.effect? k = some (some a)) : op.setKey? = some k := by
  cases op with
  | set l b =>
    by_cases same : l = k
    · exact congrArg some same
    · simp [Operation.effect?, same] at h
  | remove l => by_cases same : l = k <;> simp [Operation.effect?, same] at h
  | _ => cases h

theorem mem_present (history : List Operation) (k : Key) :
    k ∈ present history ↔ (lastSet? k history).isSome := by
  rw [present, Finset.mem_filter, and_iff_right_iff_imp]
  intro isSet
  obtain ⟨a, found⟩ := Option.isSome_iff_exists.mp isSet
  have last := List.mem_of_getLast? (Option.join_eq_some_iff.mp found)
  obtain ⟨op, mem, effect⟩ := List.mem_filterMap.mp last
  rw [List.mem_toFinset, List.mem_filterMap]
  exact ⟨op, mem, setKey?_of_effect? effect⟩

theorem keys_run_empty (ops : List Operation) :
    (KeyMap.keeper.run ∅ ops).2.keys = present ops := by
  ext k
  rw [Finmap.mem_keys, ← Finmap.lookup_isSome, lookup_run_empty, mem_present]

end History

/-- A store that was empty answers all operations as a finite map from keys, and as the operations
before tell: those on other keys make no difference to what is found under a key. -/
theorem run_faithful (ops : List Operation) :
    (Store.keeper.run .empty ops).1 = (KeyMap.keeper.run ∅ ops).1 ∧
      ∀ op, (Store.keeper.perform (Store.keeper.run .empty ops).2 op).1 = answerBehind ops op := by
  obtain ⟨answers, kept⟩ := Represents.empty.run ops
  refine ⟨answers, fun op => ?_⟩
  have found : ∀ k, (Store.keeper.run .empty ops).2.get? k = lastSet? k ops := by
    intro k
    rw [kept.get?, lookup_run_empty]
  have size : (Store.keeper.run .empty ops).2.size = (present ops).card := by
    rw [kept.size, keys_run_empty]
  cases op with
  | set k a => rfl
  | remove k => exact congrArg Answer.resolver (found k)
  | get k => exact congrArg Answer.resolver (found k)
  | resolver k => exact congrArg Answer.resolver (found k)
  | contains k => exact congrArg (Answer.present ·.isSome) (found k)
  | len => exact congrArg Answer.count size

end TransformDirective.Resolver
