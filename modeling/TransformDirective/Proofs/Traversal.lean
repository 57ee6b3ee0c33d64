import Mathlib.Data.List.Forall2

namespace TransformDirective.Traversal

variable {ε α β : Type}

theorem bind_eq_ok_iff (x : Except ε α) (f : α → Except ε β) (b : β) :
    (x >>= f) = .ok b ↔ ∃ a, x = .ok a ∧ f a = .ok b := by
  cases x <;> simp [bind, Except.bind]

theorem then_eq_ok_iff (x : Except ε Unit) (y : Except ε β) (b : β) :
    (x >>= fun _ => y) = .ok b ↔ x = .ok () ∧ y = .ok b := by
  rw [bind_eq_ok_iff]
  constructor
  · intro ⟨_, hx, hy⟩
    exact ⟨hx, hy⟩
  · intro ⟨hx, hy⟩
    exact ⟨(), hx, hy⟩

theorem forM_eq_ok_iff (f : α → Except ε Unit) (xs : List α) :
    xs.forM f = .ok () ↔ ∀ x ∈ xs, f x = .ok () := by
  induction xs with
  | nil => simp [List.forM, pure, Except.pure]
  | cons x xs ih =>
    have step : (x :: xs).forM f = (f x >>= fun _ => xs.forM f) := rfl
    rw [step, then_eq_ok_iff, ih, List.forall_mem_cons]

theorem mapM_nil (f : α → Except ε β) : [].mapM f = .ok [] := rfl

theorem mapM_cons (f : α → Except ε β) (x : α) (xs : List α) :
    (x :: xs).mapM f = (f x).bind fun b => (xs.mapM f).map (b :: ·) := by
  rw [List.mapM_cons]
  cases f x with
  | error e => rfl
  | ok b => cases h : xs.mapM f <;> simp [bind, pure, Except.bind, Except.pure, Except.map]

/-- A list that is visited without a failure gives one answer for each item. -/
theorem mapM_eq_ok_iff (f : α → Except ε β) (xs : List α) (bs : List β) :
    xs.mapM f = .ok bs ↔ List.Forall₂ (fun x b => f x = .ok b) xs bs := by
  induction xs generalizing bs with
  | nil =>
    rw [mapM_nil]
    cases bs <;> simp
  | cons x xs ih =>
    rw [mapM_cons]
    cases hx : f x with
    | error e => cases bs <;> simp [Except.bind, hx]
    | ok b =>
      cases hxs : xs.mapM f with
      | error e =>
        have none : ∀ cs, ¬List.Forall₂ (fun x b => f x = .ok b) xs cs := by
          intro cs h
          rw [← ih, hxs] at h
          cases h
        cases bs <;> simp [Except.bind, Except.map, none]
      | ok cs =>
        have same : ∀ ds, List.Forall₂ (fun x b => f x = .ok b) xs ds ↔ cs = ds := by
          intro ds
          rw [← ih, hxs, Except.ok.injEq]
        cases bs <;> simp [Except.bind, Except.map, hx, same]

/-- The first item that fails decides. -/
theorem mapM_append_error (f : α → Except ε β) (front back : List α) (x : α) (e : ε)
    (good : ∀ y ∈ front, ∃ b, f y = .ok b) (bad : f x = .error e) :
    (front ++ x :: back).mapM f = .error e := by
  induction front with
  | nil =>
    rw [List.nil_append, mapM_cons, bad]
    rfl
  | cons y front ih =>
    obtain ⟨b, hb⟩ := good y (by simp)
    rw [List.cons_append, mapM_cons, hb, ih fun z hz => good z (by simp [hz])]
    rfl

/-- The failure of a traversal is the one of the first element that fails. -/
theorem mapM_eq_error_iff (f : α → Except ε β) (xs : List α) (e : ε) :
    xs.mapM f = .error e ↔
      ∃ front x back, xs = front ++ x :: back ∧ (∀ y ∈ front, ∃ b, f y = .ok b) ∧
        f x = .error e := by
  constructor
  · intro h
    induction xs with
    | nil => cases h
    | cons x xs ih =>
      rw [mapM_cons] at h
      cases hx : f x with
      | error e' =>
        rw [hx] at h
        cases h
        exact ⟨[], x, xs, rfl, by simp, hx⟩
      | ok b =>
        cases hxs : xs.mapM f with
        | ok bs => rw [hx, hxs] at h; cases h
        | error e' =>
          rw [hx, hxs] at h
          cases h
          obtain ⟨front, y, back, rfl, good, bad⟩ := ih hxs
          exact ⟨x :: front, y, back, rfl, List.forall_mem_cons.mpr ⟨⟨b, hx⟩, good⟩, bad⟩
  · rintro ⟨front, x, back, rfl, good, bad⟩
    exact mapM_append_error f front back x e good bad

end TransformDirective.Traversal
