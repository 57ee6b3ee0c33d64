import Mathlib.Data.List.Forall2
import TransformDirective.Proofs.Schema.Choice

namespace TransformDirective.Schema

open TransformDirective.Schema.Language

variable {α β : Type} {n : Nat} {test : Lexeme → Bool} {item : Rule α} {L : Language β}
  {R : α → β → Prop} {s : Shape}

/-- One step of a repetition. -/
theorem repeatWhile_apply (test : Token → Bool) (item : Rule α) (ts : List Token) :
    Parser.repeatWhile test item ts =
      if ts.head?.any test then
        match item ts with
        | .error e r => .error e r
        | .ok a r =>
          if r.length < ts.length then
            match Parser.repeatWhile test item r with
            | .error e r => .error e r
            | .ok as r => .ok (a :: as) r
          else .ok [a] r
      else .ok [] ts := by
  have hitem : ∀ next : Bool, ts.head?.any test = next →
      (do if (← Parser.peek).any test then return some (← item) else return none :
        Rule (Option α)) ts =
      (if next then item >>= fun a => pure (some a) else pure none : Rule (Option α)) ts := by
    intro next hnext
    rw [← hnext]
    rfl
  rw [Parser.repeatWhile, Parser.collect_apply]
  cases hnext : ts.head?.any test with
  | false => rw [hitem false hnext]; rfl
  | true =>
    rw [hitem true hnext, if_pos rfl, if_pos rfl, Parser.bind_apply]
    cases item ts with
    | error e r => rfl
    | ok a r =>
      rw [← Parser.repeatWhile]
      simp only [Parser.pure_apply]
      cases Parser.repeatWhile test item r <;> rfl

abbrev itemsWhile (test : Lexeme → Bool) (item : Rule α) : Rule (List α) :=
  Parser.repeatWhile (fun t => test t.lexeme) item

theorem itemsWhile_stop {ts : List Token} (h : ∀ t ∈ ts.head?, test t.lexeme = false) :
    itemsWhile test item ts = .ok [] ts := by
  rw [itemsWhile, repeatWhile_apply, if_neg]
  cases ts with
  | nil => simp
  | cons t ts => simp [h t rfl]

theorem itemsWhile_item {t : Token} {us r : List Token} {a : α} (ht : test t.lexeme)
    (h : item (t :: us ++ r) = .ok a r) :
    itemsWhile test item (t :: us ++ r) =
      match itemsWhile test item r with
      | .error e r => .error e r
      | .ok as r => .ok (a :: as) r := by
  have hlt : r.length < (t :: us ++ r).length := by
    rw [List.cons_append, List.length_cons, List.length_append]
    omega
  rw [itemsWhile, repeatWhile_apply, if_pos (by simpa using ht), h]
  simp only [hlt, if_true]

theorem itemsWhile_refused {t : Token} {ts left : List Token} {e : RuleFault} (ht : test t.lexeme)
    (h : item (t :: ts) = .error e left) : itemsWhile test item (t :: ts) = .error e left := by
  rw [itemsWhile, repeatWhile_apply, if_pos (by simpa using ht), h]

section Extent

variable {t : Token} {us vs r : List Token} {a : α} {as : List α} {e : RuleFault}

theorem Stops.itemsWhile_nil (h : ∀ t ∈ r.head?, test t.lexeme = false) :
    Stops (itemsWhile test item) [] r [] := by
  intro r' hr
  exact itemsWhile_stop (by rw [List.nil_append, hr]; exact h)

theorem Stops.itemsWhile_cons (ht : test t.lexeme) (h : Stops item (t :: us) (vs ++ r) a)
    (h' : Stops (itemsWhile test item) vs r as) :
    Stops (itemsWhile test item) (t :: us ++ vs) r (a :: as) := by
  intro r' hr
  have hfront := h (vs ++ r') (head?_append_congr vs hr)
  rw [List.append_assoc, itemsWhile_item ht hfront, h' r' hr]

theorem Stops.itemsWhile_fails (ht : test t.lexeme) (h : Stops item (t :: us) (vs ++ r) a)
    (h' : Fails (itemsWhile test item) vs r e) :
    Fails (itemsWhile test item) (t :: us ++ vs) r e := by
  intro r' hr
  have hfront := h (vs ++ r') (head?_append_congr vs hr)
  obtain ⟨left, hback⟩ := h' r' hr
  exact ⟨left, by rw [List.append_assoc, itemsWhile_item ht hfront, hback]⟩

/-- A repetition fails where its first item does: the same word stands in front, so the item is
tried again. -/
theorem Fails.itemsWhile (ht : (us ++ r).head? = some t) (htest : test t.lexeme)
    (h : Fails item us r e) : Fails (itemsWhile test item) us r e := by
  intro r' hr
  obtain ⟨left, hleft⟩ := h r' hr
  rw [← head?_append_congr us hr] at ht
  obtain ⟨ts, hts⟩ := List.head?_eq_some_iff.mp ht
  rw [hts] at hleft ⊢
  exact ⟨left, itemsWhile_refused htest hleft⟩

end Extent

namespace Language

theorem many_first (h : L.Fits R s) (solid : ¬ s.nullable) {l : Lexeme} {ls : List Lexeme}
    {bs : List β} (hl : many L (l :: ls) bs) : s.first l := by
  generalize hls : l :: ls = ls' at hl
  cases hl with
  | nil => cases hls
  | @cons us vs b bs first rest =>
    cases us with
    | nil => exact absurd (h.empty first) solid
    | cons u us =>
      obtain ⟨rfl, -⟩ := List.cons.inj hls
      exact h.first first

theorem many_fits (h : L.Fits R s) (solid : ¬ s.nullable) (more : Lexeme → Prop) :
    (many L).Fits (List.Forall₂ R) ⟨s.first, more, True⟩ where
  viable := ⟨[], [], rfl, .nil⟩
  stands := fun hl => by
    induction hl with
    | nil => exact ⟨[], .nil⟩
    | cons first rest ih =>
      obtain ⟨a, ha⟩ := h.stands first
      obtain ⟨as, has⟩ := ih
      exact ⟨a :: as, .cons ha has⟩
  empty := fun _ => trivial
  first := fun hl => many_first h solid hl

theorem Viable.many {us : List Lexeme} (h : L.Viable us) : (many L).Viable us := by
  obtain ⟨more, b, hmore, hb⟩ := h
  have hone := many.cons hb many.nil
  rw [List.append_nil] at hone
  exact ⟨more, [b], hmore, hone⟩

theorem Viable.many_cons {us vs : List Lexeme} {b : β} (hb : L us b)
    (h : (Language.many L).Viable vs) : (Language.many L).Viable (us ++ vs) := by
  obtain ⟨more, bs, hmore, hbs⟩ := h
  refine ⟨more, b :: bs, hmore, ?_⟩
  rw [List.append_assoc]
  exact .cons hb hbs

end Language

section Repetition

variable (h : Recognizes n item L R s) (solid : ¬ s.nullable)
include h solid

/-- An item that is read takes a word, and the repetition goes on behind it. -/
theorem itemsWhile_step {t : Token} {ts r : List Token} {a : α} (hn : (t :: ts).length < n)
    (ht : test t.lexeme) (hi : item (t :: ts) = .ok a r) :
    ∃ us b, ts = us ++ r ∧ L (lexemes (t :: us)) b ∧ R a b ∧ Stops item (t :: us) r a ∧
      r.length < (t :: ts).length ∧
      itemsWhile test item (t :: ts) =
        match itemsWhile test item r with
        | .error e r => .error e r
        | .ok as r => .ok (a :: as) r := by
  obtain ⟨us, b, hts, hl, hab, hstops⟩ := h.takes hn hi
  cases us with
  | nil => exact absurd (h.empty hl) solid
  | cons u us =>
    obtain ⟨rfl, rfl⟩ := List.cons.inj hts
    have hlt : r.length < (t :: (us ++ r)).length := by
      rw [List.length_cons, List.length_append]
      omega
    exact ⟨us, b, rfl, hl, hab, hstops, hlt, itemsWhile_item ht hi⟩

-- every item takes a word, so the inductions are on the number of words
/-- What a repetition takes are items of the language. -/
theorem itemsWhile_sound : Sound n (itemsWhile test item) (many L) (List.Forall₂ R) := by
  intro ts as r hn hp
  induction hk : ts.length using Nat.strongRecOn generalizing ts as with
  | ind k ih =>
    subst hk
    obtain hstop | ⟨t, ts, rfl, ht⟩ := next_fails_or_passes test ts
    · rw [itemsWhile_stop hstop] at hp
      cases hp
      exact ⟨[], [], rfl, .nil, .nil, .itemsWhile_nil hstop⟩
    · cases hi : item (t :: ts) with
      | error e left => rw [itemsWhile_refused ht hi] at hp; cases hp
      | ok a r₁ =>
        obtain ⟨us, b, rfl, hl, hab, hstops, hlt, hstep⟩ := itemsWhile_step h solid hn ht hi
        rw [hstep] at hp
        cases hrest : itemsWhile test item r₁ with
        | error e left => rw [hrest] at hp; cases hp
        | ok as' r₂ =>
          rw [hrest] at hp
          cases hp
          obtain ⟨vs, bs, rfl, hls, hbs, hstops'⟩ := ih r₁.length hlt (by omega) hrest rfl
          refine ⟨t :: us ++ vs, b :: bs, ?_, ?_, .cons hab hbs, hstops.itemsWhile_cons ht hstops'⟩
          · rw [List.append_assoc, List.cons_append]
          · rw [lexemes_append]
            exact .cons hl hls

theorem itemsWhile_refuses : Refuses n (itemsWhile test item) (many L) := by
  intro ts e left hn hp
  induction hk : ts.length using Nat.strongRecOn generalizing ts with
  | ind k ih =>
    subst hk
    obtain hstop | ⟨t, ts, rfl, ht⟩ := next_fails_or_passes test ts
    · rw [itemsWhile_stop hstop] at hp
      cases hp
    · cases hi : item (t :: ts) with
      | error e' left' =>
        rw [itemsWhile_refused ht hi] at hp
        cases hp
        obtain ⟨us, r, hts, hfound, hv, hfails⟩ := h.refuses hn hi
        exact ⟨us, r, hts, hfound, hv.many, hfails.itemsWhile (by rw [← hts]; rfl) ht⟩
      | ok a r₁ =>
        obtain ⟨us, b, rfl, hl, hab, hstops, hlt, hstep⟩ := itemsWhile_step h solid hn ht hi
        rw [hstep] at hp
        cases hrest : itemsWhile test item r₁ with
        | ok as r₂ => rw [hrest] at hp; cases hp
        | error e' left' =>
          rw [hrest] at hp
          cases hp
          obtain ⟨vs, r, rfl, hfound, hv, hfails⟩ := ih r₁.length hlt (by omega) hrest rfl
          refine ⟨t :: us ++ vs, r, ?_, hfound, ?_, hstops.itemsWhile_fails ht hfails⟩
          · rw [List.append_assoc, List.cons_append]
          · rw [lexemes_append]
            exact hv.many_cons hl

/-- A repetition takes all items there are. What stands behind an item is the next item or what
stands behind all of them. -/
theorem itemsWhile_complete (starts : ∀ l, s.first l → test l)
    (apart : ∀ l, s.more l → ¬ s.first l) :
    Complete n (itemsWhile test item) (many L) (List.Forall₂ R) fun l => test l ∨ s.more l := by
  intro us bs r hn hl hr
  have hstop : ∀ t ∈ r.head?, test t.lexeme = false := fun t ht =>
    Bool.eq_false_iff.mpr fun htest => hr t ht (.inl htest)
  generalize hls : lexemes us = ls at hl
  induction hl generalizing us with
  | nil =>
    obtain rfl : us = [] := List.map_eq_nil_iff.mp hls
    exact ⟨[], itemsWhile_stop hstop, .nil⟩
  | @cons ls₁ ls₂ b bs hb hbs ih =>
    obtain ⟨us, vs, rfl, rfl, rfl⟩ := lexemes_eq_append hls
    cases us with
    | nil => exact absurd (h.empty hb) solid
    | cons u us =>
      rw [List.append_assoc] at hn ⊢
      have hnext : ∀ t ∈ (vs ++ r).head?, ¬ s.more t.lexeme := by
        intro x hx hmore
        cases vs with
        | nil => exact hr x hx (.inr hmore)
        | cons v vs =>
          obtain rfl : v = x := Option.some.inj hx
          exact apart _ hmore (many_first h.toFits solid hbs)
      obtain ⟨a, ha, hab⟩ := h.accepts hn hb hnext
      obtain ⟨as, has, habs⟩ := ih (by rw [List.length_append] at hn; omega) rfl
      refine ⟨a :: as, ?_, .cons hab habs⟩
      rw [itemsWhile_item (starts _ (h.first hb)) ha, has]

/-- A repetition ends where the test fails. -/
theorem itemsWhile_rest {ts r : List Token} {as : List α} (hn : ts.length < n)
    (hp : itemsWhile test item ts = .ok as r) : ∀ t ∈ r.head?, test t.lexeme = false := by
  induction hk : ts.length using Nat.strongRecOn generalizing ts as with
  | ind k ih =>
    subst hk
    obtain hstop | ⟨t, ts, rfl, ht⟩ := next_fails_or_passes test ts
    · rw [itemsWhile_stop hstop] at hp
      cases hp
      exact hstop
    · cases hi : item (t :: ts) with
      | error e left => rw [itemsWhile_refused ht hi] at hp; cases hp
      | ok a r₁ =>
        obtain ⟨us, b, -, -, -, -, hlt, hstep⟩ := itemsWhile_step h solid hn ht hi
        rw [hstep] at hp
        cases hrest : itemsWhile test item r₁ with
        | error e left => rw [hrest] at hp; cases hp
        | ok as' r₂ =>
          rw [hrest] at hp
          cases hp
          exact ih r₁.length hlt (by omega) hrest rfl

end Repetition

/-- As many items as follow each other, if no word both goes on with an item and starts one. -/
theorem Recognizes.itemsWhile (h : Recognizes n item L R s) (test : Lexeme → Bool)
    (solid : ¬ s.nullable) (starts : ∀ l, s.first l → test l)
    (apart : ∀ l, s.more l → ¬ s.first l) :
    Recognizes n (itemsWhile test item) (many L) (List.Forall₂ R)
      ⟨s.first, fun l => test l ∨ s.more l, True⟩ where
  toFits := many_fits h.toFits solid _
  takes := itemsWhile_sound h solid
  refuses := itemsWhile_refuses h solid
  accepts := itemsWhile_complete h solid starts apart

end TransformDirective.Schema
