import TransformDirective.Proofs.Schema.Recognition

namespace TransformDirective.Schema

open TransformDirective.Schema.Language

variable {α β : Type} {n : Nat} {p : Rule α} {L : Language β} {R : α → β → Prop}

/-- The rule takes the first word and goes on by it, or fails there. -/
structure ByFirst (p : Rule α) (next : Lexeme → Option (Rule α)) : Prop where
  nil : ∃ e left, p [] = .error e left ∧ e.found = none
  taken : ∀ {t q}, next t.lexeme = some q → ∀ ts, p (t :: ts) = q ts
  refused : ∀ t, next t.lexeme = none →
    ∃ e, e.found = some t ∧ ∀ ts, ∃ left, p (t :: ts) = .error e left

namespace ByFirst

variable {next : Lexeme → Option (Rule α)} {shape : Lexeme → Shape}

theorem fails_nil (h : ByFirst p next) {e : RuleFault} {left : List Token}
    (hp : p [] = .error e left) : e.found = none ∧ Fails p [] [] e := by
  obtain ⟨e', left', he, hfound⟩ := h.nil
  rw [he] at hp
  cases hp
  refine ⟨hfound, ?_⟩
  intro r hr
  obtain rfl : r = [] := List.head?_eq_none_iff.mp hr
  exact ⟨_, he⟩

theorem fails_cons (h : ByFirst p next) {t : Token} (ht : next t.lexeme = none) {ts : List Token}
    {e : RuleFault} {left : List Token} (hp : p (t :: ts) = .error e left) :
    e.found = some t ∧ Fails p [] (t :: ts) e := by
  obtain ⟨e', hfound, he⟩ := h.refused t ht
  obtain ⟨left', hleft⟩ := he ts
  rw [hleft] at hp
  cases hp
  refine ⟨hfound, ?_⟩
  intro r hr
  obtain ⟨ts', rfl⟩ := List.head?_eq_some_iff.mp hr
  exact he ts'

theorem next_of_ok (h : ByFirst p next) {ts r : List Token} {a : α} (hp : p ts = .ok a r) :
    ∃ t ts' q, ts = t :: ts' ∧ next t.lexeme = some q ∧ q ts' = .ok a r := by
  cases ts with
  | nil =>
    obtain ⟨e, left, he, -⟩ := h.nil
    rw [he] at hp
    cases hp
  | cons t ts =>
    cases hq : next t.lexeme with
    | none =>
      obtain ⟨e, -, he⟩ := h.refused t hq
      obtain ⟨left, hleft⟩ := he ts
      rw [hleft] at hp
      cases hp
    | some q => exact ⟨t, ts, q, rfl, hq, by rw [← h.taken hq, hp]⟩

/-- Every sequence of the language starts with a word that has a way. -/
def Starts (L : Language β) (next : Lexeme → Option (Rule α)) : Prop :=
  ∀ ⦃ls b⦄, L ls b → ∃ l ls' q, ls = l :: ls' ∧ next l = some q

theorem way_of_starts (starts : Starts L next) {l : Lexeme} {ls : List Lexeme} {b : β}
    (hl : L (l :: ls) b) : ∃ q, next l = some q := by
  obtain ⟨l', ls', q, hls, hq⟩ := starts hl
  obtain ⟨rfl, -⟩ := List.cons.inj hls
  exact ⟨q, hq⟩

section

variable (ways : ∀ {l q}, next l = some q → Recognizes n q (L.after l) R (shape l))
include ways

theorem fits (starts : Starts L next) (live : ∃ l q, l.isPlain ∧ next l = some q) :
    L.Fits R ⟨fun l => (next l).isSome, fun l => ∃ l', (next l').isSome ∧ (shape l').more l,
      False⟩ := by
  constructor
  · obtain ⟨l, q, hplain, hq⟩ := live
    obtain ⟨more, b, hmore, hb⟩ := (ways hq).viable
    exact ⟨l :: more, b, by simp [hplain, hmore], hb⟩
  · intro ls b hl
    obtain ⟨l, ls', q, rfl, hq⟩ := starts hl
    exact (ways hq).stands hl
  · intro b hl
    obtain ⟨l, ls', q, hls, -⟩ := starts hl
    cases hls
  · intro l ls b hl
    exact Option.isSome_iff_exists.mpr (way_of_starts starts hl)

theorem sound (h : ByFirst p next) : Sound (n + 1) p L R := by
  intro ts a r hn hp
  obtain ⟨t, ts, q, rfl, hq, hp⟩ := h.next_of_ok hp
  rw [List.length_cons] at hn
  obtain ⟨us, b, rfl, hl, hab, hstops⟩ := (ways hq).takes (by omega) hp
  exact ⟨t :: us, b, rfl, hl, hab, hstops.cons (h.taken hq)⟩

theorem refuses (h : ByFirst p next) (hv : L.Viable []) : Refuses (n + 1) p L := by
  intro ts e left hn hp
  cases ts with
  | nil =>
    obtain ⟨hfound, hfails⟩ := h.fails_nil hp
    exact ⟨[], [], rfl, hfound, hv, hfails⟩
  | cons t ts =>
    cases hq : next t.lexeme with
    | none =>
      obtain ⟨hfound, hfails⟩ := h.fails_cons hq hp
      exact ⟨[], t :: ts, rfl, hfound, hv, hfails⟩
    | some q =>
      rw [h.taken hq] at hp
      rw [List.length_cons] at hn
      obtain ⟨us, r, rfl, hfound, hv, hfails⟩ := (ways hq).refuses (by omega) hp
      exact ⟨t :: us, r, rfl, hfound, hv, hfails.cons (h.taken hq)⟩

theorem complete (h : ByFirst p next) (starts : Starts L next) :
    Complete (n + 1) p L R fun l => ∃ l', (next l').isSome ∧ (shape l').more l := by
  intro us b r hn hl hr
  cases us with
  | nil =>
    obtain ⟨l, ls', q, hls, -⟩ := starts hl
    cases hls
  | cons t us =>
    obtain ⟨q, hq⟩ := way_of_starts starts hl
    rw [List.cons_append, List.length_cons] at hn
    have hstop : ∀ x ∈ r.head?, ¬ (shape t.lexeme).more x.lexeme := fun x hx hmore =>
      hr x hx ⟨t.lexeme, Option.isSome_iff_exists.mpr ⟨q, hq⟩, hmore⟩
    obtain ⟨a, ha, hab⟩ := (ways hq).accepts (by omega) hl hstop
    exact ⟨a, by rw [List.cons_append, h.taken hq, ha], hab⟩

end

/-- A rule that chooses its way by the first word reads the language, if each way reads what goes on
behind this word. -/
theorem recognizes (h : ByFirst p next) (shape : Lexeme → Shape)
    (ways : ∀ {l q}, next l = some q → Recognizes n q (L.after l) R (shape l))
    (starts : Starts L next) (live : ∃ l q, l.isPlain ∧ next l = some q) :
    Recognizes (n + 1) p L R
      ⟨fun l => (next l).isSome, fun l => ∃ l', (next l').isSome ∧ (shape l').more l, False⟩ where
  toFits := fits ways starts live
  takes := h.sound ways
  refuses := h.refuses ways (fits ways starts live).viable
  accepts := h.complete ways starts

end ByFirst

/-- The rule takes the first word if it passes the test and goes on, or takes nothing. -/
structure OrNothing (p : Rule α) (test : Lexeme → Bool) (q : Rule α) (a : α) : Prop where
  taken : ∀ {t}, test t.lexeme → ∀ ts, p (t :: ts) = q ts
  passed : ∀ {ts}, (∀ t ∈ ts.head?, test t.lexeme = false) → p ts = .ok a ts

theorem next_fails_or_passes (test : Lexeme → Bool) (ts : List Token) :
    (∀ t ∈ ts.head?, test t.lexeme = false) ∨ ∃ t ts', ts = t :: ts' ∧ test t.lexeme := by
  cases ts with
  | nil => exact .inl fun _ h => nomatch h
  | cons t ts =>
    cases h : test t.lexeme with
    | false =>
      refine .inl fun x hx => ?_
      obtain rfl : t = x := Option.some.inj hx
      exact h
    | true => exact .inr ⟨t, ts, rfl, h⟩

namespace OrNothing

variable {test : Lexeme → Bool} {q : Rule α} {a : α} {b : β} {N : Lexeme → Language β} {s : Shape}

/-- The sequences that start with a passing word and go on by it, and the empty sequence. -/
def Words (L : Language β) (test : Lexeme → Bool) (N : Lexeme → Language β) (b : β) : Prop :=
  ∀ ls b', L ls b' ↔ (∃ l ls', test l ∧ ls = l :: ls' ∧ N l ls' b') ∨ ls = [] ∧ b' = b

section

variable (words : Words L test N b) (way : ∀ {l}, test l → Recognizes n q (N l) R s) (hab : R a b)
include words

theorem empty_word : L [] b := (words [] b).mpr (.inr ⟨rfl, rfl⟩)

theorem first_word {t : Token} (ht : test t.lexeme) {ls : List Lexeme} {b' : β}
    (h : N t.lexeme ls b') : L (t.lexeme :: ls) b' :=
  (words _ _).mpr (.inl ⟨t.lexeme, ls, ht, rfl, h⟩)

include way

theorem fits (hab : R a b) (more : Lexeme → Prop) :
    L.Fits R ⟨fun l => test l, more, True⟩ := by
  constructor
  · exact ⟨[], b, rfl, empty_word words⟩
  · intro ls b' hl
    obtain ⟨l, ls', ht, -, hn⟩ | ⟨-, rfl⟩ := (words ls b').mp hl
    · exact (way ht).stands hn
    · exact ⟨a, hab⟩
  · intro b' _
    trivial
  · intro l ls b' hl
    obtain ⟨l', ls', ht, hls, -⟩ | ⟨hls, -⟩ := (words _ b').mp hl
    · obtain ⟨rfl, -⟩ := List.cons.inj hls
      exact ht
    · cases hls

theorem sound (h : OrNothing p test q a) (hab : R a b) : Sound (n + 1) p L R := by
  intro ts a' r hn hp
  obtain hpass | ⟨t, ts, rfl, ht⟩ := next_fails_or_passes test ts
  · rw [h.passed hpass] at hp
    cases hp
    refine ⟨[], b, rfl, empty_word words, hab, ?_⟩
    intro r' hr'
    exact h.passed (by rw [List.nil_append, hr']; exact hpass)
  · rw [h.taken ht] at hp
    rw [List.length_cons] at hn
    obtain ⟨us, b', rfl, hl, hab', hstops⟩ := (way ht).takes (by omega) hp
    exact ⟨t :: us, b', rfl, first_word words ht hl, hab', hstops.cons (h.taken ht)⟩

theorem refuses (h : OrNothing p test q a) : Refuses (n + 1) p L := by
  intro ts e left hn hp
  obtain hpass | ⟨t, ts, rfl, ht⟩ := next_fails_or_passes test ts
  · rw [h.passed hpass] at hp
    cases hp
  · rw [h.taken ht] at hp
    rw [List.length_cons] at hn
    obtain ⟨us, r, rfl, hfound, ⟨more, b', hmore, hl⟩, hfails⟩ := (way ht).refuses (by omega) hp
    have hv : L.Viable (lexemes (t :: us)) := ⟨more, b', hmore, first_word words ht hl⟩
    exact ⟨t :: us, r, rfl, hfound, hv, hfails.cons (h.taken ht)⟩

theorem complete (h : OrNothing p test q a) (hab : R a b) :
    Complete (n + 1) p L R fun l => test l ∨ s.more l := by
  intro us b' r hn hl hr
  obtain ⟨l, ls', ht, hls, hl'⟩ | ⟨hls, rfl⟩ := (words _ b').mp hl
  · obtain ⟨t, us', rfl, rfl, rfl⟩ := List.map_eq_cons_iff.mp hls
    rw [List.cons_append, List.length_cons] at hn
    obtain ⟨a', ha', hab'⟩ := (way ht).accepts (by omega) hl' fun x hx hm => hr x hx (.inr hm)
    exact ⟨a', by rw [List.cons_append, h.taken ht, ha'], hab'⟩
  · obtain rfl : us = [] := List.map_eq_nil_iff.mp hls
    refine ⟨a, h.passed ?_, hab⟩
    intro t ht
    exact Bool.eq_false_iff.mpr fun htest => hr t ht (.inl htest)

end

theorem recognizes (h : OrNothing p test q a) (words : Words L test N b)
    (way : ∀ {l}, test l → Recognizes n q (N l) R s) (hab : R a b) :
    Recognizes (n + 1) p L R ⟨fun l => test l, fun l => test l ∨ s.more l, True⟩ where
  toFits := fits words way hab _
  takes := sound words way h hab
  refuses := refuses words way h
  accepts := complete words way h hab

end OrNothing

end TransformDirective.Schema
