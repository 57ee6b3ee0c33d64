import TransformDirective.Proofs.Schema.Language

namespace TransformDirective.Schema

open TransformDirective.Text

def lexemes (ts : List Token) : List Lexeme := ts.map (·.lexeme)

theorem lexemes_append (us vs : List Token) : lexemes (us ++ vs) = lexemes us ++ lexemes vs :=
  List.map_append

theorem lexemes_eq_append {ts : List Token} {us vs : List Lexeme} (h : lexemes ts = us ++ vs) :
    ∃ us' vs', ts = us' ++ vs' ∧ lexemes us' = us ∧ lexemes vs' = vs := by
  obtain ⟨us', vs', ht, hu, hv⟩ := List.map_eq_append_iff.mp h
  exact ⟨us', vs', ht, hu, hv⟩

def RuleFault.found : RuleFault → Option Token
  | unexpected _ t => t
  | variableValue t => t

def isNameText (n : String) : Bool :=
  match n.toList with
  | [] => false
  | c :: cs => isNameStart c && cs.all isNameChar

/-- A mark, or a name that can be written. -/
def Lexeme.isPlain : Lexeme → Bool
  | name n => isNameText n
  | punct _ => true
  | _ => false

namespace Language

variable {α β γ : Type}

/-- Plain words complete these ones. -/
def Viable (L : Language β) (ls : List Lexeme) : Prop :=
  ∃ more b, more.all Lexeme.isPlain ∧ L (ls ++ more) b

/-- The sequences that go on behind a first word. -/
def after (L : Language β) (l : Lexeme) : Language β := fun ls b => L (l :: ls) b

/-- The words a language starts with, the words that may go on behind one of its sequences, and
whether it has the empty sequence. -/
structure Shape where
  first : Lexeme → Prop
  more : Lexeme → Prop
  nullable : Prop

namespace Shape

@[simp]
def nothing : Shape := ⟨fun _ => False, fun _ => False, True⟩

/-- The shape of sequences with which no word goes on. -/
@[simp]
def closed (first : Lexeme → Prop) : Shape := ⟨first, fun _ => False, False⟩

/-- The shape of sequences that need not be there. -/
@[simp]
def mayStart (first : Lexeme → Prop) : Shape := ⟨first, first, True⟩

@[simp]
def andThen (s t : Shape) : Shape where
  first l := s.first l ∨ s.nullable ∧ t.first l
  more l := t.more l ∨ t.nullable ∧ s.more l
  nullable := s.nullable ∧ t.nullable

end Shape

/-- The language has this shape, and each of its meanings stands for some value. -/
structure Fits (L : Language β) (R : α → β → Prop) (s : Shape) : Prop where
  viable : L.Viable []
  stands : ∀ {ls b}, L ls b → ∃ a, R a b
  empty : ∀ {b}, L [] b → s.nullable
  first : ∀ {l ls b}, L (l :: ls) b → s.first l

theorem pure_iff {a b : α} {ls : List Lexeme} : (pure a : Language α) ls b ↔ ls = [] ∧ b = a :=
  Iff.rfl

theorem bind_assoc (L : Language α) (M : α → Language β) (N : β → Language γ) :
    (L >>= M >>= N) = (L >>= fun a => M a >>= N) := by
  funext ls c
  apply propext
  constructor
  · intro h
    obtain ⟨_, ws, b, rfl, ⟨us, vs, a, rfl, hl, hm⟩, hn⟩ := h
    exact ⟨us, vs ++ ws, a, List.append_assoc us vs ws, hl, vs, ws, b, rfl, hm, hn⟩
  · intro h
    obtain ⟨us, _, a, rfl, hl, vs, ws, b, rfl, hm, hn⟩ := h
    exact ⟨us ++ vs, ws, b, (List.append_assoc us vs ws).symm, ⟨us, vs, a, rfl, hl, hm⟩, hn⟩

theorem word_bind_iff {x : Lexeme} {M : Unit → Language β} {ls : List Lexeme} {b : β} :
    (word x >>= M) ls b ↔ ∃ rest, ls = x :: rest ∧ M () rest b := by
  constructor
  · intro h
    obtain ⟨us, vs, _, rfl, hw, hm⟩ := h
    obtain rfl : us = [x] := hw
    exact ⟨vs, rfl, hm⟩
  · intro h
    obtain ⟨rest, rfl, hm⟩ := h
    exact ⟨[x], rest, (), rfl, rfl, hm⟩

theorem after_eq_pure {L : Language β} {l : Lexeme} {b : β} (hb : L [l] b)
    (h : ∀ {ls b'}, L (l :: ls) b' → ls = [] ∧ b' = b) : L.after l = pure b := by
  funext ls b'
  apply propext
  constructor
  · exact h
  · intro hl
    obtain ⟨rfl, rfl⟩ := hl
    exact hb

/-- A completed front and a completed rest complete both. -/
theorem Viable.bind {L : Language α} {M : α → Language β} {us : List Lexeme} (h : L.Viable us)
    (hm : ∀ ls a, L ls a → (M a).Viable []) : (L >>= M).Viable us := by
  obtain ⟨vs, a, hv, hl⟩ := h
  obtain ⟨ws, b, hw, hb⟩ := hm _ a hl
  refine ⟨vs ++ ws, b, by simp [hv, hw], us ++ vs, ws, a, ?_, hl, hb⟩
  rw [List.append_assoc]

theorem Viable.behind {L : Language α} {M : α → Language β} {us vs : List Lexeme} {a : α}
    (hl : L us a) (h : (M a).Viable vs) : (L >>= M).Viable (us ++ vs) := by
  obtain ⟨ws, b, hw, hb⟩ := h
  exact ⟨ws, b, hw, us, vs ++ ws, a, List.append_assoc us vs ws, hl, hb⟩

end Language

open TransformDirective.Schema.Language

variable {α β γ δ : Type}

theorem head?_append_congr {τ : Type} {r r' : List τ} (us : List τ) (h : r'.head? = r.head?) :
    (us ++ r').head? = (us ++ r).head? := by
  cases us with
  | nil => exact h
  | cons u us => rfl

/-- The rule takes `us` with the value `a`, whatever stands behind the first word of `r`. -/
def Stops (p : Rule α) (us r : List Token) (a : α) : Prop :=
  ∀ r', r'.head? = r.head? → p (us ++ r') = .ok a r'

/-- The rule fails behind `us`, whatever stands behind the first word of `r`. -/
def Fails (p : Rule α) (us r : List Token) (e : RuleFault) : Prop :=
  ∀ r', r'.head? = r.head? → ∃ left, p (us ++ r') = .error e left

section Extent

variable {p q : Rule α} {f : α → Rule γ} {t : Token} {us vs r : List Token} {a : α} {e : RuleFault}

theorem Stops.bind {c : γ} (h : Stops p us (vs ++ r) a) (h' : Stops (f a) vs r c) :
    Stops (p >>= f) (us ++ vs) r c := by
  intro r' hr
  rw [List.append_assoc, Parser.bind_apply, h (vs ++ r') (head?_append_congr vs hr)]
  exact h' r' hr

theorem Stops.bind_fails (h : Stops p us (vs ++ r) a) (h' : Fails (f a) vs r e) :
    Fails (p >>= f) (us ++ vs) r e := by
  intro r' hr
  obtain ⟨left, hback⟩ := h' r' hr
  refine ⟨left, ?_⟩
  rw [List.append_assoc, Parser.bind_apply, h (vs ++ r') (head?_append_congr vs hr)]
  exact hback

theorem Fails.bind (h : Fails p us r e) : Fails (p >>= f) us r e := by
  intro r' hr
  obtain ⟨left, hp⟩ := h r' hr
  exact ⟨left, by rw [Parser.bind_apply, hp]⟩

theorem Stops.cons (h : Stops q us r a) (hp : ∀ ts, p (t :: ts) = q ts) :
    Stops p (t :: us) r a := by
  intro r' hr
  rw [List.cons_append, hp]
  exact h r' hr

theorem Fails.cons (h : Fails q us r e) (hp : ∀ ts, p (t :: ts) = q ts) :
    Fails p (t :: us) r e := by
  intro r' hr
  rw [List.cons_append, hp]
  exact h r' hr

end Extent

/-- What the rule takes belongs to the language, and its value stands for the meaning. -/
def Sound (n : Nat) (p : Rule α) (L : Language β) (R : α → β → Prop) : Prop :=
  ∀ ⦃ts a r⦄, ts.length < n → p ts = .ok a r →
    ∃ us b, ts = us ++ r ∧ L (lexemes us) b ∧ R a b ∧ Stops p us r a

/-- The rule fails at the first word behind which nothing can help. -/
def Refuses (n : Nat) (p : Rule α) (L : Language β) : Prop :=
  ∀ ⦃ts e left⦄, ts.length < n → p ts = .error e left →
    ∃ us r, ts = us ++ r ∧ e.found = r.head? ∧ L.Viable (lexemes us) ∧ Fails p us r e

/-- The rule takes a sequence of the language, unless the next word might go on with it. -/
def Complete (n : Nat) (p : Rule α) (L : Language β) (R : α → β → Prop) (more : Lexeme → Prop) :
    Prop :=
  ∀ ⦃us b r⦄, (us ++ r).length < n → L (lexemes us) b → (∀ t ∈ r.head?, ¬ more t.lexeme) →
    ∃ a, p (us ++ r) = .ok a r ∧ R a b

/-- On fewer than `n` words, `p` reads the language: its values stand for the meanings under `R`.
The bound is for rules that call themselves. -/
structure Recognizes (n : Nat) (p : Rule α) (L : Language β) (R : α → β → Prop) (s : Shape) :
    Prop extends L.Fits R s where
  takes : Sound n p L R
  refuses : Refuses n p L
  accepts : Complete n p L R s.more

namespace Recognizes

variable {n : Nat} {p : Rule α} {f : α → Rule γ} {L : Language β} {M : β → Language δ}
  {R : α → β → Prop} {S : γ → δ → Prop} {s t : Shape}

theorem zero (h : L.Fits R s) : Recognizes 0 p L R s where
  toFits := h
  takes := fun _ _ _ hn => absurd hn (Nat.not_lt_zero _)
  refuses := fun _ _ _ hn => absurd hn (Nat.not_lt_zero _)
  accepts := fun _ _ _ hn => absurd hn (Nat.not_lt_zero _)

/-- The bound on the number of words may be lowered. -/
theorem mono (h : Recognizes n p L R s) (hm : m ≤ n) : Recognizes m p L R s where
  toFits := h.toFits
  takes := fun _ _ _ hn => h.takes (by omega)
  refuses := fun _ _ _ hn => h.refuses (by omega)
  accepts := fun _ _ _ hn => h.accepts (by omega)

/-- A shape may promise less. -/
theorem weaken (h : Recognizes n p L R s) (first : ∀ l, s.first l → t.first l)
    (more : ∀ l, s.more l → t.more l) (nullable : s.nullable → t.nullable) :
    Recognizes n p L R t where
  viable := h.viable
  stands := h.stands
  empty := fun hb => nullable (h.empty hb)
  first := fun hb => first _ (h.first hb)
  takes := h.takes
  refuses := h.refuses
  accepts := fun _ _ _ hn hl hr => h.accepts hn hl fun t ht hm => hr t ht (more _ hm)

theorem imp {R' : α → β → Prop} (h : Recognizes n p L R s) (hr : ∀ a b, R a b → R' a b) :
    Recognizes n p L R' s where
  viable := h.viable
  stands := fun hl => by
    obtain ⟨a, ha⟩ := h.stands hl
    exact ⟨a, hr a _ ha⟩
  empty := h.empty
  first := h.first
  takes := fun _ _ _ hn hp => by
    obtain ⟨us, b, ht, hl, hb, hstops⟩ := h.takes hn hp
    exact ⟨us, b, ht, hl, hr _ _ hb, hstops⟩
  refuses := h.refuses
  accepts := fun _ _ _ hn hl hm => by
    obtain ⟨a, hp, ha⟩ := h.accepts hn hl hm
    exact ⟨a, hp, hr _ _ ha⟩

theorem pure {a : α} {b : β} (h : R a b) :
    Recognizes n (Pure.pure a) (Pure.pure b) R .nothing where
  viable := ⟨[], b, rfl, rfl, rfl⟩
  stands := fun hl => by
    obtain ⟨-, rfl⟩ := hl
    exact ⟨a, h⟩
  empty := fun _ => trivial
  first := fun hl => by
    obtain ⟨hl, -⟩ := hl
    exact List.cons_ne_nil _ _ hl
  takes := fun _ _ _ _ hp => by
    cases hp
    exact ⟨[], b, rfl, ⟨rfl, rfl⟩, h, fun _ _ => rfl⟩
  refuses := fun _ _ _ _ hp => by cases hp
  accepts := fun us _ r _ hl _ => by
    obtain ⟨hl, rfl⟩ := hl
    obtain rfl : us = [] := List.map_eq_nil_iff.mp hl
    exact ⟨a, rfl, h⟩

section Bind

variable (hp : Recognizes n p L R s) (hf : ∀ a b, R a b → Recognizes n (f a) (M b) S t)
include hp hf

theorem fits_behind {ls : List Lexeme} {b : β} (hl : L ls b) : (M b).Fits S t := by
  obtain ⟨a, ha⟩ := hp.stands hl
  exact (hf a b ha).toFits

theorem bind_fits : (L >>= M).Fits S (s.andThen t) := by
  constructor
  · exact hp.viable.bind fun _ _ hl => (fits_behind hp hf hl).viable
  · intro ls d hl
    obtain ⟨us, vs, b, rfl, hb, hd⟩ := hl
    exact (fits_behind hp hf hb).stands hd
  · intro d hl
    obtain ⟨us, vs, b, hls, hb, hd⟩ := hl
    obtain ⟨rfl, rfl⟩ := List.append_eq_nil_iff.mp hls.symm
    exact ⟨hp.empty hb, (fits_behind hp hf hb).empty hd⟩
  · intro l ls d hl
    obtain ⟨us, vs, b, hls, hb, hd⟩ := hl
    cases us with
    | nil =>
      obtain rfl : l :: ls = vs := hls
      exact .inr ⟨hp.empty hb, (fits_behind hp hf hb).first hd⟩
    | cons u us =>
      obtain ⟨rfl, -⟩ := List.cons.inj hls
      exact .inl (hp.first hb)

/-- What one rule behind another takes is a sequence of one language behind the other. -/
theorem bind_sound : Sound n (p >>= f) (L >>= M) S := by
  intro ts c r hn h
  rw [Parser.bind_apply] at h
  cases hpt : p ts with
  | error e left => rw [hpt] at h; cases h
  | ok a r₁ =>
    rw [hpt] at h
    obtain ⟨us, b, rfl, hl, hab, hstops⟩ := hp.takes hn hpt
    rw [List.length_append] at hn
    obtain ⟨vs, d, rfl, hd, hcd, hstops'⟩ := (hf a b hab).takes (by omega) h
    refine ⟨us ++ vs, d, (List.append_assoc us vs r).symm, ?_, hcd, hstops.bind hstops'⟩
    rw [lexemes_append]
    exact ⟨_, _, b, rfl, hl, hd⟩

/-- Where one rule behind another fails, the words before the fault can be completed. -/
theorem bind_refuses : Refuses n (p >>= f) (L >>= M) := by
  intro ts e left hn h
  rw [Parser.bind_apply] at h
  cases hpt : p ts with
  | error e' left' =>
    rw [hpt] at h
    cases h
    obtain ⟨us, r, rfl, hfound, hv, hfails⟩ := hp.refuses hn hpt
    exact ⟨us, r, rfl, hfound, hv.bind fun _ _ hl => (fits_behind hp hf hl).viable, hfails.bind⟩
  | ok a r₁ =>
    rw [hpt] at h
    obtain ⟨us, b, rfl, hl, hab, hstops⟩ := hp.takes hn hpt
    rw [List.length_append] at hn
    obtain ⟨vs, r, rfl, hfound, hv, hfails⟩ := (hf a b hab).refuses (by omega) h
    refine ⟨us ++ vs, r, (List.append_assoc us vs r).symm, hfound, ?_, hstops.bind_fails hfails⟩
    rw [lexemes_append]
    exact hv.behind hl

/-- One rule behind another takes every sequence of the two languages. The word behind the first
part starts the second part or stands behind both. -/
theorem bind_complete (apart : ∀ l, s.more l → ¬ t.first l) :
    Complete n (p >>= f) (L >>= M) S (s.andThen t).more := by
  intro ws d r hn hl hr
  obtain ⟨ls, ks, b, hws, hb, hd⟩ := hl
  obtain ⟨us, vs, rfl, rfl, rfl⟩ := lexemes_eq_append hws
  rw [List.append_assoc] at hn ⊢
  have hstop : ∀ t ∈ (vs ++ r).head?, ¬ s.more t.lexeme := by
    intro x hx hmore
    cases vs with
    | nil => exact hr x hx (.inr ⟨(fits_behind hp hf hb).empty hd, hmore⟩)
    | cons v vs =>
      obtain rfl : v = x := Option.some.inj hx
      exact apart _ hmore ((fits_behind hp hf hb).first hd)
  obtain ⟨a, hpa, hab⟩ := hp.accepts hn hb hstop
  rw [List.length_append] at hn
  obtain ⟨c, hfc, hcd⟩ := (hf a b hab).accepts (by omega) hd fun t ht hm => hr t ht (.inl hm)
  exact ⟨c, by rw [Parser.bind_apply, hpa]; exact hfc, hcd⟩

/-- One rule behind another, if no word goes on with the first one that starts the second one. -/
theorem bind (apart : ∀ l, s.more l → ¬ t.first l) :
    Recognizes n (p >>= f) (L >>= M) S (s.andThen t) where
  toFits := bind_fits hp hf
  takes := bind_sound hp hf
  refuses := bind_refuses hp hf
  accepts := bind_complete hp hf apart

end Bind

end Recognizes

end TransformDirective.Schema
