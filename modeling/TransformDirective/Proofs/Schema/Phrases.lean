import TransformDirective.Proofs.Schema.Repetition

namespace TransformDirective.Schema

open TransformDirective.Schema.Language TransformDirective.Text

variable {α β : Type} {n : Nat} {q item : Rule α} {L M : Language β} {R : α → β → Prop}
  {s : Shape}

/-- Takes the next word if it is this one, and tells whether it did. -/
abbrev acceptWord (x : Lexeme) : Rule Bool := Rule.accept fun t => t.lexeme == x

theorem acceptWord_cons (x : Lexeme) (t : Token) (ts : List Token) :
    acceptWord x (t :: ts) = if t.lexeme = x then .ok true ts else .ok false (t :: ts) := by
  by_cases h : t.lexeme = x
  · simp [Rule.accept, Parser.bind_apply, Parser.peek, Parser.next, Parser.pure_apply, h]
  · simp [Rule.accept, Parser.bind_apply, Parser.peek, Parser.pure_apply, h]

theorem acceptWord_bind_cons (x : Lexeme) (f : Bool → Rule α) (t : Token) (ts : List Token) :
    (acceptWord x >>= f) (t :: ts) = if t.lexeme = x then f true ts else f false (t :: ts) := by
  rw [Parser.bind_apply, acceptWord_cons]
  by_cases h : t.lexeme = x
  · rw [if_pos h, if_pos h]
  · rw [if_neg h, if_neg h]

theorem acceptWord_bind_nil (x : Lexeme) (f : Bool → Rule α) :
    (acceptWord x >>= f) [] = f false [] := rfl

abbrev takeWord (x : Lexeme) (e : Expected) : Rule Unit := do
  if ← acceptWord x then return () else Rule.expected e

theorem word_after (x : Lexeme) : (word x).after x = pure () :=
  after_eq_pure rfl fun h => ⟨(List.cons.inj h).2, rfl⟩

theorem takeWord_recognizes {x : Lexeme} (e : Expected) (hx : x.isPlain) :
    Recognizes n (takeWord x e) (word x) Eq (.closed (· = x)) := by
  have hfirst : ByFirst (takeWord x e) fun l => if l = x then some (pure ()) else none := by
    constructor
    · exact ⟨_, _, acceptWord_bind_nil x _, rfl⟩
    · intro t q hq ts
      obtain ⟨ht, rfl⟩ : t.lexeme = x ∧ pure () = q := by simpa using hq
      rw [takeWord, acceptWord_bind_cons, if_pos ht]
      rfl
    · intro t hq
      have ht : t.lexeme ≠ x := by simpa using hq
      refine ⟨.unexpected e (some t), rfl, fun ts => ⟨t :: ts, ?_⟩⟩
      rw [takeWord, acceptWord_bind_cons, if_neg ht]
      rfl
  refine ((hfirst.recognizes (n := n) (fun _ => .nothing)
    ?_ ?_ ?_).mono (Nat.le_succ n)).weaken ?_ ?_ ?_
  · intro l q hq
    obtain ⟨rfl, rfl⟩ : l = x ∧ pure () = q := by simpa using hq
    rw [word_after]
    exact .pure rfl
  · intro ls b hl
    exact ⟨x, [], pure (), hl, by simp⟩
  · exact ⟨x, pure (), hx, by simp⟩
  · simp
  · simp
  · simp

theorem punct_recognizes (p : Punct) :
    Recognizes n (Rule.punct p) (mark p) Eq (.closed (· = .punct p)) :=
  takeWord_recognizes (.punct p) rfl

theorem keyword_recognizes {k : String} (hk : isNameText k) :
    Recognizes n (Rule.keyword k) (keyword k) Eq (.closed (· = .name k)) :=
  takeWord_recognizes (.keyword k) hk

def Lexeme.name? : Lexeme → Option String
  | name m => some m
  | _ => none

theorem Lexeme.name?_eq_some {l : Lexeme} {m : String} : l.name? = some m ↔ l = name m := by
  cases l <;> simp [name?]

theorem peekName_bind_cons (f : Option String → Rule α) (t : Token) (ts : List Token) :
    (Rule.peekName >>= f) (t :: ts) = f t.lexeme.name? (t :: ts) := by
  obtain ⟨l, sp⟩ := t
  cases l <;> rfl

theorem name_cons_of_name {t : Token} {m : String} (h : t.lexeme.name? = some m) (ts : List Token) :
    Rule.name (t :: ts) = .ok m ts := by
  rw [Rule.name, peekName_bind_cons, h]
  rfl

theorem name_cons_of_not_name {t : Token} (h : t.lexeme.name? = none) (ts : List Token) :
    Rule.name (t :: ts) = .error (.unexpected .name (some t)) (t :: ts) := by
  rw [Rule.name, peekName_bind_cons, h]
  rfl

theorem name_byFirst : ByFirst Rule.name fun l => l.name?.map pure := by
  constructor
  · exact ⟨_, _, rfl, rfl⟩
  · intro t q hq ts
    obtain ⟨m, hm, rfl⟩ := Option.map_eq_some_iff.mp hq
    exact name_cons_of_name hm ts
  · intro t hq
    have hm : t.lexeme.name? = none := by simpa using hq
    exact ⟨_, rfl, fun ts => ⟨_, name_cons_of_not_name hm ts⟩⟩

theorem name_recognizes :
    Recognizes n Rule.name name Eq (.closed fun l => ∃ m, l = .name m) := by
  refine ((name_byFirst.recognizes (n := n)
    (fun _ => .nothing) ?_ ?_ ?_).mono
    (Nat.le_succ n)).weaken ?_ ?_ ?_
  · intro l q hq
    obtain ⟨m, hm, rfl⟩ := Option.map_eq_some_iff.mp hq
    obtain rfl := Lexeme.name?_eq_some.mp hm
    have hafter : name.after (.name m) = pure m := after_eq_pure rfl fun h => by
      cases h
      exact ⟨rfl, rfl⟩
    rw [hafter]
    exact .pure rfl
  · intro ls b hl
    exact ⟨.name b, [], pure b, hl, rfl⟩
  · exact ⟨.name "a", pure "a", by decide, rfl⟩
  · intro l hl
    simp only [Option.isSome_map] at hl
    obtain ⟨m, hm⟩ := Option.isSome_iff_exists.mp hl
    exact ⟨m, Lexeme.name?_eq_some.mp hm⟩
  · simp
  · simp

theorem acceptWord_orNothing (x : Lexeme) (q : Rule α) (a : α) :
    OrNothing (do if ← acceptWord x then q else return a) (· == x) q a where
  taken := fun ht ts => by rw [acceptWord_bind_cons, if_pos (by simpa using ht)]; rfl
  passed := fun {ts} hpass => by
    cases ts with
    | nil => rfl
    | cons t ts =>
      rw [acceptWord_bind_cons, if_neg (by simpa using hpass t rfl)]
      rfl

theorem ifWord_words (x : Lexeme) (N : Unit → Language β) (b : β) :
    OrNothing.Words (either (word x >>= N) (pure b)) (· == x) (fun _ => N ()) b := by
  intro ls b'
  simp [either, word_bind_iff, pure_iff]

/-- What a word introduces, or nothing if the word does not come next. -/
theorem ifWord_recognizes {x : Lexeme} {N : Unit → Language β} {a : α} {b : β}
    (h : Recognizes n q (N ()) R s) (hab : R a b) :
    Recognizes n (do if ← acceptWord x then q else return a)
      (either (word x >>= N) (pure b)) R ⟨(· = x), fun l => l = x ∨ s.more l, True⟩ := by
  refine (((acceptWord_orNothing x q a).recognizes (ifWord_words x N b) (fun _ => h) hab).mono
    (Nat.le_succ n)).weaken ?_ ?_ ?_
  · simp
  · simp
  · simp

/-- Whether a word comes next. -/
theorem accept_recognizes (x : Lexeme) :
    Recognizes n (acceptWord x) (given x) Eq (.mayStart (· = x)) := by
  have haccept : OrNothing (acceptWord x) (· == x) (pure true) false := by
    constructor
    · intro t ht ts
      rw [acceptWord_cons, if_pos (by simpa using ht)]
      rfl
    · intro ts hpass
      cases ts with
      | nil => rfl
      | cons t ts => rw [acceptWord_cons, if_neg (by simpa using hpass t rfl)]
  have hwords : OrNothing.Words (given x) (· == x) (fun _ => pure true) false := by
    intro ls b
    simp [given, either, word_bind_iff, pure_iff]
  refine ((haccept.recognizes hwords (fun _ => .pure rfl) rfl).mono (Nat.le_succ n)).weaken ?_ ?_ ?_
  · simp
  · simp
  · simp

def Lexeme.isString : Lexeme → Bool
  | string _ => true
  | _ => false

theorem Lexeme.isString_iff {l : Lexeme} : l.isString ↔ ∃ text, l = string text := by
  cases l <;> simp [isString]

theorem description_orNothing : OrNothing Rule.description Lexeme.isString (pure ()) () where
  taken := fun {t} ht ts => by
    obtain ⟨l, sp⟩ := t
    cases l with
    | string text => rfl
    | _ => cases ht
  passed := fun {ts} hpass => by
    cases ts with
    | nil => rfl
    | cons t ts =>
      obtain ⟨l, sp⟩ := t
      cases l with
      | string text => exact absurd (hpass _ rfl) (by simp [Lexeme.isString])
      | _ => rfl

theorem description_recognizes :
    Recognizes n Rule.description description Eq
      (.mayStart fun l => ∃ text, l = .string text) := by
  have hwords : OrNothing.Words description Lexeme.isString (fun _ => pure ()) () := by
    intro ls b
    constructor
    · intro h
      obtain ⟨text, rfl⟩ | ⟨rfl, rfl⟩ := h
      · exact .inl ⟨.string text, [], rfl, rfl, rfl, rfl⟩
      · exact .inr ⟨rfl, rfl⟩
    · intro h
      obtain ⟨l, ls', hl, rfl, rfl, -⟩ | ⟨rfl, rfl⟩ := h
      · cases l with
        | string text => exact .inl ⟨text, rfl⟩
        | _ => cases hl
      · exact .inr ⟨rfl, rfl⟩
  refine ((description_orNothing.recognizes hwords (fun _ => .pure rfl) rfl).mono
    (Nat.le_succ n)).weaken ?_ ?_ ?_
  · simp [Lexeme.isString_iff]
  · simp [Lexeme.isString_iff]
  · simp

/-- The place of a node that took these words. -/
def placeOf : List Token → Span
  | [] => .atCursor .start
  | t :: ts => Rule.coveredSpan t ts

theorem located_ok {rule : Rule (Span → α)} {us r : List Token} {f : Span → α}
    (h : rule (us ++ r) = .ok f r) : Rule.located rule (us ++ r) = .ok (f (placeOf us)) r := by
  have hus : (us ++ r).take ((us ++ r).length - r.length) = us := by simp
  rw [Rule.located, Parser.withTaken, Parser.bind_apply, h]
  simp only [Parser.pure_apply, hus]
  cases us <;> rfl

theorem located_error {rule : Rule (Span → α)} {ts left : List Token} {e : RuleFault}
    (h : rule ts = .error e left) : Rule.located rule ts = .error e left := by
  rw [Rule.located, Parser.withTaken, Parser.bind_apply, h]

/-- A node means the same at every place. -/
theorem located_recognizes {rule : Rule (Span → α)}
    (h : Recognizes n rule L (fun f b => ∀ span, R (f span) b) s) :
    Recognizes n (Rule.located rule) L R s := by
  constructor
  · constructor
    · exact h.viable
    · intro ls b hl
      obtain ⟨f, hf⟩ := h.stands hl
      exact ⟨f nowhere, hf nowhere⟩
    · exact h.empty
    · exact h.first
  · intro ts a r hn hp
    cases hr : rule ts with
    | error e left => rw [located_error hr] at hp; cases hp
    | ok f r' =>
      obtain ⟨us, b, rfl, hl, hfb, hstops⟩ := h.takes hn hr
      rw [located_ok hr] at hp
      cases hp
      exact ⟨us, b, rfl, hl, hfb _, fun r' hr' => located_ok (hstops r' hr')⟩
  · intro ts e left hn hp
    cases hr : rule ts with
    | ok f r' =>
      obtain ⟨us, b, rfl, -, -, -⟩ := h.takes hn hr
      rw [located_ok hr] at hp
      cases hp
    | error e' left' =>
      rw [located_error hr] at hp
      cases hp
      obtain ⟨us, r, rfl, hfound, hv, hfails⟩ := h.refuses hn hr
      refine ⟨us, r, rfl, hfound, hv, ?_⟩
      intro r' hr'
      obtain ⟨left, hleft⟩ := hfails r' hr'
      exact ⟨left, located_error hleft⟩
  · intro us b r hn hl hr
    obtain ⟨f, hf, hfb⟩ := h.accepts hn hl hr
    exact ⟨f (placeOf us), located_ok hf, hfb _⟩

section Enclosed

variable {opening closing : Punct} (h : Recognizes n item L R s) (solid : ¬ s.nullable)
  (apart : ∀ l, s.more l → ¬ s.first l) (starts : ¬ s.first (.punct closing))
  (ends : ¬ s.more (.punct closing))
include h solid apart starts ends

theorem itemsBefore_recognizes :
    Recognizes n (Parser.repeatWhile (fun t => !Rule.isPunct closing t) item) (many L)
      (List.Forall₂ R) ⟨s.first, fun l => l ≠ .punct closing, True⟩ := by
  refine (h.itemsWhile (fun l => !(l == .punct closing)) solid ?_ apart).weaken ?_ ?_ ?_
  · intro l hl
    have hne : l ≠ .punct closing := fun he => starts (he ▸ hl)
    simpa using hne
  · simp
  · intro l hl
    obtain hl | hl := hl
    · simpa using hl
    · exact fun he => ends (he ▸ hl)
  · simp

/-- Items up to a closing mark that no item starts or goes on with. -/
theorem itemsUntil_recognizes :
    Recognizes n (Rule.itemsUntil closing item) (do let bs ← many L; mark closing; return bs)
      (List.Forall₂ R) (.closed fun l => s.first l ∨ l = .punct closing) := by
  have hitems := itemsBefore_recognizes h solid apart starts ends
  refine (hitems.bind (fun as bs hab => (punct_recognizes closing).bind
    (fun _ _ _ => .pure hab) ?_) ?_).weaken ?_ ?_ ?_
  · simp
  · simp
  · simp
  · simp
  · simp

theorem optionallyEnclosed_recognizes :
    Recognizes n (Rule.optionallyEnclosed opening closing item)
      (optionalList (enclosed opening closing L)) (List.Forall₂ R)
      (.mayStart (· = .punct opening)) := by
  have hitems := itemsUntil_recognizes h solid apart starts ends
  refine (ifWord_recognizes (N := fun _ => do let bs ← many L; mark closing; return bs) hitems
    List.Forall₂.nil).weaken ?_ ?_ ?_
  · simp
  · simp
  · simp

end Enclosed

/-- Names with a mark between each two, and perhaps one in front. -/
theorem separatedNames_recognizes (p : Punct) :
    Recognizes n (Rule.separatedNames p) (separatedNames p) Eq
      ⟨fun l => l = .punct p ∨ ∃ m, l = .name m, (· = .punct p), False⟩ := by
  have hmore : Recognizes n (Parser.repeatWhile (Rule.isPunct p) do Rule.punct p; Rule.name)
      (many do mark p; name) Eq (.mayStart (· = .punct p)) := by
    have hitem := (punct_recognizes (n := n) p).bind (fun _ _ _ => name_recognizes) (by simp)
    refine ((hitem.itemsWhile (· == .punct p) ?_ ?_ ?_).imp ?_).weaken ?_ ?_ ?_
    · simp
    · simp
    · simp
    · intro as bs hab
      exact List.forall₂_eq_eq_eq ▸ hab
    · simp
    · simp
    · simp
  refine ((accept_recognizes (.punct p)).bind (fun _ _ _ => name_recognizes.bind (fun m _ hm =>
    hmore.bind (fun ms _ hms => .pure (by rw [hm, hms])) ?_) ?_) ?_).weaken ?_ ?_ ?_
  · simp
  · simp
  · simp
  · simp
  · simp
  · simp

end TransformDirective.Schema
