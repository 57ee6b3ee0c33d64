import TransformDirective.Proofs.Schema.Phrases

namespace TransformDirective.Schema

open TransformDirective.Schema.Language

variable {α β : Type} {n : Nat}

section Congruence

variable {item item' : Rule α} {ts : List Token}

theorem bind_congr {p : Rule α} {f g : α → Rule β}
    (h : ∀ a r, p ts = .ok a r → f a r = g a r) : (p >>= f) ts = (p >>= g) ts := by
  rw [Parser.bind_apply, Parser.bind_apply]
  cases hp : p ts with
  | error e left => rfl
  | ok a r => exact h a r hp

theorem bind_congr_left {p p' : Rule α} {f : α → Rule β} (h : p ts = p' ts) :
    (p >>= f) ts = (p' >>= f) ts := by
  rw [Parser.bind_apply, Parser.bind_apply, h]

/-- A repetition calls its item on the words it was given and on later ones. -/
theorem repeatWhile_congr (test : Token → Bool)
    (h : ∀ r : List Token, r.length ≤ ts.length → item r = item' r) :
    Parser.repeatWhile test item ts = Parser.repeatWhile test item' ts := by
  induction hk : ts.length using Nat.strongRecOn generalizing ts with
  | ind k ih =>
    subst hk
    rw [repeatWhile_apply, repeatWhile_apply test item', h ts (Nat.le_refl _)]
    split
    · cases item' ts with
      | error e left => rfl
      | ok a r =>
        by_cases hlt : r.length < ts.length
        · have hrest := ih r.length hlt (fun r' hr' => h r' (by omega)) rfl
          simp only [hlt, if_true, hrest]
        · simp only [hlt, if_false]
    · rfl

theorem itemsUntil_congr (closing : Punct)
    (h : ∀ r : List Token, r.length ≤ ts.length → item r = item' r) :
    Rule.itemsUntil closing item ts = Rule.itemsUntil closing item' ts := by
  exact bind_congr_left (repeatWhile_congr _ h)

theorem length_le_of_takes {L : Language β} {R : α → β → Prop} {s : Shape} {p : Rule α}
    {r : List Token} {a : α} (h : Recognizes (ts.length + 1) p L R s) (hp : p ts = .ok a r) :
    r.length ≤ ts.length := by
  obtain ⟨us, b, hts, -⟩ := h.takes (Nat.lt_succ_self _) hp
  rw [hts, List.length_append]
  omega

theorem member_congr {inner inner' : Rule Value}
    (h : ∀ r : List Token, r.length ≤ ts.length → inner r = inner' r) :
    Rule.member inner ts = Rule.member inner' ts := by
  refine bind_congr fun key r hr => bind_congr fun _ r' hr' => ?_
  have hlen := length_le_of_takes name_recognizes hr
  have hlen' := length_le_of_takes (punct_recognizes .colon) hr'
  exact bind_congr_left (h r' (by omega))

end Congruence

theorem map_iff {L : Language α} {f : α → β} {ls : List Lexeme} {b : β} :
    (do return f (← L) : Language β) ls b ↔ ∃ a, L ls a ∧ b = f a := by
  constructor
  · intro h
    obtain ⟨us, _, a, rfl, ha, rfl, rfl⟩ := h
    rw [List.append_nil]
    exact ⟨a, ha, rfl⟩
  · intro h
    obtain ⟨a, ha, rfl⟩ := h
    exact ⟨ls, [], a, (List.append_nil ls).symm, ha, rfl, rfl⟩

theorem closed_iff {L : Language α} {p : Punct} {f : α → β} {ls : List Lexeme} {b : β} :
    (do let a ← L; mark p; return f a : Language β) ls b ↔
      ∃ us a, ls = us ++ [.punct p] ∧ L us a ∧ b = f a := by
  constructor
  · intro h
    obtain ⟨us, _, a, rfl, ha, hclose⟩ := h
    obtain ⟨_, rfl, rfl, rfl⟩ := word_bind_iff.mp hclose
    exact ⟨us, a, rfl, ha, rfl⟩
  · intro h
    obtain ⟨us, a, rfl, ha, rfl⟩ := h
    exact ⟨us, [.punct p], a, rfl, ha, word_bind_iff.mpr ⟨[], rfl, rfl, rfl⟩⟩

/-- The type without null if an exclamation mark comes next, and else the type. -/
def bangRule (t : TypeRef) : Rule TypeRef := do
  if ← Rule.accept (Rule.isPunct .bang) then return .nonNull t else return t

def bangTail (t : TypeRef) : Language TypeRef :=
  either (do mark .bang; return .nonNull t) (return t)

theorem bangTail_iff {t u : TypeRef} {ls : List Lexeme} :
    bangTail t ls u ↔ ls = [.punct .bang] ∧ u = .nonNull t ∨ ls = [] ∧ u = t := by
  simp [bangTail, either, mark, word_bind_iff, pure_iff]

theorem bangRule_recognizes (t : TypeRef) :
    Recognizes n (bangRule t) (bangTail t) Eq
      (.mayStart (· = .punct .bang)) := by
  have hbang : Recognizes n (pure (TypeRef.nonNull t)) (pure (TypeRef.nonNull t)) Eq _ := .pure rfl
  refine (ifWord_recognizes (x := .punct .bang) (N := fun _ => pure (TypeRef.nonNull t)) hbang
    (Eq.refl t)).weaken ?_ ?_ ?_
  · simp
  · simp
  · simp

/-- How a type reference goes on behind its first word. -/
def typeRefBy : Lexeme → Option (Rule TypeRef)
  | .name m => some (bangRule (.named m))
  | .punct .bracketOpen => some (Rule.listType Rule.typeRef >>= bangRule)
  | _ => none

theorem typeRef_cons (t : Token) (ts : List Token) :
    Rule.typeRef (t :: ts) =
      if t.lexeme = .punct .bracketOpen then (Rule.listType Rule.typeRef >>= bangRule) ts
      else (Rule.namedType >>= bangRule) (t :: ts) := by
  refine (Parser.recursive_apply _ _ _).trans ?_
  refine (acceptWord_bind_cons (.punct .bracketOpen) _ t ts).trans ?_
  split
  · refine bind_congr_left (bind_congr_left ?_)
    exact if_pos (Nat.lt_succ_self ts.length)
  · rfl

theorem typeRef_byFirst : ByFirst Rule.typeRef typeRefBy := by
  constructor
  · exact ⟨_, _, Parser.recursive_apply _ _ _, rfl⟩
  · intro t q hq ts
    obtain ⟨l, sp⟩ := t
    rw [typeRef_cons]
    unfold typeRefBy at hq
    split at hq
    · next m hm =>
      cases hq
      obtain rfl : l = .name m := hm
      rfl
    · next hopen =>
      cases hq
      exact if_pos hopen
    · cases hq
  · intro t ht
    obtain ⟨l, sp⟩ := t
    refine ⟨.unexpected .typeRef (some ⟨l, sp⟩), rfl, fun ts => ⟨⟨l, sp⟩ :: ts, ?_⟩⟩
    unfold typeRefBy at ht
    split at ht
    · cases ht
    · cases ht
    · next hname hopen =>
      rw [typeRef_cons, if_neg hopen]
      cases l with
      | name m => exact absurd rfl (hname m)
      | _ => rfl

theorem typeRef_after_name (m : String) : typeRef.after (.name m) = bangTail (.named m) := by
  funext ls u
  apply propext
  rw [bangTail_iff]
  constructor
  · intro h
    cases h with
    | named => exact .inr ⟨rfl, rfl⟩
    | namedNonNull => exact .inl ⟨rfl, rfl⟩
  · intro h
    obtain ⟨rfl, rfl⟩ | ⟨rfl, rfl⟩ := h
    · exact .namedNonNull m
    · exact .named m

theorem typeRef_after_bracket : typeRef.after (.punct .bracketOpen) =
    ((do let t ← typeRef; mark .bracketClose; return TypeRef.list t) >>= bangTail) := by
  funext ls u
  apply propext
  constructor
  · intro h
    cases h with
    | @list ls t h =>
      exact ⟨_, [], _, (List.append_nil _).symm, closed_iff.mpr ⟨ls, t, rfl, h, rfl⟩,
        bangTail_iff.mpr (.inr ⟨rfl, rfl⟩)⟩
    | @listNonNull ls t h =>
      exact ⟨_, [.punct .bang], _, by simp, closed_iff.mpr ⟨ls, t, rfl, h, rfl⟩,
        bangTail_iff.mpr (.inl ⟨rfl, rfl⟩)⟩
  · intro h
    obtain ⟨_, vs, _, rfl, hlist, htail⟩ := h
    obtain ⟨us, t, rfl, ht, rfl⟩ := closed_iff.mp hlist
    obtain ⟨rfl, rfl⟩ | ⟨rfl, rfl⟩ := bangTail_iff.mp htail
    · have h := typeRef.listNonNull ht
      simpa [after] using h
    · have h := typeRef.list ht
      simpa [after] using h

theorem typeRef_fits :
    typeRef.Fits Eq ⟨fun l => l = .punct .bracketOpen ∨ ∃ m, l = .name m, (· = .punct .bang),
      False⟩ where
  viable := ⟨[.name "a"], .named "a", by decide, .named "a"⟩
  stands := fun {_ t} _ => ⟨t, rfl⟩
  empty := fun h => by cases h
  first := fun h => by cases h <;> simp

theorem listType_recognizes {f : Lexeme → Prop}
    (h : Recognizes n Rule.typeRef typeRef Eq ⟨f, (· = .punct .bang), False⟩) :
    Recognizes n (Rule.listType Rule.typeRef)
      (do let t ← typeRef; mark .bracketClose; return TypeRef.list t) Eq
      (.closed f) := by
  refine (h.bind (fun t u htu => (punct_recognizes .bracketClose).bind
    (fun _ _ _ => .pure (congrArg TypeRef.list htu)) ?_) ?_).weaken ?_ ?_ ?_
  all_goals simp

/-- References that nest are read on fewer than `n` words for every `n`, by induction on `n`. -/
theorem typeRef_recognizes (n : Nat) :
    Recognizes n Rule.typeRef typeRef Eq
      ⟨fun l => l = .punct .bracketOpen ∨ ∃ m, l = .name m, (· = .punct .bang), False⟩ := by
  induction n with
  | zero => exact .zero typeRef_fits
  | succ n ih =>
    refine (typeRef_byFirst.recognizes (fun _ => ⟨fun _ => True, (· = .punct .bang), True⟩)
      ?_ ?_ ?_).weaken ?_ ?_ ?_
    · intro l q hq
      unfold typeRefBy at hq
      split at hq
      · cases hq
        rw [typeRef_after_name]
        exact (bangRule_recognizes _).weaken (by simp) (by simp) (by simp)
      · cases hq
        rw [typeRef_after_bracket]
        have htail : ∀ t u, t = u → Recognizes n (bangRule t) (bangTail u) Eq
            (.mayStart (· = .punct .bang)) := by
          intro t u htu
          rw [htu]
          exact bangRule_recognizes u
        refine ((listType_recognizes ih).bind htail ?_).weaken ?_ ?_ ?_
        all_goals simp
      · cases hq
    · intro ls t h
      cases h with
      | named m => exact ⟨_, _, _, rfl, rfl⟩
      | namedNonNull m => exact ⟨_, _, _, rfl, rfl⟩
      | list => exact ⟨_, _, _, rfl, rfl⟩
      | listNonNull => exact ⟨_, _, _, rfl, rfl⟩
    · exact ⟨.name "a", _, by decide, rfl⟩
    · intro l hl
      obtain ⟨q, hq⟩ := Option.isSome_iff_exists.mp hl
      unfold typeRefBy at hq
      split at hq
      · simp
      · simp
      · cases hq
    · intro l hl
      obtain ⟨_, -, rfl⟩ := hl
      rfl
    · exact id

def valueBy : Lexeme → Option (Rule Value)
  | .int i => some (pure (.int i))
  | .float x => some (pure (.float x))
  | .string text => some (pure (.string text))
  | .name m => some (pure (Rule.nameValue m))
  | .punct .bracketOpen => some do return .list (← Rule.itemsUntil .bracketClose Rule.value)
  | .punct .braceOpen =>
    some do return .object (← Rule.itemsUntil .braceClose (Rule.member Rule.value))
  | _ => none

/-- A value is read by its first word, since the calls behind this word are on later words. -/
theorem value_byFirst : ByFirst Rule.value valueBy := by
  constructor
  · exact ⟨_, _, Parser.recursive_apply _ _ _, rfl⟩
  · intro t q hq ts
    obtain ⟨l, sp⟩ := t
    refine (Parser.recursive_apply _ _ _).trans ?_
    have hinner : ∀ r : List Token, r.length ≤ ts.length →
        (if r.length < (⟨l, sp⟩ :: ts : List Token).length then Rule.value r
          else Parser.fail (.unexpected .value) r) = Rule.value r := fun r hr =>
      if_pos (Nat.lt_succ_of_le hr)
    cases l with
    | punct p =>
      cases p with
      | bracketOpen =>
        cases hq
        exact bind_congr_left (itemsUntil_congr _ hinner)
      | braceOpen =>
        cases hq
        refine bind_congr_left (itemsUntil_congr _ fun r hr => member_congr fun r' hr' => ?_)
        exact hinner r' (Nat.le_trans hr' hr)
      | _ => cases hq
    | _ => cases hq; rfl
  · intro t ht
    obtain ⟨l, sp⟩ := t
    cases l with
    | punct p =>
      cases p with
      | bracketOpen => cases ht
      | braceOpen => cases ht
      | dollar => exact ⟨.variableValue _, rfl, fun ts => ⟨ts, Parser.recursive_apply _ _ _⟩⟩
      | _ => exact ⟨.unexpected .value _, rfl, fun ts => ⟨ts, Parser.recursive_apply _ _ _⟩⟩
    | _ => cases ht

theorem nameValue_iff {m : String} {v : Value} :
    value [.name m] v ↔ v = Rule.nameValue m := by
  constructor
  · intro h
    cases h with
    | enumValue _ hm =>
      simp only [List.mem_cons, List.not_mem_nil, or_false, not_or] at hm
      rw [Rule.nameValue, if_neg hm.1, if_neg hm.2.1, if_neg hm.2.2]
    | _ => rfl
  · intro h
    subst h
    unfold Rule.nameValue
    split
    · next h => subst h; exact .true
    · split
      · next h => subst h; exact .false
      · split
        · next h => subst h; exact .null
        · next htrue hfalse hnull => exact .enumValue m (by simp [htrue, hfalse, hnull])

theorem value_after_name (m : String) : value.after (.name m) = pure (Rule.nameValue m) := by
  refine after_eq_pure (nameValue_iff.mpr rfl) fun {ls v} h => ?_
  have hls : ls = [] := by cases h <;> rfl
  subst hls
  exact ⟨rfl, nameValue_iff.mp h⟩

theorem value_after_bracket : value.after (.punct .bracketOpen) =
    (do return .list (← (do let vs ← many value; mark .bracketClose; return vs))) := by
  funext ls v
  apply propext
  rw [map_iff]
  constructor
  · intro h
    cases h with
    | @list ls vs h => exact ⟨vs, closed_iff.mpr ⟨ls, vs, rfl, h, rfl⟩, rfl⟩
  · intro h
    obtain ⟨_, hvs, rfl⟩ := h
    obtain ⟨us, vs, rfl, h, rfl⟩ := closed_iff.mp hvs
    exact .list h

theorem value_after_brace : value.after (.punct .braceOpen) =
    (do return .object (← (do let ms ← many (member value); mark .braceClose; return ms))) := by
  funext ls v
  apply propext
  rw [map_iff]
  constructor
  · intro h
    cases h with
    | @object ls ms h => exact ⟨ms, closed_iff.mpr ⟨ls, ms, rfl, h, rfl⟩, rfl⟩
  · intro h
    obtain ⟨_, hms, rfl⟩ := h
    obtain ⟨us, ms, rfl, h, rfl⟩ := closed_iff.mp hms
    exact .object h

theorem member_eq (L : Language Value) :
    member L = (do let key ← name; mark .colon; let v ← L; return (key, v)) := by
  funext ls m
  apply propext
  constructor
  · intro h
    cases h with
    | @mk key ls v h =>
      exact ⟨[.name key], .punct .colon :: ls, key, rfl, rfl,
        word_bind_iff.mpr ⟨ls, rfl, ls, [], v, (List.append_nil ls).symm, h, rfl, rfl⟩⟩
  · intro h
    obtain ⟨_, vs, key, rfl, rfl, h⟩ := h
    obtain ⟨rest, rfl, us, vs, v, rfl, hv, rfl, rfl⟩ := word_bind_iff.mp h
    rw [List.append_nil]
    exact .mk key hv

theorem member_recognizes {inner : Rule Value} {L : Language Value} {f : Lexeme → Prop}
    (h : Recognizes n inner L Eq (.closed f)) :
    Recognizes n (Rule.member inner) (member L) Eq
      (.closed fun l => ∃ m, l = .name m) := by
  rw [member_eq]
  refine (name_recognizes.bind (fun k k' hk => (punct_recognizes .colon).bind (fun _ _ _ =>
    h.bind (fun v v' hv => .pure (by rw [hk, hv])) ?_) ?_) ?_).weaken ?_ ?_ ?_
  all_goals simp

/-- A word that a value starts with. -/
def startsValue : Lexeme → Prop
  | .punct p => p = .bracketOpen ∨ p = .braceOpen
  | _ => True

theorem value_fits : value.Fits Eq (.closed startsValue) where
  viable := ⟨[.name "null"], .null, by decide, .null⟩
  stands := fun {_ v} _ => ⟨v, rfl⟩
  empty := fun h => by cases h
  first := fun h => by cases h <;> simp [startsValue]

theorem valueBy_recognizes
    (ih : Recognizes n Rule.value value Eq (.closed startsValue)) {l : Lexeme}
    {q : Rule Value} (hq : valueBy l = some q) :
    Recognizes n q (value.after l) Eq ⟨fun _ => True, fun _ => False, True⟩ := by
  have hconst : ∀ {v : Value}, value.after l = pure v → q = pure v →
      Recognizes n q (value.after l) Eq ⟨fun _ => True, fun _ => False, True⟩ := by
    intro v hv hp
    rw [hv, hp]
    exact (Recognizes.pure rfl).weaken (by simp) (by simp) (by simp)
  cases l with
  | int i =>
    cases hq
    exact hconst (after_eq_pure (.int i) fun h => by cases h; exact ⟨rfl, rfl⟩) rfl
  | float x =>
    cases hq
    exact hconst (after_eq_pure (.float x) fun h => by cases h; exact ⟨rfl, rfl⟩) rfl
  | string text =>
    cases hq
    exact hconst (after_eq_pure (.string text) fun h => by cases h; exact ⟨rfl, rfl⟩) rfl
  | name m =>
    cases hq
    exact hconst (value_after_name m) rfl
  | punct p =>
    cases p with
    | bracketOpen =>
      cases hq
      rw [value_after_bracket]
      have hitems : Recognizes n (Rule.itemsUntil .bracketClose Rule.value) _ _ _ :=
        itemsUntil_recognizes ih (by simp) (by simp) (by simp [startsValue]) (by simp)
      refine (hitems.bind (fun vs ws hvs => .pure (congrArg Value.list ?_)) ?_).weaken ?_ ?_ ?_
      · exact List.forall₂_eq_eq_eq ▸ hvs
      all_goals simp
    | braceOpen =>
      cases hq
      rw [value_after_brace]
      have hitems : Recognizes n (Rule.itemsUntil .braceClose (Rule.member Rule.value)) _ _ _ :=
        itemsUntil_recognizes (member_recognizes ih) (by simp) (by simp) (by simp) (by simp)
      refine (hitems.bind (fun vs ws hvs => .pure (congrArg Value.object ?_)) ?_).weaken ?_ ?_ ?_
      · exact List.forall₂_eq_eq_eq ▸ hvs
      all_goals simp
    | _ => cases hq

theorem startsValue_of_valueBy {l : Lexeme} (h : (valueBy l).isSome) : startsValue l := by
  cases l with
  | punct p =>
    cases p with
    | bracketOpen => exact .inl rfl
    | braceOpen => exact .inr rfl
    | _ => cases h
  | _ => trivial

/-- Values that nest are read on fewer than `n` words for every `n`, by induction on `n`. -/
theorem value_recognizes (n : Nat) :
    Recognizes n Rule.value value Eq (.closed startsValue) := by
  induction n with
  | zero => exact .zero value_fits
  | succ n ih =>
    refine (value_byFirst.recognizes (fun _ => ⟨fun _ => True, fun _ => False, True⟩)
      (valueBy_recognizes ih) ?_ ?_).weaken ?_ ?_ ?_
    · intro ls v h
      cases h <;> exact ⟨_, _, _, rfl, rfl⟩
    · exact ⟨.name "null", _, by decide, rfl⟩
    · exact fun l => startsValue_of_valueBy
    · intro l hl
      obtain ⟨_, -, hmore⟩ := hl
      exact hmore
    · exact id

end TransformDirective.Schema
