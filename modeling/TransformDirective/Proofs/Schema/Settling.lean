import TransformDirective.Proofs.Schema.Acceptance

namespace TransformDirective.Schema

open TransformDirective.Schema.Language

variable {α β γ δ : Type} {p q item : Rule α} {L : Language β} {R : α → β → Prop} {s : Shape}

/-- One more word changes what the rule reads only if it goes on with a sequence of the language. -/
structure Settles (p : Rule α) (L : Language β) : Prop where
  viable : L.Viable []
  settled : ∀ {ts a}, p ts = .ok a [] → ∀ t : Token,
    Stops p ts [t] a ∨ L.Viable (lexemes ts ++ [t.lexeme])

/-- One more word at the end matters to a rule only if the rule looked at the end. -/
theorem Stops.front {us r : List Token} {a : α} {P : Prop} (h : Stops p us r a) (t : Token)
    (last : r = [] → p us = .ok a [] → Stops p us [t] a ∨ P) :
    Stops p us (r ++ [t]) a ∨ r = [] ∧ P := by
  cases r with
  | nil =>
    have whole := h [] rfl
    rw [List.append_nil] at whole
    obtain stops | other := last rfl whole
    · exact .inl stops
    · exact .inr ⟨rfl, other⟩
  | cons u r => exact .inl fun r' hr' => h r' hr'

namespace Settles

theorem pure (a : α) (b : β) : Settles (Pure.pure a) (Pure.pure b : Language β) where
  viable := ⟨[], b, rfl, rfl, rfl⟩
  settled h _ := by
    cases h
    exact .inl fun _ _ => rfl

/-- One rule behind another. The first one has to settle only if the second one may take nothing. -/
theorem bind {f : α → Rule γ} {M : β → Language δ} (hp : ∀ n, Recognizes n p L R s)
    (first : ∀ a c, f a [] = .ok c [] → Settles p L)
    (second : ∀ a b, R a b → Settles (f a) (M b)) : Settles (p >>= f) (L >>= M) := by
  have live : ∀ ls b, L ls b → (M b).Viable [] := by
    intro ls b hl
    obtain ⟨a, hab⟩ := (hp 0).stands hl
    exact (second a b hab).viable
  constructor
  · exact (hp 0).viable.bind live
  · intro ts c h t
    rw [Parser.bind_apply] at h
    cases hpt : p ts with
    | error e left => rw [hpt] at h; cases h
    | ok a r =>
      rw [hpt] at h
      have back : f a r = .ok c [] := h
      obtain ⟨us, b, rfl, hl, hab, stops⟩ := (hp _).takes (Nat.lt_succ_self _) hpt
      obtain behind | goesOn := (second a b hab).settled back t
      · obtain front | ⟨rfl, goesOn⟩ := stops.front t fun hr whole =>
          (first a c (hr ▸ back)).settled whole t
        · exact .inl (front.bind behind)
        · rw [List.append_nil]
          exact .inr (goesOn.bind live)
      · rw [lexemes_append, List.append_assoc]
        exact .inr (goesOn.behind hl)

theorem byFirst {next : Lexeme → Option (Rule α)} (h : ByFirst p next)
    (ways : ∀ {l q}, next l = some q → Settles q (L.after l)) (viable : L.Viable []) :
    Settles p L := by
  refine ⟨viable, fun hp t => ?_⟩
  obtain ⟨u, us, q, rfl, hq, back⟩ := h.next_of_ok hp
  obtain stops | goesOn := (ways hq).settled back t
  · exact .inl (stops.cons (h.taken hq))
  · exact .inr goesOn

theorem orNothing {test : Lexeme → Bool} {a : α} {b : β} {N : Lexeme → Language β}
    (h : OrNothing p test q a) (words : OrNothing.Words L test N b)
    (way : ∀ {l}, test l → Settles q (N l)) : Settles p L := by
  have behind : ∀ {l ls}, test l → (N l).Viable ls → L.Viable (l :: ls) := by
    intro l ls hl hv
    obtain ⟨more, b', hmore, hb⟩ := hv
    exact ⟨more, b', hmore, (words _ b').mpr (.inl ⟨l, ls ++ more, hl, rfl, hb⟩)⟩
  refine ⟨⟨[], b, rfl, OrNothing.empty_word words⟩, fun {ts a'} hp t => ?_⟩
  obtain pass | ⟨u, us, rfl, hu⟩ := next_fails_or_passes test ts
  · rw [h.passed pass] at hp
    cases hp
    by_cases ht : test t.lexeme = true
    · exact .inr (behind ht (way ht).viable)
    · refine .inl fun r hr => h.passed fun x hx => ?_
      rw [List.nil_append, hr] at hx
      obtain rfl : t = x := Option.some.inj hx
      exact Bool.eq_false_iff.mpr ht
  · rw [h.taken hu] at hp
    obtain stops | goesOn := (way hu).settled hp t
    · exact .inl (stops.cons (h.taken hu))
    · exact .inr (behind hu goesOn)

theorem located {rule : Rule (Text.Span → α)} (h : Settles rule L) :
    Settles (Rule.located rule) L := by
  refine ⟨h.viable, fun {ts a} hp t => ?_⟩
  cases hr : rule ts with
  | error e left => rw [located_error hr] at hp; cases hp
  | ok f r =>
    obtain rfl : r = [] := by
      rw [Rule.located, Parser.withTaken, Parser.bind_apply, hr] at hp
      cases hp
      rfl
    obtain stops | goesOn := h.settled hr t
    · have hrule : rule (ts ++ []) = .ok f [] := by rw [List.append_nil, hr]
      have whole := located_ok hrule
      rw [List.append_nil, hp] at whole
      cases whole
      exact .inl fun r' hr' => located_ok (stops r' hr')
    · exact .inr goesOn

/-- Items in a row, if every word that passes the test starts one. Every item takes a word, so the
induction is on the number of words. -/
theorem itemsWhile {test : Lexeme → Bool} (h : ∀ n, Recognizes n item L R s) (solid : ¬ s.nullable)
    (starts : ∀ l, test l → L.Viable [l]) (last : Settles item L) :
    Settles (itemsWhile test item) (many L) := by
  refine ⟨⟨[], [], rfl, .nil⟩, fun {ts as} hp t => ?_⟩
  induction hk : ts.length using Nat.strongRecOn generalizing ts as with
  | ind k ih =>
    subst hk
    obtain stop | ⟨u, us, rfl, hu⟩ := next_fails_or_passes test ts
    · rw [itemsWhile_stop stop] at hp
      cases hp
      by_cases ht : test t.lexeme = true
      · exact .inr (starts _ ht).many
      · refine .inl (.itemsWhile_nil fun x hx => ?_)
        obtain rfl : t = x := Option.some.inj hx
        exact Bool.eq_false_iff.mpr ht
    · cases hi : item (u :: us) with
      | error e left => rw [itemsWhile_refused hu hi] at hp; cases hp
      | ok a r =>
        obtain ⟨vs, b, rfl, hl, -, stops, shorter, step⟩ :=
          itemsWhile_step (h _) solid (Nat.lt_succ_self _) hu hi
        rw [step] at hp
        cases hrest : Schema.itemsWhile test item r with
        | error e left => rw [hrest] at hp; cases hp
        | ok as' r' =>
          rw [hrest] at hp
          cases hp
          obtain behind | goesOn := ih r.length shorter hrest rfl
          · obtain front | ⟨rfl, goesOn⟩ := stops.front t fun _ whole => last.settled whole t
            · exact .inl (front.itemsWhile_cons hu behind)
            · rw [List.append_nil]
              exact .inr goesOn.many
          · rw [← List.cons_append, lexemes_append, List.append_assoc]
            exact .inr (goesOn.many_cons hl)

end Settles

section Words

theorem word_settles {x : Lexeme} (e : Expected) (hx : x.isPlain) :
    Settles (takeWord x e) (word x) where
  viable := ⟨[x], (), by simp [hx], rfl⟩
  settled {ts a} h _ := by
    cases ts with
    | nil => cases h
    | cons u us =>
      by_cases hu : u.lexeme = x
      · have taken : ∀ r, takeWord x e (u :: r) = .ok () r := by
          intro r
          rw [takeWord, acceptWord_bind_cons, if_pos hu]
          rfl
        rw [taken us] at h
        cases h
        exact .inl fun r _ => taken r
      · rw [takeWord, acceptWord_bind_cons, if_neg hu] at h
        cases h

theorem punct_settles (p : Punct) : Settles (Rule.punct p) (mark p) :=
  word_settles (.punct p) rfl

theorem name_settles : Settles Rule.name name where
  viable := (name_recognizes (n := 0)).viable
  settled {ts m} h _ := by
    obtain ⟨u, us, q, rfl, hq, back⟩ := name_byFirst.next_of_ok h
    obtain ⟨k, hk, rfl⟩ := Option.map_eq_some_iff.mp hq
    cases back
    exact .inl fun r _ => name_cons_of_name hk r

theorem ifWord_settles {x : Lexeme} {N : Unit → Language β} {a : α} {b : β}
    (h : Settles q (N ())) :
    Settles (do if ← acceptWord x then q else return a) (either (word x >>= N) (pure b)) :=
  .orNothing (acceptWord_orNothing x q a) (ifWord_words x N b) fun _ => h

/-- The only word that a language starts with starts it. -/
theorem viable_of_first {x : Lexeme} (h : L.Fits R s) (solid : ¬ s.nullable)
    (only : ∀ l, s.first l → l = x) : L.Viable [x] := by
  obtain ⟨more, b, plain, hb⟩ := h.viable
  cases more with
  | nil => exact absurd (h.empty hb) solid
  | cons l more =>
    obtain rfl := only l (h.first hb)
    exact ⟨more, b, (Bool.and_eq_true_iff.mp plain).2, hb⟩

/-- The name behind the first mark has to be there, so the mark need not settle. -/
theorem separatedNames_settles (p : Punct) :
    Settles (Rule.separatedNames p) (separatedNames p) := by
  have item : ∀ n, Recognizes n (do Rule.punct p; Rule.name) (do mark p; name) Eq _ :=
    fun _ => (punct_recognizes p).bind (fun _ _ _ => name_recognizes) (by simp)
  have items : Settles (itemsWhile (· == .punct p) do Rule.punct p; Rule.name)
      (many do mark p; name) := by
    refine .itemsWhile item (by simp) (fun l hl => ?_) ?_
    · obtain rfl : l = .punct p := by simpa using hl
      exact viable_of_first (item 0).toFits (by simp) (by simp)
    · exact .bind (fun _ => punct_recognizes p) (fun _ _ stuck => nomatch stuck)
        fun _ _ _ => name_settles
  have itemsRead : ∀ n, Recognizes n (itemsWhile (· == .punct p) do Rule.punct p; Rule.name)
      (many do mark p; name) _ _ :=
    fun n => (item n).itemsWhile _ (by simp) (by simp) (by simp)
  refine .bind (fun _ => accept_recognizes (.punct p)) (fun _ _ stuck => nomatch stuck)
    fun _ _ _ => .bind (fun _ => name_recognizes) (fun _ _ _ => name_settles)
      fun m _ hm => .bind itemsRead (fun _ _ _ => items) fun ms _ hms => .pure _ _

end Words

section Enclosed

variable {opening closing : Punct} (h : ∀ n, Recognizes n item L R s) (solid : ¬ s.nullable)
  (apart : ∀ l, s.more l → ¬ s.first l) (starts : ¬ s.first (.punct closing))
  (ends : ¬ s.more (.punct closing))
include h solid apart starts ends

theorem optionallyEnclosed_settles :
    Settles (Rule.optionallyEnclosed opening closing item)
      (optionalList (enclosed opening closing L)) := by
  have items := fun n => itemsBefore_recognizes (h n) solid apart starts ends
  have closed : ∀ (as : List α) (bs : List β),
      Settles (do Rule.punct closing; return as) (do mark closing; return bs) := by
    intro as bs
    apply Settles.bind fun _ => punct_recognizes closing
    · exact fun _ _ _ => punct_settles closing
    · exact fun _ _ _ => .pure as bs
  have inside : Settles (Rule.itemsUntil closing item) (do let bs ← many L; mark closing; return bs) :=
    .bind items (fun _ _ stuck => nomatch stuck) fun as bs _ => closed as bs
  exact ifWord_settles (N := fun _ => do let bs ← many L; mark closing; return bs) inside

end Enclosed

section Nodes

theorem directive_settles : Settles Rule.directive directive := by
  have arguments : Settles (Rule.optionallyEnclosed .parenOpen .parenClose Rule.argument)
      (optionalList (enclosed .parenOpen .parenClose argument)) :=
    optionallyEnclosed_settles (fun _ => argument_recognizes) (by simp) (by simp) (by simp) (by simp)
  apply Settles.located
  refine .bind (fun _ => punct_recognizes .at) (fun _ _ stuck => nomatch stuck) fun _ _ _ => ?_
  refine .bind (fun _ => name_recognizes) (fun _ _ _ => name_settles) fun m m' _ => ?_
  refine .bind (fun _ => argumentsGiven_recognizes) (fun _ _ _ => arguments) fun as bs _ => ?_
  exact .pure _ _

theorem directives_settles :
    Settles (itemsWhile (· == .punct .at) Rule.directive) (many directive) := by
  refine .itemsWhile (fun _ => directive_recognizes) (by simp) (fun l hl => ?_) directive_settles
  obtain rfl : l = .punct .at := by simpa using hl
  exact viable_of_first (directive_recognizes (n := 0)).toFits (by simp) (by simp)

theorem interfaces_settles : Settles Rule.interfaces (optionalList interfaces) :=
  ifWord_settles (N := fun _ => Language.separatedNames .amp) (separatedNames_settles .amp)

theorem fields_settles : Settles (Rule.optionallyEnclosed .braceOpen .braceClose Rule.field)
    (optionalList (enclosed .braceOpen .braceClose field)) :=
  optionallyEnclosed_settles (fun _ => field_recognizes) (by simp) (by grind) (by simp) (by simp)

theorem inputFields_settles :
    Settles (Rule.optionallyEnclosed .braceOpen .braceClose Rule.inputValue)
      (optionalList (enclosed .braceOpen .braceClose inputValue)) :=
  optionallyEnclosed_settles (fun _ => inputValue_recognizes) (by simp) (by grind) (by simp)
    (by simp)

theorem enumItems_settles : Settles (Rule.optionallyEnclosed .braceOpen .braceClose Rule.enumItem)
    (optionalList (enclosed .braceOpen .braceClose enumItem)) :=
  optionallyEnclosed_settles (fun _ => enumItem_recognizes) (by simp) (by simp) (by simp) (by simp)

theorem typeBody_settles (kind : TypeKind) :
    Settles (Rule.typeBody kind) ((typeDefinition kind).after (.name kind.keyword)) := by
  unfold typeDefinition keyword
  rw [word_bind_after]
  refine .bind (fun _ => name_recognizes) (fun _ _ _ => name_settles) fun m m' _ => ?_
  refine .bind (fun _ => interfaces_recognizes) (fun _ _ _ => interfaces_settles) fun is js _ => ?_
  refine .bind (fun _ => directives_recognizes) (fun _ _ _ => directives_settles) fun ds es _ => ?_
  refine .bind (fun _ => fields_recognizes) (fun _ _ _ => fields_settles) fun fs gs _ => ?_
  exact .pure _ _

theorem inputBody_settles : Settles Rule.inputBody (inputDefinition.after (.name "input")) := by
  unfold inputDefinition keyword
  rw [word_bind_after]
  refine .bind (fun _ => name_recognizes) (fun _ _ _ => name_settles) fun m m' _ => ?_
  refine .bind (fun _ => directives_recognizes) (fun _ _ _ => directives_settles) fun ds es _ => ?_
  refine .bind (fun _ => inputFields_recognizes) (fun _ _ _ => inputFields_settles) fun vs ws _ => ?_
  exact .pure _ _

theorem enumBody_settles : Settles Rule.enumBody (enumDefinition.after (.name "enum")) := by
  unfold enumDefinition keyword
  rw [word_bind_after]
  refine .bind (fun _ => name_recognizes) (fun _ _ _ => name_settles) fun m m' _ => ?_
  refine .bind (fun _ => directives_recognizes) (fun _ _ _ => directives_settles) fun ds es _ => ?_
  refine .bind (fun _ => enumItems_recognizes) (fun _ _ _ => enumItems_settles) fun vs ws _ => ?_
  exact .pure _ _

theorem scalarBody_settles : Settles Rule.scalarBody (scalarDefinition.after (.name "scalar")) := by
  unfold scalarDefinition keyword
  rw [word_bind_after]
  refine .bind (fun _ => name_recognizes) (fun _ _ _ => name_settles) fun m m' _ => ?_
  refine .bind (fun _ => directives_recognizes) (fun _ _ _ => directives_settles) fun ds es _ => ?_
  exact .pure _ _

theorem directiveBody_settles :
    Settles Rule.directiveBody (directiveDefinition.after (.name "directive")) := by
  unfold directiveDefinition keyword
  rw [word_bind_after]
  refine .bind (fun _ => punct_recognizes .at) (fun _ _ stuck => nomatch stuck) fun _ _ _ => ?_
  refine .bind (fun _ => name_recognizes) (fun _ _ stuck => nomatch stuck) fun m m' _ => ?_
  refine .bind (fun _ => argumentDefinitions_recognizes) (fun _ _ stuck => nomatch stuck)
    fun vs ws _ => ?_
  refine .bind (fun _ => accept_recognizes (.name "repeatable")) (fun _ _ stuck => nomatch stuck)
    fun r r' _ => ?_
  refine .bind (fun _ => keyword_recognizes (by decide)) (fun _ _ stuck => nomatch stuck)
    fun _ _ _ => ?_
  refine .bind (fun _ => separatedNames_recognizes .pipe) (fun _ _ _ => separatedNames_settles .pipe)
    fun ns ns' _ => ?_
  exact .pure _ _

/-- One more word changes what is read of a definition only if the language goes on with it. -/
theorem definition_settles : Settles Rule.definition definition := by
  have bodies : ∀ {l q}, definitionBy l = some q → Settles q (definitionBody.after l) :=
    definitionBy_elim (motive := Settles) (typeBody_settles .object) (typeBody_settles .interface)
      inputBody_settles enumBody_settles scalarBody_settles directiveBody_settles
  have live : definitionBody.Viable [] := (definitionNode_recognizes (n := 0)).viable
  refine .bind (fun _ => description_recognizes) (fun _ _ stuck => nomatch stuck) fun _ _ _ => ?_
  exact .located (.byFirst definitionNode_byFirst bodies live)

end Nodes

section Documents

/-- A word that a definition starts with. -/
def StartsDefinition (l : Lexeme) : Prop := (∃ text, l = .string text) ∨ (definitionBy l).isSome

/-- A word behind a sequence of the language that is also the front of a longer one: the same words
are read up to it and to their end. -/
theorem more_of_longer (h : ∀ n, Recognizes n p L R s) {ls more : List Lexeme} {l : Lexeme}
    {b b' : β} (short : L ls b) (long : L (ls ++ l :: more) b') : s.more l := by
  by_contra other
  let front := unplaced ls
  let rest := unplaced (l :: more)
  have words : lexemes (front ++ rest) = ls ++ l :: more := by
    rw [lexemes_append, lexemes_unplaced, lexemes_unplaced]
  rw [← lexemes_unplaced ls] at short
  rw [← words] at long
  have upTo : ∃ a, p (front ++ rest) = .ok a rest ∧ R a b := by
    refine (h _).accepts (Nat.lt_succ_self _) short fun x hx => ?_
    obtain rfl : ⟨l, nowhere⟩ = x := Option.some.inj hx
    exact other
  have toEnd : ∃ a, p (front ++ rest ++ []) = .ok a [] ∧ R a b' :=
    (h _).accepts (Nat.lt_succ_self _) long fun x hx => nomatch hx
  obtain ⟨a, upTo, -⟩ := upTo
  obtain ⟨a', toEnd, -⟩ := toEnd
  rw [List.append_nil, upTo] at toEnd
  exact List.cons_ne_nil _ _ (Outcome.ok.inj toEnd).2

theorem definition_stops {ts : List Token} {d : Definition} (h : Rule.definition ts = .ok d [])
    (t : Token) :
    Stops Rule.definition ts [t] d ∨
      definition.Viable (lexemes ts ++ [t.lexeme]) ∧ ¬ StartsDefinition t.lexeme := by
  obtain stops | goesOn := definition_settles.settled h t
  · exact .inl stops
  · obtain ⟨us, e, hts, short, -, -⟩ := definition_recognizes.takes (Nat.lt_succ_self _) h
    rw [List.append_nil] at hts
    subst hts
    obtain ⟨more, e', -, long⟩ := id goesOn
    rw [List.append_assoc] at long
    have continues : ContinuesDefinition t.lexeme :=
      more_of_longer (fun _ => definition_recognizes) short long
    exact .inr ⟨goesOn, continues.not_first⟩

theorem document_apply (ts : List Token) :
    Rule.document ts = match itemsWhile (fun _ => true) Rule.definition ts with
      | .ok ds r => .ok ⟨ds⟩ r
      | .error e r => .error e r := by
  change ((itemsWhile (fun _ => true) Rule.definition >>= fun ds => pure (Document.mk ds)) ts) = _
  rw [Parser.bind_apply]
  cases itemsWhile (fun _ => true) Rule.definition ts <;> rfl

theorem document_nil : Rule.document [] = .ok ⟨[]⟩ [] := by
  rw [document_apply, itemsWhile_stop (by simp)]

/-- Definitions in front of others are read on their own, unless a word goes on with the last. -/
theorem definitions_stop {ts : List Token} {ds : List Definition}
    (h : itemsWhile (fun _ => true) Rule.definition ts = .ok ds []) (t : Token) :
    (∀ r, r.head? = some t →
      itemsWhile (fun _ => true) Rule.definition (ts ++ r) =
      match itemsWhile (fun _ => true) Rule.definition r with
      | .error e left => .error e left
      | .ok es left => .ok (ds ++ es) left) ∨
    (many definition).Viable (lexemes ts ++ [t.lexeme]) ∧ ¬ StartsDefinition t.lexeme := by
  induction hk : ts.length using Nat.strongRecOn generalizing ts ds with
  | ind k ih =>
    subst hk
    cases ts with
    | nil =>
      rw [itemsWhile_stop (by simp)] at h
      cases h
      refine .inl fun r _ => ?_
      rw [List.nil_append]
      cases itemsWhile (fun _ => true) Rule.definition r <;> rfl
    | cons u us =>
      let always : Lexeme → Bool := fun _ => true
      have any : always u.lexeme := rfl
      cases hi : Rule.definition (u :: us) with
      | error e left => rw [itemsWhile_refused any hi] at h; cases h
      | ok d r₁ =>
        have read := itemsWhile_step definition_recognizes id (Nat.lt_succ_self _) any hi
        obtain ⟨vs, e, rfl, hl, -, stops, shorter, step⟩ := read
        rw [step] at h
        cases hrest : itemsWhile (fun _ => true) Rule.definition r₁ with
        | error e left => rw [hrest] at h; cases h
        | ok ds' left =>
          rw [hrest] at h
          cases h
          obtain front | ⟨rfl, goesOn, other⟩ := stops.front t fun _ whole => definition_stops whole t
          · obtain behind | ⟨goesOn, other⟩ := ih r₁.length shorter hrest rfl
            · refine .inl fun r hr => ?_
              have head : (r₁ ++ r).head? = (r₁ ++ [t]).head? := head?_append_congr r₁ hr
              have whole := itemsWhile_item any (front _ head)
              rw [← List.cons_append, List.append_assoc, whole, behind r hr]
              cases itemsWhile (fun _ => true) Rule.definition r <;> rfl
            · refine .inr ⟨?_, other⟩
              rw [← List.cons_append, lexemes_append, List.append_assoc]
              exact goesOn.many_cons hl
          · rw [List.append_nil]
            exact .inr ⟨goesOn.many, other⟩

/-- Behind a whole document one more word starts a definition, or belongs to the last one. -/
theorem document_stops {ts : List Token} {d : Document} (h : Rule.document ts = .ok d [])
    (t : Token) :
    (∀ r, r.head? = some t → Rule.document (ts ++ r) =
      match Rule.document r with
      | .error e left => .error e left
      | .ok e left => .ok (d ++ e) left) ∨
    document.Viable (lexemes ts ++ [t.lexeme]) ∧ ¬ StartsDefinition t.lexeme := by
  rw [document_apply] at h
  cases hitems : itemsWhile (fun _ => true) Rule.definition ts with
  | error e left => rw [hitems] at h; cases h
  | ok ds left =>
    rw [hitems] at h
    cases h
    obtain alone | ⟨goesOn, other⟩ := definitions_stop hitems t
    · refine .inl fun r hr => ?_
      rw [document_apply, document_apply, alone r hr]
      cases itemsWhile (fun _ => true) Rule.definition r <;> rfl
    · exact .inr ⟨goesOn.bind fun _ ds _ => ⟨[], ⟨ds⟩, rfl, rfl, rfl⟩, other⟩

/-- Where no definition starts, a document is refused at once. -/
theorem document_fails {t : Token} (h : ¬ StartsDefinition t.lexeme) (r : List Token) :
    Fails Rule.document [] (t :: r) (.unexpected .definition (some t)) := by
  simp only [StartsDefinition, not_or, ← Lexeme.isString_iff] at h
  obtain ⟨text, keyword⟩ := h
  intro r' hr
  obtain ⟨ts, rfl⟩ := List.head?_eq_some_iff.mp hr
  have plain : ∀ x ∈ (t :: ts).head?, x.lexeme.isString = false := by
    simpa using text
  have unknown : definitionBy t.lexeme = none := by simpa using keyword
  have refused : Rule.definition (t :: ts) = .error (.unexpected .definition (some t)) (t :: ts) := by
    rw [Rule.definition, Parser.bind_apply, description_orNothing.passed plain]
    exact located_error (definitionNode_refused unknown ts)
  refine ⟨t :: ts, ?_⟩
  rw [List.nil_append, document_apply, itemsWhile_refused rfl refused]

theorem viable_of_startsDefinition {l : Lexeme} (h : StartsDefinition l) : document.Viable [l] := by
  have live : ∀ ls (ds : List Definition), many definition ls ds →
      (pure ⟨ds⟩ : Language Document).Viable [] := fun _ ds _ => ⟨[], ⟨ds⟩, rfl, rfl, rfl⟩
  have one : definition.Viable [l] := by
    obtain ⟨text, rfl⟩ | known := h
    · have described : description [.string text] () := .inl ⟨text, rfl⟩
      exact Viable.behind described (definitionNode_recognizes (n := 0)).viable
    · obtain ⟨q, hq⟩ := Option.isSome_iff_exists.mp known
      obtain ⟨more, d, plain, hd⟩ := (definitionBy_recognizes (n := 0) hq).viable
      exact ⟨more, d, plain, [], _, (), rfl, .inr ⟨rfl, rfl⟩, hd⟩
  exact one.many.bind live

end Documents

end TransformDirective.Schema
