import TransformDirective.Proofs.Schema.Definitions

namespace TransformDirective.Schema

open TransformDirective.Text

def Token.mapSpan (g : Span → Span) (t : Token) : Token := ⟨t.lexeme, g t.span⟩

def RuleFault.mapSpan (g : Span → Span) : RuleFault → RuleFault
  | unexpected e t => unexpected e (t.map (·.mapSpan g))
  | variableValue t => variableValue (t.map (·.mapSpan g))

/-- The place of a node follows from the places of its words in the same way everywhere. -/
def Rigid (g : Span → Span) : Prop := ∀ s t : Span, g (s.cover t) = (g s).cover (g t)

/-- Outcomes on the same words at two places: the answers are related, or the faults are the same,
and the same words are left. -/
inductive Relocated {α : Type} (g : Span → Span) (R : α → α → Prop) :
    Outcome Token RuleFault α → Outcome Token RuleFault α → Prop
  | ok {a a' : α} {r : List Token} (h : R a a') :
      Relocated g R (.ok a r) (.ok a' (r.map (·.mapSpan g)))
  | error {e : RuleFault} {left : List Token} :
      Relocated g R (.error e left) (.error (e.mapSpan g) (left.map (·.mapSpan g)))

/-- On moved words the second rule does what the first one does on the words as they stand; neither
gives a word back that it took. -/
structure Relocates {α : Type} (g : Span → Span) (p p' : Rule α) (R : α → α → Prop) : Prop where
  forward : ∀ ts, (p ts).rest <:+ ts
  moved : ∀ ts, Relocated g R (p ts) (p' (ts.map (·.mapSpan g)))

namespace Relocates

variable {α β : Type} {g : Span → Span} {p p' : Rule α} {f f' : α → Rule β} {R : α → α → Prop}
  {S : β → β → Prop}

theorem pure {a a' : α} (h : R a a') : Relocates g (pure a) (pure a') R where
  forward ts := List.suffix_refl ts
  moved _ := .ok h

/-- One rule behind another, if both find their words again. -/
theorem bind (hp : Relocates g p p' R) (hf : ∀ a a', R a a' → Relocates g (f a) (f' a') S) :
    Relocates g (p >>= f) (p' >>= f') S := by
  constructor
  · intro ts
    have front := hp.forward ts
    have related := hp.moved ts
    rw [Parser.bind_apply]
    generalize p ts = o at front related
    generalize p' (ts.map (·.mapSpan g)) = o' at related
    cases related with
    | ok h => exact ((hf _ _ h).forward _).trans front
    | error => exact front
  · intro ts
    have related := hp.moved ts
    rw [Parser.bind_apply, Parser.bind_apply]
    generalize p ts = o at related
    generalize p' (ts.map (·.mapSpan g)) = o' at related
    cases related with
    | ok h => exact (hf _ _ h).moved _
    | error => exact .error

/-- Rules whose answers have no places. -/
theorem bind_eq (hp : Relocates g p p' Eq) (hf : ∀ a, Relocates g (f a) (f' a) S) :
    Relocates g (p >>= f) (p' >>= f') S :=
  hp.bind fun a _ h => h ▸ hf a

theorem imp {R' : α → α → Prop} (hp : Relocates g p p' R) (h : ∀ a a', R a a' → R' a a') :
    Relocates g p p' R' where
  forward := hp.forward
  moved ts := by
    have related := hp.moved ts
    generalize p ts = o at related
    generalize p' (ts.map (·.mapSpan g)) = o' at related
    cases related with
    | ok hab => exact .ok (h _ _ hab)
    | error => exact .error

theorem ite {c : Prop} [Decidable c] {q q' : Rule α} (hp : c → Relocates g p p' R)
    (hq : ¬c → Relocates g q q' R) :
    Relocates g (if c then p else q) (if c then p' else q') R := by
  split
  · next h => exact hp h
  · next h => exact hq h

theorem fail {fault fault' : Option Token → RuleFault}
    (h : ∀ t, fault' (t.map (·.mapSpan g)) = (fault t).mapSpan g) :
    Relocates g (Parser.fail fault : Rule α) (Parser.fail fault') R where
  forward ts := List.suffix_refl ts
  moved ts := by
    unfold Parser.fail
    rw [List.head?_map, h]
    exact .error

theorem expected (e : Expected) : Relocates g (Rule.expected e : Rule α) (Rule.expected e) R :=
  .fail fun _ => rfl

theorem peek : Relocates g Parser.peek Parser.peek fun t t' => t' = t.map (·.mapSpan g) where
  forward ts := List.suffix_refl ts
  moved _ := .ok (List.head?_map ..)

theorem next : Relocates g Parser.next Parser.next fun t t' => t' = t.map (·.mapSpan g) where
  forward ts := List.tail_suffix ts
  moved ts := by
    unfold Parser.next
    rw [← List.map_tail]
    exact .ok (List.head?_map ..)

/-- A test that does not look at places. -/
def Blind (g : Span → Span) (test : Token → Bool) : Prop := ∀ t : Token, test (t.mapSpan g) = test t

theorem any_mapSpan {test : Token → Bool} (blind : Blind g test) (t : Option Token) :
    (t.map (·.mapSpan g)).any test = t.any test := by
  cases t with
  | none => rfl
  | some t => exact blind t

theorem accept {test : Token → Bool} (blind : Blind g test) :
    Relocates g (Rule.accept test) (Rule.accept test) Eq := by
  refine peek.bind fun t t' ht => ?_
  rw [ht, any_mapSpan blind]
  exact .ite (fun _ => next.bind fun _ _ _ => .pure rfl) fun _ => .pure rfl

theorem repeatWhile {test : Token → Bool} (blind : Blind g test) (h : Relocates g p p' R) :
    Relocates g (Parser.repeatWhile test p) (Parser.repeatWhile test p') (List.Forall₂ R) := by
  have both : ∀ n, ∀ ts : List Token, ts.length < n →
      (Parser.repeatWhile test p ts).rest <:+ ts ∧
        Relocated g (List.Forall₂ R) (Parser.repeatWhile test p ts)
          (Parser.repeatWhile test p' (ts.map (·.mapSpan g))) := by
    intro n
    induction n with
    | zero => exact fun _ hn => absurd hn (Nat.not_lt_zero _)
    | succ n ih =>
      intro ts hn
      have front := h.forward ts
      have related := h.moved ts
      rw [repeatWhile_apply, repeatWhile_apply test p', List.head?_map, any_mapSpan blind]
      by_cases goes : ts.head?.any test = true
      · rw [if_pos goes, if_pos goes]
        generalize p ts = o at front related
        generalize p' (ts.map (·.mapSpan g)) = o' at related
        cases related with
        | error => exact ⟨front, .error⟩
        | @ok a a' r hab =>
          have front : r <:+ ts := front
          simp only [List.length_map]
          by_cases shorter : r.length < ts.length
          · rw [if_pos shorter, if_pos shorter]
            obtain ⟨back, others⟩ := ih r (by omega)
            generalize Parser.repeatWhile test p r = o at back others
            generalize Parser.repeatWhile test p' (r.map (·.mapSpan g)) = o' at others
            cases others with
            | error => exact ⟨back.trans front, .error⟩
            | ok has => exact ⟨back.trans front, .ok (.cons hab has)⟩
          · rw [if_neg shorter, if_neg shorter]
            exact ⟨front, .ok (.cons hab .nil)⟩
      · rw [if_neg goes, if_neg goes]
        exact ⟨List.suffix_refl ts, .ok .nil⟩
  exact ⟨fun ts => (both _ ts (Nat.lt_succ_self _)).1, fun ts => (both _ ts (Nat.lt_succ_self _)).2⟩

/-- A rule that calls itself on fewer words, if its description relocates whatever relocates in its
place. -/
theorem recursive {fault : Option Token → RuleFault} {step step' : Rule α → Rule α}
    (hfault : ∀ t, fault (t.map (·.mapSpan g)) = (fault t).mapSpan g)
    (hstep : ∀ q q', Relocates g q q' R → Relocates g (step q) (step' q') R) :
    Relocates g (Parser.recursive fault step) (Parser.recursive fault step') R := by
  have both : ∀ n, ∀ ts : List Token, ts.length < n →
      (Parser.recursive fault step ts).rest <:+ ts ∧
        Relocated g R (Parser.recursive fault step ts)
          (Parser.recursive fault step' (ts.map (·.mapSpan g))) := by
    intro n
    induction n with
    | zero => exact fun _ hn => absurd hn (Nat.not_lt_zero _)
    | succ n ih =>
      intro ts hn
      have stop : Relocates g (Parser.fail fault : Rule α) (Parser.fail fault) R := .fail hfault
      have inner : Relocates g
          (fun r => if r.length < ts.length then Parser.recursive fault step r
            else Parser.fail fault r)
          (fun r => if r.length < (ts.map (·.mapSpan g)).length then
            Parser.recursive fault step' r else Parser.fail fault r) R := by
        constructor
        · intro r
          by_cases shorter : r.length < ts.length
          · simp only [if_pos shorter]
            exact (ih r (by omega)).1
          · simp only [if_neg shorter]
            exact stop.forward r
        · intro r
          simp only [List.length_map]
          by_cases shorter : r.length < ts.length
          · simp only [if_pos shorter]
            exact (ih r (by omega)).2
          · simp only [if_neg shorter]
            exact stop.moved r
      have outer := hstep _ _ inner
      rw [Parser.recursive_apply, Parser.recursive_apply fault step']
      exact ⟨outer.forward ts, outer.moved ts⟩
  exact ⟨fun ts => (both _ ts (Nat.lt_succ_self _)).1, fun ts => (both _ ts (Nat.lt_succ_self _)).2⟩

theorem placeOf_mapSpan (rigid : Rigid g) (t : Token) (ts : List Token) :
    placeOf ((t :: ts).map (·.mapSpan g)) = g (placeOf (t :: ts)) := by
  have last : ((ts.map (·.mapSpan g)).getLast?.getD (t.mapSpan g)).span =
      g (ts.getLast?.getD t).span := by
    rw [List.getLast?_map]
    cases ts.getLast? <;> rfl
  rw [List.map_cons, placeOf, placeOf, Rule.coveredSpan, Rule.coveredSpan, last, rigid]
  rfl

/-- A node whose rule takes a word stands at the moved place. -/
theorem located {rule rule' : Rule (Span → α)} (rigid : Rigid g)
    (takes : ∀ ts f r, rule ts = .ok f r → r.length < ts.length)
    (h : Relocates g rule rule' fun f f' => ∀ s, R (f s) (f' (g s))) :
    Relocates g (Rule.located rule) (Rule.located rule') R := by
  constructor
  · intro ts
    have front := h.forward ts
    cases hr : rule ts with
    | error e left =>
      rw [hr] at front
      rw [located_error hr]
      exact front
    | ok f r =>
      rw [hr] at front
      obtain ⟨us, rfl⟩ : r <:+ ts := front
      rw [located_ok hr]
      exact List.suffix_append us r
  · intro ts
    have front := h.forward ts
    have related := h.moved ts
    cases hr : rule ts with
    | error e left =>
      rw [hr] at related
      rw [located_error hr]
      generalize ho : rule' (ts.map (·.mapSpan g)) = o' at related
      cases related with
      | error =>
        rw [located_error ho]
        exact .error
    | ok f r =>
      have shorter := takes ts f r hr
      rw [hr] at front related
      obtain ⟨us, rfl⟩ : r <:+ ts := front
      rw [located_ok hr]
      generalize ho : rule' ((us ++ r).map (·.mapSpan g)) = o' at related
      cases related with
      | ok hab =>
        rw [List.map_append] at ho ⊢
        rw [located_ok ho]
        cases us with
        | nil => exact absurd shorter (Nat.lt_irrefl _)
        | cons u us =>
          rw [placeOf_mapSpan rigid]
          exact .ok (hab _)

end Relocates

section Words

variable {α : Type} {g : Span → Span}

theorem punct_relocates (p : Punct) : Relocates g (Rule.punct p) (Rule.punct p) Eq :=
  (Relocates.accept fun _ => rfl).bind_eq fun _ => .ite (fun _ => .pure rfl) fun _ => .expected _

theorem keyword_relocates (k : String) : Relocates g (Rule.keyword k) (Rule.keyword k) Eq :=
  (Relocates.accept fun _ => rfl).bind_eq fun _ => .ite (fun _ => .pure rfl) fun _ => .expected _

theorem peekName_apply (ts : List Token) :
    Rule.peekName ts = .ok (ts.head?.bind (·.lexeme.name?)) ts := by
  cases ts with
  | nil => rfl
  | cons t ts =>
    obtain ⟨l, span⟩ := t
    cases l <;> rfl

theorem peekName_relocates : Relocates g Rule.peekName Rule.peekName Eq where
  forward ts := by
    rw [peekName_apply]
    exact List.suffix_refl ts
  moved ts := by
    rw [peekName_apply, peekName_apply]
    exact .ok (by cases ts <;> rfl)

theorem name_relocates : Relocates g Rule.name Rule.name Eq := by
  refine peekName_relocates.bind_eq fun n => ?_
  cases n with
  | none => exact .expected _
  | some n => exact Relocates.next.bind fun _ _ _ => .pure rfl

theorem description_apply (ts : List Token) :
    Rule.description ts = .ok () (if ts.head?.any (·.lexeme.isString) then ts.tail else ts) := by
  cases ts with
  | nil => rfl
  | cons t ts =>
    obtain ⟨l, span⟩ := t
    cases l <;> rfl

theorem description_relocates : Relocates g Rule.description Rule.description Eq where
  forward ts := by
    rw [description_apply]
    split
    · exact List.tail_suffix ts
    · exact List.suffix_refl ts
  moved ts := by
    have blind : Relocates.Blind g fun t => t.lexeme.isString := fun _ => rfl
    rw [description_apply, description_apply, List.head?_map, Relocates.any_mapSpan blind]
    split
    · rw [← List.map_tail]
      exact .ok rfl
    · exact .ok rfl

/-- A rule for a language without the empty sequence takes a word. -/
theorem length_lt_of_solid {β : Type} {p : Rule α} {L : Language β} {R : α → β → Prop}
    {s : Language.Shape} (h : ∀ n, Recognizes n p L R s) (solid : ¬ s.nullable)
    {ts r : List Token} {a : α} (hp : p ts = .ok a r) : r.length < ts.length := by
  have reads := h (ts.length + 1)
  obtain ⟨us, b, rfl, hl, -, -⟩ := reads.takes (Nat.lt_succ_self _) hp
  cases us with
  | nil => exact absurd (reads.empty hl) solid
  | cons u us =>
    rw [List.cons_append, List.length_cons, List.length_append]
    omega

/-- A node that starts with a word stands at the moved place. -/
theorem Relocates.node {β : Type} (rigid : Rigid g) {p : Rule β} {f f' : β → Rule (Span → α)}
    {R : α → α → Prop} (hp : Relocates g p p Eq)
    (takes : ∀ {ts b r}, p ts = .ok b r → r.length < ts.length)
    (hf : ∀ b, Relocates g (f b) (f' b) fun h h' => ∀ s, R (h s) (h' (g s))) :
    Relocates g (Rule.located (p >>= f)) (Rule.located (p >>= f')) R := by
  refine .located rigid (fun ts h r hr => ?_) (hp.bind_eq hf)
  rw [Parser.bind_apply] at hr
  cases hpt : p ts with
  | error e left => rw [hpt] at hr; cases hr
  | ok b r' =>
    rw [hpt] at hr
    have behind : f b r' = .ok h r := hr
    have first := takes hpt
    have forward := (hf b).forward r'
    rw [behind] at forward
    have rest : r.length ≤ r'.length := forward.length_le
    omega

theorem length_lt_of_name {ts r : List Token} {n : String} (h : Rule.name ts = .ok n r) :
    r.length < ts.length :=
  length_lt_of_solid (fun _ => name_recognizes) (by simp) h

theorem length_lt_of_punct {p : Punct} {ts r : List Token} {u : Unit}
    (h : Rule.punct p ts = .ok u r) : r.length < ts.length :=
  length_lt_of_solid (fun _ => punct_recognizes p) (by simp) h

end Words

section Enclosed

variable {α : Type} {g : Span → Span} {item item' : Rule α} {R : α → α → Prop}

theorem itemsUntil_relocates (closing : Punct) (h : Relocates g item item' R) :
    Relocates g (Rule.itemsUntil closing item) (Rule.itemsUntil closing item')
      (List.Forall₂ R) :=
  (Relocates.repeatWhile (fun _ => rfl) h).bind fun _ _ items =>
    (punct_relocates closing).bind_eq fun _ => .pure items

theorem optionallyEnclosed_relocates (opening closing : Punct) (h : Relocates g item item' R) :
    Relocates g (Rule.optionallyEnclosed opening closing item)
      (Rule.optionallyEnclosed opening closing item') (List.Forall₂ R) :=
  (Relocates.accept fun _ => rfl).bind_eq fun _ =>
    .ite (fun _ => itemsUntil_relocates closing h) fun _ => .pure .nil

/-- Nodes between marks, each of which is found again at its moved place. -/
theorem nodesEnclosed_relocates (opening closing : Punct) {f : α → α}
    (h : Relocates g item item' fun a b => f a = b) :
    Relocates g (Rule.optionallyEnclosed opening closing item)
      (Rule.optionallyEnclosed opening closing item') fun as bs => as.map f = bs :=
  (optionallyEnclosed_relocates opening closing h).imp fun _ _ => map_eq_of_forall₂

theorem separatedNames_relocates (p : Punct) :
    Relocates g (Rule.separatedNames p) (Rule.separatedNames p) Eq := by
  have names : Relocates g (do Rule.punct p; Rule.name) (do Rule.punct p; Rule.name) Eq :=
    (punct_relocates p).bind_eq fun _ => name_relocates
  refine (Relocates.accept fun _ => rfl).bind_eq fun _ => name_relocates.bind_eq fun n => ?_
  refine (Relocates.repeatWhile (fun _ => rfl) names).bind fun ns ns' same => .pure ?_
  rw [List.forall₂_eq_eq_eq] at same
  rw [same]

theorem typeRef_relocates : Relocates g Rule.typeRef Rule.typeRef Eq := by
  refine .recursive (fun _ => rfl) fun q q' hq => ?_
  have list : Relocates g (Rule.listType q) (Rule.listType q') Eq :=
    hq.bind_eq fun _ => (punct_relocates _).bind_eq fun _ => .pure rfl
  have named : Relocates g Rule.namedType Rule.namedType Eq := by
    refine peekName_relocates.bind_eq fun n => ?_
    cases n with
    | none => exact .expected _
    | some n => exact Relocates.next.bind fun _ _ _ => .pure rfl
  have bang (t : TypeRef) : Relocates g (bangRule t) (bangRule t) Eq :=
    (Relocates.accept fun _ => rfl).bind_eq fun _ =>
      .ite (fun _ => .pure rfl) fun _ => .pure rfl
  exact (Relocates.accept fun _ => rfl).bind_eq fun _ =>
    .ite (fun _ => list.bind_eq bang) fun _ => named.bind_eq bang

theorem member_relocates {q q' : Rule Value} (h : Relocates g q q' Eq) :
    Relocates g (Rule.member q) (Rule.member q') Eq :=
  name_relocates.bind_eq fun _ => (punct_relocates _).bind_eq fun _ => h.bind_eq fun _ => .pure rfl

theorem value_relocates : Relocates g Rule.value Rule.value Eq := by
  refine .recursive (fun _ => rfl) fun q q' hq => Relocates.next.bind fun t t' ht => ?_
  subst ht
  cases t with
  | none => exact .fail fun _ => rfl
  | some t =>
    obtain ⟨l, span⟩ := t
    cases l with
    | punct p =>
      cases p with
      | bracketOpen =>
        refine (itemsUntil_relocates _ hq).bind fun vs vs' same => .pure ?_
        rw [List.forall₂_eq_eq_eq] at same
        rw [same]
      | braceOpen =>
        refine (itemsUntil_relocates _ (member_relocates hq)).bind fun ms ms' same => .pure ?_
        rw [List.forall₂_eq_eq_eq] at same
        rw [same]
      | _ => exact .fail fun _ => rfl
    | _ => exact .pure rfl

end Enclosed

section Nodes

variable {g : Span → Span} (rigid : Rigid g)
include rigid

theorem argument_relocates :
    Relocates g Rule.argument Rule.argument fun a b => a.mapSpans g = b :=
  .node rigid name_relocates length_lt_of_name fun _ => (punct_relocates _).bind_eq fun _ =>
    value_relocates.bind_eq fun _ => .pure fun _ => rfl

theorem directive_relocates :
    Relocates g Rule.directive Rule.directive fun d e => d.mapSpans g = e := by
  refine .node rigid (punct_relocates _) length_lt_of_punct fun _ => name_relocates.bind_eq
    fun n => ?_
  refine (nodesEnclosed_relocates _ _ (argument_relocates rigid)).bind fun as bs hab => ?_
  exact .pure fun s => by rw [← hab]; rfl

theorem directives_relocates :
    Relocates g Rule.directives Rule.directives fun ds es => ds.map (·.mapSpans g) = es :=
  (Relocates.repeatWhile (fun _ => rfl) (directive_relocates rigid)).imp fun _ _ =>
    map_eq_of_forall₂

omit rigid in
theorem defaultValue_relocates : Relocates g Rule.defaultValue Rule.defaultValue Eq :=
  (Relocates.accept fun _ => rfl).bind_eq fun _ =>
    .ite (fun _ => value_relocates.bind_eq fun _ => .pure rfl) fun _ => .pure rfl

theorem inputValue_relocates :
    Relocates g Rule.inputValue Rule.inputValue fun v w => v.mapSpans g = w := by
  refine description_relocates.bind_eq fun _ => .node rigid name_relocates length_lt_of_name
    fun n => (punct_relocates _).bind_eq fun _ => typeRef_relocates.bind_eq fun t =>
    defaultValue_relocates.bind_eq fun v => ?_
  refine (directives_relocates rigid).bind fun ds es hds => .pure fun s => ?_
  rw [← hds]
  rfl

theorem field_relocates :
    Relocates g Rule.field Rule.field fun a b => a.mapSpans g = b := by
  refine description_relocates.bind_eq fun _ => .node rigid name_relocates length_lt_of_name
    fun n => (nodesEnclosed_relocates _ _ (inputValue_relocates rigid)).bind fun vs ws hvs =>
    (punct_relocates _).bind_eq fun _ => typeRef_relocates.bind_eq fun t => ?_
  refine (directives_relocates rigid).bind fun ds es hds => .pure fun s => ?_
  rw [← hvs, ← hds]
  rfl

theorem enumItem_relocates : Relocates g Rule.enumItem Rule.enumItem Eq :=
  description_relocates.bind_eq fun _ => name_relocates.bind_eq fun _ =>
    (directives_relocates rigid).bind fun _ _ _ => .pure rfl

omit rigid in
theorem interfaces_relocates : Relocates g Rule.interfaces Rule.interfaces Eq :=
  (Relocates.accept fun _ => rfl).bind_eq fun _ =>
    .ite (fun _ => separatedNames_relocates _) fun _ => .pure rfl

/-- What is read behind a keyword gives the same definition at every place. -/
def SameBody (g : Span → Span) (f f' : Span → Definition) : Prop :=
  ∀ s, (f s).mapSpans g = f' (g s)

theorem typeBody_relocates (kind : TypeKind) :
    Relocates g (Rule.typeBody kind) (Rule.typeBody kind) (SameBody g) := by
  refine name_relocates.bind_eq fun n => interfaces_relocates.bind_eq fun is => ?_
  refine (directives_relocates rigid).bind fun ds es hds => ?_
  refine (nodesEnclosed_relocates _ _ (field_relocates rigid)).bind fun fs gs hfs => ?_
  exact .pure fun s => by rw [← hds, ← hfs]; rfl

theorem inputBody_relocates :
    Relocates g Rule.inputBody Rule.inputBody (SameBody g) := by
  refine name_relocates.bind_eq fun n => (directives_relocates rigid).bind fun ds es hds => ?_
  refine (nodesEnclosed_relocates _ _ (inputValue_relocates rigid)).bind fun vs ws hvs => ?_
  exact .pure fun s => by rw [← hds, ← hvs]; rfl

theorem enumBody_relocates :
    Relocates g Rule.enumBody Rule.enumBody (SameBody g) := by
  refine name_relocates.bind_eq fun n => (directives_relocates rigid).bind fun ds es hds => ?_
  refine (optionallyEnclosed_relocates _ _ (enumItem_relocates rigid)).bind fun ns ns' same => ?_
  rw [List.forall₂_eq_eq_eq] at same
  exact .pure fun s => by rw [← hds, ← same]; rfl

theorem scalarBody_relocates :
    Relocates g Rule.scalarBody Rule.scalarBody (SameBody g) := by
  refine name_relocates.bind_eq fun n => (directives_relocates rigid).bind fun ds es hds => ?_
  exact .pure fun s => by rw [← hds]; rfl

theorem directiveBody_relocates :
    Relocates g Rule.directiveBody Rule.directiveBody (SameBody g) := by
  refine (punct_relocates _).bind_eq fun _ => name_relocates.bind_eq fun n => ?_
  refine (nodesEnclosed_relocates _ _ (inputValue_relocates rigid)).bind fun vs ws hvs => ?_
  refine (Relocates.accept fun _ => rfl).bind_eq fun r => (keyword_relocates _).bind_eq fun _ => ?_
  exact (separatedNames_relocates _).bind_eq fun ns => .pure fun s => by rw [← hvs]; rfl

theorem definitionBody?_relocates {k : String} {body : Rule (Span → Definition)}
    (h : Rule.definitionBody? k = some body) : Relocates g body body (SameBody g) := by
  unfold Rule.definitionBody? at h
  split at h
  · cases h
    exact typeBody_relocates rigid .object
  · cases h
    exact typeBody_relocates rigid .interface
  · cases h
    exact inputBody_relocates rigid
  · cases h
    exact enumBody_relocates rigid
  · cases h
    exact scalarBody_relocates rigid
  · cases h
    exact directiveBody_relocates rigid
  · cases h

theorem definitionNode_relocates :
    Relocates g definitionNode definitionNode (SameBody g) := by
  refine peekName_relocates.bind_eq fun n => ?_
  cases h : n.bind Rule.definitionBody? with
  | none => exact .expected _
  | some body =>
    obtain ⟨k, -, hk⟩ := Option.bind_eq_some_iff.mp h
    exact Relocates.next.bind fun _ _ _ => definitionBody?_relocates rigid hk

/-- A definition is read from moved words as the same definition at the moved place. -/
theorem definition_relocates :
    Relocates g Rule.definition Rule.definition fun d e => d.mapSpans g = e := by
  refine description_relocates.bind_eq fun _ => .located rigid (fun ts f r h => ?_)
    ((definitionNode_relocates rigid).imp fun f f' same s => same s)
  obtain ⟨t, ts, q, rfl, hq, behind⟩ := definitionNode_byFirst.next_of_ok h
  obtain ⟨k, -, hk⟩ := Option.bind_eq_some_iff.mp hq
  have forward := (definitionBody?_relocates rigid hk).forward ts
  rw [behind] at forward
  exact Nat.lt_succ_of_le forward.length_le

/-- A document is read from moved words as it is read from the words where they stand. -/
theorem document_relocates :
    Relocates g Rule.document Rule.document fun d e => d.mapSpans g = e := by
  refine (Relocates.repeatWhile (fun _ => rfl) (definition_relocates rigid)).bind
    fun ds es same => .pure ?_
  rw [← map_eq_of_forall₂ same]
  rfl

end Nodes

end TransformDirective.Schema
