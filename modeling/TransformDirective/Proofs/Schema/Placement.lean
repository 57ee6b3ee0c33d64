import TransformDirective.Proofs.Schema.Relocation

namespace TransformDirective.Schema

open TransformDirective.Text

section Rows

variable {α β : Type} {Q : List Token → List Token → α → Prop} {us back : List Token} {as : List α}

/-- Values one behind the other in these words. Of each value `Q` tells the words that it has and
the words behind them. -/
inductive Row (Q : List Token → List Token → α → Prop) :
    List Token → List Token → List α → Prop
  | nil {us back : List Token} : Row Q us back []
  | cons {gap us more back : List Token} {a : α} {as : List α} (first : Q us (more ++ back) a)
      (rest : Row Q more back as) : Row Q (gap ++ us ++ more) back (a :: as)

/-- What holds of some words holds of more of the words around them. -/
def Spreads (P : List Token → List Token → α → Prop) : Prop :=
  ∀ pre us post back a, P us (post ++ back) a → P (pre ++ us ++ post) back a

theorem Row.append {post : List Token} (h : Row Q us (post ++ back) as) :
    Row Q (us ++ post) back as := by
  generalize whole : post ++ back = rest at h
  induction h with
  | nil => exact .nil
  | cons first _ ih =>
    subst whole
    rw [← List.append_assoc] at first
    rw [List.append_assoc]
    exact .cons first (ih rfl)

theorem Row.prepend (pre : List Token) (h : Row Q us back as) : Row Q (pre ++ us) back as := by
  cases h with
  | nil => exact .nil
  | cons first rest =>
    rw [← List.append_assoc, ← List.append_assoc]
    exact .cons first rest

theorem row_spreads : Spreads (Row Q) := by
  intro pre us post back as h
  rw [List.append_assoc]
  exact h.append.prepend pre

theorem Row.map {Q' : List Token → List Token → β → Prop} {f : α → β}
    (h : Row (fun us back a => Q' us back (f a)) us back as) : Row Q' us back (as.map f) := by
  induction h with
  | nil => exact .nil
  | cons first _ ih => exact .cons first ih

end Rows

section Found

variable {α β : Type} {p : Rule α} {f : α → Rule β} {P : List Token → List Token → α → Prop}
  {Q : α → List Token → List Token → β → Prop}

/-- The rule takes the front of the words, and `P` holds of what it took. -/
structure Finds (p : Rule α) (P : List Token → List Token → α → Prop) : Prop where
  found : ∀ {ts a r}, p ts = .ok a r → ∃ us, ts = us ++ r ∧ P us r a
  spreads : Spreads P

namespace Finds

theorem forward (h : ∀ ts, (p ts).rest <:+ ts) : Finds p fun _ _ _ => True where
  found {ts a r} hp := by
    have front := h ts
    rw [hp] at front
    obtain ⟨us, rfl⟩ : r <:+ ts := front
    exact ⟨us, rfl, trivial⟩
  spreads _ _ _ _ _ h := h

theorem pure (a : α) : Finds (Pure.pure a) fun _ _ b => b = a where
  found h := by
    cases h
    exact ⟨[], rfl, rfl⟩
  spreads _ _ _ _ _ h := h

theorem imp {P' : List Token → List Token → α → Prop} (h : Finds p P) (spreads : Spreads P')
    (imp : ∀ us r a, P us r a → P' us r a) : Finds p P' where
  found hp := by
    obtain ⟨us, rfl, holds⟩ := h.found hp
    exact ⟨us, rfl, imp _ _ _ holds⟩
  spreads := spreads

theorem bind (hp : Finds p P) (hf : ∀ a, Finds (f a) (Q a)) :
    Finds (p >>= f) fun us r b => ∃ a, P us r a ∧ Q a us r b where
  found {ts b r} h := by
    rw [Parser.bind_apply] at h
    cases first : p ts with
    | error e left => rw [first] at h; cases h
    | ok a r' =>
      rw [first] at h
      obtain ⟨us, rfl, holds⟩ := hp.found first
      obtain ⟨vs, rfl, holds'⟩ := (hf a).found h
      refine ⟨us ++ vs, (List.append_assoc us vs r).symm, a, ?_, ?_⟩
      · exact hp.spreads [] us vs r a holds
      · have wider := (hf a).spreads us vs [] r b holds'
        rwa [List.append_nil] at wider
  spreads pre us post back b h := by
    obtain ⟨a, holds, holds'⟩ := h
    exact ⟨a, hp.spreads pre us post back a holds, (hf a).spreads pre us post back b holds'⟩

theorem ite {c : Prop} [Decidable c] {q : Rule α} (hp : Finds p P) (hq : Finds q P) :
    Finds (if c then p else q) P := by
  split
  · exact hp
  · exact hq

/-- Each item has some of the words. -/
theorem repeatWhile {test : Token → Bool} {R : List Token → List Token → α → Prop}
    (h : ∀ {ts a r}, p ts = .ok a r → ∃ gap us, ts = gap ++ us ++ r ∧ R us r a) :
    Finds (Parser.repeatWhile test p) (Row R) where
  found {ts as r} hp := by
    induction hk : ts.length using Nat.strongRecOn generalizing ts as with
    | ind k ih =>
      subst hk
      rw [repeatWhile_apply] at hp
      by_cases goes : ts.head?.any test = true
      · rw [if_pos goes] at hp
        cases item : p ts with
        | error e left => rw [item] at hp; cases hp
        | ok a r' =>
          rw [item] at hp
          obtain ⟨gap, us, rfl, holds⟩ := h item
          by_cases shorter : r'.length < (gap ++ us ++ r').length
          · simp only [if_pos shorter] at hp
            cases others : Parser.repeatWhile test p r' with
            | error e left => rw [others] at hp; cases hp
            | ok as' r'' =>
              rw [others] at hp
              cases hp
              obtain ⟨more, rfl, row⟩ := ih _ shorter others rfl
              exact ⟨gap ++ us ++ more, by simp only [List.append_assoc], .cons holds row⟩
          · simp only [if_neg shorter] at hp
            cases hp
            refine ⟨gap ++ us ++ [], by simp, .cons ?_ .nil⟩
            exact holds
      · rw [if_neg goes] at hp
        cases hp
        exact ⟨[], rfl, .nil⟩
  spreads := row_spreads

theorem optionallyEnclosed {opening closing : Punct} {R : List Token → List Token → α → Prop}
    (h : ∀ {ts a r}, p ts = .ok a r → ∃ gap us, ts = gap ++ us ++ r ∧ R us r a) :
    Finds (Rule.optionallyEnclosed opening closing p) (Row R) := by
  have blind : Relocates.Blind id (Rule.isPunct opening) := fun _ => rfl
  have items : Finds (Rule.itemsUntil closing p) (Row R) := by
    apply ((repeatWhile h).bind fun as => (forward (punct_relocates (g := id) closing).forward).bind
      fun _ => pure as).imp row_spreads
    rintro us r bs ⟨as, row, -, -, rfl⟩
    exact row
  have none : Finds (Pure.pure [] : Rule (List α)) (Row R) := by
    apply (pure []).imp row_spreads
    rintro us r _ rfl
    exact .nil
  apply ((forward (Relocates.accept blind).forward).bind fun _ => ite items none).imp row_spreads
  rintro us r as ⟨-, -, row⟩
  exact row

end Finds

end Found

section Located

variable {α β : Type} {P : List Token → List Token → (Span → α) → Prop} {ts us r : List Token}
  {a : α}

/-- A node has the words that its rule takes. -/
theorem located_found {rule : Rule (Span → α)} (h : Finds rule P)
    (hp : Rule.located rule ts = .ok a r) :
    ∃ us f, ts = us ++ r ∧ rule ts = .ok f r ∧ P us r f ∧ a = f (placeOf us) := by
  cases read : rule ts with
  | error e left =>
    rw [located_error read] at hp
    cases hp
  | ok f r' =>
    obtain ⟨us, rfl, holds⟩ := h.found read
    rw [located_ok read] at hp
    cases hp
    exact ⟨us, f, rfl, rfl, holds, rfl⟩

/-- The words start with one that is no description. -/
def StartsBare (us : List Token) : Prop := ∃ t ∈ us.head?, t.lexeme.isString = false

/-- A rule that starts with a word of its own takes it. -/
theorem startsBare_of_bind {p : Rule β} {f : β → Rule α}
    {Q : β → List Token → List Token → α → Prop}
    (first : ∀ {ts b r}, p ts = .ok b r → ∃ t, ts = t :: r ∧ t.lexeme.isString = false)
    (hf : ∀ b, Finds (f b) (Q b)) (h : (p >>= f) (us ++ r) = .ok a r) : StartsBare us := by
  rw [Parser.bind_apply] at h
  cases taken : p (us ++ r) with
  | error e left => rw [taken] at h; cases h
  | ok b r' =>
    rw [taken] at h
    obtain ⟨t, whole, bare⟩ := first taken
    obtain ⟨vs, rfl, -⟩ := (hf b).found h
    have own : us = t :: vs := List.append_cancel_right whole
    exact ⟨t, by rw [own]; rfl, bare⟩

theorem name_takes {n : String} (h : Rule.name ts = .ok n r) :
    ∃ t, ts = t :: r ∧ t.lexeme.isString = false := by
  obtain ⟨t, ts, q, rfl, way, rest⟩ := name_byFirst.next_of_ok h
  obtain ⟨m, name, rfl⟩ := Option.map_eq_some_iff.mp way
  cases rest
  refine ⟨t, rfl, ?_⟩
  rw [Lexeme.name?_eq_some.mp name]
  rfl

theorem punct_takes {p : Punct} {u : Unit} (h : Rule.punct p ts = .ok u r) :
    ∃ t, ts = t :: r ∧ t.lexeme.isString = false := by
  have reads := punct_recognizes p (n := ts.length + 1)
  obtain ⟨us, _, rfl, word, -⟩ := reads.takes (Nat.lt_succ_self _) h
  obtain ⟨t, rest, rfl, lexeme, none⟩ := List.map_eq_cons_iff.mp word
  obtain rfl := List.map_eq_nil_iff.mp none
  exact ⟨t, rfl, by rw [lexeme]; rfl⟩

/-- Behind a description, or from the start, the node itself is read. -/
theorem described_found {body : Rule α} (h : (Rule.description >>= fun _ => body) ts = .ok a r) :
    ∃ gap rest, ts = gap ++ rest ∧ body rest = .ok a r := by
  rw [Parser.bind_apply, description_apply] at h
  have rest : body (if ts.head?.any (·.lexeme.isString) then ts.tail else ts) = .ok a r := h
  split at rest
  · refine ⟨ts.take 1, ts.tail, ?_, rest⟩
    rw [← List.drop_one, List.take_append_drop]
  · exact ⟨[], ts, rfl, rest⟩

/-- Without a description the node is read from the start. -/
theorem described_of_bare {body : Rule α} (bare : StartsBare us) (h : body (us ++ r) = .ok a r) :
    (Rule.description >>= fun _ => body) (us ++ r) = .ok a r := by
  obtain ⟨t, head, noString⟩ := bare
  obtain ⟨us, rfl⟩ := List.head?_eq_some_iff.mp head
  rw [Parser.bind_apply, description_apply, if_neg]
  · exact h
  · simp [noString]

end Located

/-- A node of a document that has a place. -/
inductive Node where
  | definition (node : Definition)
  | field (node : Field)
  | inputValue (node : InputValue)
  | directive (node : Directive)
  | argument (node : Argument)

namespace Node

def span : Node → Span
  | definition (.type t) => t.span
  | definition (.input i) => i.span
  | definition (.enumeration e) => e.span
  | definition (.scalar s) => s.span
  | definition (.directive d) => d.span
  | field f => f.span
  | inputValue v => v.span
  | directive d => d.span
  | argument a => a.span

/-- The lists of nodes inside a node. -/
def parts : Node → List (List Node)
  | definition (.type t) => [t.directives.map directive, t.fields.map field]
  | definition (.input i) => [i.directives.map directive, i.fields.map inputValue]
  | definition (.enumeration e) => [e.directives.map directive]
  | definition (.scalar s) => [s.directives.map directive]
  | definition (.directive d) => [d.arguments.map inputValue]
  | field f => [f.arguments.map inputValue, f.directives.map directive]
  | inputValue v => [v.directives.map directive]
  | directive d => [d.arguments.map argument]
  | argument _ => []

/-- The rule for such nodes takes these words, reads this node and leaves the words behind it. -/
def TakenFrom (us back : List Token) : Node → Prop
  | definition d => Rule.definition (us ++ back) = .ok d back
  | field f => Rule.field (us ++ back) = .ok f back
  | inputValue v => Rule.inputValue (us ++ back) = .ok v back
  | directive d => Rule.directive (us ++ back) = .ok d back
  | argument a => Rule.argument (us ++ back) = .ok a back

end Node

/-- A node with its own words, in which the nodes inside it have theirs. -/
inductive NodeAt : List Token → List Token → Node → Prop
  | mk {us back : List Token} {n : Node} (taken : n.TakenFrom us back) (starts : StartsBare us)
      (place : n.span = placeOf us) (parts : ∀ list ∈ n.parts, Row NodeAt us back list) :
      NodeAt us back n

section Nodes

variable {ts r : List Token}

/-- Nothing is said of the words that a rule took. -/
abbrev Anything {α : Type} (_ _ : List Token) (_ : α) : Prop := True

theorem name_finds : Finds Rule.name Anything := .forward (name_relocates (g := id)).forward

theorem punct_finds (p : Punct) : Finds (Rule.punct p) Anything :=
  .forward (punct_relocates (g := id) p).forward

theorem typeRef_finds : Finds Rule.typeRef Anything :=
  .forward (typeRef_relocates (g := id)).forward

theorem value_finds : Finds Rule.value Anything := .forward (value_relocates (g := id)).forward

theorem argument_at {a : Argument} (h : Rule.argument ts = .ok a r) :
    ∃ us, ts = us ++ r ∧ NodeAt us r (.argument a) := by
  have behind (n : String) := (punct_finds .colon).bind fun _ => value_finds.bind fun v =>
    Finds.pure fun span => (⟨n, v, span⟩ : Argument)
  obtain ⟨us, f, rfl, read, ⟨n, -, -, -, v, -, rfl⟩, rfl⟩ :=
    located_found (name_finds.bind behind) h
  have starts := startsBare_of_bind name_takes behind read
  exact ⟨us, rfl, .mk h starts rfl fun _ hlist => nomatch hlist⟩

theorem arguments_find :
    Finds (Rule.optionallyEnclosed .parenOpen .parenClose Rule.argument)
      (Row fun us back a => NodeAt us back (.argument a)) :=
  .optionallyEnclosed fun h => by
    obtain ⟨us, whole, node⟩ := argument_at h
    exact ⟨[], us, whole, node⟩

theorem directive_at {d : Directive} (h : Rule.directive ts = .ok d r) :
    ∃ us, ts = us ++ r ∧ NodeAt us r (.directive d) := by
  have behind (_ : Unit) := name_finds.bind fun n => arguments_find.bind fun as =>
    Finds.pure fun span => (⟨n, as, span⟩ : Directive)
  obtain ⟨us, f, rfl, read, ⟨-, -, n, -, as, row, rfl⟩, rfl⟩ :=
    located_found ((punct_finds .at).bind behind) h
  have starts := startsBare_of_bind punct_takes behind read
  refine ⟨us, rfl, .mk h starts rfl fun list hlist => ?_⟩
  obtain rfl := List.mem_singleton.mp hlist
  exact row.map

theorem directives_find :
    Finds Rule.directives (Row fun us back d => NodeAt us back (.directive d)) :=
  .repeatWhile fun h => by
    obtain ⟨us, whole, node⟩ := directive_at h
    exact ⟨[], us, whole, node⟩

theorem inputValue_at {v : InputValue} (h : Rule.inputValue ts = .ok v r) :
    ∃ gap us, ts = gap ++ us ++ r ∧ NodeAt us r (.inputValue v) := by
  obtain ⟨gap, rest, rfl, node⟩ := described_found h
  have default : Finds Rule.defaultValue Anything :=
    .forward (defaultValue_relocates (g := id)).forward
  have behind (n : String) := (punct_finds .colon).bind fun _ => typeRef_finds.bind fun t =>
    default.bind fun v => directives_find.bind fun ds =>
    Finds.pure fun span => (⟨n, t, v, ds, span⟩ : InputValue)
  obtain ⟨us, f, rfl, read, ⟨n, -, -, -, t, -, v, -, ds, row, rfl⟩, rfl⟩ :=
    located_found (name_finds.bind behind) node
  have starts := startsBare_of_bind name_takes behind read
  refine ⟨gap, us, (List.append_assoc gap us r).symm, .mk (described_of_bare starts node) starts rfl
    fun list hlist => ?_⟩
  obtain rfl := List.mem_singleton.mp hlist
  exact row.map

theorem inputValues_find (opening closing : Punct) :
    Finds (Rule.optionallyEnclosed opening closing Rule.inputValue)
      (Row fun us back v => NodeAt us back (.inputValue v)) :=
  .optionallyEnclosed inputValue_at

theorem field_at {f : Field} (h : Rule.field ts = .ok f r) :
    ∃ gap us, ts = gap ++ us ++ r ∧ NodeAt us r (.field f) := by
  obtain ⟨gap, rest, rfl, node⟩ := described_found h
  have behind (n : String) := (inputValues_find .parenOpen .parenClose).bind fun vs =>
    (punct_finds .colon).bind fun _ => typeRef_finds.bind fun t => directives_find.bind fun ds =>
    Finds.pure fun span => (⟨n, vs, t, ds, span⟩ : Field)
  obtain ⟨us, f, rfl, read, ⟨n, -, vs, values, -, -, t, -, ds, row, rfl⟩, rfl⟩ :=
    located_found (name_finds.bind behind) node
  have starts := startsBare_of_bind name_takes behind read
  refine ⟨gap, us, (List.append_assoc gap us r).symm,
    .mk (described_of_bare starts node) starts rfl ?_⟩
  exact List.forall_mem_cons.mpr ⟨values.map, List.forall_mem_singleton.mpr row.map⟩

/-- A definition stands where it is put, and the nodes inside it have their words there. -/
def BodyAt (us back : List Token) (f : Span → Definition) : Prop :=
  ∀ span, (Node.definition (f span)).span = span ∧
    ∀ list ∈ (Node.definition (f span)).parts, Row NodeAt us back list

theorem bodyAt_spreads : Spreads BodyAt := by
  intro pre us post back f h span
  obtain ⟨place, parts⟩ := h span
  exact ⟨place, fun list hlist => row_spreads pre us post back list (parts list hlist)⟩

theorem typeBody_finds (kind : TypeKind) : Finds (Rule.typeBody kind) BodyAt := by
  have fields : Finds (Rule.optionallyEnclosed .braceOpen .braceClose Rule.field)
      (Row fun us back f => NodeAt us back (.field f)) := .optionallyEnclosed field_at
  have interfaces : Finds Rule.interfaces Anything :=
    .forward (interfaces_relocates (g := id)).forward
  apply (name_finds.bind fun n => interfaces.bind fun is => directives_find.bind fun ds =>
    fields.bind fun fs => Finds.pure fun span => Definition.type ⟨kind, n, is, ds, fs, span⟩).imp
    bodyAt_spreads
  rintro us r _ ⟨n, -, is, -, ds, directives, fs, fields, rfl⟩ span
  exact ⟨rfl, List.forall_mem_cons.mpr ⟨directives.map, List.forall_mem_singleton.mpr fields.map⟩⟩

theorem inputBody_finds : Finds Rule.inputBody BodyAt := by
  apply (name_finds.bind fun n => directives_find.bind fun ds =>
    (inputValues_find .braceOpen .braceClose).bind fun vs =>
    Finds.pure fun span => Definition.input ⟨n, ds, vs, span⟩).imp bodyAt_spreads
  rintro us r _ ⟨n, -, ds, directives, vs, values, rfl⟩ span
  exact ⟨rfl, List.forall_mem_cons.mpr ⟨directives.map, List.forall_mem_singleton.mpr values.map⟩⟩

theorem enumBody_finds : Finds Rule.enumBody BodyAt := by
  have rigid : Rigid id := fun _ _ => rfl
  have items : Finds (Rule.optionallyEnclosed .braceOpen .braceClose Rule.enumItem) Anything :=
    .forward (optionallyEnclosed_relocates _ _ (enumItem_relocates rigid)).forward
  apply (name_finds.bind fun n => directives_find.bind fun ds => items.bind fun ns =>
    Finds.pure fun span => Definition.enumeration ⟨n, ds, ns, span⟩).imp bodyAt_spreads
  rintro us r _ ⟨n, -, ds, directives, ns, -, rfl⟩ span
  exact ⟨rfl, List.forall_mem_singleton.mpr directives.map⟩

theorem scalarBody_finds : Finds Rule.scalarBody BodyAt := by
  apply (name_finds.bind fun n => directives_find.bind fun ds =>
    Finds.pure fun span => Definition.scalar ⟨n, ds, span⟩).imp bodyAt_spreads
  rintro us r _ ⟨n, -, ds, directives, rfl⟩ span
  exact ⟨rfl, List.forall_mem_singleton.mpr directives.map⟩

theorem directiveBody_finds : Finds Rule.directiveBody BodyAt := by
  have blind : Relocates.Blind id (Rule.isKeyword "repeatable") := fun _ => rfl
  have repeatable : Finds (Rule.accept (Rule.isKeyword "repeatable")) Anything :=
    .forward (Relocates.accept blind).forward
  have on : Finds (Rule.keyword "on") Anything := .forward (keyword_relocates (g := id) _).forward
  have locations : Finds (Rule.separatedNames .pipe) Anything :=
    .forward (separatedNames_relocates (g := id) _).forward
  apply ((punct_finds .at).bind fun _ => name_finds.bind fun n =>
    (inputValues_find .parenOpen .parenClose).bind fun vs => repeatable.bind fun b =>
    on.bind fun _ => locations.bind fun ns =>
    Finds.pure fun span => Definition.directive ⟨n, vs, b, ns, span⟩).imp bodyAt_spreads
  rintro us r _ ⟨-, -, n, -, vs, values, b, -, -, -, ns, -, rfl⟩ span
  exact ⟨rfl, List.forall_mem_singleton.mpr values.map⟩

theorem definitionBody?_finds {k : String} {body : Rule (Span → Definition)}
    (h : Rule.definitionBody? k = some body) : Finds body BodyAt := by
  unfold Rule.definitionBody? at h
  split at h
  · cases h
    exact typeBody_finds .object
  · cases h
    exact typeBody_finds .interface
  · cases h
    exact inputBody_finds
  · cases h
    exact enumBody_finds
  · cases h
    exact scalarBody_finds
  · cases h
    exact directiveBody_finds
  · cases h

/-- A definition starts with its keyword, and its body is read behind that. -/
theorem definitionNode_found {f : Span → Definition} (h : definitionNode ts = .ok f r) :
    ∃ us, ts = us ++ r ∧ StartsBare us ∧ BodyAt us r f := by
  obtain ⟨t, ts, body, rfl, way, read⟩ := definitionNode_byFirst.next_of_ok h
  obtain ⟨k, name, keyword⟩ := Option.bind_eq_some_iff.mp way
  obtain ⟨us, rfl, holds⟩ := (definitionBody?_finds keyword).found read
  refine ⟨t :: us, rfl, ⟨t, rfl, ?_⟩, ?_⟩
  · rw [Lexeme.name?_eq_some.mp name]
    rfl
  · have wider := bodyAt_spreads [t] us [] r f holds
    rwa [List.append_nil] at wider

/-- A definition has the words that its rule takes behind the description; the nodes inside it have
some of these words, one node behind the other. -/
theorem definition_at {d : Definition} (h : Rule.definition ts = .ok d r) :
    ∃ gap us, ts = gap ++ us ++ r ∧ NodeAt us r (.definition d) := by
  obtain ⟨gap, rest, rfl, node⟩ := described_found h
  cases read : definitionNode rest with
  | error e left =>
    cases (located_error read).symm.trans node
  | ok f r' =>
    obtain ⟨us, rfl, starts, parts⟩ := definitionNode_found read
    have place : Rule.located definitionNode (us ++ r') = .ok (f (placeOf us)) r' := located_ok read
    cases place.symm.trans node
    obtain ⟨own, parts⟩ := parts (placeOf us)
    exact ⟨gap, us, (List.append_assoc gap us r).symm,
      .mk (described_of_bare starts node) starts own parts⟩

/-- The definitions of a document have their words one behind the other. -/
theorem document_at {d : Document} (h : Rule.document ts = .ok d []) :
    Row NodeAt ts [] (d.definitions.map .definition) := by
  have definitions : Finds (Parser.repeatWhile (fun _ => true) Rule.definition)
      (Row fun us back d => NodeAt us back (.definition d)) := .repeatWhile definition_at
  have whole := definitions.bind fun ds => Finds.pure (⟨ds⟩ : Document)
  obtain ⟨us, rfl, ds, row, rfl⟩ := whole.found h
  rw [List.append_nil]
  exact row.map

end Nodes

end TransformDirective.Schema
