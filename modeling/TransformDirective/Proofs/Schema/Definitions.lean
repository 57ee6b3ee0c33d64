import TransformDirective.Proofs.Schema.Nesting

namespace TransformDirective.Schema

open TransformDirective.Schema.Language

variable {α β : Type} {n : Nat}

theorem map_eq_of_forall₂ {f : α → β} {as : List α} {bs : List β}
    (h : List.Forall₂ (fun a b => f a = b) as bs) : as.map f = bs := by
  rwa [← List.forall₂_eq_eq_eq, List.forall₂_map_left_iff]

/-- Nodes between marks, each of which stands for itself under `f`. -/
theorem nodesEnclosed_recognizes {opening closing : Punct} {item : Rule α} {L : Language β}
    {f : α → β} {s : Shape} (h : Recognizes n item L (fun a b => f a = b) s) (solid : ¬ s.nullable)
    (apart : ∀ l, s.more l → ¬ s.first l) (starts : ¬ s.first (.punct closing))
    (ends : ¬ s.more (.punct closing)) :
    Recognizes n (Rule.optionallyEnclosed opening closing item)
      (optionalList (enclosed opening closing L)) (fun as bs => as.map f = bs)
      (.mayStart (· = .punct opening)) :=
  (optionallyEnclosed_recognizes h solid apart starts ends).imp fun _ _ hab =>
    map_eq_of_forall₂ hab

theorem argument_recognizes :
    Recognizes n Rule.argument argument (fun a b => a.mapSpans forget = b)
      (.closed fun l => ∃ m, l = .name m) := by
  refine located_recognizes ((name_recognizes.bind (fun m m' hm => (punct_recognizes .colon).bind
    (fun _ _ _ => (value_recognizes n).bind (fun v v' hv => .pure fun span => ?_) ?_) ?_)
    ?_).weaken ?_ ?_ ?_)
  · rw [hm, hv]
    rfl
  all_goals simp

theorem argumentsGiven_recognizes :
    Recognizes n (Rule.optionallyEnclosed .parenOpen .parenClose Rule.argument)
      (optionalList (enclosed .parenOpen .parenClose argument))
      (fun as bs => as.map (·.mapSpans forget) = bs) (.mayStart (· = .punct .parenOpen)) :=
  nodesEnclosed_recognizes argument_recognizes (by simp) (by simp) (by simp) (by simp)

theorem directive_recognizes :
    Recognizes n Rule.directive directive (fun d e => d.mapSpans forget = e)
      ⟨(· = .punct .at), (· = .punct .parenOpen), False⟩ := by
  refine located_recognizes (((punct_recognizes .at).bind (fun _ _ _ => name_recognizes.bind
    (fun m m' hm => argumentsGiven_recognizes.bind (fun as bs hab => .pure fun span => ?_) ?_) ?_)
    ?_).weaken ?_ ?_ ?_)
  · rw [hm, ← hab]
    rfl
  all_goals simp

theorem directives_recognizes :
    Recognizes n Rule.directives (many directive)
      (fun ds es => ds.map (·.mapSpans forget) = es)
      ⟨(· = .punct .at), fun l => l = .punct .at ∨ l = .punct .parenOpen, True⟩ := by
  refine ((directive_recognizes.itemsWhile (· == .punct .at) ?_ ?_ ?_).imp ?_).weaken ?_ ?_ ?_
  · simp
  · simp
  · simp
  · exact fun ds es h => map_eq_of_forall₂ h
  all_goals simp

theorem defaultValue_recognizes :
    Recognizes n Rule.defaultValue (optional defaultValue) Eq
      (.mayStart (· = .punct .equals)) := by
  have hsome : Recognizes n (do return some (← Rule.value)) (do return some (← value)) Eq _ :=
    (value_recognizes n).bind (fun v v' hv => .pure (congrArg some hv)) (by simp)
  have hwords : optional defaultValue =
      either (do mark .equals; return some (← value)) (return none) := by
    unfold Language.optional defaultValue
    rw [Language.bind_assoc]
  rw [hwords]
  refine (ifWord_recognizes (N := fun _ => do return some (← value)) hsome
    (Eq.refl none)).weaken ?_ ?_ ?_
  all_goals simp

theorem inputValue_recognizes :
    Recognizes n Rule.inputValue inputValue (fun v w => v.mapSpans forget = w)
      ⟨fun l => (∃ text, l = .string text) ∨ ∃ m, l = .name m,
        fun l => l = .punct .bang ∨ l = .punct .equals ∨ l = .punct .at ∨ l = .punct .parenOpen,
        False⟩ := by
  refine (description_recognizes.bind (fun _ _ _ => located_recognizes (name_recognizes.bind
    (fun m m' hm => (punct_recognizes .colon).bind (fun _ _ _ => (typeRef_recognizes n).bind
    (fun t t' ht => defaultValue_recognizes.bind (fun v v' hv => directives_recognizes.bind
    (fun ds es hds => .pure fun span => ?_) ?_) ?_) ?_) ?_) ?_)) ?_).weaken ?_ ?_ ?_
  · rw [hm, ht, hv, ← hds]
    rfl
  all_goals simp
  all_goals grind

theorem argumentDefinitions_recognizes :
    Recognizes n (Rule.optionallyEnclosed .parenOpen .parenClose Rule.inputValue)
      argumentDefinitions (fun vs ws => vs.map (·.mapSpans forget) = ws)
      (.mayStart (· = .punct .parenOpen)) :=
  nodesEnclosed_recognizes inputValue_recognizes (by simp) (by grind) (by simp) (by simp)

theorem field_recognizes :
    Recognizes n Rule.field field (fun f g => f.mapSpans forget = g)
      ⟨fun l => (∃ text, l = .string text) ∨ ∃ m, l = .name m,
        fun l => l = .punct .bang ∨ l = .punct .at ∨ l = .punct .parenOpen, False⟩ := by
  refine (description_recognizes.bind (fun _ _ _ => located_recognizes (name_recognizes.bind
    (fun m m' hm => argumentDefinitions_recognizes.bind (fun vs ws hvs =>
    (punct_recognizes .colon).bind (fun _ _ _ => (typeRef_recognizes n).bind
    (fun t t' ht => directives_recognizes.bind (fun ds es hds => .pure fun span => ?_)
    ?_) ?_) ?_) ?_) ?_)) ?_).weaken ?_ ?_ ?_
  · rw [hm, ht, ← hvs, ← hds]
    rfl
  all_goals simp
  all_goals grind

theorem enumItem_recognizes :
    Recognizes n Rule.enumItem enumItem Eq
      ⟨fun l => (∃ text, l = .string text) ∨ ∃ m, l = .name m,
        fun l => l = .punct .at ∨ l = .punct .parenOpen, False⟩ := by
  refine (description_recognizes.bind (fun _ _ _ => name_recognizes.bind
    (fun m m' hm => directives_recognizes.bind (fun _ _ _ => .pure hm) ?_) ?_) ?_).weaken ?_ ?_ ?_
  all_goals simp

theorem interfaces_recognizes :
    Recognizes n Rule.interfaces (optionalList interfaces) Eq
      ⟨(· = .name "implements"), fun l => l = .name "implements" ∨ l = .punct .amp, True⟩ := by
  refine (ifWord_recognizes (N := fun _ => Language.separatedNames .amp)
    (separatedNames_recognizes .amp) (Eq.refl [])).weaken ?_ ?_ ?_
  all_goals simp

theorem word_bind_after (x : Lexeme) (M : Unit → Language β) : (word x >>= M).after x = M () := by
  funext ls b
  simp [after, word_bind_iff]

/-- A word that may go on with a definition. -/
def ContinuesDefinition (l : Lexeme) : Prop :=
  l = .name "implements" ∨ l ∈ [Punct.amp, .at, .parenOpen, .braceOpen, .pipe].map Lexeme.punct

/-- The shape of what stands behind the keyword of a definition. -/
def bodyShape : Shape := ⟨fun _ => True, ContinuesDefinition, False⟩

/-- What is read behind a keyword stands for a definition, wherever that is put. -/
def BodyMeans (f : Text.Span → Definition) (d : Definition) : Prop :=
  ∀ span, (f span).mapSpans forget = d

theorem fields_recognizes :
    Recognizes n (Rule.optionallyEnclosed .braceOpen .braceClose Rule.field)
      (optionalList (enclosed .braceOpen .braceClose field))
      (fun fs gs => fs.map (·.mapSpans forget) = gs) (.mayStart (· = .punct .braceOpen)) :=
  nodesEnclosed_recognizes field_recognizes (by simp) (by grind) (by simp) (by simp)

theorem inputFields_recognizes :
    Recognizes n (Rule.optionallyEnclosed .braceOpen .braceClose Rule.inputValue)
      (optionalList (enclosed .braceOpen .braceClose inputValue))
      (fun vs ws => vs.map (·.mapSpans forget) = ws) (.mayStart (· = .punct .braceOpen)) :=
  nodesEnclosed_recognizes inputValue_recognizes (by simp) (by grind) (by simp) (by simp)

theorem enumItems_recognizes :
    Recognizes n (Rule.optionallyEnclosed .braceOpen .braceClose Rule.enumItem)
      (optionalList (enclosed .braceOpen .braceClose enumItem)) Eq
      (.mayStart (· = .punct .braceOpen)) := by
  refine (optionallyEnclosed_recognizes enumItem_recognizes ?_ ?_ ?_ ?_).imp ?_
  · simp
  · simp
  · simp
  · simp
  · exact fun vs ws h => List.forall₂_eq_eq_eq ▸ h

theorem typeBody_recognizes (kind : TypeKind) :
    Recognizes n (Rule.typeBody kind) ((typeDefinition kind).after (.name kind.keyword)) BodyMeans
      bodyShape := by
  unfold typeDefinition keyword
  rw [word_bind_after]
  refine (name_recognizes.bind (fun m m' hm => interfaces_recognizes.bind (fun is js hi =>
    directives_recognizes.bind (fun ds es hds => fields_recognizes.bind (fun fs gs hfs =>
    .pure fun span => ?_) ?_) ?_) ?_) ?_).weaken ?_ ?_ ?_
  · rw [hm, hi, ← hds, ← hfs]
    rfl
  all_goals simp [bodyShape, ContinuesDefinition]
  all_goals grind

theorem inputBody_recognizes :
    Recognizes n Rule.inputBody (inputDefinition.after (.name "input")) BodyMeans bodyShape := by
  unfold inputDefinition keyword
  rw [word_bind_after]
  refine (name_recognizes.bind (fun m m' hm => directives_recognizes.bind (fun ds es hds =>
    inputFields_recognizes.bind (fun vs ws hvs => .pure fun span => ?_) ?_) ?_) ?_).weaken ?_ ?_ ?_
  · rw [hm, ← hds, ← hvs]
    rfl
  all_goals simp [bodyShape, ContinuesDefinition]

theorem enumBody_recognizes :
    Recognizes n Rule.enumBody (enumDefinition.after (.name "enum")) BodyMeans bodyShape := by
  unfold enumDefinition keyword
  rw [word_bind_after]
  refine (name_recognizes.bind (fun m m' hm => directives_recognizes.bind (fun ds es hds =>
    enumItems_recognizes.bind (fun vs ws hvs => .pure fun span => ?_) ?_) ?_) ?_).weaken ?_ ?_ ?_
  · rw [hm, ← hds, hvs]
    rfl
  all_goals simp [bodyShape, ContinuesDefinition]

theorem scalarBody_recognizes :
    Recognizes n Rule.scalarBody (scalarDefinition.after (.name "scalar")) BodyMeans bodyShape := by
  unfold scalarDefinition keyword
  rw [word_bind_after]
  refine (name_recognizes.bind (fun m m' hm => directives_recognizes.bind (fun ds es hds =>
    .pure fun span => ?_) ?_) ?_).weaken ?_ ?_ ?_
  · rw [hm, ← hds]
    rfl
  all_goals simp [bodyShape, ContinuesDefinition]

theorem directiveBody_recognizes :
    Recognizes n Rule.directiveBody (directiveDefinition.after (.name "directive")) BodyMeans
      bodyShape := by
  unfold directiveDefinition keyword
  rw [word_bind_after]
  refine ((punct_recognizes .at).bind (fun _ _ _ => name_recognizes.bind (fun m m' hm =>
    argumentDefinitions_recognizes.bind (fun vs ws hvs =>
    (accept_recognizes (.name "repeatable")).bind (fun r r' hr =>
    (keyword_recognizes (by decide)).bind (fun _ _ _ => (separatedNames_recognizes .pipe).bind
    (fun ns ns' hns => .pure fun span => ?_) ?_) ?_) ?_) ?_) ?_) ?_).weaken ?_ ?_ ?_
  · rw [hm, ← hvs, hr, hns]
    rfl
  all_goals simp [bodyShape, ContinuesDefinition]

/-- How a definition goes on behind its keyword. -/
def definitionBy (l : Lexeme) : Option (Rule (Text.Span → Definition)) :=
  l.name?.bind Rule.definitionBody?

/-- A definition behind its description, before it gets its place. -/
def definitionNode : Rule (Text.Span → Definition) := do
  match (← Rule.peekName).bind Rule.definitionBody? with
  | some body =>
    let _ ← Parser.next
    body
  | none => Rule.expected .definition

theorem definitionNode_refused {t : Token} (h : definitionBy t.lexeme = none) (ts : List Token) :
    definitionNode (t :: ts) = .error (.unexpected .definition (some t)) (t :: ts) := by
  unfold definitionBy at h
  rw [definitionNode, peekName_bind_cons, h]
  rfl

/-- Which kind of definition follows is decided by the first word behind the description. -/
theorem definitionNode_byFirst : ByFirst definitionNode definitionBy := by
  constructor
  · exact ⟨_, _, rfl, rfl⟩
  · intro t q hq ts
    rw [definitionNode, peekName_bind_cons, show t.lexeme.name?.bind Rule.definitionBody? = some q
      from hq]
    rfl
  · intro t hq
    exact ⟨_, rfl, fun ts => ⟨_, definitionNode_refused hq ts⟩⟩

theorem definitionBody_starts : ByFirst.Starts definitionBody definitionBy := by
  intro ls d h
  obtain h | h | h | h | h | h := h
  all_goals
    obtain ⟨rest, rfl, -⟩ := word_bind_iff.mp h
    exact ⟨_, rest, _, rfl, rfl⟩

/-- Behind a keyword there is one kind of definition. -/
theorem definitionBody_after_iff {k : String} {ls : List Lexeme} {d : Definition} :
    definitionBody.after (.name k) ls d ↔
      k = "type" ∧ (typeDefinition .object).after (.name "type") ls d ∨
      k = "interface" ∧ (typeDefinition .interface).after (.name "interface") ls d ∨
      k = "input" ∧ inputDefinition.after (.name "input") ls d ∨
      k = "enum" ∧ enumDefinition.after (.name "enum") ls d ∨
      k = "scalar" ∧ scalarDefinition.after (.name "scalar") ls d ∨
      k = "directive" ∧ directiveDefinition.after (.name "directive") ls d := by
  simp [after, definitionBody, typeDefinition, inputDefinition, enumDefinition, scalarDefinition,
    directiveDefinition, keyword, word_bind_iff, TypeKind.keyword]

/-- What holds of each of the six bodies holds of whichever one stands behind a keyword. -/
theorem definitionBy_elim {motive : Rule (Text.Span → Definition) → Language Definition → Prop}
    (object : motive (Rule.typeBody .object) ((typeDefinition .object).after (.name "type")))
    (interface : motive (Rule.typeBody .interface)
      ((typeDefinition .interface).after (.name "interface")))
    (input : motive Rule.inputBody (inputDefinition.after (.name "input")))
    (enumeration : motive Rule.enumBody (enumDefinition.after (.name "enum")))
    (scalar : motive Rule.scalarBody (scalarDefinition.after (.name "scalar")))
    (directive : motive Rule.directiveBody (directiveDefinition.after (.name "directive")))
    {l : Lexeme} {q : Rule (Text.Span → Definition)} (hq : definitionBy l = some q) :
    motive q (definitionBody.after l) := by
  obtain ⟨k, hk, hbody⟩ := Option.bind_eq_some_iff.mp hq
  obtain rfl := Lexeme.name?_eq_some.mp hk
  have hafter : ∀ {L : Language Definition}, motive q (L.after (.name k)) →
      (∀ ls d, definitionBody.after (.name k) ls d ↔ L.after (.name k) ls d) →
      motive q (definitionBody.after (.name k)) := by
    intro L h hL
    have same : definitionBody.after (.name k) = L.after (.name k) :=
      funext fun ls => funext fun d => propext (hL ls d)
    rw [same]
    exact h
  unfold Rule.definitionBody? at hbody
  split at hbody
  · cases hbody
    exact hafter object fun _ _ => by simp [definitionBody_after_iff]
  · cases hbody
    exact hafter interface fun _ _ => by simp [definitionBody_after_iff]
  · cases hbody
    exact hafter input fun _ _ => by simp [definitionBody_after_iff]
  · cases hbody
    exact hafter enumeration fun _ _ => by simp [definitionBody_after_iff]
  · cases hbody
    exact hafter scalar fun _ _ => by simp [definitionBody_after_iff]
  · cases hbody
    exact hafter directive fun _ _ => by simp [definitionBody_after_iff]
  · cases hbody

theorem definitionBy_recognizes {l : Lexeme} {q : Rule (Text.Span → Definition)}
    (hq : definitionBy l = some q) :
    Recognizes n q (definitionBody.after l) BodyMeans bodyShape :=
  definitionBy_elim (motive := fun q L => Recognizes n q L BodyMeans bodyShape)
    (typeBody_recognizes .object) (typeBody_recognizes .interface) inputBody_recognizes
    enumBody_recognizes scalarBody_recognizes directiveBody_recognizes hq

/-- No word that goes on with a definition starts the next one. -/
theorem ContinuesDefinition.not_first {l : Lexeme} (h : ContinuesDefinition l) :
    ¬ ((∃ text, l = .string text) ∨ (definitionBy l).isSome) := by
  unfold ContinuesDefinition at h
  obtain rfl | h := h
  · simp [definitionBy, Lexeme.name?, Rule.definitionBody?]
  · obtain ⟨p, -, rfl⟩ := List.mem_map.mp h
    simp [definitionBy, Lexeme.name?]

theorem definitionNode_recognizes :
    Recognizes n definitionNode definitionBody BodyMeans
      ⟨fun l => (definitionBy l).isSome, ContinuesDefinition, False⟩ := by
  refine ((definitionNode_byFirst.recognizes (fun _ => bodyShape) definitionBy_recognizes
    definitionBody_starts ?_).mono (Nat.le_succ n)).weaken ?_ ?_ ?_
  · exact ⟨.name "type", _, by decide, rfl⟩
  · exact fun _ h => h
  · intro l hl
    obtain ⟨_, -, hmore⟩ := hl
    exact hmore
  · exact id

theorem definition_recognizes :
    Recognizes n Rule.definition definition (fun d e => d.mapSpans forget = e)
      ⟨fun l => (∃ text, l = .string text) ∨ (definitionBy l).isSome, ContinuesDefinition,
        False⟩ := by
  refine (description_recognizes.bind
    (fun _ _ _ => located_recognizes definitionNode_recognizes) ?_).weaken ?_ ?_ ?_
  · intro l hl
    obtain ⟨text, rfl⟩ := hl
    simp [definitionBy, Lexeme.name?]
  all_goals simp

/-- The rule for documents reads the language of documents; a node that was read stands for itself
without its places. -/
theorem document_recognizes :
    Recognizes n Rule.document document (fun d e => d.mapSpans forget = e)
      ⟨fun l => (∃ text, l = .string text) ∨ (definitionBy l).isSome, fun _ => True, True⟩ := by
  have hitems : Recognizes n (Parser.repeatWhile (fun _ => true) Rule.definition)
      (many definition) (fun ds es => ds.map (·.mapSpans forget) = es)
      ⟨fun l => (∃ text, l = .string text) ∨ (definitionBy l).isSome, fun _ => True, True⟩ := by
    refine ((definition_recognizes.itemsWhile (fun _ => true) ?_ ?_ ?_).imp ?_).weaken ?_ ?_ ?_
    · simp
    · simp
    · exact fun l h => h.not_first
    · exact fun ds es h => map_eq_of_forall₂ h
    all_goals simp
  refine (hitems.bind (fun ds es hds => .pure ?_) ?_).weaken ?_ ?_ ?_
  · rw [← hds]
    rfl
  all_goals simp

end TransformDirective.Schema
