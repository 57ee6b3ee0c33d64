import TransformDirective.Proofs.Schema.Progress
import TransformDirective.Proofs.Schema.Walk

namespace TransformDirective.Schema

open TransformDirective.Text

/-- On fewer than `n` words behind the position, and at each depth above their number, the walk ends
with the answer of the rule for these words, behind the words that the rule takes. The bound `n` is
for walks that call themselves. -/
def Follows {α : Type} (n : Nat) (walk : Walk α) (rule : Rule α) : Prop :=
  ∀ (depth : Nat) (stop : Cursor) (front ts : List Token), ts.length < n → ts.length < depth →
    ∃ us, ts = us ++ (rule ts).rest ∧
      walk.runFrom ⟨⟨front ++ ts, stop⟩, depth⟩ front.length =
        some ((rule ts).toExcept, (front ++ us).length)

namespace Walk

variable {α β : Type} (scope : Scope) (position : Nat)

theorem runFrom_bind (walk : Walk α) (f : α → Walk β) :
    (walk >>= f).runFrom scope position =
      match walk.runFrom scope position with
      | some (.ok a, q) => (f a).runFrom scope q
      | some (.error e, q) => some (.error e, q)
      | none => none := by
  show Option.bind (walk.runFrom scope position) _ = _
  cases walk.runFrom scope position with
  | none => rfl
  | some o =>
    obtain ⟨e | a, q⟩ := o
    · rfl
    · rfl

theorem runFrom_recursive (body : Walk α → Walk α) :
    (recursive body).runFrom scope position =
      (within body scope.depth).runFrom scope position := rfl

theorem runFrom_peek :
    peek.runFrom scope position = some (.ok scope.tokens.words[position]?, position) := rfl

theorem runFrom_next :
    next.runFrom scope position =
      some (.ok scope.tokens.words[position]?,
        if scope.tokens.words[position]?.isSome then position + 1 else position) := by
  rw [next, runFrom_bind, runFrom_peek]
  cases scope.tokens.words[position]? <;> rfl

theorem runFrom_fail (fault : Option Token → RuleFault) :
    (fail fault : Walk α).runFrom scope position =
      some (.error (fault scope.tokens.words[position]?), position) := rfl

theorem runFrom_lastWord (h : 0 < position) :
    lastWord.runFrom scope position = some (.ok scope.tokens.words[position - 1]?, position) := by
  obtain ⟨p, rfl⟩ := Nat.exists_eq_succ_of_ne_zero (Nat.ne_of_gt h)
  rfl

/-- A node that ends behind some word has the place up to the word in front of where it ends. -/
theorem runFrom_located_ok {walk : Walk (Span → α)} {node : Span → α} {q : Nat}
    (h : walk.runFrom scope position = some (.ok node, q)) (passed : 0 < q) :
    (located walk).runFrom scope position = some
      (.ok (node ((scope.tokens.spanOf scope.tokens.words[position]?).cover
        (scope.tokens.spanOf scope.tokens.words[q - 1]?))), q) := by
  rw [located, runFrom_bind, runFrom_peek]
  simp only [runFrom_bind, h, runFrom_lastWord scope q passed]
  rfl

theorem runFrom_located_error {walk : Walk (Span → α)} {e : RuleFault} {q : Nat}
    (h : walk.runFrom scope position = some (.error e, q)) :
    (located walk).runFrom scope position = some (.error e, q) := by
  rw [located, runFrom_bind, runFrom_peek]
  simp only [runFrom_bind, h]

end Walk

section Lookup

theorem getElem?_behind (front ts : List Token) : (front ++ ts)[front.length]? = ts.head? := by
  rw [List.getElem?_append_right (Nat.le_refl _), Nat.sub_self, List.head?_eq_getElem?]

/-- The word in front of the position behind some words is the last one of them. -/
theorem getElem?_last (front us r : List Token) (some : us ≠ []) :
    (front ++ (us ++ r))[(front ++ us).length - 1]? = us.getLast? := by
  have passed : 0 < (front ++ us).length :=
    List.length_pos_iff.mpr (List.append_ne_nil_of_right_ne_nil front some)
  rw [← List.append_assoc, List.getElem?_append_left (Nat.sub_lt passed Nat.one_pos),
    ← List.getLast?_eq_getElem?, List.getLast?_append_of_ne_nil front some]

theorem placeOf_eq_cover {ts : Tokens} {us : List Token} (some : us ≠ []) :
    placeOf us = (ts.spanOf us.head?).cover (ts.spanOf us.getLast?) := by
  cases us with
  | nil => exact absurd rfl some
  | cons t us => rw [List.getLast?_cons]; rfl

end Lookup

namespace Follows

variable {α β : Type} {n : Nat} {walk walk' : Walk α} {rule rule' : Rule α} {f : α → Walk β}
  {g : α → Rule β}

theorem zero : Follows 0 walk rule := fun _ _ _ _ hn => absurd hn (Nat.not_lt_zero _)

theorem mono {m : Nat} (h : Follows n walk rule) (hm : m ≤ n) : Follows m walk rule :=
  fun depth stop front ts hn => h depth stop front ts (by omega)

theorem pure (a : α) : Follows n (pure a) (pure a) :=
  fun _ _ front _ _ _ => ⟨[], rfl, by rw [List.append_nil]; rfl⟩

/-- One walk behind another, which may have fewer words left. -/
theorem bind_of_lt {m : α → Nat} (h : Follows n walk rule)
    (left : ∀ us a r, (us ++ r).length < n → rule (us ++ r) = .ok a r → r.length < m a)
    (hf : ∀ a, Follows (m a) (f a) (g a)) : Follows n (walk >>= f) (rule >>= g) := by
  intro depth stop front ts hn hd
  obtain ⟨us, split, run⟩ := h depth stop front ts hn hd
  rw [Walk.runFrom_bind, run, Parser.bind_apply]
  cases first : rule ts with
  | error e left =>
    rw [first] at split
    exact ⟨us, split, rfl⟩
  | ok a r =>
    rw [first] at split
    subst split
    have deep : r.length < depth :=
      Nat.lt_of_le_of_lt (List.suffix_append us r).length_le hd
    obtain ⟨vs, split, run'⟩ := hf a depth stop (front ++ us) r (left us a r hn first) deep
    refine ⟨us ++ vs, ?_, ?_⟩
    · rw [List.append_assoc]
      exact congrArg (us ++ ·) split
    · rw [← List.append_assoc, ← List.append_assoc]
      exact run'

/-- One walk behind another follows one rule behind another. -/
theorem bind (h : Follows n walk rule) (hf : ∀ a, Follows n (f a) (g a)) :
    Follows n (walk >>= f) (rule >>= g) := by
  refine h.bind_of_lt (fun us a r hn _ => ?_) hf
  rw [List.length_append] at hn
  omega

/-- One walk behind another that passes a word. -/
theorem bind_of_takes (h : Follows (n + 1) walk rule) (takes : TakesWord rule)
    (hf : ∀ a, Follows n (f a) (g a)) : Follows (n + 1) (walk >>= f) (rule >>= g) := by
  refine h.bind_of_lt (fun us a r hn taken => ?_) hf
  have shorter := takes taken
  omega

theorem length_le {ts r : List Token} {a : α} (h : Follows n walk rule) (hn : ts.length < n)
    (read : rule ts = .ok a r) : r.length ≤ ts.length := by
  obtain ⟨us, split, -⟩ := h (ts.length + 1) .start [] ts hn (Nat.lt_succ_self _)
  rw [read] at split
  have whole : ts = us ++ r := split
  rw [whole, List.length_append]
  omega

theorem ite {c : Prop} [Decidable c] (h : c → Follows n walk rule)
    (h' : ¬c → Follows n walk' rule') :
    Follows n (if c then walk else walk') (if c then rule else rule') := by
  split
  · next hc => exact h hc
  · next hc => exact h' hc

theorem peek : Follows n Walk.peek Parser.peek := by
  intro depth stop front ts _ _
  refine ⟨[], rfl, ?_⟩
  rw [Walk.runFrom_peek, getElem?_behind, List.append_nil]
  rfl

theorem next : Follows n Walk.next Parser.next := by
  intro depth stop front ts _ _
  rw [Walk.runFrom_next, getElem?_behind]
  cases ts with
  | nil => exact ⟨[], rfl, by rw [List.append_nil]; rfl⟩
  | cons t ts => exact ⟨[t], rfl, by rw [List.length_append]; rfl⟩

theorem fail {fault : Option Token → RuleFault} :
    Follows n (Walk.fail fault : Walk α) (Parser.fail fault) := by
  intro depth stop front ts _ _
  refine ⟨[], rfl, ?_⟩
  rw [Walk.runFrom_fail, getElem?_behind, List.append_nil]
  rfl

theorem expected (e : Expected) : Follows n (Walk.expected e : Walk α) (Rule.expected e) := fail

theorem accept (test : Token → Bool) : Follows n (Walk.accept test) (Rule.accept test) :=
  .bind peek fun _ => .ite (fun _ => .bind next fun _ => .pure _) fun _ => .pure _

theorem punct (p : Punct) : Follows n (Walk.punct p) (Rule.punct p) :=
  .bind (accept _) fun _ => .ite (fun _ => .pure _) fun _ => .expected _

theorem keyword (k : String) : Follows n (Walk.keyword k) (Rule.keyword k) :=
  .bind (accept _) fun _ => .ite (fun _ => .pure _) fun _ => .expected _

theorem peekName : Follows n Walk.peekName Rule.peekName := by
  refine .bind peek fun t => ?_
  obtain _ | ⟨l, span⟩ := t
  · exact .pure _
  · cases l <;> exact .pure _

theorem name : Follows n Walk.name Rule.name := by
  refine .bind peekName fun m => ?_
  cases m with
  | none => exact .expected _
  | some m => exact .bind next fun _ => .pure _

theorem description : Follows n Walk.description Rule.description := by
  refine .bind peek fun t => ?_
  obtain _ | ⟨l, span⟩ := t
  · exact .pure _
  · cases l with
    | string => exact .bind next fun _ => .pure _
    | _ => exact .pure _

/-- Looking back from behind the words of a node finds its own last word. -/
theorem located {walk : Walk (Span → α)} {rule : Rule (Span → α)} (h : Follows n walk rule)
    (takes : ∀ {ts f r}, ts.length < n → rule ts = .ok f r → r.length < ts.length) :
    Follows n (Walk.located walk) (Rule.located rule) := by
  intro depth stop front ts hn hd
  obtain ⟨us, split, run⟩ := h depth stop front ts hn hd
  cases read : rule ts with
  | error e left =>
    rw [read] at split run
    rw [located_error read]
    exact ⟨us, split, Walk.runFrom_located_error _ _ run⟩
  | ok f r =>
    rw [read] at split run
    obtain rfl : ts = us ++ r := split
    have shorter := takes hn read
    have some : us ≠ [] := by
      rintro rfl
      exact Nat.lt_irrefl _ shorter
    have passed : 0 < (front ++ us).length :=
      List.length_pos_iff.mpr (List.append_ne_nil_of_right_ne_nil front some)
    rw [located_ok read]
    refine ⟨us, rfl, ?_⟩
    rw [Walk.runFrom_located_ok _ _ run passed, getElem?_behind, getElem?_last front us r some,
      List.head?_append_of_ne_nil _ some, ← placeOf_eq_cover some]
    rfl

/-- A walk that calls itself follows a rule if its body does with one more word than its calls. Each
call has fewer words left, so the depth that is left stays above their number. -/
theorem recursive {body : Walk α → Walk α}
    (round : ∀ {m inner}, m < n → Follows m inner rule → Follows (m + 1) (body inner) rule) :
    Follows n (Walk.recursive body) rule := by
  have nested (m : Nat) (hm : m ≤ n) : ∀ d ≥ m, Follows m (Walk.within body d) rule := by
    induction m with
    | zero => exact fun _ _ => .zero
    | succ m ih =>
      intro d hd
      obtain ⟨d, rfl⟩ := Nat.exists_eq_add_of_lt hd
      exact round hm (ih (Nat.le_of_succ_le hm) _ (Nat.le_add_right m d))
  intro depth stop front ts hn hd
  rw [Walk.runFrom_recursive]
  exact nested _ hn depth hd depth stop front ts (Nat.lt_succ_self _) hd

/-- A repetition ends, since every round passes a word. -/
theorem repeatWhile {test : Token → Bool} (h : Follows n walk rule) (takes : TakesWord rule) :
    Follows n (Walk.repeatWhile test walk) (Parser.repeatWhile test rule) := by
  refine recursive fun {m loop} hm rest => ?_
  rw [repeatWhile_unbounded test takes]
  exact .bind peek fun _ => .ite (fun _ => (h.mono hm).bind_of_takes takes fun _ =>
    rest.bind fun _ => .pure _) fun _ => .pure _

theorem itemsUntil (closing : Punct) (h : Follows n walk rule) (takes : TakesWord rule) :
    Follows n (Walk.itemsUntil closing walk) (Rule.itemsUntil closing rule) :=
  (h.repeatWhile takes).bind fun _ => .bind (punct closing) fun _ => .pure _

theorem optionallyEnclosed (opening closing : Punct) (h : Follows n walk rule)
    (takes : TakesWord rule) :
    Follows n (Walk.optionallyEnclosed opening closing walk)
      (Rule.optionallyEnclosed opening closing rule) :=
  .bind (accept _) fun _ => .ite (fun _ => h.itemsUntil closing takes) fun _ => .pure _

theorem namedType : Follows n Walk.namedType Rule.namedType := by
  refine .bind peekName fun m => ?_
  cases m with
  | none => exact .expected _
  | some m => exact .bind next fun _ => .pure _

theorem bang (t : TypeRef) : Follows n (Walk.bang t) (bangRule t) :=
  .bind (accept _) fun _ => .ite (fun _ => .pure _) fun _ => .pure _

theorem listType {inner : Walk TypeRef} (h : Follows n inner Rule.typeRef) :
    Follows n (Walk.listType inner) (Rule.listType Rule.typeRef) :=
  h.bind fun _ => .bind (punct _) fun _ => .pure _

/-- A walk over a type reference calls itself behind a bracket, so no deeper than there are words.
-/
theorem typeRef : Follows n Walk.typeRef Rule.typeRef := by
  refine recursive fun {m inner} _ ih => ?_
  rw [typeRef_unbounded]
  refine .bind_of_lt (m := fun opened => if opened then m else m + 1) (accept _) ?_ ?_
  · exact fun us opened r => left_of_acceptWord
  · intro opened
    cases opened with
    | true => exact ih.listType.bind bang
    | false => exact .bind namedType bang

theorem member {inner : Walk Value} (h : Follows n inner Rule.value) :
    Follows n (Walk.member inner) (Rule.member Rule.value) :=
  .bind name fun _ => .bind (punct _) fun _ => h.bind fun _ => .pure _

/-- A walk over a value calls itself behind its first word, so no deeper than there are words. -/
theorem value : Follows n Walk.value Rule.value := by
  refine recursive fun {m inner} _ ih => ?_
  rw [value_unbounded]
  refine .bind_of_lt (m := fun t => if t.isSome then m else m + 1) next ?_ ?_
  · exact fun us t r => left_of_next
  · intro t
    cases t with
    | none => exact .fail
    | some t =>
      obtain ⟨l, span⟩ := t
      cases l with
      | punct p =>
        cases p with
        | bracketOpen => exact (ih.itemsUntil _ value_takesWord).bind fun vs => .pure _
        | braceOpen => exact (ih.member.itemsUntil _ member_takesWord).bind fun ms => .pure _
        | _ => exact .fail
      | _ => exact .pure _

theorem separatedNames (p : Punct) : Follows n (Walk.separatedNames p) (Rule.separatedNames p) := by
  have other : Follows n (do Walk.punct p; Walk.name) (do Rule.punct p; Rule.name) :=
    .bind (punct p) fun _ => name
  exact .bind (accept _) fun _ => .bind name fun _ =>
    (other.repeatWhile (separatedName_takesWord p)).bind fun _ => .pure _

/-- A node whose walk starts by passing a word. -/
theorem node {β : Type} {f : α → Walk (Span → β)} {g : α → Rule (Span → β)}
    (h : Follows n walk rule) (takes : TakesWord rule) (hf : ∀ a, Follows n (f a) (g a)) :
    Follows n (Walk.located (walk >>= f)) (Rule.located (rule >>= g)) := by
  refine (h.bind hf).located fun {ts b r} hn read => ?_
  rw [Parser.bind_apply] at read
  cases first : rule ts with
  | error e left => rw [first] at read; cases read
  | ok a r' =>
    rw [first] at read
    have shorter := takes first
    exact Nat.lt_of_le_of_lt ((hf a).length_le (by omega) read) shorter

theorem argument : Follows n Walk.argument Rule.argument :=
  .node name name_takesWord fun _ => .bind (punct _) fun _ => .bind value fun _ => .pure _

theorem directive : Follows n Walk.directive Rule.directive :=
  .node (punct _) (punct_takesWord _) fun _ => .bind name fun _ =>
    .bind (.optionallyEnclosed _ _ argument argument_takesWord) fun _ => .pure _

theorem directives : Follows n Walk.directives Rule.directives :=
  .repeatWhile directive directive_takesWord

theorem defaultValue : Follows n Walk.defaultValue Rule.defaultValue :=
  .bind (accept _) fun _ => .ite (fun _ => .bind value fun _ => .pure _) fun _ => .pure _

theorem inputValue : Follows n Walk.inputValue Rule.inputValue :=
  .bind description fun _ => .node name name_takesWord fun _ => .bind (punct _) fun _ =>
    .bind typeRef fun _ => .bind defaultValue fun _ => .bind directives fun _ => .pure _

theorem inputValues (opening closing : Punct) :
    Follows n (Walk.optionallyEnclosed opening closing Walk.inputValue)
      (Rule.optionallyEnclosed opening closing Rule.inputValue) :=
  .optionallyEnclosed _ _ inputValue inputValue_takesWord

theorem field : Follows n Walk.field Rule.field :=
  .bind description fun _ => .node name name_takesWord fun _ => .bind (inputValues _ _) fun _ =>
    .bind (punct _) fun _ => .bind typeRef fun _ => .bind directives fun _ => .pure _

theorem enumItem : Follows n Walk.enumItem Rule.enumItem :=
  .bind description fun _ => .bind name fun _ => .bind directives fun _ => .pure _

theorem interfaces : Follows n Walk.interfaces Rule.interfaces :=
  .bind (accept _) fun _ => .ite (fun _ => separatedNames _) fun _ => .pure _

theorem typeBody (kind : TypeKind) : Follows n (Walk.typeBody kind) (Rule.typeBody kind) :=
  .bind name fun _ => .bind interfaces fun _ => .bind directives fun _ =>
    .bind (.optionallyEnclosed _ _ field field_takesWord) fun _ => .pure _

theorem inputBody : Follows n Walk.inputBody Rule.inputBody :=
  .bind name fun _ => .bind directives fun _ => .bind (inputValues _ _) fun _ => .pure _

theorem enumBody : Follows n Walk.enumBody Rule.enumBody :=
  .bind name fun _ => .bind directives fun _ =>
    .bind (.optionallyEnclosed _ _ enumItem enumItem_takesWord) fun _ => .pure _

theorem scalarBody : Follows n Walk.scalarBody Rule.scalarBody :=
  .bind name fun _ => .bind directives fun _ => .pure _

theorem directiveBody : Follows n Walk.directiveBody Rule.directiveBody :=
  .bind (punct _) fun _ => .bind name fun _ => .bind (inputValues _ _) fun _ =>
    .bind (accept _) fun _ => .bind (keyword _) fun _ => .bind (separatedNames _) fun _ => .pure _

/-- The same keywords start a definition, and what is behind them is read alike. -/
theorem definitionBody? (k : String) :
    Option.Rel (Follows n) (Walk.definitionBody? k) (Rule.definitionBody? k) := by
  unfold Walk.definitionBody?
  split
  · exact .some (typeBody _)
  · exact .some (typeBody _)
  · exact .some inputBody
  · exact .some enumBody
  · exact .some scalarBody
  · exact .some directiveBody
  · have none : Rule.definitionBody? k = none := by grind [Rule.definitionBody?]
    rw [none]
    exact .none

theorem definition : Follows n Walk.definition Rule.definition := by
  refine .bind description fun _ => .located ?_ fun _ read => definitionNode_takesWord read
  refine .bind peekName fun m => ?_
  have same :
      Option.Rel (Follows n) (m.bind Walk.definitionBody?) (m.bind Rule.definitionBody?) := by
    cases m with
    | none => exact .none
    | some k => exact definitionBody? k
  generalize m.bind Walk.definitionBody? = walk at same
  generalize m.bind Rule.definitionBody? = rule at same
  cases same with
  | none => exact .expected _
  | some h => exact .bind next fun _ => h

/-- A walk over a document does what the rule for documents does with the words behind the position.
-/
theorem document : Follows n Walk.document Rule.document :=
  .bind (.repeatWhile definition definition_takesWord) fun _ => .pure _

end Follows

end TransformDirective.Schema
