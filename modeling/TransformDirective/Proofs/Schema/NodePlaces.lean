import TransformDirective.Proofs.Schema.Placement
import TransformDirective.Proofs.Schema.ViablePrefix

namespace TransformDirective.Schema

open TransformDirective.Text

/-- The nodes of a document: its definitions, and the nodes inside a node. -/
inductive Document.Occurs (d : Document) : Node → Prop
  | definition {x : Definition} (h : x ∈ d.definitions) : d.Occurs (.definition x)
  | part {n m : Node} {list : List Node} (h : d.Occurs n) (hlist : list ∈ n.parts) (hm : m ∈ list) :
      d.Occurs m

/-- The node stands at its words, which are those that its rule takes behind the description, and
the nodes inside it stand there in order. -/
structure InPlace (words : List Token) (n : Node) : Prop where
  own : ∃ front us back first last, words = front ++ us ++ back ∧ n.TakenFrom us back ∧
    us.head? = some first ∧ us.getLast? = some last ∧ first.lexeme.isString = false ∧
    n.span = first.span.cover last.span
  inside : ∀ list ∈ n.parts, ∀ m ∈ list,
    n.span.start ≤ m.span.start ∧ m.span.stop ≤ n.span.stop
  ordered : ∀ list ∈ n.parts, list.Pairwise (·.span.stop ≤ ·.span.start)

/-- The text at the place of the definition is read as this definition and nothing else. -/
def ParsesAlone (source : String) (x : Definition) : Prop :=
  ∃ text y, Excerpt source.toList (Node.definition x).span text ∧
    Document.parse (String.ofList text) = .ok ⟨[y]⟩ ∧ y.mapSpans forget = x.mapSpans forget

section Order

/-- Words one behind the other, none of them empty. -/
structure Ascending (words : List Token) : Prop where
  ordered : words.Pairwise (·.span.stop ≤ ·.span.start)
  wide : ∀ t ∈ words, t.span.start < t.span.stop

theorem Ascending.infix {us words : List Token} (h : Ascending words) (part : us <:+: words) :
    Ascending us where
  ordered := h.ordered.sublist part.sublist
  wide t ht := h.wide t (part.subset ht)

variable {us back : List Token} {first last t : Token} {n m : Node} {list : List Node}

theorem start_le_of_head (h : Ascending us) (head : us.head? = some first) (ht : t ∈ us) :
    first.span.start ≤ t.span.start := by
  obtain ⟨more, rfl⟩ := List.head?_eq_some_iff.mp head
  have wide := h.wide first List.mem_cons_self
  obtain rfl | later := List.mem_cons.mp ht
  · exact Nat.le_refl _
  · have behind := (List.pairwise_cons.mp h.ordered).1 t later
    omega

theorem stop_le_of_last (h : Ascending us) (end_ : us.getLast? = some last) (ht : t ∈ us) :
    t.span.stop ≤ last.span.stop := by
  obtain ⟨more, rfl⟩ := List.getLast?_eq_some_iff.mp end_
  have wide := h.wide last (by simp)
  obtain earlier | own := List.mem_append.mp ht
  · have behind := (List.pairwise_append.mp h.ordered).2.2 t earlier last List.mem_cons_self
    omega
  · obtain rfl := List.mem_singleton.mp own
    exact Nat.le_refl _

theorem NodeAt.ends (h : NodeAt us back n) : ∃ first last, us.head? = some first ∧
    us.getLast? = some last ∧ first.lexeme.isString = false ∧
    n.span = first.span.cover last.span := by
  obtain ⟨-, starts, place, -⟩ := h
  obtain ⟨first, head, bare⟩ := starts
  obtain ⟨more, rfl⟩ := List.head?_eq_some_iff.mp head
  exact ⟨first, more.getLast?.getD first, rfl, List.getLast?_cons, bare, place⟩

theorem Row.of_mem (h : Row NodeAt us back list) (hm : m ∈ list) :
    ∃ pre mid post, us = pre ++ mid ++ post ∧ NodeAt mid (post ++ back) m := by
  induction h with
  | nil => cases hm
  | @cons gap us more back _ _ first _ ih =>
    obtain rfl | hm := List.mem_cons.mp hm
    · exact ⟨gap, us, more, rfl, first⟩
    · obtain ⟨pre, mid, post, rfl, node⟩ := ih hm
      exact ⟨gap ++ us ++ pre, mid, post, by simp only [List.append_assoc], node⟩

/-- A node stands between the first and the last of the words around its own. -/
theorem NodeAt.inside {mid : List Token} (h : NodeAt mid back m) (asc : Ascending us)
    (part : mid <:+: us) (head : us.head? = some first) (end_ : us.getLast? = some last) :
    first.span.start ≤ m.span.start ∧ m.span.stop ≤ last.span.stop := by
  obtain ⟨first', last', head', end', -, place⟩ := h.ends
  have first'_mem : first' ∈ us := part.subset (List.mem_of_head? head')
  have last'_mem : last' ∈ us := part.subset (List.mem_of_getLast? end')
  rw [place]
  exact ⟨start_le_of_head asc head first'_mem, stop_le_of_last asc end_ last'_mem⟩

/-- Nodes in order stand in order. -/
theorem Row.ordered (h : Row NodeAt us back list) (asc : Ascending us) :
    list.Pairwise (·.span.stop ≤ ·.span.start) := by
  induction h with
  | nil => exact .nil
  | @cons gap us more back n _ first rest ih =>
    have behind : Ascending more := asc.infix (List.suffix_append (gap ++ us) more).isInfix
    refine .cons (fun m hm => ?_) (ih behind)
    obtain ⟨pre, mid, post, rfl, node⟩ := rest.of_mem hm
    obtain ⟨_, last, -, end_, -, place⟩ := first.ends
    obtain ⟨first', _, head', -, -, place'⟩ := node.ends
    have ordered := (List.pairwise_append.mp asc.ordered).2.2
    rw [place, place']
    apply ordered last (by simp [List.mem_of_getLast? end_]) first'
    simp [List.mem_of_head? head']

/-- The place of a node goes from its first word to its last one, and the nodes inside it stand
there one behind the other. -/
theorem NodeAt.inPlace {words front : List Token} (h : NodeAt us back n)
    (whole : words = front ++ us ++ back) (asc : Ascending words) : InPlace words n := by
  have own : Ascending us := asc.infix ⟨front, back, whole.symm⟩
  obtain ⟨first, last, head, end_, bare, place⟩ := h.ends
  obtain ⟨taken, -, -, parts⟩ := h
  constructor
  · exact ⟨front, us, back, first, last, whole, taken, head, end_, bare, place⟩
  · intro list hlist m hm
    obtain ⟨pre, mid, post, split, node⟩ := (parts list hlist).of_mem hm
    rw [place]
    exact node.inside own ⟨pre, post, split.symm⟩ head end_
  · exact fun list hlist => (parts list hlist).ordered own

/-- Every node of the document has words of the text. -/
theorem exists_nodeAt {d : Document} {words : List Token}
    (h : Row NodeAt words [] (d.definitions.map .definition)) (occurs : d.Occurs n) :
    ∃ front us back, words = front ++ us ++ back ∧ NodeAt us back n := by
  induction occurs with
  | definition hx =>
    obtain ⟨pre, mid, post, whole, node⟩ := h.of_mem (List.mem_map_of_mem hx)
    rw [List.append_nil] at node
    exact ⟨pre, mid, post, whole, node⟩
  | part _ hlist hm ih =>
    obtain ⟨front, us, back, whole, node⟩ := ih
    obtain ⟨-, -, -, parts⟩ := node
    obtain ⟨pre, mid, post, rfl, part⟩ := (parts _ hlist).of_mem hm
    refine ⟨front ++ pre, mid, post ++ back, ?_, part⟩
    rw [whole]
    simp only [List.append_assoc]

end Order

section Alone

/-- The last word ends where the characters of the words end. -/
theorem placed_last {front : List Char} {ws : List Written} {t : Token}
    (h : (placed front ws).getLast? = some t) :
    t.span.stop = (Cursor.behind (front ++ layout ws)).offset := by
  obtain rfl | ⟨ws, w, rfl⟩ := List.eq_nil_or_concat ws
  · cases h
  · rw [List.concat_eq_append, placed_append, placed, placed, List.getLast?_concat] at h
    rw [← Option.some.inj h, List.concat_eq_append, layout_append, layout_cons, layout_nil]
    simp only [List.append_nil, ← List.append_assoc]
    rfl

/-- A definition is read from its own words, wherever they stand. -/
theorem document_of_definition {us back us' : List Token} {x : Definition}
    (taken : Rule.definition (us ++ back) = .ok x back) (same : lexemes us' = lexemes us) :
    ∃ y, Rule.document us' = .ok ⟨[y]⟩ [] ∧ y.mapSpans forget = x.mapSpans forget := by
  obtain ⟨own, b, split, language, meaning, -⟩ :=
    definition_recognizes.takes (Nat.lt_succ_self _) taken
  obtain rfl := List.append_cancel_right split
  rw [← meaning, ← same] at language
  have alone : Language.document (lexemes us') ⟨[x.mapSpans forget]⟩ := by
    refine ⟨lexemes us', [], [x.mapSpans forget], (List.append_nil _).symm, ?_, rfl, rfl⟩
    have many := Language.many.cons language .nil
    rwa [List.append_nil] at many
  obtain ⟨⟨ds⟩, read, places⟩ := document_complete alone
  obtain ⟨y, rfl, place⟩ := List.map_eq_singleton_iff.mp (congrArg Document.definitions places)
  exact ⟨y, read, place⟩

/-- From the start of the first word to the end of the last one. -/
theorem placeOf_placed (front : List Char) (w : Written) (ws : List Written) :
    placeOf (placed front (w :: ws)) =
      .between (.behind (front ++ w.gap)) (.behind (front ++ w.gap ++ (w.text ++ layout ws))) := by
  have filled : (placed front (w :: ws)).getLast? = some _ := List.getLast?_cons
  have last := placed_last filled
  rw [layout_cons] at last
  rw [placed, placeOf, Rule.coveredSpan, Span.cover, last]
  simp only [List.append_assoc]
  rfl

/-- Words cut out of a text are read again as the same words. -/
theorem exists_excerpt {source : String} {ws : List Written} {last : List Char}
    {front us back : List Token} (whole : source.toList = layout ws ++ last) (laid : Laid last ws)
    (words : placed [] ws = front ++ us ++ back) (some : us ≠ []) :
    ∃ text ts, Excerpt source.toList (placeOf us) text ∧
      tokenize (String.ofList text) = .ok ts ∧ lexemes ts.words = lexemes us := by
  obtain ⟨as, cs, rfl, words, -⟩ := placed_eq_append words
  obtain ⟨as, bs, rfl, -, rfl⟩ := placed_eq_append words
  cases bs with
  | nil => exact absurd rfl some
  | cons b bs =>
    have own : Laid ([] ++ (layout cs ++ last)) (b :: bs) :=
      (Laid.append_iff.mp (Laid.append_iff.mp laid).1).2
    have alone : Laid [] (b :: bs) := own.cut
    cases alone with
    | cons _ word more =>
      let text := b.text ++ layout bs
      let bare : List Written := ⟨[], b.text, b.lexeme⟩ :: bs
      have laid : Laid [] bare := .cons .nil word more
      have written : (String.ofList text).toList = layout bare ++ [] := by
        rw [String.toList_ofList, List.append_nil, layout_cons, List.nil_append]
      refine ⟨text, _, ⟨layout as ++ b.gap, layout cs ++ last, ?_, ?_⟩,
        laid.tokenize rfl written, ?_⟩
      · rw [whole]
        simp [text]
      · rw [placeOf_placed, List.nil_append]
      · rw [lexemes_placed, lexemes_placed]
        rfl

/-- The text at the place of a definition is a document with this definition alone. -/
theorem parsesAlone {source : String} {ws : List Written} {last : List Char}
    {front us back : List Token} {x : Definition} (whole : source.toList = layout ws ++ last)
    (laid : Laid last ws) (words : placed [] ws = front ++ us ++ back)
    (node : NodeAt us back (.definition x)) : ParsesAlone source x := by
  obtain ⟨taken, starts, place, -⟩ := node
  have some : us ≠ [] := by
    rintro rfl
    obtain ⟨t, ht, -⟩ := starts
    cases ht
  obtain ⟨text, ts, cut, read, same⟩ := exists_excerpt whole laid words some
  obtain ⟨y, document, meaning⟩ := document_of_definition taken same
  refine ⟨text, y, place ▸ cut, ?_, meaning⟩
  rw [parse_eq_of_tokenize read]
  exact Tokens.parse_ok_iff.mpr ⟨[], document⟩

end Alone

/-- In an accepted text every node stands at its own words, and every definition can be cut out. -/
theorem document_in_place {source : String} {d : Document} (h : Document.parse source = .ok d) :
    ∃ ts, tokenize source = .ok ts ∧
      (d.definitions.map Node.definition).Pairwise (·.span.stop ≤ ·.span.start) ∧
      (∀ x ∈ d.definitions, ParsesAlone source x) ∧ ∀ n, d.Occurs n → InPlace ts.words n := by
  obtain ⟨ts, words, read⟩ := words_of_parse h
  obtain ⟨ws, last, whole, laid, -, rfl⟩ := exists_layout words
  have asc : Ascending (placed [] ws) := ⟨placed_pairwise [] ws, laid.start_lt_stop []⟩
  have row := document_at read
  refine ⟨_, words, row.ordered asc, ?_, ?_⟩
  · intro x hx
    obtain ⟨front, us, back, split, node⟩ := exists_nodeAt row (.definition hx)
    exact parsesAlone whole laid split node
  · intro n occurs
    obtain ⟨front, us, back, split, node⟩ := exists_nodeAt row occurs
    exact node.inPlace split asc

theorem document_in_place_described :
    let source := "\"a\" type A @t(k: 1)"
    let argument : Argument := ⟨"k", .int 1, ⟨14, 18, 1, 15⟩⟩
    let d : Document := ⟨[.type ⟨.object, "A", [], [⟨"t", [argument], ⟨11, 19, 1, 12⟩⟩], [],
      ⟨4, 19, 1, 5⟩⟩]⟩
    Document.parse source = .ok d ∧
      ∃ ts, tokenize source = .ok ts ∧
        (d.definitions.map Node.definition).Pairwise (·.span.stop ≤ ·.span.start) ∧
        (∀ x ∈ d.definitions, ParsesAlone source x) ∧ ∀ n, d.Occurs n → InPlace ts.words n := by
  intro source argument d
  have words : tokenize source = .ok ⟨[⟨.string "a", ⟨0, 3, 1, 1⟩⟩, ⟨.name "type", ⟨4, 8, 1, 5⟩⟩,
      ⟨.name "A", ⟨9, 10, 1, 10⟩⟩, ⟨.punct .at, ⟨11, 12, 1, 12⟩⟩, ⟨.name "t", ⟨12, 13, 1, 13⟩⟩,
      ⟨.punct .parenOpen, ⟨13, 14, 1, 14⟩⟩, ⟨.name "k", ⟨14, 15, 1, 15⟩⟩,
      ⟨.punct .colon, ⟨15, 16, 1, 16⟩⟩, ⟨.int 1, ⟨17, 18, 1, 18⟩⟩,
      ⟨.punct .parenClose, ⟨18, 19, 1, 19⟩⟩], ⟨19, 1, 20⟩⟩ := by decide +kernel
  have read : Document.parse source = .ok d := by
    rw [parse_eq_of_tokenize words]
    refine Tokens.parse_ok_iff.mpr ⟨[], ?_⟩
    with_unfolding_all rfl
  exact ⟨read, document_in_place read⟩

end TransformDirective.Schema
