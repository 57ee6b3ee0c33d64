import TransformDirective.Proofs.Json.Reading
import TransformDirective.Resolver.Dump

namespace TransformDirective.Resolver

open TransformDirective.Json TransformDirective.Text

section Members

variable {n : Nat}

theorem member_reads {inner : Reader Value} {text : List Char} {v : Value} (name : String)
    (h : Reads n inner text v) : Reads n (member inner) (memberText name text) (some name, v) := by
  have colon : Reads n (spaces >>= fun _ => Reader.char ':' >>= fun _ => inner >>= fun v =>
      pure (some name, v)) (':' :: text) (some name, v) :=
    .behind_spaces (by decide) ((char_reads ':').bind (h.answer fun v => (some name, v)))
  rw [memberText, quote_eq, List.cons_append]
  apply Reads.behind_spaces (by decide)
  exact (char_reads '"').bind ((stringBody_reads name).bind colon)

variable {ι : Type} {is : List ι} (name : ι → String) {text : ι → List Char} {read : ι → Value}

theorem members_read {inner : Reader Value} (h : ∀ i ∈ is, Reads n inner (text i) (read i)) :
    Reads n (itemsUntil '}' (member inner))
      (List.intercalate [','] (is.map fun i => memberText (name i) (text i)) ++ ['}'])
      (is.map fun i => (some (name i), read i)) := by
  apply itemsUntil_reads (by decide) (by decide)
  · intro member mem
    obtain ⟨i, -, rfl⟩ := List.mem_map.mp mem
    exact ⟨'"', _, rfl, by decide, by decide⟩
  · rw [List.forall₂_map_left_iff, List.forall₂_map_right_iff, List.forall₂_same]
    intro i mem
    exact member_reads (name i) (h i mem)

/-- An object is read member by member. The members are shorter than the object, so their values are
read by the same reader. -/
theorem value_object_reads (h : ∀ i ∈ is, Reads n value (text i) (read i)) :
    Reads n value (objectText (is.map fun i => memberText (name i) (text i)))
      (.object (is.map fun i => (some (name i), read i))) := by
  intro rest bound
  let body := List.intercalate [','] (is.map fun i => memberText (name i) (text i)) ++ ['}']
  have whole : objectText (is.map fun i => memberText (name i) (text i)) ++ rest =
      '{' :: (body ++ rest) := rfl
  rw [whole, List.length_cons] at bound
  have inner : ∀ i ∈ is, Reads (body ++ rest).length (fun r =>
      if r.length < (body ++ rest).length + 1 then value r else Parser.fail (fun _ => ()) r)
      (text i) (read i) := by
    intro i mem
    have shorter := (h i mem).mono (Nat.le_of_lt bound)
    exact shorter.below (Nat.lt_succ_self _) fun _ => ()
  have object := (members_read name inner).answer Value.object
  rw [whole, value, Parser.recursive_apply, Parser.bind_apply, spaces_idle _ (by decide)]
  exact object rest (Nat.le_refl _)

end Members

namespace Artifact

def properties (a : Artifact) : List (String × String) :=
  [("TypeName", a.typeName), ("FieldName", a.fieldName), ("RequestMappingTemplate", a.request),
    ("ResponseMappingTemplate", a.response)]

def value (a : Artifact) : Json.Value :=
  .object [(some "Type", .string (some a.type)),
    (some "Properties", .object (a.properties.map fun p => (some p.1, .string (some p.2))))]

theorem dumpText_reads (n : Nat) (a : Artifact) : Reads n Json.value a.dumpText a.value := by
  let text := objectText (a.properties.map fun p => memberText p.1 (quote p.2))
  let read := Json.Value.object (a.properties.map fun p => (some p.1, .string (some p.2)))
  have strings : ∀ p ∈ a.properties, Reads n Json.value (quote p.2) (.string (some p.2)) := by
    intro p _
    exact value_string_reads p.2
  have inner : Reads n Json.value text read := value_object_reads Prod.fst strings
  let members := [("Type", quote a.type, .string (some a.type)), ("Properties", text, read)]
  have outer : ∀ m ∈ members, Reads n Json.value m.2.1 m.2.2 := by
    rw [List.forall_mem_cons, List.forall_mem_singleton]
    exact ⟨value_string_reads a.type, inner⟩
  exact value_object_reads Prod.fst outer

theorem ofValue?_value (a : Artifact) : ofValue? a.value = some a := rfl

end Artifact

theorem Entries.insert_last {es : Entries} {id : String} (h : ∀ e ∈ es, e.1 < id) (a : Artifact) :
    insert id a es = es ++ [(id, a)] := by
  induction es with
  | nil => rfl
  | cons e es ih =>
    obtain ⟨before, rest⟩ := List.forall_mem_cons.mp h
    have notBefore : ¬id < e.1 := String.lt_asymm before
    have other : id ≠ e.1 := by
      intro same
      exact String.lt_irrefl _ (same ▸ before)
    rw [insert, if_neg notBefore, if_neg other, ih rest, List.cons_append]

namespace Store

/-- The store as a JSON value: a member for every entry. -/
def value (s : Store) : Json.Value := .object (s.entries.map fun e => (some e.1, e.2.value))

/-- The dump is the JSON text of a value with a member for every entry. -/
theorem parse?_dump (s : Store) : Json.parse? s.dump = some s.value := by
  have text : s.dump.toList = objectText (s.entries.map fun e => memberText e.1 e.2.dumpText) :=
    String.toList_ofList
  have resolvers : ∀ e ∈ s.entries,
      Reads s.dump.toList.length Json.value e.2.dumpText e.2.value := by
    intro e _
    exact e.2.dumpText_reads _
  have object := value_object_reads Prod.fst resolvers
  rw [← text] at object
  have read := object [] (by simp)
  rw [List.append_nil] at read
  rw [Json.parse?, Reader.readAll?, Json.document, Parser.bind_apply, read]
  rfl

theorem mapM_entryOf? (es : Entries) :
    (es.map fun e => (some e.1, e.2.value)).mapM entryOf? = some es := by
  induction es with
  | nil => rfl
  | cons e es ih =>
    have here : entryOf? (some e.1, e.2.value) = some e := by
      simp [entryOf?, Artifact.ofValue?_value]
    rw [List.map_cons, List.mapM_cons, here, ih]
    rfl

/-- Entries that come in order are put at the end one by one. -/
theorem entries_foldl (es : Entries) (s : Store) (h : Entries.Sorted (s.entries ++ es)) :
    (es.foldl (fun s e => s.insert e.1 e.2) s).entries = s.entries ++ es := by
  induction es generalizing s with
  | nil => simp
  | cons e es ih =>
    have before : ∀ d ∈ s.entries, d.1 < e.1 := by
      intro d hd
      exact (List.pairwise_append.mp h).2.2 d hd e List.mem_cons_self
    have last : (s.insert e.1 e.2).entries = s.entries ++ [e] := Entries.insert_last before e.2
    rw [List.append_cons, ← last] at h ⊢
    exact ih _ h

theorem ofEntries_entries (s : Store) : ofEntries s.entries = s := by
  have same : (ofEntries s.entries).entries = s.entries := entries_foldl s.entries empty s.sorted
  apply ext_find?
  intro x
  rw [find?, same, find?]

/-- The value of a store describes the store again. -/
theorem load?_dump (s : Store) : load? s.dump = some s := by
  rw [load?, parse?_dump, Option.bind_some, value, ofValue?, mapM_entryOf?, Option.map_some,
    ofEntries_entries]

/-- The dump writes the entries as members of a JSON object, from which the store is loaded again;
so no other store has this dump. -/
theorem dump_roundTrips (s : Store) :
    Json.parse? s.dump = some s.value ∧ load? s.dump = some s ∧
      ∀ t : Store, t.dump = s.dump ↔ t = s := by
  refine ⟨parse?_dump s, load?_dump s, fun t => ⟨fun same => ?_, congrArg dump⟩⟩
  have loaded := load?_dump t
  rw [same, load?_dump s] at loaded
  exact (Option.some.inj loaded).symm

/-- A quote, a backslash and a control character in a template. -/
example : (Store.empty.insert "A" ⟨"T", "M", "f", "\"\\\x01", ""⟩).dump =
    "\x7b\"A\":\x7b\"Type\":\"T\",\"Properties\":\x7b\"TypeName\":\"M\",\"FieldName\":\"f\"," ++
      "\"RequestMappingTemplate\":\"\\\"\\\\\\u0001\",\"ResponseMappingTemplate\":\"\"\x7d\x7d\x7d" := by
  cbv

end Store

end TransformDirective.Resolver
