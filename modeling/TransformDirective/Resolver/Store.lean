import TransformDirective.Resolver.Key

namespace TransformDirective.Resolver

def resourceType : String := "AWS::AppSync::Resolver"

/-- A resolver: the field it is attached to and its templates. Only the request template ever
changes. -/
structure Artifact where
  type : String
  typeName : String
  fieldName : String
  request : String
  response : String
  deriving DecidableEq, Repr

namespace Artifact

def ofRequest (typeName fieldName request : String) : Artifact :=
  ⟨resourceType, typeName, fieldName, request, ""⟩

/-- The resolver with a block in front of its request template, a blank line between them. -/
def prepend (block : String) (a : Artifact) : Artifact :=
  { a with request := block ++ "\n\n" ++ a.request }

end Artifact

/-- Entries by identifier. -/
abbrev Entries : Type := List (String × Artifact)

namespace Entries

/-- Every identifier comes before those behind it. -/
def Sorted (es : Entries) : Prop := es.Pairwise fun a b => a.1 < b.1

/-- Puts an entry at its place, instead of an entry with its identifier. -/
def insert (id : String) (a : Artifact) : Entries → Entries
  | [] => [(id, a)]
  | e :: es =>
    if id < e.1 then (id, a) :: e :: es
    else if id = e.1 then (id, a) :: es
    else e :: insert id a es

def find? (x : String) : Entries → Option Artifact
  | [] => none
  | e :: es => if x = e.1 then some e.2 else find? x es

def erase (id : String) (es : Entries) : Entries := es.filter (·.1 ≠ id)

theorem mem_insert {id : String} {a : Artifact} {es : Entries} {e : String × Artifact}
    (h : e ∈ insert id a es) : e.1 = id ∨ e ∈ es := by
  induction es with
  | nil => simp_all [insert]
  | cons d es ih =>
    unfold insert at h
    split at h
    · rcases List.mem_cons.mp h with h | h
      · exact .inl (by rw [h])
      · exact .inr h
    · split at h
      · rcases List.mem_cons.mp h with h | h
        · exact .inl (by rw [h])
        · exact .inr (List.mem_cons_of_mem _ h)
      · rcases List.mem_cons.mp h with h | h
        · exact .inr (h ▸ List.mem_cons_self)
        · exact (ih h).imp_right (List.mem_cons_of_mem _)

/-- An entry that is put at its place keeps the identifiers in order. -/
theorem sorted_insert {id : String} {a : Artifact} {es : Entries} (h : Sorted es) :
    Sorted (insert id a es) := by
  induction es with
  | nil => exact List.pairwise_singleton _ _
  | cons d es ih =>
    have hd := List.pairwise_cons.mp h
    unfold insert
    split
    · next hlt =>
      refine List.pairwise_cons.mpr ⟨fun e he => ?_, h⟩
      rcases List.mem_cons.mp he with he | he
      · exact he ▸ hlt
      · exact String.lt_trans hlt (hd.1 e he)
    · split
      · next heq => exact List.pairwise_cons.mpr ⟨fun e he => heq ▸ hd.1 e he, hd.2⟩
      · next hlt hne =>
        refine List.pairwise_cons.mpr ⟨fun e he => ?_, ih hd.2⟩
        rcases mem_insert he with he | he
        · exact he ▸ Std.lt_of_le_of_ne (String.not_lt.mp hlt) (Ne.symm hne)
        · exact hd.1 e he

theorem sorted_erase {id : String} {es : Entries} (h : Sorted es) : Sorted (erase id es) :=
  h.filter _

theorem find?_insert (id : String) (a : Artifact) (es : Entries) (x : String) :
    find? x (insert id a es) = if x = id then some a else find? x es := by
  induction es with
  | nil => simp [insert, find?]
  | cons d es ih =>
    unfold insert
    split
    · simp [find?]
    · split
      · next heq => by_cases h : x = id <;> simp_all [find?]
      · next hlt hne =>
        by_cases hx : x = d.1
        · simp [find?, hx, Ne.symm hne]
        · simp [find?, hx, ih]

theorem find?_erase (id : String) (es : Entries) (x : String) :
    find? x (erase id es) = if x = id then none else find? x es := by
  induction es with
  | nil => simp [erase, find?]
  | cons d es ih =>
    by_cases hd : d.1 = id
    · have : erase id (d :: es) = erase id es := by simp [erase, hd]
      rw [this, ih]
      by_cases hx : x = id <;> simp [find?, hd, hx]
    · have : erase id (d :: es) = d :: erase id es := by simp [erase, hd]
      by_cases hx : x = d.1
      · simp [this, find?, hx, hd]
      · simp [this, ih, find?, hx]

theorem find?_eq_none {es : Entries} {x : String} (h : ∀ e ∈ es, x < e.1) :
    find? x es = none := by
  induction es with
  | nil => rfl
  | cons d es ih =>
    have hd : x ≠ d.1 := fun e => String.lt_irrefl _ (e ▸ h d List.mem_cons_self)
    rw [find?, if_neg hd, ih fun e he => h e (List.mem_cons_of_mem _ he)]

theorem find?_eq_none_of_lt {d : String × Artifact} {es : Entries} (h : Sorted (d :: es))
    {x : String} (hx : x < d.1) : find? x (d :: es) = none := by
  have hd := (List.pairwise_cons.mp h).1
  refine find?_eq_none fun e he => ?_
  rcases List.mem_cons.mp he with he | he
  · exact he ▸ hx
  · exact String.lt_trans hx (hd e he)

/-- Entries in order are equal if every look-up agrees. -/
theorem ext_find? {es fs : Entries} (he : Sorted es) (hf : Sorted fs)
    (h : ∀ x, find? x es = find? x fs) : es = fs := by
  induction es generalizing fs with
  | nil =>
    cases fs with
    | nil => rfl
    | cons e fs => simpa [find?] using h e.1
  | cons d es ih =>
    cases fs with
    | nil => simpa [find?] using h d.1
    | cons e fs =>
      obtain ⟨hd, hes⟩ := List.pairwise_cons.mp he
      obtain ⟨hq, hfs⟩ := List.pairwise_cons.mp hf
      have hkey : d.1 = e.1 := by
        rcases Std.lt_trichotomy d.1 e.1 with hlt | heq | hlt
        · have h1 := h d.1
          rw [find?_eq_none_of_lt hf hlt, find?, if_pos rfl] at h1
          cases h1
        · exact heq
        · have h1 := h e.1
          rw [find?_eq_none_of_lt he hlt, find?, if_pos rfl] at h1
          cases h1
      have hval : d.2 = e.2 := by
        have h1 := h d.1
        rw [find?, find?, if_pos rfl, if_pos hkey] at h1
        exact Option.some.inj h1
      obtain rfl : d = e := Prod.ext hkey hval
      refine congrArg (d :: ·) (ih hes hfs fun x => ?_)
      by_cases hx : x = d.1
      · rw [hx, find?_eq_none hd, find?_eq_none hq]
      · have h1 := h x
        rwa [find?, find?, if_neg hx, if_neg hx] at h1

theorem mem_ids (es : Entries) (x : String) :
    x ∈ es.map (·.1) ↔ (find? x es).isSome := by
  induction es with
  | nil => simp [find?]
  | cons e es ih => by_cases here : x = e.1 <;> simp [find?, here, ih]

/-- A change of a resolver that is there keeps the identifiers. -/
theorem ids_insert {id : String} {a b : Artifact} {es : Entries} (h : Sorted es)
    (present : find? id es = some a) : (insert id b es).map (·.1) = es.map (·.1) := by
  induction es with
  | nil => cases present
  | cons e es ih =>
    unfold insert
    by_cases before : id < e.1
    · have absent := find?_eq_none_of_lt h before
      rw [absent] at present
      cases present
    · rw [if_neg before]
      by_cases here : id = e.1
      · rw [if_pos here]
        simp [here]
      · rw [if_neg here, List.map_cons, List.map_cons]
        rw [find?, if_neg here] at present
        have rest := ih (List.pairwise_cons.mp h).2 present
        rw [rest]

end Entries

structure Store where
  entries : Entries
  sorted : Entries.Sorted entries

namespace Store

def empty : Store := ⟨[], List.Pairwise.nil⟩

instance : Inhabited Store := ⟨empty⟩

def find? (s : Store) (id : String) : Option Artifact := Entries.find? id s.entries

/-- The store with a resolver under an identifier, instead of any other one. -/
def insert (s : Store) (id : String) (a : Artifact) : Store :=
  ⟨Entries.insert id a s.entries, Entries.sorted_insert s.sorted⟩

/-- The store of entries, the last of those with one identifier. -/
def ofEntries (es : Entries) : Store := es.foldl (fun s e => s.insert e.1 e.2) empty

def get? (s : Store) (k : Key) : Option Artifact := s.find? k.id

def set (s : Store) (k : Key) (a : Artifact) : Store := s.insert k.id a

def remove (s : Store) (k : Key) : Store :=
  ⟨Entries.erase k.id s.entries, Entries.sorted_erase s.sorted⟩

def contains (s : Store) (k : Key) : Bool := (s.get? k).isSome

def size (s : Store) : Nat := s.entries.length

def isEmpty (s : Store) : Bool := s.entries.isEmpty

/-- The store with the resolver under a key changed, if there is one. -/
def modify (s : Store) (k : Key) (f : Artifact → Artifact) : Store :=
  match s.get? k with
  | some a => s.set k (f a)
  | none => s

/-- Stores are equal if every look-up agrees. -/
theorem ext_find? {s t : Store} (h : ∀ x, s.find? x = t.find? x) : s = t := by
  obtain ⟨es, hs⟩ := s
  obtain ⟨fs, ht⟩ := t
  obtain rfl := Entries.ext_find? hs ht h
  rfl

theorem find?_insert (s : Store) (id : String) (a : Artifact) (x : String) :
    (s.insert id a).find? x = if x = id then some a else s.find? x :=
  Entries.find?_insert id a s.entries x

theorem find?_remove (s : Store) (k : Key) (x : String) :
    (s.remove k).find? x = if x = k.id then none else s.find? x :=
  Entries.find?_erase k.id s.entries x

theorem get?_set (s : Store) (k l : Key) (a : Artifact) :
    (s.set k a).get? l = if l = k then some a else s.get? l := by
  simp only [get?, set, find?_insert, Key.id_inj]

theorem get?_remove (s : Store) (k l : Key) :
    (s.remove k).get? l = if l = k then none else s.get? l := by
  simp only [get?, find?_remove, Key.id_inj]

theorem get?_modify (s : Store) (k l : Key) (f : Artifact → Artifact) :
    (s.modify k f).get? l = if l = k then (s.get? k).map f else s.get? l := by
  unfold modify
  split
  · next a h => simp [get?_set, h]
  · next h =>
    split
    · next hl => simp [hl, h]
    · rfl

def ids (s : Store) : List String := s.entries.map (·.1)

theorem mem_ids (s : Store) (x : String) : x ∈ s.ids ↔ (s.find? x).isSome :=
  Entries.mem_ids s.entries x

/-- The identifiers of a store differ from each other. -/
theorem nodup_ids (s : Store) : s.ids.Nodup := by
  have ordered : s.ids.Pairwise (· < ·) := List.pairwise_map.mpr s.sorted
  apply ordered.imp
  intro x y before same
  exact String.lt_irrefl _ (same ▸ before)

theorem ids_modify (s : Store) (k : Key) (f : Artifact → Artifact) :
    (s.modify k f).ids = s.ids := by
  unfold modify
  cases h : s.get? k with
  | none => rfl
  | some a => exact Entries.ids_insert s.sorted h

end Store

end TransformDirective.Resolver
