namespace TransformDirective.Resolver

/-- The mutations that a model type has. -/
inductive Kind where
  | create
  | update
  deriving DecidableEq, Repr

namespace Kind

/-- All kinds in the order in which they are visited. -/
def all : List Kind := [create, update]

def name : Kind → String
  | create => "Create"
  | update => "Update"

/-- The name of the kind at the start of a field name. -/
def fieldStart : Kind → String
  | create => "create"
  | update => "update"

/-- The default name of the mutation field, such as `createPost`. -/
def mutationField (k : Kind) (typeName : String) : String := k.fieldStart ++ typeName

end Kind

structure Key where
  typeName : String
  kind : Kind
  deriving DecidableEq, Repr

namespace Key

/-- The identifier of the resolver, such as `CreatePostResolver`. -/
def id (k : Key) : String := k.kind.name ++ k.typeName ++ "Resolver"

def ofType (typeName : String) : List Key := Kind.all.map (⟨typeName, ·⟩)

/-- Different keys have different identifiers: the names of the kinds are equally long. -/
theorem id_injective {a b : Key} (h : a.id = b.id) : a = b := by
  obtain ⟨t, k⟩ := a
  obtain ⟨u, l⟩ := b
  have hl := congrArg String.toList h
  simp only [id, String.toList_append] at hl
  have hc := List.append_cancel_right hl
  cases k <;> cases l <;> simp_all [Kind.name, String.toList_inj]

theorem id_inj {a b : Key} : a.id = b.id ↔ a = b := ⟨id_injective, congrArg id⟩

/-- The order by type name, then by kind. -/
def before (a b : Key) : Bool :=
  a.typeName < b.typeName || (a.typeName == b.typeName && a.kind == .create && b.kind == .update)

/-- Puts a key into a list in order, unless it is there already. -/
def insertSorted (k : Key) : List Key → List Key
  | [] => [k]
  | l :: ls =>
    if k.before l then k :: l :: ls
    else if k = l then l :: ls
    else l :: insertSorted k ls

def sortedUnique (ks : List Key) : List Key := ks.foldr insertSorted []

end Key

end TransformDirective.Resolver
