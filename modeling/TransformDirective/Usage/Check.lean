import TransformDirective.Usage.Arguments

namespace TransformDirective.Usage

open TransformDirective.Schema TransformDirective.Config

inductive Reason where
  | repeated
  | onInterface
  | noModel (modelDirective : String)
  | arguments (fault : ArgumentFault)
  | notAList (type : TypeRef)
  deriving DecidableEq, Repr

/-- A refused usage: the name of the directive, its place and the reason. -/
structure Misuse where
  directive : String
  typeName : String
  fieldName : String
  reason : Reason
  deriving DecidableEq, Repr

def Misuse.message (m : Misuse) : String :=
  let place := m.typeName ++ "." ++ m.fieldName
  match m.reason with
  | .repeated =>
    s!"The @{m.directive} directive can only be used once per field. See {place}"
  | .onInterface =>
    s!"The @{m.directive} directive cannot be placed on an interface's field. See {place}"
  | .noModel model =>
    s!"@{m.directive} directive can only be used on types with @{model} directive. " ++
      s!"See {m.typeName}"
  | .arguments (.unknown a) =>
    s!"@{m.directive} directive has no argument named '{a}'. See {place}"
  | .arguments (.missing a) =>
    s!"@{m.directive} directive requires the '{a}' argument. See {place}"
  | .arguments (.wrongKind a expected found) =>
    s!"@{m.directive} argument '{a}' must be a {expected}, found {found}. See {place}"
  | .notAList type =>
    s!"@{m.directive} directive with foreach=true option can only be used on list type fields. " ++
      s!"See {place} of type {type.text}"

/-- The arguments of a usage, or why it is refused. The place is judged before the arguments, and
the arguments before the type of the field. -/
def check (settings : Settings) (parent : TypeDefinition) (field : Field) (d : Directive) :
    Except Misuse Arguments :=
  let refuse (name : String) (r : Reason) : Misuse := ⟨name, parent.name, field.name, r⟩
  if parent.isInterface then .error (refuse settings.directiveName .onInterface)
  else if (parent.directive? settings.modelDirective).isNone then
    .error (refuse settings.directiveName (.noModel settings.modelDirective))
  else
    match Arguments.read d with
    | .error f => .error (refuse d.name (.arguments f))
    | .ok a =>
      if a.foreach ∧ ¬field.type.isList then
        .error (refuse settings.directiveName (.notAList field.type))
      else .ok a

/-- An allowed usage: the type, the field and the arguments. -/
structure Site where
  parent : TypeDefinition
  field : Field
  args : Arguments
  deriving Repr

/-- The usage on a field, if there is one; a second one on the same field is refused. -/
def siteOf (settings : Settings) (parent : TypeDefinition) (field : Field) :
    Except Misuse (Option Site) :=
  match field.directivesNamed settings.directiveName with
  | [] => .ok none
  | [d] => (check settings parent field d).map fun a => some ⟨parent, field, a⟩
  | _ => .error ⟨settings.directiveName, parent.name, field.name, .repeated⟩

/-- All fields of object and interface types with their types, in order. -/
def fieldsOf (d : Document) : List (TypeDefinition × Field) :=
  d.types.flatMap fun t => t.fields.map (t, ·)

/-- The usages of a document in order, or the first refusal. -/
def sites (settings : Settings) (d : Document) : Except Misuse (List Site) :=
  ((fieldsOf d).mapM fun f => siteOf settings f.1 f.2).map (·.filterMap id)

end TransformDirective.Usage
