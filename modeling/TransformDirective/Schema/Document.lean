import TransformDirective.Number.Numeral
import TransformDirective.Text.Cursor

namespace TransformDirective.Schema

open TransformDirective.Number TransformDirective.Text

/-- A named type, a list of a type, or a type without null. -/
inductive TypeRef where
  | named (name : String)
  | list (item : TypeRef)
  | nonNull (inner : TypeRef)
  deriving DecidableEq, Repr

namespace TypeRef

def text : TypeRef → String
  | named n => n
  | list t => "[" ++ t.text ++ "]"
  | nonNull t => t.text ++ "!"

instance : ToString TypeRef := ⟨text⟩

/-- The type with null allowed again, if it was not. -/
def nullable : TypeRef → TypeRef
  | nonNull t => t
  | t => t

/-- A list, with or without null. -/
def isList (t : TypeRef) : Bool :=
  match t.nullable with
  | list _ => true
  | _ => false

/-- The name inside all wrappers. -/
def baseName : TypeRef → String
  | named n => n
  | list t => t.baseName
  | nonNull t => t.baseName

end TypeRef

/-- A constant; the members of an object stand in source order and may repeat a key. -/
inductive Value where
  | null
  | bool (value : Bool)
  | int (value : Int)
  | float (value : Binary64)
  | string (text : String)
  | enumValue (name : String)
  | list (items : List Value)
  | object (members : List (String × Value))
  deriving Repr

namespace Value

/-- What an error message calls the value. -/
def kindName : Value → String
  | null => "null"
  | bool _ => "Boolean"
  | int _ => "Int"
  | float _ => "Float"
  | string _ => "String"
  | enumValue _ => "enum value"
  | list _ => "list"
  | object _ => "object"

def string? : Value → Option String
  | string s => some s
  | _ => none

def bool? : Value → Option Bool
  | bool b => some b
  | _ => none

def isNull : Value → Bool
  | null => true
  | _ => false

/-- The first member of an object with this key. -/
def member? (key : String) : Value → Option Value
  | object ms => (ms.find? (·.1 == key)).map (·.2)
  | _ => none

end Value

structure Argument where
  name : String
  value : Value
  span : Span
  deriving Repr

/-- A directive usage, such as `@name(key: value)`. -/
structure Directive where
  name : String
  arguments : List Argument
  span : Span
  deriving Repr

/-- An argument of a field or directive, or a field of an input type. -/
structure InputValue where
  name : String
  type : TypeRef
  defaultValue : Option Value
  directives : List Directive
  span : Span
  deriving Repr

/-- A field of an object or interface type. -/
structure Field where
  name : String
  arguments : List InputValue
  type : TypeRef
  directives : List Directive
  span : Span
  deriving Repr

/-- A type with fields is concrete or an interface. -/
inductive TypeKind where
  | object
  | interface
  deriving DecidableEq, Repr

def TypeKind.keyword : TypeKind → String
  | object => "type"
  | interface => "interface"

/-- An object or interface type. -/
structure TypeDefinition where
  kind : TypeKind
  name : String
  interfaces : List String
  directives : List Directive
  fields : List Field
  span : Span
  deriving Repr

structure InputDefinition where
  name : String
  directives : List Directive
  fields : List InputValue
  span : Span
  deriving Repr

/-- An enumeration with the names of its values. -/
structure EnumDefinition where
  name : String
  directives : List Directive
  values : List String
  span : Span
  deriving Repr

structure ScalarDefinition where
  name : String
  directives : List Directive
  span : Span
  deriving Repr

/-- A directive with its arguments and the locations it may stand at. -/
structure DirectiveDefinition where
  name : String
  arguments : List InputValue
  repeatable : Bool
  locations : List String
  span : Span
  deriving Repr

inductive Definition where
  | type (definition : TypeDefinition)
  | input (definition : InputDefinition)
  | enumeration (definition : EnumDefinition)
  | scalar (definition : ScalarDefinition)
  | directive (definition : DirectiveDefinition)
  deriving Repr

/-- A schema: its definitions in source order. -/
structure Document where
  definitions : List Definition
  deriving Repr

/-- The value of the first argument with this name. -/
def Directive.argument? (d : Directive) (name : String) : Option Value :=
  (d.arguments.find? (·.name == name)).map (·.value)

/-- The first of the directives with this name. -/
def findDirective? (ds : List Directive) (name : String) : Option Directive :=
  ds.find? (·.name == name)

namespace Field

def directive? (f : Field) (name : String) : Option Directive := findDirective? f.directives name

def directivesNamed (f : Field) (name : String) : List Directive :=
  f.directives.filter (·.name == name)

end Field

namespace TypeDefinition

def isInterface (t : TypeDefinition) : Bool := t.kind == .interface

def directive? (t : TypeDefinition) (name : String) : Option Directive :=
  findDirective? t.directives name

def field? (t : TypeDefinition) (name : String) : Option Field := t.fields.find? (·.name == name)

end TypeDefinition

/-- The object or interface type that is defined, if it is one. -/
def Definition.type? : Definition → Option TypeDefinition
  | type t => some t
  | _ => none

namespace Document

def empty : Document := ⟨[]⟩

/-- The definitions of one document behind those of another. -/
instance : Append Document := ⟨fun a b => ⟨a.definitions ++ b.definitions⟩⟩

/-- The object and interface types in source order. -/
def types (d : Document) : List TypeDefinition := d.definitions.filterMap Definition.type?

theorem types_append (a b : Document) : (a ++ b).types = a.types ++ b.types :=
  List.filterMap_append

def type? (d : Document) (name : String) : Option TypeDefinition := d.types.find? (·.name == name)

end Document

end TransformDirective.Schema
