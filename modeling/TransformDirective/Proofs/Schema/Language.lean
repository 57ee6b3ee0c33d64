import TransformDirective.Schema.Reading

namespace TransformDirective.Schema

open TransformDirective.Text

def Argument.mapSpans (g : Span → Span) (a : Argument) : Argument :=
  ⟨a.name, a.value, g a.span⟩

def Directive.mapSpans (g : Span → Span) (d : Directive) : Directive :=
  ⟨d.name, d.arguments.map (·.mapSpans g), g d.span⟩

def InputValue.mapSpans (g : Span → Span) (v : InputValue) : InputValue :=
  ⟨v.name, v.type, v.defaultValue, v.directives.map (·.mapSpans g), g v.span⟩

def Field.mapSpans (g : Span → Span) (f : Field) : Field :=
  ⟨f.name, f.arguments.map (·.mapSpans g), f.type, f.directives.map (·.mapSpans g), g f.span⟩

def TypeDefinition.mapSpans (g : Span → Span) (t : TypeDefinition) : TypeDefinition :=
  ⟨t.kind, t.name, t.interfaces, t.directives.map (·.mapSpans g), t.fields.map (·.mapSpans g),
    g t.span⟩

def InputDefinition.mapSpans (g : Span → Span) (i : InputDefinition) : InputDefinition :=
  ⟨i.name, i.directives.map (·.mapSpans g), i.fields.map (·.mapSpans g), g i.span⟩

def EnumDefinition.mapSpans (g : Span → Span) (e : EnumDefinition) : EnumDefinition :=
  ⟨e.name, e.directives.map (·.mapSpans g), e.values, g e.span⟩

def ScalarDefinition.mapSpans (g : Span → Span) (s : ScalarDefinition) : ScalarDefinition :=
  ⟨s.name, s.directives.map (·.mapSpans g), g s.span⟩

def DirectiveDefinition.mapSpans (g : Span → Span) (d : DirectiveDefinition) :
    DirectiveDefinition :=
  ⟨d.name, d.arguments.map (·.mapSpans g), d.repeatable, d.locations, g d.span⟩

def Definition.mapSpans (g : Span → Span) : Definition → Definition
  | type t => type (t.mapSpans g)
  | input i => input (i.mapSpans g)
  | enumeration e => enumeration (e.mapSpans g)
  | scalar s => scalar (s.mapSpans g)
  | directive d => directive (d.mapSpans g)

def Document.mapSpans (g : Span → Span) (d : Document) : Document :=
  ⟨d.definitions.map (·.mapSpans g)⟩

/-- The place of a node whose place does not matter. -/
def nowhere : Span := .atCursor .start

def forget (_ : Span) : Span := nowhere

/-- Word sequences with their meanings. -/
def Language (α : Type) : Type := List Lexeme → α → Prop

namespace Language

variable {α β : Type}

def nothing (a : α) : Language α := fun ls b => ls = [] ∧ b = a

def andThen (L : Language α) (M : α → Language β) : Language β := fun ls b =>
  ∃ us vs a, ls = us ++ vs ∧ L us a ∧ M a vs b

instance : Monad Language where
  pure := nothing
  bind := andThen

def either (L M : Language α) : Language α := fun ls a => L ls a ∨ M ls a

/-- Sequences of a language behind each other. -/
inductive many (L : Language α) : Language (List α)
  | nil : many L [] []
  | cons {us vs : List Lexeme} {a : α} {as : List α} (first : L us a) (rest : many L vs as) :
      many L (us ++ vs) (a :: as)

def optional (L : Language α) : Language (Option α) :=
  either (do return some (← L)) (return none)

/-- A sequence of the language or none; a list without items stands for none. -/
def optionalList (L : Language (List α)) : Language (List α) := either L (return [])

def word (x : Lexeme) : Language Unit := fun ls _ => ls = [x]

def mark (p : Punct) : Language Unit := word (.punct p)

def keyword (k : String) : Language Unit := word (.name k)

def name : Language String := fun ls n => ls = [.name n]

/-- `String?` -/
def description : Language Unit := either (fun ls _ => ∃ s, ls = [.string s]) (return ())

/-- Whether a word stands here. -/
def given (x : Lexeme) : Language Bool :=
  either (do word x; return true) (return false)

/-- `(Name | '[' Type ']') '!'?` -/
inductive typeRef : Language TypeRef
  | named (n : String) : typeRef [.name n] (.named n)
  | namedNonNull (n : String) : typeRef [.name n, .punct .bang] (.nonNull (.named n))
  | list {ls : List Lexeme} {t : TypeRef} (h : typeRef ls t) :
      typeRef (.punct .bracketOpen :: (ls ++ [.punct .bracketClose])) (.list t)
  | listNonNull {ls : List Lexeme} {t : TypeRef} (h : typeRef ls t) :
      typeRef (.punct .bracketOpen :: (ls ++ [.punct .bracketClose, .punct .bang]))
        (.nonNull (.list t))

/-- `Name ':' Value` -/
inductive member (L : Language Value) : Language (String × Value)
  | mk (key : String) {ls : List Lexeme} {v : Value} (h : L ls v) :
      member L (.name key :: .punct .colon :: ls) (key, v)

/-- `Int | Float | String | Name | '[' Value* ']' | '{' (Name ':' Value)* '}'` -/
inductive value : Language Value
  | int (n : Int) : value [.int n] (.int n)
  | float (x : Number.Binary64) : value [.float x] (.float x)
  | string (s : String) : value [.string s] (.string s)
  | true : value [.name "true"] (.bool .true)
  | false : value [.name "false"] (.bool .false)
  | null : value [.name "null"] .null
  | enumValue (n : String) (h : n ∉ ["true", "false", "null"]) : value [.name n] (.enumValue n)
  | list {ls : List Lexeme} {vs : List Value} (h : many value ls vs) :
      value (.punct .bracketOpen :: (ls ++ [.punct .bracketClose])) (.list vs)
  | object {ls : List Lexeme} {ms : List (String × Value)} (h : many (member value) ls ms) :
      value (.punct .braceOpen :: (ls ++ [.punct .braceClose])) (.object ms)

/-- `open item* close` -/
def enclosed (opening closing : Punct) (item : Language α) : Language (List α) := do
  mark opening
  let items ← many item
  mark closing
  return items

/-- `mark? Name (mark Name)*` -/
def separatedNames (separator : Punct) : Language (List String) := do
  let _ ← given (.punct separator)
  let first ← name
  let more ← many do
    mark separator
    name
  return first :: more

/-- `Name ':' Value` -/
def argument : Language Argument := do
  let n ← name
  mark .colon
  let v ← value
  return ⟨n, v, nowhere⟩

/-- `'@' Name ('(' (Name ':' Value)* ')')?` -/
def directive : Language Directive := do
  mark .at
  let n ← name
  let arguments ← optionalList (enclosed .parenOpen .parenClose argument)
  return ⟨n, arguments, nowhere⟩

/-- `'=' Value` -/
def defaultValue : Language Value := do
  mark .equals
  value

/-- `String? Name ':' Type ('=' Value)? Dir*` -/
def inputValue : Language InputValue := do
  description
  let n ← name
  mark .colon
  let type ← typeRef
  let default ← optional defaultValue
  let ds ← many directive
  return ⟨n, type, default, ds, nowhere⟩

/-- `('(' InputValue* ')')?` -/
def argumentDefinitions : Language (List InputValue) :=
  optionalList (enclosed .parenOpen .parenClose inputValue)

/-- `String? Name Args? ':' Type Dir*` -/
def field : Language Field := do
  description
  let n ← name
  let arguments ← argumentDefinitions
  mark .colon
  let type ← typeRef
  let ds ← many directive
  return ⟨n, arguments, type, ds, nowhere⟩

/-- `String? Name Dir*` -/
def enumItem : Language String := do
  description
  let n ← name
  let _ ← many directive
  return n

/-- `'implements' '&'? Name ('&' Name)*` -/
def interfaces : Language (List String) := do
  keyword "implements"
  separatedNames .amp

/-- `('type' | 'interface') Name ('implements' '&'? Name ('&' Name)*)? Dir* ('{' Field* '}')?` -/
def typeDefinition (kind : TypeKind) : Language Definition := do
  keyword kind.keyword
  let n ← name
  let is ← optionalList interfaces
  let ds ← many directive
  let fields ← optionalList (enclosed .braceOpen .braceClose field)
  return .type ⟨kind, n, is, ds, fields, nowhere⟩

/-- `'input' Name Dir* ('{' InputValue* '}')?` -/
def inputDefinition : Language Definition := do
  keyword "input"
  let n ← name
  let ds ← many directive
  let fields ← optionalList (enclosed .braceOpen .braceClose inputValue)
  return .input ⟨n, ds, fields, nowhere⟩

/-- `'enum' Name Dir* ('{' (String? Name Dir*)* '}')?` -/
def enumDefinition : Language Definition := do
  keyword "enum"
  let n ← name
  let ds ← many directive
  let values ← optionalList (enclosed .braceOpen .braceClose enumItem)
  return .enumeration ⟨n, ds, values, nowhere⟩

/-- `'scalar' Name Dir*` -/
def scalarDefinition : Language Definition := do
  keyword "scalar"
  let n ← name
  let ds ← many directive
  return .scalar ⟨n, ds, nowhere⟩

/-- `'directive' '@' Name Args? 'repeatable'? 'on' '|'? Name ('|' Name)*` -/
def directiveDefinition : Language Definition := do
  keyword "directive"
  mark .at
  let n ← name
  let arguments ← argumentDefinitions
  let repeatable ← given (.name "repeatable")
  keyword "on"
  let locations ← separatedNames .pipe
  return .directive ⟨n, arguments, repeatable, locations, nowhere⟩

/-- A definition behind its description. -/
def definitionBody : Language Definition := fun ls d =>
  typeDefinition .object ls d ∨ typeDefinition .interface ls d ∨ inputDefinition ls d ∨
    enumDefinition ls d ∨ scalarDefinition ls d ∨ directiveDefinition ls d

/-- `String?` and a definition of one of the six kinds -/
def definition : Language Definition := do
  description
  definitionBody

/-- `Def*` -/
def document : Language Document := do
  return ⟨← many definition⟩

end Language

end TransformDirective.Schema
