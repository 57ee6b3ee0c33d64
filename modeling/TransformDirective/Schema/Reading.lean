import TransformDirective.Parser
import TransformDirective.Schema.Document
import TransformDirective.Schema.Token

namespace TransformDirective.Schema

open TransformDirective.Text

/-- What a rule found wrong, and the word it found; `none` is the end of the text. -/
inductive RuleFault where
  | unexpected (expected : Expected) (found : Option Token)
  | variableValue (found : Option Token)
  deriving DecidableEq, Repr

def lexeme? (t : Option Token) : Option Lexeme := t.map (·.lexeme)

abbrev Rule (α : Type) : Type := Parser Token RuleFault α

namespace Rule

variable {α : Type}

def expected (e : Expected) : Rule α := Parser.fail (.unexpected e)

def isPunct (p : Punct) (t : Token) : Bool := t.lexeme == .punct p

def isKeyword (k : String) (t : Token) : Bool := t.lexeme == .name k

/-- Takes the next word if it passes the test, and tells whether it did. -/
def accept (test : Token → Bool) : Rule Bool := do
  if (← Parser.peek).any test then
    let _ ← Parser.next
    return true
  else return false

def punct (p : Punct) : Rule Unit := do
  if ← accept (isPunct p) then return () else expected (.punct p)

/-- Takes a name that serves as a keyword. -/
def keyword (k : String) : Rule Unit := do
  if ← accept (isKeyword k) then return () else expected (.keyword k)

/-- The next word, if it is a name. -/
def peekName : Rule (Option String) := do
  match ← Parser.peek with
  | some ⟨.name n, _⟩ => return some n
  | _ => return none

def name : Rule String := do
  match ← peekName with
  | some n =>
    let _ ← Parser.next
    return n
  | none => expected .name

/-- Takes a description if one comes next. -/
def description : Rule Unit := do
  match ← Parser.peek with
  | some ⟨.string _, _⟩ =>
    let _ ← Parser.next
    return ()
  | _ => return ()

/-- The stretch from the first word to the last one. -/
def coveredSpan (first : Token) (more : List Token) : Span :=
  first.span.cover (more.getLast?.getD first).span

/-- A node with the place of the words it took; a node that took none stands nowhere. -/
def located (rule : Rule (Span → α)) : Rule α :=
  Parser.withTaken do
    let node ← rule
    return fun
      | [] => node (.atCursor .start)
      | t :: ts => node (coveredSpan t ts)

/-- Items up to a closing mark. -/
def itemsUntil (closing : Punct) (item : Rule α) : Rule (List α) := do
  let items ← Parser.repeatWhile (fun t => !isPunct closing t) item
  punct closing
  return items

/-- Items between two marks, or none if the opening mark does not come next. -/
def optionallyEnclosed (opening closing : Punct) (item : Rule α) : Rule (List α) := do
  if ← accept (isPunct opening) then itemsUntil closing item else return []

/-- Names with a mark between each two; the mark may also stand in front. -/
def separatedNames (separator : Punct) : Rule (List String) := do
  let _ ← accept (isPunct separator)
  let first ← name
  let more ← Parser.repeatWhile (isPunct separator) do
    punct separator
    name
  return first :: more

/-- The list type of an item, behind its opening bracket. -/
def listType (item : Rule TypeRef) : Rule TypeRef := do
  let t ← item
  punct .bracketClose
  return .list t

def namedType : Rule TypeRef := do
  match ← peekName with
  | some n =>
    let _ ← Parser.next
    return .named n
  | none => expected .typeRef

/-- A type reference: a name or a bracketed type, and perhaps an exclamation mark. -/
def typeRef : Rule TypeRef :=
  Parser.recursive (.unexpected .typeRef) fun inner => do
    let t ← if ← accept (isPunct .bracketOpen) then listType inner else namedType
    if ← accept (isPunct .bang) then return .nonNull t else return t

/-- The constant that a name stands for. -/
def nameValue (n : String) : Value :=
  if n = "true" then .bool true
  else if n = "false" then .bool false
  else if n = "null" then .null
  else .enumValue n

/-- A member of an object, of which `inner` reads the value. -/
def member (inner : Rule Value) : Rule (String × Value) := do
  let key ← name
  punct .colon
  let v ← inner
  return (key, v)

/-- A constant value. The word it starts with is taken even if it starts none. -/
def value : Rule Value :=
  Parser.recursive (.unexpected .value) fun inner => do
    let t ← Parser.next
    match lexeme? t with
    | some (.int n) => return .int n
    | some (.float x) => return .float x
    | some (.string s) => return .string s
    | some (.name n) => return nameValue n
    | some (.punct .bracketOpen) => return .list (← itemsUntil .bracketClose inner)
    | some (.punct .braceOpen) => return .object (← itemsUntil .braceClose (member inner))
    | some (.punct .dollar) => Parser.fail fun _ => .variableValue t
    | _ => Parser.fail fun _ => .unexpected .value t

def argument : Rule Argument := located do
  let n ← name
  punct .colon
  let v ← value
  return fun span => ⟨n, v, span⟩

def directive : Rule Directive := located do
  punct .at
  let n ← name
  let arguments ← optionallyEnclosed .parenOpen .parenClose argument
  return fun span => ⟨n, arguments, span⟩

def directives : Rule (List Directive) := Parser.repeatWhile (isPunct .at) directive

/-- A default value if an equals sign comes next. -/
def defaultValue : Rule (Option Value) := do
  if ← accept (isPunct .equals) then return some (← value) else return none

/-- An argument definition or a field of an input type. -/
def inputValue : Rule InputValue := do
  description
  located do
    let n ← name
    punct .colon
    let type ← typeRef
    let default ← defaultValue
    let ds ← directives
    return fun span => ⟨n, type, default, ds, span⟩

def field : Rule Field := do
  description
  located do
    let n ← name
    let arguments ← optionallyEnclosed .parenOpen .parenClose inputValue
    punct .colon
    let type ← typeRef
    let ds ← directives
    return fun span => ⟨n, arguments, type, ds, span⟩

/-- A value of an enumeration; its directives are read and not kept. -/
def enumItem : Rule String := do
  description
  let n ← name
  let _ ← directives
  return n

/-- The interfaces that a type names. -/
def interfaces : Rule (List String) := do
  if ← accept (isKeyword "implements") then separatedNames .amp else return []

/-- An object or interface type behind its keyword. -/
def typeBody (kind : TypeKind) : Rule (Span → Definition) := do
  let n ← name
  let is ← interfaces
  let ds ← directives
  let fields ← optionallyEnclosed .braceOpen .braceClose field
  return fun span => .type ⟨kind, n, is, ds, fields, span⟩

def inputBody : Rule (Span → Definition) := do
  let n ← name
  let ds ← directives
  let fields ← optionallyEnclosed .braceOpen .braceClose inputValue
  return fun span => .input ⟨n, ds, fields, span⟩

def enumBody : Rule (Span → Definition) := do
  let n ← name
  let ds ← directives
  let values ← optionallyEnclosed .braceOpen .braceClose enumItem
  return fun span => .enumeration ⟨n, ds, values, span⟩

def scalarBody : Rule (Span → Definition) := do
  let n ← name
  let ds ← directives
  return fun span => .scalar ⟨n, ds, span⟩

def directiveBody : Rule (Span → Definition) := do
  punct .at
  let n ← name
  let arguments ← optionallyEnclosed .parenOpen .parenClose inputValue
  let repeatable ← accept (isKeyword "repeatable")
  keyword "on"
  let locations ← separatedNames .pipe
  return fun span => .directive ⟨n, arguments, repeatable, locations, span⟩

/-- What a keyword at the start of a definition is followed by. -/
def definitionBody? : String → Option (Rule (Span → Definition))
  | "type" => some (typeBody .object)
  | "interface" => some (typeBody .interface)
  | "input" => some inputBody
  | "enum" => some enumBody
  | "scalar" => some scalarBody
  | "directive" => some directiveBody
  | _ => none

/-- A definition; its place starts at the keyword, behind any description. -/
def definition : Rule Definition := do
  description
  located do
    match (← peekName).bind definitionBody? with
    | some body =>
      let _ ← Parser.next
      body
    | none => expected .definition

/-- A whole document: definitions up to the end. -/
def document : Rule Document := do
  return ⟨← Parser.repeatWhile (fun _ => true) definition⟩

def endOfInput : Rule Unit := do
  if (← Parser.peek).isSome then expected .endOfInput else return ()

/-- A type reference and nothing behind it. -/
def wholeTypeRef : Rule TypeRef := do
  let t ← typeRef
  endOfInput
  return t

end Rule

/-- The error for a fault in a text that ends at `stop`. -/
def RuleFault.toError (stop : Cursor) : RuleFault → SyntaxError
  | unexpected e t => ⟨.unexpected e (lexeme? t), t.elim (.atCursor stop) (·.span)⟩
  | variableValue t => ⟨.variableValue, t.elim (.atCursor stop) (·.span)⟩

/-- Applies a rule to the words of a text. -/
def Tokens.parse {α : Type} (rule : Rule α) (ts : Tokens) : Except SyntaxError α :=
  (rule ts.words).toExcept.mapError (·.toError ts.stop)

def parseWith {α : Type} (rule : Rule α) (source : String) : Except SyntaxError α := do
  (← tokenize source).parse rule

def Document.parse (source : String) : Except SyntaxError Document := parseWith Rule.document source

def TypeRef.parse (source : String) : Except SyntaxError TypeRef :=
  parseWith Rule.wholeTypeRef source

inductive Request where
  | typeRef
  | document
  deriving DecidableEq, Repr

inductive Reading where
  | typeRef (type : TypeRef)
  | document (document : Document)
  deriving Repr

def Request.rule : Request → Rule Reading
  | typeRef => do return .typeRef (← Rule.typeRef)
  | document => do return .document (← Rule.document)

/-- The answers to requests in order. -/
def Tokens.readings : Tokens → List Request → List (Except SyntaxError Reading)
  | _, [] => []
  | ts, q :: qs =>
    let o := q.rule ts.words
    o.toExcept.mapError (·.toError ts.stop) :: readings { ts with words := o.rest } qs

end TransformDirective.Schema
