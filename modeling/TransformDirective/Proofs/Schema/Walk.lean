import TransformDirective.Schema.Reading

namespace TransformDirective.Schema

open TransformDirective.Text

/-- The place of a word, or of the end of the text. -/
def Tokens.spanOf (ts : Tokens) (t : Option Token) : Span := t.elim (.atCursor ts.stop) (·.span)

/-- What a walk goes over, and how deep it may call itself. -/
structure Walk.Scope where
  tokens : Tokens
  depth : Nat

/-- What is done with the words of a text from a position in them. The position is kept where the
walk fails; where it goes deeper than it may, there is no outcome. -/
abbrev Walk : Type → Type := ReaderT Walk.Scope (ExceptT RuleFault (StateT Nat Option))

namespace Walk

variable {α : Type}

/-- The answer and the position behind it. -/
def runFrom (walk : Walk α) (scope : Scope) (position : Nat) :
    Option (Except RuleFault α × Nat) :=
  (walk.run scope).run.run position

def endless : Walk α := fun _ _ => none

/-- A walk whose body may call it, each time with one less of the depth. -/
def within (body : Walk α → Walk α) : Nat → Walk α
  | 0 => endless
  | depth + 1 => body (within body depth)

/-- A walk whose body may call it as deep as the scope allows. -/
def recursive (body : Walk α → Walk α) : Walk α := do within body (← read).depth

def peek : Walk (Option Token) := do return (← read).tokens.words[← get]?

/-- The word at the position, which is passed; the end is not passed. -/
def next : Walk (Option Token) := do
  let t ← peek
  if t.isSome then modify (· + 1)
  return t

def fail (fault : Option Token → RuleFault) : Walk α := do throw (fault (← peek))

def expected (e : Expected) : Walk α := fail (.unexpected e)

def accept (test : Token → Bool) : Walk Bool := do
  if (← peek).any test then
    let _ ← next
    return true
  else return false

def punct (p : Punct) : Walk Unit := do
  if ← accept (Rule.isPunct p) then return () else expected (.punct p)

def keyword (k : String) : Walk Unit := do
  if ← accept (Rule.isKeyword k) then return () else expected (.keyword k)

def peekName : Walk (Option String) := do
  match ← peek with
  | some ⟨.name n, _⟩ => return some n
  | _ => return none

def name : Walk String := do
  match ← peekName with
  | some n =>
    let _ ← next
    return n
  | none => expected .name

def description : Walk Unit := do
  match ← peek with
  | some ⟨.string _, _⟩ =>
    let _ ← next
    return ()
  | _ => return ()

/-- The word in front of the position; at the start, the first word. -/
def lastWord : Walk (Option Token) := do
  if (← get) = 0 then peek else return (← read).tokens.words[(← get) - 1]?

/-- A node from the word at the position to the word in front of the position behind it. -/
def located (walk : Walk (Span → α)) : Walk α := do
  let first ← peek
  let node ← walk
  let last ← lastWord
  let ts := (← read).tokens
  return node ((ts.spanOf first).cover (ts.spanOf last))

/-- Items as long as the word at the position passes the test. -/
def repeatWhile (test : Token → Bool) (item : Walk α) : Walk (List α) := recursive fun loop => do
  if (← peek).any test then
    let a ← item
    let as ← loop
    return a :: as
  else return []

def itemsUntil (closing : Punct) (item : Walk α) : Walk (List α) := do
  let items ← repeatWhile (fun t => !Rule.isPunct closing t) item
  punct closing
  return items

def optionallyEnclosed (opening closing : Punct) (item : Walk α) : Walk (List α) := do
  if ← accept (Rule.isPunct opening) then itemsUntil closing item else return []

def separatedNames (separator : Punct) : Walk (List String) := do
  let _ ← accept (Rule.isPunct separator)
  let first ← name
  let more ← repeatWhile (Rule.isPunct separator) do
    punct separator
    name
  return first :: more

def namedType : Walk TypeRef := do
  match ← peekName with
  | some n =>
    let _ ← next
    return .named n
  | none => expected .typeRef

/-- The type without null if an exclamation mark is at the position, and else the type. -/
def bang (t : TypeRef) : Walk TypeRef := do
  if ← accept (Rule.isPunct .bang) then return .nonNull t else return t

/-- A list type behind its opening bracket, with an item that `typeRef` goes over. -/
def listType (typeRef : Walk TypeRef) : Walk TypeRef := do
  let item ← typeRef
  punct .bracketClose
  return .list item

def typeRef : Walk TypeRef := recursive fun typeRef => do
  if ← accept (Rule.isPunct .bracketOpen) then
    let t ← listType typeRef
    bang t
  else
    let t ← namedType
    bang t

def member (value : Walk Value) : Walk (String × Value) := do
  let key ← name
  punct .colon
  let v ← value
  return (key, v)

/-- A constant value. The word it starts with is passed even if it starts none. -/
def value : Walk Value := recursive fun value => do
  let t ← next
  match lexeme? t with
  | some (.int n) => return .int n
  | some (.float x) => return .float x
  | some (.string s) => return .string s
  | some (.name n) => return Rule.nameValue n
  | some (.punct .bracketOpen) =>
    let vs ← itemsUntil .bracketClose value
    return .list vs
  | some (.punct .braceOpen) =>
    let ms ← itemsUntil .braceClose (member value)
    return .object ms
  | some (.punct .dollar) => fail fun _ => .variableValue t
  | _ => fail fun _ => .unexpected .value t

def argument : Walk Argument := located do
  let n ← name
  punct .colon
  let v ← value
  return fun span => ⟨n, v, span⟩

def directive : Walk Directive := located do
  punct .at
  let n ← name
  let arguments ← optionallyEnclosed .parenOpen .parenClose argument
  return fun span => ⟨n, arguments, span⟩

def directives : Walk (List Directive) := repeatWhile (Rule.isPunct .at) directive

def defaultValue : Walk (Option Value) := do
  if ← accept (Rule.isPunct .equals) then return some (← value) else return none

def inputValue : Walk InputValue := do
  description
  located do
    let n ← name
    punct .colon
    let type ← typeRef
    let default ← defaultValue
    let ds ← directives
    return fun span => ⟨n, type, default, ds, span⟩

def field : Walk Field := do
  description
  located do
    let n ← name
    let arguments ← optionallyEnclosed .parenOpen .parenClose inputValue
    punct .colon
    let type ← typeRef
    let ds ← directives
    return fun span => ⟨n, arguments, type, ds, span⟩

def enumItem : Walk String := do
  description
  let n ← name
  let _ ← directives
  return n

def interfaces : Walk (List String) := do
  if ← accept (Rule.isKeyword "implements") then separatedNames .amp else return []

def typeBody (kind : TypeKind) : Walk (Span → Definition) := do
  let n ← name
  let is ← interfaces
  let ds ← directives
  let fields ← optionallyEnclosed .braceOpen .braceClose field
  return fun span => .type ⟨kind, n, is, ds, fields, span⟩

def inputBody : Walk (Span → Definition) := do
  let n ← name
  let ds ← directives
  let fields ← optionallyEnclosed .braceOpen .braceClose inputValue
  return fun span => .input ⟨n, ds, fields, span⟩

def enumBody : Walk (Span → Definition) := do
  let n ← name
  let ds ← directives
  let values ← optionallyEnclosed .braceOpen .braceClose enumItem
  return fun span => .enumeration ⟨n, ds, values, span⟩

def scalarBody : Walk (Span → Definition) := do
  let n ← name
  let ds ← directives
  return fun span => .scalar ⟨n, ds, span⟩

def directiveBody : Walk (Span → Definition) := do
  punct .at
  let n ← name
  let arguments ← optionallyEnclosed .parenOpen .parenClose inputValue
  let repeatable ← accept (Rule.isKeyword "repeatable")
  keyword "on"
  let locations ← separatedNames .pipe
  return fun span => .directive ⟨n, arguments, repeatable, locations, span⟩

def definitionBody? : String → Option (Walk (Span → Definition))
  | "type" => some (typeBody .object)
  | "interface" => some (typeBody .interface)
  | "input" => some inputBody
  | "enum" => some enumBody
  | "scalar" => some scalarBody
  | "directive" => some directiveBody
  | _ => none

def definition : Walk Definition := do
  description
  located do
    match (← peekName).bind definitionBody? with
    | some body =>
      let _ ← next
      body
    | none => expected .definition

def document : Walk Document := do
  return ⟨← repeatWhile (fun _ => true) definition⟩

end Walk

def Request.walk : Request → Walk Reading
  | typeRef => do return .typeRef (← Walk.typeRef)
  | document => do return .document (← Walk.document)

/-- All words of a text, and the position from which the next request is answered. -/
structure Walker where
  tokens : Tokens
  position : Nat
  deriving DecidableEq, Repr

/-- In front of all words. -/
def Tokens.walker (ts : Tokens) : Walker := ⟨ts, 0⟩

namespace Walker

/-- The words that are not passed yet. -/
def ahead (w : Walker) : Tokens := ⟨w.tokens.words.drop w.position, w.tokens.stop⟩

/-- The answer to a request, unless that goes deeper than allowed, and the walker behind it. -/
def answer (depth : Nat) (w : Walker) (q : Request) :
    Option (Except SyntaxError Reading × Walker) := do
  let (a, position) ← q.walk.runFrom ⟨w.tokens, depth⟩ w.position
  return (a.mapError (·.toError w.tokens.stop), { w with position })

/-- The answers to requests in order, also behind an error. -/
def answers (depth : Nat) (w : Walker) :
    List Request → Option (List (Except SyntaxError Reading) × Walker)
  | [] => some ([], w)
  | q :: qs => do
    let (a, w) ← w.answer depth q
    let (as, w) ← w.answers depth qs
    return (a :: as, w)

/-- The requests `qs` end with the answers `as`, which leave the walker `w'`: they do at every depth
above the number of words, so nothing goes round more often or calls itself deeper than that. -/
def Answered (w : Walker) (qs : List Request) (as : List (Except SyntaxError Reading))
    (w' : Walker) : Prop :=
  ∀ depth > w.tokens.words.length, w.answers depth qs = some (as, w')

end Walker

end TransformDirective.Schema
