import TransformDirective.Config.Settings
import TransformDirective.Receiver.Expression
import TransformDirective.Schema.Document
import TransformDirective.Template.Block

namespace TransformDirective.Usage

open TransformDirective.Config TransformDirective.Receiver TransformDirective.Schema
open TransformDirective.Template

/-- The definition of the directive for those who register it. -/
def directiveDefinition : String :=
  "directive @transform(expression: String!, foreach: Boolean = false, always: Boolean = false) " ++
    "on FIELD_DEFINITION"

/-- An expression, whether it applies to every entry of a list, and whether it applies to null. -/
structure Arguments where
  expression : String
  foreach : Bool
  always : Bool
  deriving DecidableEq, Repr

inductive ArgumentFault where
  | unknown (argument : String)
  | missing (argument : String)
  | wrongKind (argument expected found : String)
  deriving DecidableEq, Repr

namespace Arguments

def names : List String := ["expression", "foreach", "always"]

def unknown? (d : Directive) : Option String :=
  (d.arguments.find? fun a => !names.contains a.name).map (·.name)

/-- The expression, which has to be given as a string. -/
def readExpression (d : Directive) : Except ArgumentFault String :=
  match d.argument? "expression" with
  | some (.string s) => .ok s
  | some v => .error (.wrongKind "expression" "String" v.kindName)
  | none => .error (.missing "expression")

/-- A flag, which is off when it is absent or null. -/
def readFlag (d : Directive) (name : String) : Except ArgumentFault Bool :=
  match d.argument? name with
  | none | some .null => .ok false
  | some (.bool b) => .ok b
  | some v => .error (.wrongKind name "Boolean" v.kindName)

def read (d : Directive) : Except ArgumentFault Arguments :=
  match unknown? d with
  | some name => .error (.unknown name)
  | none => do
    let expression ← readExpression d
    let foreach ← readFlag d "foreach"
    let always ← readFlag d "always"
    return ⟨expression, foreach, always⟩

end Arguments

/-- The characters on one line: line breaks are written as escapes. -/
def singleLine (cs : List Char) : List Char :=
  cs.flatMap fun c => if c = '\r' then ['\\', 'r'] else if c = '\n' then ['\\', 'n'] else [c]

/-- The header of the block for a field. -/
def Arguments.header (a : Arguments) (fieldName : String) : String :=
  headerStart ++ fieldName ++ "\" (" ++ String.ofList (singleLine a.expression.toList) ++
    ", foreach=" ++ toString a.foreach ++ ", always=" ++ toString a.always ++ ")"

def valuePath (settings : Settings) (fieldName : String) : String :=
  settings.inputRoot ++ "." ++ fieldName

/-- The reference to the entry that a loop is at. -/
def entryPath (settings : Settings) : String := "$" ++ settings.entryVar

def putCall (settings : Settings) (fieldName expression : String) : String :=
  settings.inputRoot ++ ".put(" ++ quoted fieldName ++ ", " ++ expression ++ ")"

/-- The call that replaces the entry a loop is at by the value of an expression. -/
def setCall (settings : Settings) (fieldName expression : String) : String :=
  valuePath settings fieldName ++ ".set($foreach.index, " ++ expression ++ ")"

/-- The statement without a guard. -/
def assignment (settings : Settings) (fieldName : String) (a : Arguments) : Tree :=
  let value := valuePath settings fieldName
  if a.foreach then
    .loop settings.entryVar value
      [.call (setCall settings fieldName (substitute a.expression (entryPath settings)))]
  else .call (putCall settings fieldName (substitute a.expression value))

/-- The statement; unless it is always wanted, it is guarded against null. -/
def statement (settings : Settings) (fieldName : String) (a : Arguments) : Tree :=
  if a.always then assignment settings fieldName a
  else
    .guarded (.negation ("$util.isNull(" ++ valuePath settings fieldName ++ ")"))
      (assignment settings fieldName a)

/-- A block was written for an expression whose brackets are not balanced. -/
structure Warning where
  typeName : String
  fieldName : String
  expression : String
  offset : Nat
  deriving DecidableEq, Repr

def Warning.message (_ : Warning) : String :=
  "unbalanced brackets in transform expression; emitting it unchanged"

/-- The warning that an expression gives rise to. -/
def warning? (typeName fieldName : String) (a : Arguments) : Option Warning :=
  (balance a.expression).offset?.map (⟨typeName, fieldName, a.expression, ·⟩)

end TransformDirective.Usage
