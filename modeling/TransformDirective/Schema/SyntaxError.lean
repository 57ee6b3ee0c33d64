import TransformDirective.Text.Cursor
import TransformDirective.Schema.Lexeme

namespace TransformDirective.Schema

open TransformDirective.Text

/-- What the grammar asks for at a place. -/
inductive Expected where
  | name
  | typeRef
  | value
  | definition
  | keyword (text : String)
  | punct (mark : Punct)
  | endOfInput
  deriving DecidableEq, Repr

namespace Expected

def text : Expected → String
  | name => "name"
  | typeRef => "type"
  | value => "value"
  | definition => "definition (type, interface, input, enum, scalar, or directive)"
  | keyword k => k
  | punct p => p.text
  | endOfInput => "end of input"

end Expected

/-- What a message calls the word that was found; `none` is the end of the text. -/
def foundText : Option Lexeme → String
  | none => "end of input"
  | some x => x.kindName

inductive Cause where
  | lexical (fault : LexFault)
  | unexpected (expected : Expected) (found : Option Lexeme)
  | variableValue
  deriving DecidableEq, Repr

namespace Cause

def message : Cause → String
  | lexical f => f.message
  | unexpected e f => s!"expected {e.text}, found {foundText f}"
  | variableValue => "variables are not allowed in schema definitions"

/-- What was expected, for errors of the grammar. -/
def expected? : Cause → Option String
  | unexpected e _ => some e.text
  | _ => none

/-- What was found, for errors of the grammar. -/
def found? : Cause → Option String
  | unexpected _ f => some (foundText f)
  | _ => none

end Cause

structure SyntaxError where
  cause : Cause
  span : Span
  deriving DecidableEq, Repr

def SyntaxError.message (e : SyntaxError) : String :=
  s!"Parse error at line {e.span.line}, column {e.span.column}: {e.cause.message}"

end TransformDirective.Schema
