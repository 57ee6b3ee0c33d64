import TransformDirective.Number.Numeral

namespace TransformDirective.Schema

open TransformDirective.Number

inductive Punct where
  | bang | dollar | amp | parenOpen | parenClose | spread | colon | equals | at
  | bracketOpen | bracketClose | braceOpen | braceClose | pipe
  deriving DecidableEq, Repr

namespace Punct

def text : Punct → String
  | bang => "!"
  | dollar => "$"
  | amp => "&"
  | parenOpen => "("
  | parenClose => ")"
  | spread => "..."
  | colon => ":"
  | equals => "="
  | «at» => "@"
  | bracketOpen => "["
  | bracketClose => "]"
  | braceOpen => "\x7b"
  | braceClose => "\x7d"
  | pipe => "|"

/-- The mark that is written as this one character. -/
def ofChar? (c : Char) : Option Punct :=
  [bang, dollar, amp, parenOpen, parenClose, colon, equals, «at», bracketOpen, bracketClose,
    braceOpen, braceClose, pipe].find? fun p => p.text.toList == [c]

end Punct

/-- A word of schema text with its meaning: strings are unescaped and dedented, numbers read. -/
inductive Lexeme where
  | name (text : String)
  | int (value : Int)
  | float (value : Binary64)
  | string (text : String)
  | punct (mark : Punct)
  deriving DecidableEq, Repr

namespace Lexeme

/-- What an error message calls the word. -/
def kindName : Lexeme → String
  | name _ => "name"
  | int _ => "integer"
  | float _ => "float"
  | string _ => "string"
  | punct p => p.text

end Lexeme

/-- Why a text is not made of words. -/
inductive LexFault where
  | unexpectedChar (c : Char)
  | unterminatedString
  | invalidEscape (c : Char)
  | shortUnicodeEscape
  | surrogateEscape (hex : List Char)
  | invalidNumber (text : List Char)
  deriving DecidableEq, Repr

namespace LexFault

def message : LexFault → String
  | unexpectedChar c => s!"unexpected character '{c}'"
  | unterminatedString => "unterminated string"
  | invalidEscape c => s!"invalid escape sequence '\\{c}'"
  | shortUnicodeEscape => "invalid unicode escape"
  | surrogateEscape hex => "invalid unicode escape '\\u" ++ String.ofList hex ++ "'"
  | invalidNumber text => "invalid number '" ++ String.ofList text ++ "'"

end LexFault

end TransformDirective.Schema
