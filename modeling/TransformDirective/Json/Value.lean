import TransformDirective.Json.Text
import TransformDirective.Number.Numeral
import TransformDirective.Parser

namespace TransformDirective.Json

open TransformDirective.Text TransformDirective.Number

/-- A JSON value. A string whose escapes leave half of a surrogate pair alone has no text. -/
inductive Value where
  | null
  | bool (value : Bool)
  | number (numeral : Numeral)
  | string (text : Option String)
  | array (items : List Value)
  | object (members : List (Option String × Value))
  deriving Repr

/-- White space between the words of JSON. -/
def isSpace (c : Char) : Bool := c == ' ' || c == '\t' || c == '\n' || c == '\r'

def spaces : Reader Unit := do
  let _ ← Parser.takeWhile isSpace
  return ()

/-- Takes a string behind its opening quote. -/
def stringBody : Reader (Option String) := fun s =>
  match scanPieces? .plain s with
  | some r => .ok ((piecesText? r.1).map String.ofList) r.2
  | none => .error () s

/-- The numeral is a JSON number: no part lacks digits and no zero leads. -/
def isNumber (n : Numeral) : Bool :=
  n.whole ≠ [] && (n.whole.length == 1 || n.whole.head? ≠ some '0') &&
    n.fraction.all (· ≠ []) && n.exponent.all (·.digits ≠ [])

def number : Reader Numeral
  | [] => .error () []
  | c :: cs =>
    let n := Numeral.take c cs
    if (c = '-' ∨ c.isDigit) ∧ isNumber n.1 then .ok n.1 n.2 else .error () (c :: cs)

/-- Takes items with commas between them, and the closing bracket. -/
def itemsUntil {α : Type} (closing : Char) (item : Reader α) : Reader (List α) := do
  spaces
  if ← Reader.nextIs closing then
    Reader.char closing
    return []
  else
    let first ← item
    let more ← Parser.collect do
      spaces
      if ← Reader.nextIs ',' then
        Reader.char ','
        return some (← item)
      else return none
    spaces
    Reader.char closing
    return first :: more

def member (value : Reader Value) : Reader (Option String × Value) := do
  spaces
  Reader.char '"'
  let name ← stringBody
  spaces
  Reader.char ':'
  return (name, ← value)

/-- Takes a value and the white space in front of it. -/
def value : Reader Value :=
  Parser.recursive (fun _ => ()) fun inner => do
    spaces
    match ← Parser.peek with
    | some '{' =>
      Reader.char '{'
      return .object (← itemsUntil '}' (member inner))
    | some '[' =>
      Reader.char '['
      return .array (← itemsUntil ']' inner)
    | some '"' =>
      Reader.char '"'
      return .string (← stringBody)
    | some 'n' =>
      Reader.word "null".toList
      return .null
    | some 't' =>
      Reader.word "true".toList
      return .bool true
    | some 'f' =>
      Reader.word "false".toList
      return .bool false
    | _ => return .number (← number)

/-- Takes a value and the white space around it. -/
def document : Reader Value := do
  let v ← value
  spaces
  return v

def parse? (source : String) : Option Value := document.readAll? source.toList

namespace Value

def text? : Value → Option String
  | string t => t
  | _ => none

def membersNamed (name : String) (ms : List (Option String × Value)) : List Value :=
  (ms.filter (·.1 == some name)).map (·.2)

/-- The fields of a record with these names, each if it is there. A record is an object whose member
names are texts and in which no field repeats, or an array of the fields in order, where fields at
the end may be left out. -/
def fields? (names : List String) : Value → Option (List (Option Value))
  | object ms =>
    if ms.all (·.1.isSome) ∧ names.all fun n => (membersNamed n ms).length ≤ 1 then
      some (names.map fun n => (membersNamed n ms).head?)
    else none
  | array vs =>
    if vs.length ≤ names.length then
      some (vs.map some ++ List.replicate (names.length - vs.length) none)
    else none
  | _ => none

end Value

end TransformDirective.Json
