import TransformDirective.Compile.Transform
import TransformDirective.Text.Printable

namespace TransformDirective.Scenario

open TransformDirective.Text TransformDirective.Resolver TransformDirective.Compile

/-- What a step that succeeded leaves behind. -/
structure Achieved where
  report : Report
  store : Store

/-- A check of the request template of one resolver. -/
inductive RequestCheck where
  | equals (text : String)
  | startsWith (text : String)
  | contains (text : String)
  | fits (pattern : String)
  | blockOrder (fields : List String)
  | absent
  deriving DecidableEq, Repr

/-- Everything expected of a step: counts, requests, the text or pattern of an error, and a test of
one's own. -/
structure Expectation where
  seeded : Option Nat
  transforms : Option Nat
  resources : Option Nat
  requests : List (Key × RequestCheck)
  error : Option String
  errorPattern : Option String
  custom : Option (Achieved → Bool)

def hexDigits (c : Char) : List Char := Nat.toDigits 16 c.toNat

/-- A halfwidth sound mark takes a cell of its own, though it extends the character in front. -/
def isSoundMark (c : Char) : Bool := c == '\uff9e' || c == '\uff9f'

/-- A character is shown as it is if it has a shape of its own that stands apart. -/
def standsAlone (c : Char) : Bool :=
  isPrintable c && !isDefaultIgnorable c && (!isGraphemeExtend c || isSoundMark c)

/-- The characters that show one character of a text. -/
def shownChar (c : Char) : List Char :=
  if c = '"' then ['\\', '"']
  else if c = '\\' then ['\\', '\\']
  else if c = '\n' then ['\\', 'n']
  else if c = '\r' then ['\\', 'r']
  else if c = '\t' then ['\\', 't']
  else if c = '\x00' then ['\\', '0']
  else if standsAlone c then [c]
  else ['\\', 'u', '{'] ++ hexDigits c ++ ['}']

/-- A text in quotes, with what cannot be seen escaped. -/
def shownText (s : String) : String :=
  String.ofList ('"' :: s.toList.flatMap shownChar ++ ['"'])

def shownList (items : List String) : String := "[" ++ ", ".intercalate items ++ "]"

def shownOption {α : Type} (shown : α → String) : Option α → String
  | some a => "Some(" ++ shown a ++ ")"
  | none => "None"

def shownRecord (name : String) (fields : List (String × String)) : String :=
  name ++ " \x7b " ++ ", ".intercalate (fields.map fun f => f.1 ++ ": " ++ f.2) ++ " \x7d"

def RequestCheck.shown : RequestCheck → String
  | equals t => "Equals(" ++ shownText t ++ ")"
  | startsWith t => "StartsWith(" ++ shownText t ++ ")"
  | contains t => "Contains(" ++ shownText t ++ ")"
  | fits p => "Matches(" ++ shownText p ++ ")"
  | blockOrder fs => "BlockOrder(" ++ shownList (fs.map shownText) ++ ")"
  | absent => "Absent"

def shownKey (k : Key) : String :=
  shownRecord "ResourceKey" [("type_name", shownText k.typeName), ("kind", k.kind.name)]

/-- The expectations with all their fields; a test of one's own is shown as such. -/
def Expectation.shown (e : Expectation) : String :=
  shownRecord "Assertion"
    [("seeded", shownOption toString e.seeded), ("transforms", shownOption toString e.transforms),
      ("resources", shownOption toString e.resources),
      ("requests", shownList (e.requests.map fun r =>
        "(" ++ shownKey r.1 ++ ", " ++ r.2.shown ++ ")")),
      ("error", shownOption shownText e.error),
      ("error_pattern", shownOption shownText e.errorPattern),
      ("custom", shownOption (fun _ => shownText "<fn>") e.custom)]

end TransformDirective.Scenario
