import TransformDirective.Text.Character

namespace TransformDirective.Json

open TransformDirective.Text

/-- The characters written for one character of a text. -/
def escapeChar (c : Char) : List Char :=
  if c = '"' then ['\\', '"']
  else if c = '\\' then ['\\', '\\']
  else if c = '\x08' then ['\\', 'b']
  else if c = '\t' then ['\\', 't']
  else if c = '\n' then ['\\', 'n']
  else if c = '\x0c' then ['\\', 'f']
  else if c = '\r' then ['\\', 'r']
  else if c < ' ' then
    ['\\', 'u', '0', '0', Nat.digitChar (c.toNat / 16), Nat.digitChar (c.toNat % 16)]
  else [c]

def quote (text : String) : List Char := '"' :: text.toList.flatMap escapeChar ++ ['"']

/-- A piece of a string: a character, or a UTF-16 unit that was escaped. -/
inductive Piece where
  | char (c : Char)
  | unit (n : Nat)
  deriving DecidableEq, Repr

/-- Where a reader stands inside a string. -/
inductive StringState where
  | plain
  | escaped
  | hex (digits : List Char)
  deriving DecidableEq, Repr

def pushPiece (p : Piece) (r : List Piece × List Char) : List Piece × List Char := (p :: r.1, r.2)

/-- Takes the rest of a string and its closing quote. -/
def scanPieces? : StringState → List Char → Option (List Piece × List Char)
  | _, [] => none
  | .plain, c :: cs =>
    if c = '"' then some ([], cs)
    else if c = '\\' then scanPieces? .escaped cs
    else if c < ' ' then none
    else (scanPieces? .plain cs).map (pushPiece (.char c))
  | .escaped, c :: cs =>
    if c = 'u' then scanPieces? (.hex []) cs
    else match shortEscape? c with
      | some d => (scanPieces? .plain cs).map (pushPiece (.char d))
      | none => none
  | .hex ds, c :: cs =>
    if (hexDigit? c).isNone then none
    else if ds.length < 3 then scanPieces? (.hex (ds ++ [c])) cs
    else (scanPieces? .plain cs).map (pushPiece (.unit (hexValue (ds ++ [c]))))

/-- A unit in the first half of a surrogate pair. -/
def isHighSurrogate (n : Nat) : Bool := 0xD800 ≤ n && n < 0xDC00

/-- A unit in the second half of a surrogate pair. -/
def isLowSurrogate (n : Nat) : Bool := 0xDC00 ≤ n && n < 0xE000

def pairChar? (high low : Nat) : Option Char :=
  if isHighSurrogate high && isLowSurrogate low then
    scalar? (0x10000 + (high - 0xD800) * 0x400 + (low - 0xDC00))
  else none

/-- The text of pieces, unless half of a surrogate pair stands alone. -/
def piecesText? : List Piece → Option (List Char)
  | [] => some []
  | .char c :: ps => (piecesText? ps).map (c :: ·)
  | .unit n :: .unit m :: ps =>
    match pairChar? n m, scalar? n with
    | some c, _ => (piecesText? ps).map (c :: ·)
    | none, some c => (piecesText? (.unit m :: ps)).map (c :: ·)
    | none, none => none
  | .unit n :: ps =>
    match scalar? n with
    | some c => (piecesText? ps).map (c :: ·)
    | none => none

end TransformDirective.Json
