import TransformDirective.Text.Character

namespace TransformDirective.Receiver

open TransformDirective.Text

/-- What stands before the next character: nothing that a dot could continue, an operand, or the
inside of a literal, perhaps behind a backslash. -/
inductive Mode where
  | chainStart
  | operand
  | literal (quote : Char) (escaped : Bool)
  deriving DecidableEq, Repr

/-- A character that opens and closes literals. -/
def isQuote (c : Char) : Bool := c == '\'' || c == '"'

def closing? : Char → Option Char
  | '(' => some ')'
  | '[' => some ']'
  | '{' => some '}'
  | _ => none

def opening? : Char → Option Char
  | ')' => some '('
  | ']' => some '['
  | '}' => some '{'
  | _ => none

def startsName (c : Char) : Bool := isAlphabetic c || c == '_'

def endsOperand (c : Char) : Bool :=
  isAlphanumeric c || c == '_' || c == '$' || c == '.' || (opening? c).isSome

namespace Mode

def next : Mode → Char → Mode
  | literal q true, _ => literal q false
  | literal q false, c =>
    if c = '\\' then literal q true else if c = q then operand else literal q false
  | _, c => if isQuote c then literal c false else if endsOperand c then operand else chainStart

/-- A dot here stands for the receiver. -/
def isReceiverDot (m : Mode) (c : Char) : Bool := m == chainStart && c == '.'

def after (m : Mode) (cs : List Char) : Mode := cs.foldl next m

@[simp] theorem after_nil (m : Mode) : m.after [] = m := rfl

@[simp] theorem after_cons (m : Mode) (c : Char) (cs : List Char) :
    m.after (c :: cs) = (m.next c).after cs := rfl

theorem after_append (m : Mode) (cs ds : List Char) :
    m.after (cs ++ ds) = (m.after cs).after ds := List.foldl_append

end Mode

/-- What a receiver dot becomes, by the text behind it. Before a name the dot stays to select a
member; before a digit it starts a decimal number, unless the expression starts with it. -/
def receiverDot (receiver : List Char) (first : Bool) : List Char → List Char
  | [] => receiver
  | c :: _ =>
    if startsName c then receiver ++ ['.']
    else if c.isDigit then (if first then receiver ++ ['.'] else ['.'])
    else receiver

/-- The expression read on from a mode, with the receiver written out. -/
def substituteFrom (receiver : List Char) : Bool → Mode → List Char → List Char
  | _, _, [] => []
  | first, m, c :: cs =>
    (if m.isReceiverDot c then receiverDot receiver first cs else [c]) ++
      substituteFrom receiver false (m.next c) cs

/-- The expression with the receiver written in front of every chain that starts with a dot. -/
def substitute (expression receiver : String) : String :=
  String.ofList (substituteFrom receiver.toList true .chainStart expression.toList)

/-- The verdict on an expression; an offset counts UTF-8 bytes. -/
inductive Balance where
  | balanced
  | unbalanced (offset : Nat)
  deriving DecidableEq, Repr

namespace Balance

def offset? : Balance → Option Nat
  | balanced => none
  | unbalanced n => some n

end Balance

/-- The brackets and quotes that are open, the innermost first, and the first closing bracket that
did not fit. -/
structure Nesting where
  opened : List (Char × Nat)
  mismatch : Option Nat
  deriving DecidableEq, Repr

namespace Nesting

def empty : Nesting := ⟨[], none⟩

def push (n : Nesting) (c : Char) (offset : Nat) : Nesting :=
  { n with opened := (c, offset) :: n.opened }

def pop (n : Nesting) : Nesting := { n with opened := n.opened.tail }

/-- A bracket closes what `expected` opened. What is open innermost counts as closed even if it
is something else. -/
def close (n : Nesting) (expected : Char) (offset : Nat) : Nesting :=
  if n.opened.head?.map (·.1) = some expected then n.pop
  else { n.pop with mismatch := n.mismatch <|> some offset }

/-- The nesting behind a character read in a mode. -/
def step (m : Mode) (n : Nesting) (offset : Nat) (c : Char) : Nesting :=
  match m with
  | .literal _ true => n
  | .literal q false => if c = q then n.pop else n
  | _ =>
    if isQuote c ∨ (closing? c).isSome then n.push c offset
    else match opening? c with
      | some o => n.close o offset
      | none => n

def after (n : Nesting) : Mode → Nat → List Char → Nesting
  | _, _, [] => n
  | m, offset, c :: cs => (n.step m offset c).after (m.next c) (offset + c.utf8Size) cs

/-- The verdict: the first bracket that did not fit, else the outermost one left open. -/
def balance (n : Nesting) : Balance :=
  match n.mismatch, n.opened.getLast? with
  | some offset, _ => .unbalanced offset
  | none, some o => .unbalanced o.2
  | none, none => .balanced

end Nesting

def balanceOf (cs : List Char) : Balance := (Nesting.empty.after .chainStart 0 cs).balance

def balance (expression : String) : Balance := balanceOf expression.toList

end TransformDirective.Receiver
