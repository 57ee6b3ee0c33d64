namespace TransformDirective

/-- What a parser answers: a value or a fault, and the symbols it left. -/
inductive Outcome (τ ε α : Type) where
  | ok (value : α) (rest : List τ)
  | error (fault : ε) (rest : List τ)

/-- A parser of `α` over symbols `τ` with faults `ε`. -/
def Parser (τ ε α : Type) : Type := List τ → Outcome τ ε α

namespace Outcome

variable {τ ε α : Type}

def rest : Outcome τ ε α → List τ
  | ok _ r => r
  | error _ r => r

def toExcept : Outcome τ ε α → Except ε α
  | ok a _ => .ok a
  | error e _ => .error e

end Outcome

namespace Parser

variable {τ ε α β : Type}

/-- Takes nothing. -/
def pure (a : α) : Parser τ ε α := fun s => .ok a s

/-- One parser, then another that may depend on the first one's value. -/
def bind (p : Parser τ ε α) (f : α → Parser τ ε β) : Parser τ ε β := fun s =>
  match p s with
  | .ok a r => f a r
  | .error e r => .error e r

instance : Monad (Parser τ ε) where
  pure := Parser.pure
  bind := Parser.bind

theorem pure_apply (a : α) (s : List τ) : (Pure.pure a : Parser τ ε α) s = .ok a s := rfl

theorem bind_apply (p : Parser τ ε α) (f : α → Parser τ ε β) (s : List τ) :
    (p >>= f) s = match p s with
      | .ok a r => f a r
      | .error e r => .error e r := rfl

/-- Fails at the next symbol, which is left. -/
def fail (fault : Option τ → ε) : Parser τ ε α := fun s => .error (fault s.head?) s

/-- The next symbol, which is left. -/
def peek : Parser τ ε (Option τ) := fun s => .ok s.head? s

/-- The next symbol, which is taken; nothing is taken at the end. -/
def next : Parser τ ε (Option τ) := fun s => .ok s.head? s.tail

/-- The values of an item up to the first time it gives none. An item that takes nothing is the
last one, so the repetition ends. -/
def collect (item : Parser τ ε (Option α)) : Parser τ ε (List α) := fun s =>
  match item s with
  | .error e r => .error e r
  | .ok none r => .ok [] r
  | .ok (some a) r =>
    if r.length < s.length then
      match collect item r with
      | .error e r => .error e r
      | .ok as r => .ok (a :: as) r
    else .ok [a] r
termination_by s => s.length

/-- One step of a repetition. -/
theorem collect_apply (item : Parser τ ε (Option α)) (s : List τ) :
    collect item s = match item s with
      | .error e r => .error e r
      | .ok none r => .ok [] r
      | .ok (some a) r =>
        if r.length < s.length then
          match collect item r with
          | .error e r => .error e r
          | .ok as r => .ok (a :: as) r
        else .ok [a] r := by
  rw [collect]

/-- As many items as follow each other while there is a next symbol that passes the test. -/
def repeatWhile (test : τ → Bool) (item : Parser τ ε α) : Parser τ ε (List α) :=
  collect do
    if (← peek).any test then return some (← item) else return none

/-- The symbols at the front that pass the test. -/
def takeWhile (test : τ → Bool) : Parser τ ε (List τ) := fun s =>
  .ok (s.takeWhile test) (s.dropWhile test)

/-- The parser that `step` describes in terms of itself. It may call itself only behind a symbol;
a call that has taken nothing fails with the given fault. -/
def recursive (fault : Option τ → ε) (step : Parser τ ε α → Parser τ ε α) : Parser τ ε α :=
  fun s => step (fun r => if r.length < s.length then recursive fault step r else fail fault r) s
termination_by s => s.length

/-- A parser described in terms of itself is its description, as far as it may call itself. -/
theorem recursive_apply (fault : Option τ → ε) (step : Parser τ ε α → Parser τ ε α)
    (s : List τ) :
    recursive fault step s =
      step (fun r => if r.length < s.length then recursive fault step r else fail fault r) s := by
  rw [recursive]

/-- The value together with the symbols it took. -/
def withTaken (p : Parser τ ε (List τ → α)) : Parser τ ε α := fun s =>
  match p s with
  | .ok f r => .ok (f (s.take (s.length - r.length))) r
  | .error e r => .error e r

end Parser

end TransformDirective

namespace TransformDirective.Text

/-- A parser over characters without a reason for failure. -/
abbrev Reader (α : Type) : Type := Parser Char Unit α

namespace Reader

variable {α : Type}

def fail : Reader α := Parser.fail fun _ => ()

def any : Reader Char := do
  match ← Parser.next with
  | some c => return c
  | none => fail

def satisfy (test : Char → Bool) : Reader Char := do
  let c ← any
  if test c then return c else fail

def char (c : Char) : Reader Unit := do
  let _ ← satisfy (· == c)
  return ()

def word : List Char → Reader Unit
  | [] => return ()
  | c :: cs => do
    char c
    word cs

def nextIs (c : Char) : Reader Bool := return (← Parser.peek) == some c

def startsWith (front : List Char) : Reader Bool := fun s => .ok (front.isPrefixOf s) s

def count : Nat → Reader α → Reader (List α)
  | 0, _ => return []
  | n + 1, r => return (← r) :: (← count n r)

def atEnd : Reader Bool := return (← Parser.peek).isNone

def readAll? (r : Reader α) (cs : List Char) : Option α :=
  match r cs with
  | .ok a [] => some a
  | _ => none

end Reader

end TransformDirective.Text
