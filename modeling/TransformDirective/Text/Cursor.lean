namespace TransformDirective.Text

/-- A place between two characters of a text. -/
structure Cursor where
  offset : Nat
  line : Nat
  column : Nat
  deriving DecidableEq, Repr

namespace Cursor

def start : Cursor := ⟨0, 1, 1⟩

def step (p : Cursor) (c : Char) : Cursor :=
  if c = '\n' then ⟨p.offset + c.utf8Size, p.line + 1, 1⟩
  else ⟨p.offset + c.utf8Size, p.line, p.column + 1⟩

def advance (p : Cursor) (cs : List Char) : Cursor := cs.foldl step p

@[simp] theorem advance_nil (p : Cursor) : p.advance [] = p := rfl

@[simp] theorem advance_cons (p : Cursor) (c : Char) (cs : List Char) :
    p.advance (c :: cs) = (p.step c).advance cs := rfl

theorem advance_append (p : Cursor) (cs ds : List Char) :
    p.advance (cs ++ ds) = (p.advance cs).advance ds := List.foldl_append

theorem offset_step (p : Cursor) (c : Char) : (p.step c).offset = p.offset + c.utf8Size := by
  unfold step; split <;> rfl

theorem line_step (p : Cursor) (c : Char) :
    (p.step c).line = p.line + if c = '\n' then 1 else 0 := by
  unfold step; split <;> rfl

/-- The line is one more than before for every line feed passed. -/
theorem line_advance (p : Cursor) (cs : List Char) :
    (p.advance cs).line = p.line + cs.count '\n' := by
  induction cs generalizing p with
  | nil => rfl
  | cons c cs ih =>
    rw [advance_cons, ih, line_step, List.count_cons]
    simp only [beq_iff_eq]
    omega

end Cursor

/-- A stretch of a text: its bytes, and the line and column of its start. -/
structure Span where
  start : Nat
  stop : Nat
  line : Nat
  column : Nat
  deriving DecidableEq, Repr

namespace Span

/-- The stretch from one place to a later one. -/
def between (p q : Cursor) : Span := ⟨p.offset, q.offset, p.line, p.column⟩

def atCursor (p : Cursor) : Span := between p p

/-- The stretch from the start of the first to the end of the second. -/
def cover (first last : Span) : Span := { first with stop := last.stop }

end Span

/-- A value read from the front of a text, the characters it took and the characters it left. -/
structure Scan (α : Type) where
  value : α
  text : List Char
  rest : List Char

namespace Scan

variable {α β : Type}

def cons (c : Char) (s : Scan α) : Scan α := { s with text := c :: s.text }

def map (f : α → β) (s : Scan α) : Scan β := { s with value := f s.value }

/-- The scan split this very text. -/
def Splits (s : Scan α) (input : List Char) : Prop := s.text ++ s.rest = input

theorem splits_cons {s : Scan α} {input : List Char} (h : s.Splits input) (c : Char) :
    (s.cons c).Splits (c :: input) := congrArg (c :: ·) h

end Scan

end TransformDirective.Text
