import TransformDirective.Text.Character

namespace TransformDirective.Text

def isBlankLine (line : List Char) : Bool := line.all isBlank

def dropEndWhile (p : Char → Bool) (cs : List Char) : List Char :=
  (cs.reverse.dropWhile p).reverse

def trim (cs : List Char) : List Char := dropEndWhile isBlank (cs.dropWhile isBlank)

/-- The pieces between line feeds; a text without one is a single line. -/
def splitLines : List Char → List (List Char)
  | [] => [[]]
  | c :: cs =>
    if c = '\n' then [] :: splitLines cs
    else match splitLines cs with
      | [] => [[c]]
      | l :: ls => (c :: l) :: ls

def joinLines (ls : List (List Char)) : List Char := List.intercalate ['\n'] ls

theorem splitLines_ne_nil (cs : List Char) : splitLines cs ≠ [] := by
  cases cs with
  | nil => simp [splitLines]
  | cons c cs => unfold splitLines; split <;> (try split) <;> simp

/-- Splitting loses nothing. -/
theorem joinLines_splitLines (cs : List Char) : joinLines (splitLines cs) = cs := by
  induction cs with
  | nil => rfl
  | cons c cs ih =>
    unfold splitLines
    split
    · next h =>
      subst h
      cases hs : splitLines cs with
      | nil => exact absurd hs (splitLines_ne_nil cs)
      | cons l ls => rw [hs] at ih; simp [joinLines, List.intercalate, ← ih]
    · split
      · next hs => exact absurd hs (splitLines_ne_nil cs)
      · next l ls hs =>
        rw [hs] at ih
        rw [← ih]
        cases ls <;> simp [joinLines, List.intercalate]

/-- The lines of a text that need not end in a line feed; a carriage return before a line feed
belongs to the line end. -/
def textLines (cs : List Char) : List (List Char) :=
  let ls := splitLines cs
  let ended := ls.dropLast.map fun l => if l.getLast? = some '\r' then l.dropLast else l
  match ls.getLast? with
  | some (c :: l) => ended ++ [c :: l]
  | _ => ended

def dropBlankEnds (ls : List (List Char)) : List (List Char) :=
  ((ls.dropWhile isBlankLine).reverse.dropWhile isBlankLine).reverse

end TransformDirective.Text
