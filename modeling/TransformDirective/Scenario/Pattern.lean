namespace TransformDirective.Scenario

abbrev CharRanges : Type := List (Char × Char)

namespace CharRanges

def contains (rs : CharRanges) (c : Char) : Bool := rs.any fun r => r.1 ≤ c && c ≤ r.2

end CharRanges

/-- An item of a class: a character, a range of them, or a set with a name, or all but this set. -/
inductive ClassItem where
  | char (c : Char)
  | range (first last : Char)
  | named (negated : Bool) (set : CharRanges)
  deriving DecidableEq, Repr

namespace ClassItem

def contains : ClassItem → Char → Bool
  | char a, c => a == c
  | range a b, c => a ≤ c && c ≤ b
  | named negated set, c => negated != set.contains c

end ClassItem

/-- Some characters: those in an item, or all others. -/
structure CharClass where
  negated : Bool
  items : List ClassItem
  deriving DecidableEq, Repr

namespace CharClass

def ofItem (item : ClassItem) : CharClass := ⟨false, [item]⟩

def contains (k : CharClass) (c : Char) : Bool := k.negated != k.items.any (·.contains c)

end CharClass

/-- What can be asked of the place between two characters. -/
inductive Edge where
  | textStart
  | textEnd
  | wordStart
  | wordEnd
  deriving DecidableEq, Repr

namespace Edge

/-- An ASCII letter, a digit or an underscore. -/
def isWordChar (c : Char) : Bool := c.isAlphanum || c == '_'

/-- The place between two characters is such an edge; a missing character is an end of the text. -/
def holds (before next : Option Char) : Edge → Bool
  | textStart => before.isNone
  | textEnd => next.isNone
  | wordStart => !before.any isWordChar && next.any isWordChar
  | wordEnd => before.any isWordChar && !next.any isWordChar

end Edge

/-- A piece of a pattern: an edge, one character, or any number of them. -/
inductive PatternPiece where
  | edge (e : Edge)
  | one (chars : CharClass)
  | many (chars : CharClass)
  deriving DecidableEq, Repr

/-- A pattern: pieces that follow each other. -/
abbrev Pattern : Type := List PatternPiece

namespace Pattern

/-- The pattern fits the front of a text that goes on behind `before`. -/
inductive Fits : Pattern → Option Char → List Char → Prop where
  | nil {before : Option Char} {cs : List Char} : Fits [] before cs
  | edge {e : Edge} {ps : Pattern} {before : Option Char} {cs : List Char}
      (h : e.holds before cs.head? = true) (rest : Fits ps before cs) :
      Fits (.edge e :: ps) before cs
  | one {k : CharClass} {ps : Pattern} {before : Option Char} {c : Char} {cs : List Char}
      (h : k.contains c = true) (rest : Fits ps (some c) cs) : Fits (.one k :: ps) before (c :: cs)
  | stop {k : CharClass} {ps : Pattern} {before : Option Char} {cs : List Char}
      (rest : Fits ps before cs) : Fits (.many k :: ps) before cs
  | more {k : CharClass} {ps : Pattern} {before : Option Char} {c : Char} {cs : List Char}
      (h : k.contains c = true) (rest : Fits (.many k :: ps) (some c) cs) :
      Fits (.many k :: ps) before (c :: cs)

/-- For a pattern and each of its tails, whether it fits between `before` and `next`, when
`further` tells the same for one character further on. -/
def fitRow (before next : Option Char) : Pattern → List Bool → List Bool
  | [], _ => [true]
  | p :: ps, further =>
    let rest := fitRow before next ps further.tail
    let here := match p with
      | .edge e => e.holds before next && rest.headD false
      | .one k => next.any k.contains && further.tail.headD false
      | .many k => rest.headD false || (next.any k.contains && further.headD false)
    here :: rest

/-- For a pattern and each of its tails, whether it fits the front of a text. -/
def fits (p : Pattern) : Option Char → List Char → List Bool
  | before, [] => fitRow before none p []
  | before, c :: cs => fitRow before (some c) p (fits p (some c) cs)

/-- Whether the pattern fits somewhere in a text, with the row for the front of the text. -/
def search (p : Pattern) : Option Char → List Char → Bool × List Bool
  | before, [] =>
    let row := fitRow before none p []
    (row.headD false, row)
  | before, c :: cs =>
    let further := search p (some c) cs
    let row := fitRow before (some c) p further.2
    (row.headD false || further.1, row)

/-- The search finds the pattern in a text. -/
def isMatch (p : Pattern) (text : String) : Bool := (search p none text.toList).1

/-- The pattern fits somewhere in a text. -/
def FoundIn (p : Pattern) (text : String) : Prop :=
  ∃ front back, text.toList = front ++ back ∧ Fits p front.getLast? back

theorem fits_tail (p : PatternPiece) (ps : Pattern) (before : Option Char) (cs : List Char) :
    (fits (p :: ps) before cs).tail = fits ps before cs := by
  induction cs generalizing before with
  | nil => simp [fits, fitRow]
  | cons c cs ih => simp [fits, fitRow, ih]

/-- The first entry of the row tells whether the pattern fits. -/
theorem headD_fits_iff (p : Pattern) (before : Option Char) (cs : List Char) :
    (fits p before cs).headD false = true ↔ Fits p before cs := by
  induction p generalizing before cs with
  | nil => exact ⟨fun _ => .nil, fun _ => by cases cs <;> simp [fits, fitRow]⟩
  | cons p ps ihp =>
    induction cs generalizing before with
    | nil =>
      have hrow := ihp before []
      simp only [fits] at hrow
      cases p with
      | edge e =>
        simp only [fits, fitRow, List.headD_cons, Bool.and_eq_true, List.tail_nil, hrow]
        exact ⟨fun h => .edge h.1 h.2, fun | .edge h rest => ⟨h, rest⟩⟩
      | one k => simp only [fits, fitRow, List.headD_cons]; exact ⟨by simp, nofun⟩
      | many k =>
        simp only [fits, fitRow, List.headD_cons, Bool.or_eq_true, List.tail_nil, hrow]
        exact ⟨fun h => .stop (by simpa using h), fun | .stop rest => .inl rest⟩
    | cons c cs ihc =>
      have hrow := ihp before (c :: cs)
      simp only [fits] at hrow
      cases p with
      | edge e =>
        simp only [fits, fitRow, List.headD_cons, Bool.and_eq_true, fits_tail, hrow]
        exact ⟨fun h => .edge h.1 h.2, fun | .edge h rest => ⟨h, rest⟩⟩
      | one k =>
        simp only [fits, fitRow, List.headD_cons, Bool.and_eq_true, fits_tail, ihp,
          Option.any_some]
        exact ⟨fun h => .one h.1 h.2, fun | .one h rest => ⟨h, rest⟩⟩
      | many k =>
        simp only [fits, fitRow, List.headD_cons, Bool.or_eq_true, Bool.and_eq_true, fits_tail,
          hrow, ihc, Option.any_some]
        exact ⟨fun | .inl h => .stop h | .inr h => .more h.1 h.2,
          fun | .stop rest => .inl rest | .more h rest => .inr ⟨h, rest⟩⟩

/-- The search keeps the row for the front of the text, so it looks at every character once. -/
theorem search_row (p : Pattern) (before : Option Char) (cs : List Char) :
    (search p before cs).2 = fits p before cs := by
  induction cs generalizing before with
  | nil => rfl
  | cons c cs ih => simp [search, fits, ih]

/-- The search finds a pattern exactly if it fits some tail of the text. -/
theorem search_iff (p : Pattern) (before : Option Char) (cs : List Char) :
    (search p before cs).1 = true ↔
      ∃ front back, cs = front ++ back ∧ Fits p (front.getLast?.or before) back := by
  induction cs generalizing before with
  | nil =>
    have h := headD_fits_iff p before []
    simp only [fits] at h
    simp only [search, h]
    constructor
    · exact fun hf => ⟨[], [], rfl, hf⟩
    · rintro ⟨front, back, he, hf⟩
      obtain ⟨rfl, rfl⟩ := List.append_eq_nil_iff.mp he.symm
      exact hf
  | cons c cs ih =>
    have h := headD_fits_iff p before (c :: cs)
    simp only [fits] at h
    simp only [search, search_row, Bool.or_eq_true, h, ih]
    constructor
    · rintro (hf | ⟨front, back, rfl, hf⟩)
      · exact ⟨[], _, rfl, hf⟩
      · refine ⟨c :: front, back, rfl, ?_⟩
        cases front <;> simpa [List.getLast?_cons] using hf
    · rintro ⟨front, back, he, hf⟩
      cases front with
      | nil =>
        rw [List.nil_append] at he
        exact .inl (he ▸ hf)
      | cons d front =>
        obtain ⟨rfl, rfl⟩ := List.cons_eq_cons.mp he
        refine .inr ⟨front, back, rfl, ?_⟩
        cases front <;> simpa [List.getLast?_cons] using hf

/-- The search, which looks at every character once, finds a pattern exactly if it fits
somewhere. -/
theorem isMatch_iff (p : Pattern) (text : String) : p.isMatch text = true ↔ p.FoundIn text := by
  simpa [isMatch, FoundIn] using search_iff p none text.toList

end Pattern

end TransformDirective.Scenario
