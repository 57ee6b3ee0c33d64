import TransformDirective.Template.Tree

namespace TransformDirective.Template.Tree

def OneLine (text : String) : Prop := '\n' ∉ text.toList

instance (text : String) : Decidable (OneLine text) :=
  inferInstanceAs (Decidable ('\n' ∉ text.toList))

/-- What the lines of guarded trees, loops and calls start with. -/
def marks : List String := ["#if( ", "#foreach( $", "$util.qr("]

/-- A tree that is written line by line: its guards are conditions, and none of its lines of text
could be the first line of another tree or the last line of a body. -/
inductive Legible : Tree → Prop
  | guarded {condition : String} {body : Tree} (line : OneLine condition) (inner : Legible body) :
      Legible (.guarded (.raw condition) body)
  | loop {v c : String} {body : List Tree} (var : OneLine v) (word : ' ' ∉ v.toList)
      (collection : OneLine c) (items : ∀ t ∈ body, Legible t) : Legible (.loop v c body)
  | call {t : String} (line : OneLine t) : Legible (.call t)
  | raw {t : String} (line : OneLine t) (notEnd : t ≠ "#end")
      (notMarked : ∀ m ∈ marks, ¬ m.toList <+: t.toList) : Legible (.raw t)

section Lines

variable {indent level : Nat}

def endLine (indent level : Nat) : String := padding indent level ++ "#end"

theorem lines_guarded (condition : String) (body : Tree) :
    (guarded (raw condition) body).lines indent level =
      (padding indent level ++ ("#if( " ++ (condition ++ " )"))) ::
        (body.lines indent (level + 1) ++ [endLine indent level]) := by
  have plain : " ".intercalate ((raw condition).lines indent 0) = condition := by
    simp [lines, padding]
  rw [lines, plain]
  simp [endLine, String.append_assoc]

theorem lines_loop (v c : String) (body : List Tree) :
    (loop v c body).lines indent level =
      (padding indent level ++ ("#foreach( $" ++ (v ++ (" in " ++ (c ++ " )"))))) ::
        (linesOfAll indent (level + 1) body ++ [endLine indent level]) := by
  rw [lines]
  simp [endLine, String.append_assoc]

theorem lines_call (t : String) :
    (call t).lines indent level = [padding indent level ++ ("$util.qr(" ++ (t ++ ")"))] := by
  rw [lines]
  simp [String.append_assoc]

theorem lines_raw (t : String) : (raw t).lines indent level = [padding indent level ++ t] := by
  rw [lines]

/-- A line of a body is never the closing one: it is one level deeper, and if a level has no width
it still has another text. -/
theorem endLine_ne {front : String} (h : front ≠ "#end") :
    endLine indent level ≠ padding indent (level + 1) ++ front := by
  intro same
  have deeper : padding indent (level + 1) =
      padding indent level ++ String.ofList (List.replicate indent ' ') := by
    rw [padding, padding, ← String.ofList_append, List.replicate_append_replicate, Nat.mul_succ]
  rw [endLine, deeper, String.append_assoc, String.append_right_inj] at same
  cases indent with
  | zero => exact h (by simpa using same.symm)
  | succ n =>
    have chars := congrArg String.toList same
    simp [List.replicate_succ] at chars

end Lines

section Kinds

variable {indent level : Nat} {t u : Tree}

/-- What the first line of a tree starts with, if it is not a line of text. -/
def mark? : Tree → Option String
  | guarded _ _ => some "#if( "
  | loop _ _ _ => some "#foreach( $"
  | call _ => some "$util.qr("
  | raw _ => none

/-- The first line of a tree says of which kind it is. -/
theorem mark_unique {m n rest : String} (hm : m ∈ marks) (hn : n ∈ marks)
    (h : m.toList <+: (n ++ rest).toList) : n = m := by
  simp only [marks, List.mem_cons, List.not_mem_nil, or_false] at hm hn
  obtain rfl | rfl | rfl := hm <;> obtain rfl | rfl | rfl := hn <;> simp at h ⊢

/-- A line that starts a tree does not close one. -/
theorem ne_end_of_mark {m : String} (hm : m ∈ marks) (rest : String) : m ++ rest ≠ "#end" := by
  intro same
  have chars := congrArg String.toList same
  simp only [marks, List.mem_cons, List.not_mem_nil, or_false] at hm
  obtain rfl | rfl | rfl := hm <;> simp at chars

/-- The first line of a tree is not a closing one, and it tells the kind of the tree. -/
theorem Legible.first_line (h : t.Legible) (indent level : Nat) : ∃ front more,
    t.lines indent level = (padding indent level ++ front) :: more ∧ front ≠ "#end" ∧
      ∀ m ∈ marks, m.toList <+: front.toList ↔ t.mark? = some m := by
  have marked {m rest : String} (hm : m ∈ marks) :
      m ++ rest ≠ "#end" ∧ ∀ n ∈ marks, n.toList <+: (m ++ rest).toList ↔ some m = some n := by
    refine ⟨ne_end_of_mark hm rest, fun n hn => ⟨fun start => ?_, fun same => ?_⟩⟩
    · rw [mark_unique hn hm start]
    · obtain rfl := Option.some.inj same
      simp
  cases h with
  | guarded => exact ⟨_, _, lines_guarded _ _, marked (by simp [marks])⟩
  | loop => exact ⟨_, _, lines_loop _ _ _, marked (by simp [marks])⟩
  | call => exact ⟨_, _, lines_call _, marked (by simp [marks])⟩
  | raw line notEnd notMarked =>
    refine ⟨_, _, lines_raw _, notEnd, fun m hm => ⟨fun start => ?_, fun same => ?_⟩⟩
    · exact absurd start (notMarked m hm)
    · cases same

/-- Trees of different kinds differ in their first lines. -/
theorem Legible.mark_eq (ht : t.Legible) (hu : u.Legible) {r r' : List String}
    (same : t.lines indent level ++ r = u.lines indent level ++ r') : t.mark? = u.mark? := by
  obtain ⟨front, more, first, -, kind⟩ := ht.first_line indent level
  obtain ⟨front', more', first', -, kind'⟩ := hu.first_line indent level
  rw [first, first', List.cons_append, List.cons_append, List.cons.injEq,
    String.append_right_inj] at same
  obtain ⟨rfl, -⟩ := same
  have agree : ∀ m ∈ marks, t.mark? = some m ↔ u.mark? = some m := by
    intro m hm
    rw [← kind m hm, kind' m hm]
  cases ht <;> cases hu <;> simp [mark?, marks] at agree ⊢

end Kinds

section Trees

variable {indent level : Nat} {t u : Tree} {ts us : List Tree} {r r' : List String}

/-- The lines of the tree, wherever they stand, are those of no other tree. -/
def Determined (indent : Nat) (t : Tree) : Prop :=
  ∀ level u r r', u.Legible → t.lines indent level ++ r = u.lines indent level ++ r' →
    t = u ∧ r = r'

/-- Where a body ends is seen at its closing line. -/
theorem body_inj (ht : ∀ t ∈ ts, t.Legible) (hu : ∀ u ∈ us, u.Legible)
    (told : ∀ t ∈ ts, t.Determined indent)
    (same : linesOfAll indent (level + 1) ts ++ endLine indent level :: r =
      linesOfAll indent (level + 1) us ++ endLine indent level :: r') : ts = us ∧ r = r' := by
  have closes {v : Tree} {vs : List Tree} {q q' : List String} (hv : v.Legible) :
      endLine indent level :: q ≠ linesOfAll indent (level + 1) (v :: vs) ++ q' := by
    intro lines
    obtain ⟨front, more, first, other, -⟩ := hv.first_line indent (level + 1)
    rw [linesOfAll, first] at lines
    exact endLine_ne other (List.cons.inj lines).1
  induction ts generalizing us with
  | nil =>
    cases us with
    | nil => exact ⟨rfl, (List.cons.inj same).2⟩
    | cons u us => exact absurd same (closes (hu u List.mem_cons_self))
  | cons t ts ih =>
    cases us with
    | nil => exact absurd same.symm (closes (ht t List.mem_cons_self))
    | cons u us =>
      rw [linesOfAll, linesOfAll, List.append_assoc, List.append_assoc] at same
      obtain ⟨rfl, rest⟩ :=
        told t List.mem_cons_self _ u _ _ (hu u List.mem_cons_self) same
      obtain ⟨rfl, rfl⟩ := ih (fun x hx => ht x (List.mem_cons_of_mem t hx))
        (fun x hx => hu x (List.mem_cons_of_mem t hx))
        (fun x hx => told x (List.mem_cons_of_mem t hx)) rest
      exact ⟨rfl, rfl⟩

theorem split_at_first {x : Char} {xs ys xs' ys' : List Char} (h : x ∉ xs) (h' : x ∉ xs')
    (same : xs ++ x :: ys = xs' ++ x :: ys') : xs = xs' ∧ ys = ys' := by
  induction xs generalizing xs' with
  | nil =>
    cases xs' with
    | nil => exact ⟨rfl, (List.cons.inj same).2⟩
    | cons y xs' =>
      have head : x = y := (List.cons.inj same).1
      simp [head] at h'
  | cons y xs ih =>
    rw [List.mem_cons, not_or] at h
    cases xs' with
    | nil => exact absurd (List.cons.inj same).1.symm h.1
    | cons z xs' =>
      rw [List.mem_cons, not_or] at h'
      obtain ⟨rfl, tail⟩ := List.cons.inj same
      obtain ⟨rfl, rfl⟩ := ih h.2 h'.2 tail
      exact ⟨rfl, rfl⟩

/-- The words between a variable and its collection are found at the first blank. -/
theorem header_inj {v w c d : String} (hv : ' ' ∉ v.toList) (hw : ' ' ∉ w.toList)
    (same : v ++ (" in " ++ (c ++ " )")) = w ++ (" in " ++ (d ++ " )"))) : v = w ∧ c = d := by
  have chars := congrArg String.toList same
  simp only [String.toList_append, show " in ".toList = [' ', 'i', 'n', ' '] from rfl,
    List.cons_append] at chars
  obtain ⟨var, rest⟩ := split_at_first hv hw chars
  refine ⟨String.toList_inj.mp var, String.toList_inj.mp ?_⟩
  simpa using rest

/-- The text of a template determines its tree, by induction on the tree. -/
theorem Legible.determined (ht : t.Legible) : t.Determined indent := by
  induction ht with
  | @guarded condition body line inner ih =>
    intro level u r r' hu same
    have kind := (Legible.guarded line inner).mark_eq hu same
    cases hu with
    | @guarded condition' body' _ inner' =>
      rw [lines_guarded, lines_guarded, List.cons_append, List.cons_append, List.cons.injEq,
        List.append_assoc, List.append_assoc] at same
      obtain ⟨first, lines⟩ := same
      obtain ⟨rfl, rest⟩ := ih _ _ _ _ inner' lines
      simp only [String.append_right_inj, String.append_left_inj] at first
      obtain rfl := first
      exact ⟨rfl, (List.cons.inj rest).2⟩
    | _ => simp [mark?] at kind
  | @loop v c body var word collection items ih =>
    intro level u r r' hu same
    have kind := (Legible.loop var word collection items).mark_eq hu same
    cases hu with
    | @loop w d body' _ word' _ items' =>
      rw [lines_loop, lines_loop, List.cons_append, List.cons_append, List.cons.injEq,
        List.append_assoc, List.append_assoc] at same
      obtain ⟨first, rest⟩ := same
      obtain ⟨rfl, rfl⟩ := body_inj items items' ih rest
      simp only [String.append_right_inj] at first
      obtain ⟨rfl, rfl⟩ := header_inj word word' first
      exact ⟨rfl, rfl⟩
    | _ => simp [mark?] at kind
  | @call a line =>
    intro level u r r' hu same
    have kind := (Legible.call line).mark_eq hu same
    cases hu with
    | @call b =>
      rw [lines_call, lines_call, List.cons_append, List.cons_append, List.cons.injEq] at same
      obtain ⟨first, rfl⟩ := same
      simp only [String.append_right_inj, String.append_left_inj] at first
      obtain rfl := first
      exact ⟨rfl, rfl⟩
    | _ => simp [mark?] at kind
  | @raw a line notEnd notMarked =>
    intro level u r r' hu same
    have kind := (Legible.raw line notEnd notMarked).mark_eq hu same
    cases hu with
    | @raw b =>
      rw [lines_raw, lines_raw, List.cons_append, List.cons_append, List.cons.injEq] at same
      obtain ⟨first, rfl⟩ := same
      obtain rfl := (String.append_right_inj _).mp first
      exact ⟨rfl, rfl⟩
    | _ => simp [mark?] at kind

end Trees

section Text

variable {indent level : Nat} {t u : Tree}

theorem OneLine.append {s s' : String} (h : OneLine s) (h' : OneLine s') : OneLine (s ++ s') := by
  rw [OneLine, String.toList_append, List.mem_append]
  exact not_or.mpr ⟨h, h'⟩

theorem oneLine_padding : OneLine (padding indent level) := by
  simp [OneLine, padding, List.mem_replicate]

theorem mem_linesOfAll {ts : List Tree} {l : String} :
    l ∈ linesOfAll indent level ts ↔ ∃ t ∈ ts, l ∈ t.lines indent level := by
  induction ts with
  | nil => simp [linesOfAll]
  | cons t ts ih => simp [linesOfAll, ih]

theorem Legible.lines_oneLine (h : t.Legible) : ∀ l ∈ t.lines indent level, OneLine l := by
  have pad {level : Nat} : OneLine (padding indent level) := oneLine_padding
  have ends {level : Nat} : OneLine (endLine indent level) := pad.append (by decide)
  induction h generalizing level with
  | guarded line _ ih =>
    intro l hl
    rw [lines_guarded, List.mem_cons, List.mem_append, List.mem_singleton] at hl
    obtain rfl | inside | rfl := hl
    · exact pad.append (.append (by decide) (line.append (by decide)))
    · exact ih l inside
    · exact ends
  | loop var _ collection _ ih =>
    intro l hl
    rw [lines_loop, List.mem_cons, List.mem_append, List.mem_singleton, mem_linesOfAll] at hl
    obtain rfl | ⟨item, hitem, inside⟩ | rfl := hl
    · have words : OneLine " in " := by decide
      exact pad.append (.append (by decide)
        (var.append (words.append (collection.append (by decide)))))
    · exact ih item hitem l inside
    · exact ends
  | call line =>
    intro l hl
    rw [lines_call, List.mem_singleton] at hl
    exact hl ▸ pad.append (.append (by decide) (line.append (by decide)))
  | raw line =>
    intro l hl
    rw [lines_raw, List.mem_singleton] at hl
    exact hl ▸ pad.append line

theorem intercalate_inj {ls ms : List String} (hl : ∀ l ∈ ls, OneLine l) (hm : ∀ l ∈ ms, OneLine l)
    (nonempty : ls ≠ []) (nonempty' : ms ≠ [])
    (same : "\n".intercalate ls = "\n".intercalate ms) : ls = ms := by
  have split {ls : List String} (hl : ∀ l ∈ ls, OneLine l) (nonempty : ls ≠ []) :
      List.splitOn '\n' ("\n".intercalate ls).toList = ls.map String.toList := by
    rw [String.toList_intercalate]
    exact List.splitOn_intercalate '\n' (List.forall_mem_map.mpr hl) (by simpa using nonempty)
  have lists := split hl nonempty
  rw [same, split hm nonempty'] at lists
  exact (List.map_inj_right fun _ _ => String.toList_inj.mp).mp lists.symm

end Text

/-- Two legible trees are written as the same text only if they are the same tree. -/
theorem text_inj (indent : Nat) {t u : Tree} (ht : t.Legible) (hu : u.Legible) :
    t.text indent = u.text indent ↔ t = u := by
  constructor
  · intro same
    obtain ⟨front, more, first, -⟩ := ht.first_line indent 0
    obtain ⟨front', more', first', -⟩ := hu.first_line indent 0
    have lines : t.lines indent 0 = u.lines indent 0 :=
      intercalate_inj ht.lines_oneLine hu.lines_oneLine (by simp [first]) (by simp [first']) same
    exact (ht.determined 0 u [] [] hu (congrArg (· ++ []) lines)).1
  · exact congrArg (text indent)

/-- A call behind an inner loop and the same call inside it, without indentation and behind a text
that only looks like a closing line. -/
theorem text_inj_nested_loops :
    let behind : Tree := .loop "e" "$x" [.loop "f" "$y" [.raw " #end"], .call "a"]
    let inside : Tree := .loop "e" "$x" [.loop "f" "$y" [.raw " #end", .call "a"]]
    behind.text 0 ≠ inside.text 0 := by
  intro behind inside
  have text : Legible (.raw " #end") := .raw (by decide) (by decide) (by decide)
  have call : Legible (.call "a") := .call (by decide)
  have short : Legible (.loop "f" "$y" [.raw " #end"]) :=
    .loop (by decide) (by decide) (by decide) (by simp [text])
  have long : Legible (.loop "f" "$y" [.raw " #end", .call "a"]) :=
    .loop (by decide) (by decide) (by decide) (by simp [text, call])
  have hb : behind.Legible := .loop (by decide) (by decide) (by decide) (by simp [short, call])
  have hi : inside.Legible := .loop (by decide) (by decide) (by decide) (by simp [long])
  rw [Ne, text_inj 0 hb hi]
  simp [behind, inside]

end TransformDirective.Template.Tree
