import TransformDirective.Proofs.Text.Lines
import TransformDirective.Scenario.StepFile

namespace TransformDirective.Scenario.StepFile

open TransformDirective.Text

def markerLine (name : String) : String := "--# " ++ name

/-- Writes some lines and then each step's text behind its marker, all with a line feed behind. -/
def write (preamble : List String) (steps : List (String × String)) : String :=
  String.join (preamble.map (· ++ "\n") ++
    steps.map fun s => markerLine s.1 ++ "\n" ++ s.2 ++ "\n")

def trimmed (text : String) : String := String.ofList (trim text.toList)

/-- The name is trimmed, not empty and on one line; the text has no marker, no remark and no line
feed with a carriage return in front. -/
structure ReadableStep (s : String × String) : Prop where
  named : s.1 ≠ ""
  trimmed : trim s.1.toList = s.1.toList
  line : '\n' ∉ s.1.toList
  plain : ∀ l ∈ splitLines s.2.toList, markerName? l = none ∧ isRemark l = false
  kept : ¬['\r', '\n'] <:+: s.2.toList

/-- No line in front is a marker, and no two steps have the same name. -/
structure Readable (preamble : List String) (steps : List (String × String)) : Prop where
  front : ∀ l ∈ preamble, '\n' ∉ l.toList ∧ markerName? l.toList = none
  each : ∀ s ∈ steps, ReadableStep s
  distinct : (steps.map (·.1)).Nodup

/-- A marker line has no name, or the name of a marker line before it. -/
def BadMarker (ls : List (List Char)) : Prop :=
  ∃ before line after name, ls = before ++ line :: after ∧ markerName? line = some name ∧
    (name = [] ∨ ∃ l ∈ before, markerName? l = some name)

section Markers

theorem markerName?_withoutReturn (l : List Char) :
    markerName? (withoutReturn l) = markerName? l := by
  simp only [markerName?, trim_withoutReturn]

theorem isRemark_withoutReturn (l : List Char) : isRemark (withoutReturn l) = isRemark l := by
  simp only [isRemark, trim_withoutReturn]

theorem markerName?_markerLine {name : String} (nonempty : name ≠ "")
    (trimmed : trim name.toList = name.toList) :
    markerName? (markerLine name).toList = some name.toList := by
  have chars : (markerLine name).toList = ['-', '-', '#', ' '] ++ name.toList := by
    simp [markerLine]
  have nonempty : name.toList ≠ [] := by simpa using nonempty
  have last : ∀ c ∈ (markerLine name).toList.getLast?, isBlank c = false := by
    intro c hc
    apply getLast?_trim name.toList
    rw [trimmed]
    rw [chars, List.getLast?_append] at hc
    cases hd : name.toList.getLast? with
    | none => exact absurd (List.getLast?_eq_none_iff.mp hd) nonempty
    | some d =>
      rw [hd] at hc
      exact hc
  have whole : trim (markerLine name).toList = (markerLine name).toList := by
    refine trim_of_ends (fun c hc => ?_) last
    rw [chars] at hc
    exact Option.some.inj hc ▸ rfl
  have rest : trim (' ' :: name.toList) = name.toList := by
    rw [trim_cons_blank (by decide), trimmed]
  simp only [markerName?, whole]
  rw [chars]
  simp [rest]

end Markers

section Groups

variable {ls rest : List (List Char)}

theorem groups_of_no_marker (h : ∀ l ∈ ls, markerName? l = none) (rest : List (List Char)) :
    (groups (ls ++ rest)).2 = (groups rest).2 := by
  induction ls with
  | nil => rfl
  | cons l ls ih =>
    obtain ⟨first, more⟩ := List.forall_mem_cons.mp h
    rw [List.cons_append, groups, first]
    exact ih more

theorem groups_of_plain (h : ∀ l ∈ ls, markerName? l = none ∧ isRemark l = false)
    (rest : List (List Char)) :
    groups (ls ++ rest) = (ls ++ (groups rest).1, (groups rest).2) := by
  induction ls with
  | nil => rfl
  | cons l ls ih =>
    obtain ⟨⟨noMarker, noRemark⟩, more⟩ := List.forall_mem_cons.mp h
    rw [List.cons_append, groups, noMarker]
    simp [noRemark, ih more]

theorem groups_marker {l name : List Char} (h : markerName? l = some name)
    (rest : List (List Char)) :
    groups (l :: rest) = ([], (name, (groups rest).1) :: (groups rest).2) := by
  rw [groups, h]

/-- The names of the steps are those of the marker lines. -/
theorem names_groups (ls : List (List Char)) :
    (groups ls).2.map (·.1) = ls.filterMap markerName? := by
  induction ls with
  | nil => rfl
  | cons l ls ih =>
    rw [List.filterMap_cons, ← ih, groups]
    cases markerName? l <;> rfl

end Groups

section Names

theorem nameFault?_eq_some {seen ns : List (List Char)} :
    (∃ f, nameFault? seen ns = some f) ↔
      ∃ front n back, ns = front ++ n :: back ∧ (n = [] ∨ n ∈ seen ∨ n ∈ front) := by
  induction ns generalizing seen with
  | nil => simp [nameFault?]
  | cons n ns ih =>
    have moved : ∀ (m : List Char) (front : List (List Char)),
        (m = [] ∨ m ∈ n :: seen ∨ m ∈ front) ↔ (m = [] ∨ m ∈ seen ∨ m ∈ n :: front) := by
      intro m front
      simp only [List.mem_cons, or_assoc, or_left_comm]
    unfold nameFault?
    split
    · next empty => exact ⟨fun _ => ⟨[], n, ns, rfl, .inl empty⟩, fun _ => ⟨_, rfl⟩⟩
    · split
      · next old => exact ⟨fun _ => ⟨[], n, ns, rfl, .inr (.inl old)⟩, fun _ => ⟨_, rfl⟩⟩
      · next nonempty new =>
        rw [ih]
        constructor
        · rintro ⟨front, m, back, rfl, h⟩
          exact ⟨n :: front, m, back, rfl, (moved m front).mp h⟩
        · rintro ⟨front, m, back, split, h⟩
          cases front with
          | nil =>
            obtain ⟨rfl, -⟩ := List.cons.inj split
            simp [nonempty, new] at h
          | cons k front =>
            obtain ⟨rfl, rfl⟩ := List.cons.inj split
            exact ⟨front, m, back, rfl, (moved m front).mpr h⟩

/-- A bad marker is a name that is empty or was there before. -/
theorem badMarker_iff (ls : List (List Char)) :
    BadMarker ls ↔ ∃ front n back, ls.filterMap markerName? = front ++ n :: back ∧
      (n = [] ∨ n ∈ front) := by
  constructor
  · rintro ⟨before, line, after, name, rfl, marker, h⟩
    refine ⟨before.filterMap markerName?, name, after.filterMap markerName?, ?_, ?_⟩
    · simp [marker]
    · simpa only [List.mem_filterMap] using h
  · rintro ⟨front, name, back, names, h⟩
    obtain ⟨before, rest, rfl, rfl, behind⟩ := List.filterMap_eq_append_iff.mp names
    obtain ⟨plain, line, after, rfl, -, marker, -⟩ := List.filterMap_eq_cons_iff.mp behind
    refine ⟨before ++ plain, line, after, name, by simp, marker, h.imp_right fun old => ?_⟩
    obtain ⟨l, hl, same⟩ := List.mem_filterMap.mp old
    exact ⟨l, List.mem_append_left plain hl, same⟩

theorem parse_of_fault {source : String} {f : StepFault}
    (h : nameFault? [] ((groups (textLines source.toList)).2.map (·.1)) = some f) :
    parse source = .error f := by
  simp only [parse, h]

theorem parse_of_names {source : String}
    (h : nameFault? [] ((groups (textLines source.toList)).2.map (·.1)) = none) :
    parse source = .ok ⟨(groups (textLines source.toList)).2.map fun g =>
      (String.ofList g.1, String.ofList (trim (joinLines g.2)))⟩ := by
  simp only [parse, h]

/-- A text is refused exactly for one of its markers. -/
theorem parse_error_iff (source : String) :
    (∃ f, parse source = .error f) ↔ BadMarker (textLines source.toList) := by
  have fault : (∃ f, nameFault? [] ((groups (textLines source.toList)).2.map (·.1)) = some f) ↔ _ :=
    nameFault?_eq_some
  rw [badMarker_iff, ← names_groups]
  cases found : nameFault? [] ((groups (textLines source.toList)).2.map (·.1)) with
  | none => simpa [parse_of_names found, found] using fault
  | some f => simpa [parse_of_fault found, found] using fault

end Names

section Writing

/-- The lines of a step, of which the first one is its marker. -/
def stepLines (s : String × String) : List (List Char) :=
  (markerLine s.1).toList :: splitLines s.2.toList

theorem endLines_stepLines (s : String × String) :
    endLines (stepLines s) = (markerLine s.1 ++ "\n" ++ s.2 ++ "\n").toList := by
  have body := endLines_splitLines s.2.toList
  unfold endLines at body
  simp [stepLines, endLines, body]

theorem write_toList (preamble : List String) (steps : List (String × String)) :
    (write preamble steps).toList =
      endLines (preamble.map String.toList ++ steps.flatMap stepLines) := by
  have ended : ∀ s, (markerLine s.1 ++ "\n" ++ s.2 ++ "\n").toList = endLines (stepLines s) :=
    fun s => (endLines_stepLines s).symm
  unfold write
  rw [String.toList_join, List.flatMap_append, List.flatMap_map, List.flatMap_map]
  simp only [ended]
  simp [endLines, List.flatMap_append, List.flatMap_map, List.flatMap_assoc]

variable {preamble : List String} {steps : List (String × String)}

theorem Readable.lines (h : Readable preamble steps) :
    ∀ l ∈ preamble.map String.toList ++ steps.flatMap stepLines, '\n' ∉ l := by
  intro l hl
  obtain hl | hl := List.mem_append.mp hl
  · obtain ⟨p, hp, rfl⟩ := List.mem_map.mp hl
    exact (h.front p hp).1
  · obtain ⟨s, hs, hl⟩ := List.mem_flatMap.mp hl
    obtain rfl | hl := List.mem_cons.mp hl
    · simp [markerLine, (h.each s hs).line]
    · exact not_mem_splitLines l hl

/-- What is read of a step. -/
def stepGroup (s : String × String) : List Char × List (List Char) :=
  (s.1.toList, (splitLines s.2.toList).map withoutReturn)

theorem groups_steps (h : ∀ s ∈ steps, ReadableStep s) :
    groups ((steps.flatMap stepLines).map withoutReturn) = ([], steps.map stepGroup) := by
  induction steps with
  | nil => rfl
  | cons s steps ih =>
    obtain ⟨first, more⟩ := List.forall_mem_cons.mp h
    have marker : markerName? (withoutReturn (markerLine s.1).toList) = some s.1.toList := by
      rw [markerName?_withoutReturn, markerName?_markerLine first.named first.trimmed]
    have plain : ∀ l ∈ (splitLines s.2.toList).map withoutReturn,
        markerName? l = none ∧ isRemark l = false := by
      intro l hl
      obtain ⟨m, hm, rfl⟩ := List.mem_map.mp hl
      rw [markerName?_withoutReturn, isRemark_withoutReturn]
      exact first.plain m hm
    rw [List.flatMap_cons, stepLines, List.cons_append, List.map_cons, List.map_append,
      groups_marker marker, groups_of_plain plain, ih more]
    simp [stepGroup]

/-- The lines that were written are grouped by their markers again. -/
theorem groups_write (h : Readable preamble steps) :
    (groups (textLines (write preamble steps).toList)).2 = steps.map stepGroup := by
  have front : ∀ l ∈ (preamble.map String.toList).map withoutReturn, markerName? l = none := by
    intro l hl
    obtain ⟨m, hm, rfl⟩ := List.mem_map.mp hl
    obtain ⟨p, hp, rfl⟩ := List.mem_map.mp hm
    rw [markerName?_withoutReturn]
    exact (h.front p hp).2
  rw [write_toList, textLines_endLines h.lines, List.map_append, groups_of_no_marker front,
    groups_steps h.each]

theorem Readable.no_fault (h : Readable preamble steps) :
    nameFault? [] ((steps.map stepGroup).map (·.1)) = none := by
  have distinct : ((steps.map stepGroup).map (·.1)).Nodup := by
    have names : ((steps.map (·.1)).map String.toList).Nodup :=
      List.Pairwise.map String.toList
        (fun _ _ other same => other (String.toList_injective same)) h.distinct
    simpa [stepGroup, Function.comp_def] using names
  cases fault : nameFault? [] ((steps.map stepGroup).map (·.1)) with
  | none => rfl
  | some f =>
    obtain ⟨front, n, back, split, bad⟩ := nameFault?_eq_some.mp ⟨f, fault⟩
    obtain rfl | old | repeated := bad
    · have mem : [] ∈ (steps.map stepGroup).map (·.1) := split ▸ by simp
      obtain ⟨s, hs, empty⟩ : ∃ s ∈ steps, s.1.toList = [] := by simpa [stepGroup] using mem
      exact absurd (by simpa using empty) (h.each s hs).named
    · cases old
    · rw [split] at distinct
      have apart := (List.nodup_append.mp distinct).2.2
      exact absurd rfl (apart n repeated n List.mem_cons_self)

theorem trim_stepGroup {s : String × String} (h : ReadableStep s) :
    trim (joinLines (stepGroup s).2) = trim s.2.toList := by
  have kept := h.kept
  rw [← joinLines_splitLines s.2.toList] at kept
  rw [stepGroup, joinLines_withoutReturn kept, trim_withoutReturn, joinLines_splitLines]

/-- The steps that were written are read back in order, with their trimmed texts. -/
theorem parse_write (h : Readable preamble steps) :
    parse (write preamble steps) = .ok ⟨steps.map fun s => (s.1, trimmed s.2)⟩ := by
  have fault := h.no_fault
  rw [← groups_write h] at fault
  rw [parse_of_names fault, groups_write h, List.map_map]
  have same : ∀ s ∈ steps, (String.ofList (stepGroup s).1,
      String.ofList (trim (joinLines (stepGroup s).2))) = (s.1, trimmed s.2) := by
    intro s hs
    rw [trim_stepGroup (h.each s hs), trimmed, stepGroup, String.ofList_toList]
  exact congrArg (fun sections => Except.ok (StepFile.mk sections)) (List.map_congr_left same)

/-- The only step with this name has the text, unless that is empty. -/
theorem text?_of_mem {file : StepFile} (distinct : file.names.Nodup) {s : String × String}
    (hs : s ∈ file.sections) : file.text? s.1 = if s.2 = "" then none else some s.2 := by
  obtain ⟨sections⟩ := file
  unfold text?
  unfold names at distinct
  induction sections with
  | nil => cases hs
  | cons t ts ih =>
    rw [List.map_cons, List.nodup_cons] at distinct
    obtain ⟨new, distinct⟩ := distinct
    obtain rfl | hs := List.mem_cons.mp hs
    · by_cases empty : s.2 = ""
      · have others : ∀ n text, (n, text) ∈ ts → n = s.1 → text = "" := fun n text ht same =>
          absurd (List.mem_map.mpr ⟨(n, text), ht, same⟩) new
        simpa [empty] using others
      · simp [empty]
    · have other : t.1 ≠ s.1 := fun same => new (List.mem_map.mpr ⟨s, hs, same.symm⟩)
      have more := ih distinct hs
      simpa [other] using more

end Writing

/-- Steps that are written are read back with their names in order and their trimmed texts, of which
an empty one is no text; and any text is refused exactly if a marker has no name or repeats one. -/
theorem write_readsBack :
    (∀ preamble steps, Readable preamble steps →
      ∃ file, parse (write preamble steps) = .ok file ∧ file.names = steps.map (·.1) ∧
        ∀ s ∈ steps, file.text? s.1 = if trimmed s.2 = "" then none else some (trimmed s.2)) ∧
    ∀ source, (∃ f, parse source = .error f) ↔ BadMarker (textLines source.toList) := by
  refine ⟨fun preamble steps h => ?_, parse_error_iff⟩
  let file : StepFile := ⟨steps.map fun s => (s.1, trimmed s.2)⟩
  have names : file.names = steps.map (·.1) := by simp [file, StepFile.names]
  refine ⟨file, parse_write h, names, fun s hs => ?_⟩
  exact text?_of_mem (names ▸ h.distinct) (List.mem_map.mpr ⟨s, hs, rfl⟩)

/-- A text with a blank first line and a carriage return at its end, and one of blanks only. -/
theorem write_readsBack_blank :
    let steps := [("trim title", "\ntype A\r"), ("none", " \t"), ("b", "--\n# -- @ id")]
    Readable ["-- schemas", ""] steps ∧
    ∃ file, parse (write ["-- schemas", ""] steps) = .ok file ∧
      file.names = ["trim title", "none", "b"] ∧
      ∀ s ∈ steps, file.text? s.1 = if trimmed s.2 = "" then none else some (trimmed s.2) := by
  intro steps
  have readable : Readable ["-- schemas", ""] steps := by
    refine ⟨by decide +kernel, ?_, by decide +kernel⟩
    intro s hs
    obtain rfl | rfl | rfl : s = ("trim title", "\ntype A\r") ∨ s = ("none", " \t") ∨
        s = ("b", "--\n# -- @ id") := by simpa [steps] using hs
    all_goals exact ⟨by decide, by decide +kernel, by decide, by decide +kernel, by decide +kernel⟩
  exact ⟨readable, write_readsBack.1 _ _ readable⟩

end TransformDirective.Scenario.StepFile
