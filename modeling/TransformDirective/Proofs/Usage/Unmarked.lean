import TransformDirective.Proofs.Schema.Spelling
import TransformDirective.Proofs.Template.Markers
import TransformDirective.Usage.Arguments

namespace TransformDirective.Usage

open TransformDirective.Config TransformDirective.Schema TransformDirective.Template
open TransformDirective.Receiver

section Rewritten

/-- Writing a text on one line rewrites its line breaks only. -/
theorem singleLine_rewrites (cs : List Char) : Rewrites cs (singleLine cs) := by
  have r : '#' ∉ ['r'] := by decide
  have n : '#' ∉ ['n'] := by decide
  induction cs with
  | nil => exact .nil
  | cons c cs ih =>
    unfold singleLine at ih ⊢
    rw [List.flatMap_cons]
    split
    · exact .write (by decide) r ih
    · split
      · exact .write (by decide) n ih
      · exact .keep ih

/-- A text that breaks a marker and has none. -/
def Breaks (cs : List Char) : Prop := ∃ w ws, cs = w :: ws ∧ w ∉ fieldMark ∧ '#' ∉ ws

theorem Breaks.append {cs ds : List Char} (h : Breaks cs) (none : '#' ∉ ds) :
    Breaks (cs ++ ds) := by
  obtain ⟨w, ws, rfl, hw, none'⟩ := h
  refine ⟨w, ws ++ ds, rfl, hw, ?_⟩
  rw [List.mem_append, not_or]
  exact ⟨none', none⟩

theorem receiverDot_breaks {receiver : List Char} (h : Breaks receiver) (first : Bool)
    (cs : List Char) : Breaks (receiverDot receiver first cs) := by
  have dot : Breaks ['.'] := ⟨'.', [], rfl, by decide, List.not_mem_nil⟩
  have member : Breaks (receiver ++ ['.']) := h.append (by decide)
  cases cs with
  | nil => exact h
  | cons c cs =>
    rw [receiverDot]
    split
    · exact member
    · split
      · split
        · exact member
        · exact dot
      · exact h

theorem substituteFrom_rewrites {receiver : List Char} (h : Breaks receiver) (first : Bool)
    (m : Mode) (cs : List Char) : Rewrites cs (substituteFrom receiver first m cs) := by
  induction cs generalizing first m with
  | nil => exact .nil
  | cons c cs ih =>
    unfold substituteFrom
    split
    · obtain ⟨w, ws, text, hw, none⟩ := receiverDot_breaks h first cs
      rw [text]
      exact .write hw none (ih _ _)
    · exact .keep (ih _ _)

theorem clean_substitute {expression receiver : String} (h : Breaks receiver.toList)
    (clean : Clean expression.toList) : Clean (substitute expression receiver).toList := by
  rw [substitute, String.toList_ofList]
  exact (substituteFrom_rewrites h true .chainStart expression.toList).clean clean

end Rewritten

section Written

variable {settings : Settings} {name : String} {a : Arguments}

/-- What stands in a marker line behind the name and its quote. -/
def markerBack (a : Arguments) : List Char :=
  " (".toList ++ (singleLine a.expression.toList ++ ',' ::
    (" foreach=" ++ toString a.foreach ++ ", always=" ++ toString a.always ++ "). **").toList)

theorem header_toList (name : String) (a : Arguments) :
    (a.header name).toList ++ ". **".toList =
      headerStart.toList ++ (name.toList ++ '"' :: markerBack a) := by
  simp [Arguments.header, markerBack]

theorem startMarker_toList (name : String) (a : Arguments) :
    (startMarker (a.header name)).toList = fieldMark ++ (name.toList ++ '"' :: markerBack a) := by
  have mark : fieldMark = "## [Start] ".toList ++ headerStart.toList := String.toList_append
  rw [mark, List.append_assoc, ← header_toList, startMarker, String.toList_append,
    String.toList_append, List.append_assoc]

theorem endMarker_toList (name : String) (a : Arguments) :
    (endMarker (a.header name)).toList = "## [".toList ++ 'E' ::
      ("nd] ".toList ++ headerStart.toList ++ (name.toList ++ '"' :: markerBack a)) := by
  rw [endMarker, String.toList_append, String.toList_append, List.append_assoc, header_toList]
  simp

theorem clean_markerBack (clean : Clean a.expression.toList) : Clean (markerBack a) := by
  apply ((singleLine_rewrites _).clean clean).between (by decide) (by decide)
  cases a.foreach <;> cases a.always <;> decide

/-- No marker starts in the line behind a block. -/
theorem clean_endMarker (isName : isNameText name) (clean : Clean a.expression.toList) :
    Clean (endMarker (a.header name)).toList := by
  have letter : 'E' ∉ fieldMark := by decide
  have front : Clean "## [".toList := by
    intro inside
    exact absurd inside.length_le (by decide)
  have none : '#' ∉ "nd] ".toList ++ headerStart.toList := by decide
  have named : '#' ∉ name.toList := not_mem_name isName (by decide)
  have back : Clean (name.toList ++ '"' :: markerBack a) := by
    apply Clean.append_left _ named
    exact Clean.of_cons (fun start => absurd (hash_of_marked start) (by decide))
      (clean_markerBack clean)
  rw [endMarker_toList]
  exact front.append_break letter (back.append_left none)

theorem not_mem_padding (indent level : Nat) {c : Char} (hc : c ≠ ' ') :
    c ∉ (padding indent level).toList := by
  rw [padding, String.toList_ofList]
  intro mem
  exact hc (List.eq_of_mem_replicate mem)

theorem not_mem_quoted {text : String} {c : Char} (hc : c ≠ '\'') (none : c ∉ text.toList) :
    c ∉ (quoted text).toList := by
  have doubled : c ∉ doubleQuotes text.toList := by
    intro mem
    obtain ⟨x, hx, mem⟩ := List.mem_flatMap.mp mem
    split at mem
    · exact hc (by simpa using mem)
    · rw [List.mem_singleton] at mem
      exact none (mem ▸ hx)
  simp [quoted, hc, doubled]

theorem hash_notMem_valuePath (root : settings.inputRoot = Settings.default.inputRoot)
    (isName : isNameText name) : '#' ∉ (valuePath settings name).toList := by
  have named : '#' ∉ name.toList := not_mem_name isName (by decide)
  have front : '#' ∉ Settings.default.inputRoot.toList := by decide
  simp [valuePath, root, named, front]

/-- The line of a call whose last argument is an expression. -/
theorem clean_call (indent level : Nat) {front expression : String} (none : '#' ∉ front.toList)
    (clean : Clean expression.toList) :
    ∀ l ∈ (Tree.call (front ++ expression ++ ")")).lines indent level, Clean l.toList := by
  have blank : '#' ∉ (padding indent level).toList := not_mem_padding _ _ (by decide)
  have start : '#' ∉ (padding indent level ++ "$util.qr(" ++ front).toList := by
    simp [blank, none]
  have between := clean.between start (by decide : ')' ∉ fieldMark) (by decide : '#' ∉ [')'])
  intro l hl
  rw [Tree.lines, List.mem_singleton] at hl
  rw [hl]
  simpa using between

/-- A line with a directive of the template language. -/
theorem clean_directive (indent level : Nat) {back : String} (none : '#' ∉ back.toList) :
    Clean (padding indent level ++ "#" ++ back).toList := by
  have blank : '#' ∉ (padding indent level).toList := not_mem_padding _ _ (by decide)
  have line := Clean.of_hash blank none
  simpa using line

/-- Lines that a directive opens and another one closes. -/
theorem clean_enclosed (indent level : Nat) {opening : String} {body : List String}
    (first : Clean opening.toList) (h : ∀ l ∈ body, Clean l.toList) :
    ∀ l ∈ opening :: body ++ [padding indent level ++ "#end"], Clean l.toList := by
  have none : '#' ∉ "end".toList := by decide
  have closing := clean_directive indent level none
  intro l hl
  rw [List.mem_append, List.mem_cons, List.mem_singleton] at hl
  obtain (rfl | hl) | rfl := hl
  · exact first
  · exact h l hl
  · simpa [String.append_assoc] using closing

/-- No marker comes up in the statement that an expression is written to. -/
theorem clean_assignment (indent level : Nat)
    (root : settings.inputRoot = Settings.default.inputRoot)
    (entry : settings.entryVar = Settings.default.entryVar) (isName : isNameText name)
    (clean : Clean a.expression.toList) :
    ∀ l ∈ (assignment settings name a).lines indent level, Clean l.toList := by
  have named : '#' ∉ name.toList := not_mem_name isName (by decide)
  have value : '#' ∉ (valuePath settings name).toList := hash_notMem_valuePath root isName
  unfold assignment
  split
  · have receiver : Breaks (entryPath settings).toList :=
      ⟨'$', settings.entryVar.toList, by simp [entryPath], by decide, by rw [entry]; decide⟩
    have front : '#' ∉ (valuePath settings name ++ ".set($foreach.index, ").toList := by
      simp [value]
    have body := clean_call indent (level + 1) front (clean_substitute receiver clean)
    have collection : '#' ∉ ("foreach( $" ++ settings.entryVar ++ " in " ++
        valuePath settings name ++ " )").toList := by
      have var : '#' ∉ Settings.default.entryVar.toList := by decide
      simp [entry, var, value]
    have opening := clean_directive indent level collection
    rw [Tree.lines, Tree.linesOfAll, Tree.linesOfAll, List.append_nil]
    apply clean_enclosed indent level _ body
    simpa [String.append_assoc] using opening
  · have front : '#' ∉ (settings.inputRoot ++ ".put(" ++ quoted name ++ ", ").toList := by
      have input : '#' ∉ Settings.default.inputRoot.toList := by decide
      have literal : '#' ∉ (quoted name).toList := not_mem_quoted (by decide) named
      simp [root, input, literal]
    have receiver : Breaks (valuePath settings name).toList := by
      have first : Breaks Settings.default.inputRoot.toList :=
        ⟨'$', "ctx.args.input".toList, rfl, by decide, by decide⟩
      rw [valuePath, root, String.append_assoc, String.toList_append]
      exact first.append (by simpa using named)
    exact clean_call indent level front (clean_substitute receiver clean)

/-- No marker starts in the text of a statement. -/
theorem clean_statement (indent : Nat) (root : settings.inputRoot = Settings.default.inputRoot)
    (entry : settings.entryVar = Settings.default.entryVar) (isName : isNameText name)
    (clean : Clean a.expression.toList) :
    Clean ((statement settings name a).text indent).toList := by
  have value : '#' ∉ (valuePath settings name).toList := hash_notMem_valuePath root isName
  apply Clean.of_lines
  unfold statement
  split
  · exact clean_assignment indent 0 root entry isName clean
  · have guard : '#' ∉ ("if( !$util.isNull(" ++ valuePath settings name ++ ") )").toList := by
      simp [value]
    have opening := clean_directive indent 0 guard
    rw [Tree.lines, Tree.negation, Tree.lines]
    apply clean_enclosed indent 0 _ (clean_assignment indent 1 root entry isName clean)
    simpa [String.append_assoc, padding] using opening

end Written

end TransformDirective.Usage
