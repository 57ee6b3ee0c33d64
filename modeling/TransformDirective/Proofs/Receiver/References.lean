import TransformDirective.Proofs.Receiver.Brackets
import TransformDirective.Proofs.Receiver.LocalRule
import TransformDirective.Proofs.Schema.Spelling
import TransformDirective.Usage.Arguments

namespace TransformDirective.Receiver

open TransformDirective.Config TransformDirective.Schema TransformDirective.Text
open TransformDirective.Usage

/-- A character of a reference. -/
def IsReferenceChar (c : Char) : Prop := isAlphanumeric c ∨ c ∈ ['_', '$', '.']

instance (c : Char) : Decidable (IsReferenceChar c) := inferInstanceAs (Decidable (_ ∨ _))

/-- A receiver that is a reference: letters, numbers, `_`, `$` and dots, with no dot in front. -/
structure IsReference (receiver : List Char) : Prop where
  nonempty : receiver ≠ []
  chars : ∀ c ∈ receiver, IsReferenceChar c
  start : receiver.head? ≠ some '.'

/-- A path of names behind a dollar sign. -/
def IsVariablePath (path : String) : Prop :=
  ∃ names : List String, (∀ n ∈ names, isNameText n) ∧ path = "$" ++ ".".intercalate names

section Characters

variable {c : Char}

theorem IsReferenceChar.endsOperand (h : IsReferenceChar c) : endsOperand c = true := by
  rw [endsOperand_iff, Continues]
  refine h.imp_right fun mem => ?_
  simp only [List.mem_cons, List.not_mem_nil, or_false] at mem ⊢
  tauto

theorem IsReferenceChar.plain (h : IsReferenceChar c) : IsPlain c := by
  rcases plain_or_bracket c with plain | (quote | opening) | ⟨o, closing⟩
  · exact plain
  · have either : c = '\'' ∨ c = '"' := by simpa [isQuote] using quote
    rcases either with rfl | rfl <;> exact absurd h (by decide +kernel)
  · rcases opening_cases opening with rfl | rfl | rfl <;> exact absurd h (by decide +kernel)
  · have some : (opening? c).isSome := by rw [closing]; rfl
    rcases closing_cases some with rfl | rfl | rfl <;> exact absurd h (by decide +kernel)

theorem IsReferenceChar.ne_backslash (h : IsReferenceChar c) : c ≠ '\\' := by
  rintro rfl
  exact absurd h (by decide +kernel)

theorem isReferenceChar_of_isNameChar (h : isNameChar c) : IsReferenceChar c := by
  rcases Bool.or_eq_true_iff.mp h with underscore | alphanumeric
  · rw [eq_of_beq underscore]
    exact .inr (by simp)
  rcases Bool.or_eq_true_iff.mp alphanumeric with letter | digit
  · exact .inl (isAlphanumeric_of_isAlphabetic (by simp [isAlphabetic, letter]))
  · exact .inl (isAlphanumeric_of_isDigit digit)

theorem IsReferenceChar.next (h : IsReferenceChar c) {m : Mode} (outside : m.IsOutside) :
    m.next c = .operand := by
  rw [Mode.next_outside outside, if_neg h.plain.notQuote, if_pos h.endsOperand]

end Characters

section Reading

variable {cs : List Char} (h : ∀ c ∈ cs, IsReferenceChar c)
include h

theorem after_operand : Mode.operand.after cs = .operand := by
  induction cs with
  | nil => rfl
  | cons c cs ih =>
    obtain ⟨here, rest⟩ := List.forall_mem_cons.mp h
    rw [Mode.after_cons, here.next (.inr rfl), ih rest]

/-- Nothing opens or closes in a reference. -/
theorem balanced_of_reference : Balanced cs := .of_plain fun c hc => (h c hc).plain

theorem body_of_reference {q : Char} (quote : isQuote q) : Body q cs := by
  induction cs with
  | nil => exact .nil
  | cons c cs ih =>
    obtain ⟨here, rest⟩ := List.forall_mem_cons.mp h
    refine .plain here.ne_backslash ?_ (ih rest)
    rintro rfl
    exact here.plain.notQuote quote

/-- Behind an operand the characters of a reference stay as they are. -/
theorem substituteFrom_operand (receiver rest : List Char) :
    substituteFrom receiver false .operand (cs ++ rest) =
      cs ++ substituteFrom receiver false .operand rest := by
  induction cs with
  | nil => rfl
  | cons c cs ih =>
    obtain ⟨here, behind⟩ := List.forall_mem_cons.mp h
    have kept : ¬Mode.operand.isReceiverDot c := by simp [Mode.isReceiverDot]
    rw [List.cons_append, substituteFrom, if_neg kept, here.next (.inr rfl), ih behind]
    rfl

end Reading

namespace IsReference

variable {cs : List Char} {m : Mode}

/-- Outside literals a reference is read as one operand. -/
theorem after (h : IsReference cs) (outside : m.IsOutside) : m.after cs = .operand := by
  obtain ⟨nonempty, chars, -⟩ := h
  cases cs with
  | nil => exact absurd rfl nonempty
  | cons c cs =>
    obtain ⟨here, rest⟩ := List.forall_mem_cons.mp chars
    rw [Mode.after_cons, here.next outside, after_operand rest]

/-- A reference stays as it is, and what is behind it is read as behind an operand. -/
theorem substituteFrom_append (h : IsReference cs) (outside : m.IsOutside) (first : Bool)
    (receiver rest : List Char) :
    substituteFrom receiver first m (cs ++ rest) =
      cs ++ substituteFrom receiver false .operand rest := by
  obtain ⟨nonempty, chars, start⟩ := h
  cases cs with
  | nil => exact absurd rfl nonempty
  | cons c cs =>
    obtain ⟨here, behind⟩ := List.forall_mem_cons.mp chars
    have other : c ≠ '.' := by simpa using start
    have kept : ¬m.isReceiverDot c := by simp [Mode.isReceiverDot, other]
    rw [List.cons_append, substituteFrom, if_neg kept, here.next outside,
      substituteFrom_operand behind]
    rfl

end IsReference

section Paths

variable {settings : Settings} {fieldName : String}

theorem isReferenceChar_of_mem_name {n : String} (h : isNameText n) {c : Char}
    (hc : c ∈ n.toList) : IsReferenceChar c :=
  isReferenceChar_of_isNameChar ((isNameChar_of_isNameText h).2 c hc)

theorem isReferenceChar_of_mem_intercalate {names : List String} (h : ∀ n ∈ names, isNameText n)
    {c : Char} (hc : c ∈ (".".intercalate names).toList) : IsReferenceChar c := by
  match names, h with
  | [], _ => simp at hc
  | [n], h => exact isReferenceChar_of_mem_name (h n (by simp)) (by simpa using hc)
  | n :: n' :: names, h =>
    obtain ⟨here, rest⟩ := List.forall_mem_cons.mp h
    rw [String.intercalate_cons_cons, String.toList_append, String.toList_append, List.mem_append,
      List.mem_append] at hc
    rcases hc with (hc | hc) | hc
    · exact isReferenceChar_of_mem_name here hc
    · exact .inr (by simp_all)
    · exact isReferenceChar_of_mem_intercalate rest hc

theorem IsVariablePath.chars {path : String} (h : IsVariablePath path) :
    ∀ c ∈ path.toList, IsReferenceChar c := by
  obtain ⟨names, isName, rfl⟩ := h
  intro c hc
  rw [String.toList_append, List.mem_append] at hc
  rcases hc with hc | hc
  · exact .inr (by simp_all)
  · exact isReferenceChar_of_mem_intercalate isName hc

/-- A path and one more name. -/
theorem referenceChars_member {cs : List Char} (h : ∀ c ∈ cs, IsReferenceChar c) {n : String}
    (name : isNameText n) : ∀ c ∈ cs ++ '.' :: n.toList, IsReferenceChar c := by
  have member (c : Char) (hc : c ∈ n.toList) : IsReferenceChar c :=
    isReferenceChar_of_mem_name name hc
  have dot : IsReferenceChar '.' := .inr (by simp)
  exact List.forall_mem_append.mpr ⟨h, List.forall_mem_cons.mpr ⟨dot, member⟩⟩

/-- The value of a field, such as `$ctx.args.input.title`, is a reference. -/
theorem isReference_valuePath (root : IsVariablePath settings.inputRoot)
    (name : isNameText fieldName) : IsReference (valuePath settings fieldName).toList := by
  have chars := root.chars
  obtain ⟨names, -, path⟩ := root
  have text : (valuePath settings fieldName).toList =
      settings.inputRoot.toList ++ '.' :: fieldName.toList := by simp [valuePath]
  have dollar : settings.inputRoot.toList = '$' :: (".".intercalate names).toList := by
    simp [path]
  refine ⟨by simp [text], ?_, by simp [text, dollar]⟩
  rw [text]
  exact referenceChars_member chars name

theorem isReference_entryPath (entry : isNameText settings.entryVar) :
    IsReference (entryPath settings).toList := by
  have text : (entryPath settings).toList = '$' :: settings.entryVar.toList := by simp [entryPath]
  refine ⟨by simp [text], fun c hc => ?_, by simp [text]⟩
  rw [text, List.mem_cons] at hc
  rcases hc with rfl | hc
  · exact .inr (by simp)
  · exact isReferenceChar_of_mem_name entry hc

end Paths

end TransformDirective.Receiver
