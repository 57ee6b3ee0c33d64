import Mathlib.Data.List.Forall2
import TransformDirective.Proofs.Receiver.Literals

namespace TransformDirective.Receiver

open TransformDirective.Text

/-- The character at a place is a dot that stands for the receiver: it is outside literals and does
not continue what is in front of it. -/
structure IsReceiverDot (cs : List Char) (i : Nat) : Prop where
  dot : cs[i]? = some '.'
  outside : Outside (cs.take i)
  fresh : ¬Continued (cs.take i)

/-- Which dots stand for the receiver is told by the mode in front of them. -/
theorem isReceiverDot_iff (cs : List Char) (i : Nat) : IsReceiverDot cs i ↔
    cs[i]? = some '.' ∧ Mode.chainStart.after (cs.take i) = .chainStart := by
  rw [after_eq_chainStart_iff]
  exact ⟨fun h => ⟨h.dot, h.outside, h.fresh⟩, fun ⟨dot, outside, fresh⟩ => ⟨dot, outside, fresh⟩⟩

instance (cs : List Char) (i : Nat) : Decidable (IsReceiverDot cs i) :=
  decidable_of_iff _ (isReceiverDot_iff cs i).symm

/-- What the character at a place becomes. -/
def imageAt (receiver cs : List Char) (i : Nat) : List Char :=
  if IsReceiverDot cs i then
    match cs[i + 1]? with
    | some c =>
      if isAlphabetic c ∨ c = '_' then receiver ++ ['.']
      else if c.isDigit then if i = 0 then receiver ++ ['.'] else ['.']
      else receiver
    | none => receiver
  else cs[i]?.toList

/-- What the characters from a place on become. -/
def images (receiver cs : List Char) (start count : Nat) : List Char :=
  (List.range' start count).flatMap (imageAt receiver cs)

section Images

variable (receiver : List Char)

theorem imageAt_length (front : List Char) (c : Char) (cs : List Char) :
    imageAt receiver (front ++ c :: cs) front.length =
      if (Mode.chainStart.after front).isReceiverDot c then
        receiverDot receiver front.isEmpty cs
      else [c] := by
  have here : (front ++ c :: cs)[front.length]? = some c := by simp
  have behind : (front ++ c :: cs)[front.length + 1]? = cs.head? := by
    cases cs <;> simp
  have dot : IsReceiverDot (front ++ c :: cs) front.length ↔
      (Mode.chainStart.after front).isReceiverDot c := by
    rw [isReceiverDot_iff, here, List.take_left]
    simp [Mode.isReceiverDot, and_comm]
  unfold imageAt
  simp only [dot, here, behind]
  refine if_congr Iff.rfl ?_ rfl
  cases cs with
  | nil => rfl
  | cons d cs => simp [receiverDot, startsName]

/-- Reading on behind a text writes the images of the places behind it. -/
theorem substituteFrom_eq_images (front cs : List Char) :
    substituteFrom receiver front.isEmpty (Mode.chainStart.after front) cs =
      images receiver (front ++ cs) front.length cs.length := by
  induction cs generalizing front with
  | nil => rfl
  | cons c cs ih =>
    have rest := ih (front ++ [c])
    have text : front ++ [c] ++ cs = front ++ c :: cs := by simp
    have later : (front ++ [c]).isEmpty = false := by simp
    rw [text, later, Mode.after_append, List.length_append] at rest
    rw [substituteFrom, images, List.length_cons, List.range'_succ, List.flatMap_cons,
      imageAt_length]
    exact congrArg (_ ++ ·) rest

/-- A substitution writes the image of each character, one behind the other. -/
theorem toList_substitute (expression receiver : String) :
    (substitute expression receiver).toList =
      images receiver.toList expression.toList 0 expression.toList.length := by
  unfold substitute
  rw [String.toList_ofList]
  exact substituteFrom_eq_images receiver.toList [] expression.toList

theorem images_add (cs : List Char) (start m n : Nat) :
    images receiver cs start (m + n) =
      images receiver cs start m ++ images receiver cs (start + m) n := by
  unfold images
  rw [← List.flatMap_append, List.range'_append_1]

theorem imageAt_inside {cs : List Char} {i : Nat} (h : ¬Outside (cs.take i)) :
    imageAt receiver cs i = cs[i]?.toList :=
  if_neg fun dot => h dot.outside

/-- The inside of a literal is kept. -/
theorem images_inside (front inside back : List Char)
    (h : ∀ k < inside.length, ¬Outside (front ++ inside.take k)) :
    images receiver (front ++ inside ++ back) front.length inside.length = inside := by
  induction inside generalizing front with
  | nil => rfl
  | cons c inside ih =>
    have text : front ++ c :: inside ++ back = front ++ [c] ++ inside ++ back := by simp
    have rest := ih (front ++ [c]) fun k hk => by
      have further := h (k + 1) (Nat.succ_lt_succ hk)
      rwa [List.take_succ_cons, List.append_cons] at further
    have here : imageAt receiver (front ++ c :: inside ++ back) front.length = [c] := by
      have before := h 0 (Nat.zero_lt_succ _)
      rw [imageAt_inside]
      · simp
      · simpa using before
    rw [List.length_append] at rest
    rw [images, List.length_cons, List.range'_succ, List.flatMap_cons, here, text]
    exact congrArg (c :: ·) rest

/-- A stretch inside literals stays as it is. -/
theorem images_around (front inside back : List Char)
    (h : ∀ k < inside.length, ¬Outside (front ++ inside.take k)) :
    let cs := front ++ inside ++ back
    images receiver cs 0 cs.length =
      images receiver cs 0 front.length ++ inside ++
        images receiver cs (front.length + inside.length) back.length := by
  intro cs
  have kept := images_inside receiver front inside back h
  have length : cs.length = front.length + inside.length + back.length := by
    simp only [cs, List.length_append]
  rw [length, images_add, images_add, Nat.zero_add, Nat.zero_add, kept]

end Images

/-- The characters are the same up to the kind of a bracket: both open or both close. -/
def Alike (c d : Char) : Prop :=
  c = d ∨ ((closing? c).isSome ∧ (closing? d).isSome) ∨ ((opening? c).isSome ∧ (opening? d).isSome)

section Brackets

variable {c d : Char} {cs ds : List Char}

/-- A character that neither belongs to a literal or a name nor is a dot. -/
structure Neutral (c : Char) : Prop where
  quote : isQuote c = false
  backslash : c ≠ '\\'
  dot : c ≠ '.'
  name : startsName c = false
  digit : c.isDigit = false

theorem opening_cases (h : (closing? c).isSome) : c = '(' ∨ c = '[' ∨ c = '{' := by
  unfold closing? at h
  split at h <;> simp_all

theorem closing_cases (h : (opening? c).isSome) : c = ')' ∨ c = ']' ∨ c = '}' := by
  unfold opening? at h
  split at h <;> simp_all

theorem neutral_opening (h : (closing? c).isSome) : Neutral c ∧ endsOperand c = false := by
  rcases opening_cases h with rfl | rfl | rfl <;>
    refine ⟨⟨?_, ?_, ?_, ?_, ?_⟩, ?_⟩ <;> decide +kernel

theorem neutral_closing (h : (opening? c).isSome) : Neutral c ∧ endsOperand c = true := by
  rcases closing_cases h with rfl | rfl | rfl <;>
    refine ⟨⟨?_, ?_, ?_, ?_, ?_⟩, ?_⟩ <;> decide +kernel

/-- Characters that are alike are equal or say the same about the next mode. -/
theorem Alike.eq_or_neutral (h : Alike c d) :
    c = d ∨ Neutral c ∧ Neutral d ∧ endsOperand c = endsOperand d := by
  rcases h with same | ⟨hc, hd⟩ | ⟨hc, hd⟩
  · exact .inl same
  · obtain ⟨neutral, ends⟩ := neutral_opening hc
    obtain ⟨neutral', ends'⟩ := neutral_opening hd
    exact .inr ⟨neutral, neutral', ends.trans ends'.symm⟩
  · obtain ⟨neutral, ends⟩ := neutral_closing hc
    obtain ⟨neutral', ends'⟩ := neutral_closing hd
    exact .inr ⟨neutral, neutral', ends.trans ends'.symm⟩

/-- The mode behind a bracket does not depend on its kind. -/
theorem Alike.next {m : Mode} {front : List Char} (tells : m.Tells front) (h : Alike c d) :
    m.next c = m.next d := by
  rcases h.eq_or_neutral with rfl | ⟨hc, hd, ends⟩
  · rfl
  match m, tells with
  | .chainStart, _ => simp [Mode.next, hc.quote, hd.quote, ends]
  | .operand, _ => simp [Mode.next, hc.quote, hd.quote, ends]
  | .literal q true, _ => rfl
  | .literal q false, ⟨_, _, _, quote, _, _⟩ =>
    have other : c ≠ q := by
      rintro rfl
      simp [hc.quote] at quote
    have other' : d ≠ q := by
      rintro rfl
      simp [hd.quote] at quote
    simp [Mode.next, hc.backslash, hd.backslash, other, other']

theorem Alike.receiverDot (receiver : List Char) (first : Bool) (h : List.Forall₂ Alike cs ds) :
    receiverDot receiver first cs = receiverDot receiver first ds := by
  cases h with
  | nil => rfl
  | cons here _ =>
    rcases here.eq_or_neutral with rfl | ⟨hc, hd, -⟩
    · rfl
    · simp [Receiver.receiverDot, hc.name, hd.name, hc.digit, hd.digit]

theorem Alike.isReceiverDot (h : Alike c d) (m : Mode) : m.isReceiverDot c = m.isReceiverDot d := by
  rcases h.eq_or_neutral with rfl | ⟨hc, hd, -⟩
  · rfl
  · have left : (c == '.') = false := beq_false_of_ne hc.dot
    have right : (d == '.') = false := beq_false_of_ne hd.dot
    rw [Mode.isReceiverDot, Mode.isReceiverDot, left, right]

/-- Expressions that are alike become alike, whether their brackets fit or not. -/
theorem substituteFrom_alike (receiver : List Char) {m : Mode} {front : List Char}
    (tells : m.Tells front) (first : Bool) (h : List.Forall₂ Alike cs ds) :
    List.Forall₂ Alike (substituteFrom receiver first m cs)
      (substituteFrom receiver first m ds) := by
  induction h generalizing m front first with
  | nil => exact .nil
  | @cons c d cs ds here rest ih =>
    have later := ih (tells.next c) false
    rw [substituteFrom, substituteFrom, ← here.next tells, ← here.isReceiverDot m]
    refine List.rel_append ?_ later
    by_cases dot : m.isReceiverDot c = true
    · rw [if_pos dot, if_pos dot, Alike.receiverDot receiver first rest]
      exact List.forall₂_same.mpr fun e _ => .inl rfl
    · rw [if_neg dot, if_neg dot]
      exact .cons here .nil

end Brackets

/-- Every character becomes its image, what stands in literals is kept, and brackets of another kind
make no difference. -/
theorem substitute_local (expression receiver : String) :
    (substitute expression receiver).toList =
      images receiver.toList expression.toList 0 expression.toList.length ∧
    (∀ front inside back, expression.toList = front ++ inside ++ back →
      (∀ k < inside.length, ¬Outside (front ++ inside.take k)) →
      (substitute expression receiver).toList =
        images receiver.toList expression.toList 0 front.length ++ inside ++
          images receiver.toList expression.toList (front.length + inside.length) back.length) ∧
    ∀ other : String, List.Forall₂ Alike expression.toList other.toList →
      List.Forall₂ Alike (substitute expression receiver).toList
        (substitute other receiver).toList := by
  have whole := toList_substitute expression receiver
  refine ⟨whole, fun front inside back split literal => ?_, fun other alike => ?_⟩
  · have kept := images_around receiver.toList front inside back literal
    rw [← split] at kept
    exact whole.trans kept
  · unfold substitute
    rw [String.toList_ofList, String.toList_ofList]
    exact substituteFrom_alike receiver.toList (Mode.tells_after []) true alike

example : substitute ".5*.5*.a" "$x" = "$x.5*.5*$x.a" := by decide +kernel

/-- A literal with an escaped quote, and the same expression with a bracket that does not fit. -/
theorem substitute_local_two_brackets :
    let expression := "[.a,'.b\\'.c',.5]"
    let other := "(.a,'.b\\'.c',.5]"
    let front := "[.a,'".toList
    let inside := ".b\\'.c".toList
    let back := "',.5]".toList
    let image := images "$x".toList expression.toList
    expression.toList = front ++ inside ++ back ∧
    (∀ k < inside.length, ¬Outside (front ++ inside.take k)) ∧
    List.Forall₂ Alike expression.toList other.toList ∧
    balance expression = .balanced ∧ balance other = .unbalanced 15 ∧
    (substitute expression "$x").toList =
      image 0 front.length ++ inside ++ image (front.length + inside.length) back.length ∧
    List.Forall₂ Alike (substitute expression "$x").toList (substitute other "$x").toList := by
  intro expression other front inside back image
  have split : expression.toList = front ++ inside ++ back := by decide
  have literal : ∀ k < inside.length, ¬Outside (front ++ inside.take k) := by decide +kernel
  have opening : Alike '[' '(' := .inr (.inl ⟨rfl, rfl⟩)
  have alike : List.Forall₂ Alike expression.toList other.toList := by
    have left : expression.toList = '[' :: other.toList.tail := by decide
    have right : other.toList = '(' :: other.toList.tail := by decide
    rw [left, right]
    exact .cons opening (List.forall₂_same.mpr fun c _ => Or.inl rfl)
  obtain ⟨-, kept, brackets⟩ := substitute_local expression "$x"
  exact ⟨split, literal, alike, by decide +kernel, by decide +kernel,
    kept front inside back split literal, brackets other alike⟩

end TransformDirective.Receiver
