import Mathlib.Data.List.TakeWhile
import TransformDirective.Proofs.Schema.Rescan

namespace TransformDirective.Number

open TransformDirective.Schema

/-- A marker, perhaps a sign, and digits. -/
structure Exponent.IsShaped (e : Exponent) : Prop where
  marker : e.marker = 'e' ∨ e.marker = 'E'
  sign : e.sign = [] ∨ e.sign = ['+'] ∨ e.sign = ['-']
  digits : ∀ d ∈ e.digits, d.isDigit

/-- A minus sign or digit, digits, and perhaps a fraction and an exponent. -/
structure Numeral.IsShaped (n : Numeral) : Prop where
  first : n.first = '-' ∨ n.first.isDigit
  more : ∀ d ∈ n.more, d.isDigit
  fraction : ∀ ds ∈ n.fraction, ∀ d ∈ ds, d.isDigit
  exponent : ∀ e ∈ n.exponent, e.IsShaped

/-- The text has the shape of a number, and no longer text at the front of the input has it. -/
structure Numeral.IsLongest (n : Numeral) (input : List Char) : Prop where
  shape : n.IsShaped
  front : n.text <+: input
  longest : ∀ m : Numeral, m.IsShaped → m.text <+: input → m.text <+: n.text

section Shape

variable {e : Option Exponent} {f : Option (List Char)} {n m : Numeral}

theorem head_exponentText (h : ∀ x ∈ e, x.IsShaped) :
    ∀ c ∈ (exponentText e).head?, c = 'e' ∨ c = 'E' := by
  cases e with
  | none => nofun
  | some x =>
    intro c hc
    obtain rfl : x.marker = c := Option.some.inj hc
    exact (h x rfl).marker

theorem head_fractionText (h : ∀ x ∈ e, x.IsShaped) :
    ∀ c ∈ (fractionText f ++ exponentText e).head?, c = '.' ∨ c = 'e' ∨ c = 'E' := by
  cases f with
  | none => exact fun c hc => .inr (head_exponentText h c hc)
  | some ds => exact fun c hc => .inl (Option.some.inj hc).symm

theorem Exponent.IsShaped.takeSign {x : Exponent} (h : x.IsShaped) :
    takeSign (x.sign ++ x.digits) = (x.sign, x.digits) := by
  obtain none | plus | minus := h.sign
  · rw [none]
    apply takeSign_other
    intro c hc
    have digit := h.digits c (List.mem_of_mem_head? hc)
    constructor
    · rintro rfl
      cases digit
    · rintro rfl
      cases digit
  · rw [plus]
    rfl
  · rw [minus]
    rfl

/-- An exponent is taken as it was written. -/
theorem takeExponent_shaped (h : ∀ x ∈ e, x.IsShaped) : takeExponent (exponentText e) = (e, []) := by
  cases e with
  | none => rfl
  | some x =>
    have shape := h x rfl
    have run : x.digits.takeWhile Char.isDigit = x.digits :=
      List.takeWhile_eq_self_iff.mpr shape.digits
    have stop : x.digits.dropWhile Char.isDigit = [] := List.dropWhile_eq_nil_iff.mpr shape.digits
    simp only [exponentText, Option.elim_some, Exponent.text, List.cons_append, takeExponent,
      if_pos shape.marker, shape.takeSign, run, stop]

/-- A fraction is taken as it was written, up to the exponent. -/
theorem takeFraction_shaped (hf : ∀ ds ∈ f, ∀ d ∈ ds, d.isDigit) (he : ∀ x ∈ e, x.IsShaped) :
    takeFraction (fractionText f ++ exponentText e) = (f, exponentText e) := by
  have marker := head_exponentText he
  cases f with
  | none =>
    apply takeFraction_other
    intro c hc
    obtain rfl | rfl := marker c hc
    all_goals decide
  | some ds =>
    have stop : ∀ c ∈ (exponentText e).head?, c.isDigit = false := by
      intro c hc
      obtain rfl | rfl := marker c hc
      all_goals rfl
    simp only [fractionText, Option.elim_some, List.cons_append, takeFraction,
      takeWhile_run (hf ds rfl) stop, dropWhile_run (hf ds rfl) stop]

/-- What has the shape of a number is taken whole from its own text. -/
theorem Numeral.IsShaped.take (h : n.IsShaped) : Numeral.take n.first n.text.tail = (n, []) := by
  have stop : ∀ c ∈ (Schema.fractionText n.fraction ++ exponentText n.exponent).head?,
      c.isDigit = false := by
    intro c hc
    obtain rfl | rfl | rfl := head_fractionText h.exponent c hc
    all_goals rfl
  have text : n.text.tail = n.more ++ (Schema.fractionText n.fraction ++ exponentText n.exponent) := by
    simp [Numeral.text, Numeral.fractionText, Schema.fractionText, exponentText]
  rw [text]
  simp only [Numeral.take, takeWhile_run h.more stop, dropWhile_run h.more stop,
    takeFraction_shaped h.fraction h.exponent, takeExponent_shaped h.exponent]

/-- The parts of a number are told by its text. -/
theorem Numeral.IsShaped.ext (hm : m.IsShaped) (hn : n.IsShaped) (h : m.text = n.text) : m = n := by
  have first : m.first = n.first := (List.cons.inj h).1
  have taken := hm.take
  rw [h, first, hn.take] at taken
  exact (congrArg Prod.fst taken).symm

/-- The parts of the longest number are told by its text. -/
theorem Numeral.IsLongest.unique {input : List Char} (hm : m.IsLongest input)
    (hn : n.IsLongest input) : m = n := by
  have shorter := hn.longest m hm.shape hm.front
  have longer := hm.longest n hn.shape hn.front
  exact hm.shape.ext hn.shape (shorter.eq_of_length_le longer.length_le)

end Shape

section Taken

theorem takeSign_cases (cs : List Char) :
    (takeSign cs).1 = [] ∨ (takeSign cs).1 = ['+'] ∨ (takeSign cs).1 = ['-'] := by
  unfold takeSign
  split
  · split
    · next sign =>
      obtain rfl | rfl := sign
      · exact .inr (.inl rfl)
      · exact .inr (.inr rfl)
    · exact .inl rfl
  · exact .inl rfl

theorem isShaped_takeExponent (cs : List Char) : ∀ x ∈ (takeExponent cs).1, x.IsShaped := by
  unfold takeExponent
  split
  · split
    · next marker =>
      intro x hx
      obtain rfl := Option.some.inj hx
      exact ⟨marker, takeSign_cases _, fun _ => List.mem_takeWhile_imp⟩
    · nofun
  · nofun

theorem isDigit_takeFraction (cs : List Char) : ∀ ds ∈ (takeFraction cs).1, ∀ d ∈ ds, d.isDigit := by
  unfold takeFraction
  split
  · intro ds hds
    obtain rfl := Option.some.inj hds
    exact fun _ => List.mem_takeWhile_imp
  · nofun

variable {c : Char} (first : c = '-' ∨ c.isDigit) (cs : List Char)
include first

/-- What is taken has the shape of a number, wherever it ends. -/
theorem isShaped_take : (Numeral.take c cs).1.IsShaped :=
  ⟨first, fun _ => List.mem_takeWhile_imp, isDigit_takeFraction _, isShaped_takeExponent _⟩

/-- The number that is taken is the longest one: taken again from a longer text, it would leave
something of that text. -/
theorem isLongest_take : (Numeral.take c cs).1.IsLongest (c :: cs) := by
  have whole := Numeral.take_append c cs
  refine ⟨isShaped_take first cs, ⟨_, whole⟩, fun m shape ⟨behind, other⟩ => ?_⟩
  obtain shorter | ⟨more, longer⟩ :=
    List.prefix_or_prefix_of_prefix ⟨behind, other⟩ ⟨_, whole⟩
  · exact shorter
  · have rest : (Numeral.take c cs).2 = more ++ behind := by
      rw [← longer, List.append_assoc, ← whole] at other
      exact (List.append_cancel_left other).symm
    have again := numeral_retakes c cs more (rest ▸ .cut more behind)
    have taken := shape.take
    have tail : m.text.tail = (Numeral.take c cs).1.text.tail ++ more := by
      rw [← longer]
      rfl
    have start : m.first = c := (List.cons.inj other).1
    rw [tail, start, again] at taken
    obtain ⟨rfl, rfl⟩ := Prod.mk.inj taken
    exact List.prefix_rfl

end Taken

end TransformDirective.Number
