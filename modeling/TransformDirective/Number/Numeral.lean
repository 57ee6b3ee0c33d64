namespace TransformDirective.Number

/-- A number of the 64-bit binary format, as its bits. -/
structure Binary64 where
  bits : UInt64
  deriving DecidableEq, Repr

/-- The quotient rounded to nearest, a tie to the even neighbour. -/
def roundQuotient (num den : Nat) : Nat :=
  let q := num / den
  let r := num % den
  if 2 * r < den then q
  else if den < 2 * r then q + 1
  else if q % 2 = 0 then q else q + 1

/-- The greatest power of two that is at most the positive quotient. -/
def floorLog2 (num den : Nat) : Int :=
  let l : Int := (num.log2 : Int) - den.log2
  if den <<< l.toNat ≤ num <<< (-l).toNat then l else l - 1

/-- The bits of the magnitude nearest to a positive quotient. Significand and exponent field are
added, so a significand that rounds up to the next power of two carries into the exponent. -/
def magnitudeBits (num den : Nat) : Nat :=
  let e : Int := max (floorLog2 num den - 52) (-1074)
  let significand := roundQuotient (num <<< (-e).toNat) (den <<< e.toNat)
  min ((e + 1074).toNat <<< 52 + significand) (0x7FF <<< 52)

/-- The magnitude nearest to `digits · 10 ^ exponent`, where `digits` is below `10 ^ places`. The
first two cases are decided by the exponent alone, so no huge power is formed. -/
def decimalBits (digits places : Nat) (exponent : Int) : Nat :=
  if digits = 0 then 0
  else if 310 < exponent then 0x7FF <<< 52
  else if places + exponent < -330 then 0
  else magnitudeBits (digits * Nat.pow 10 exponent.toNat) (Nat.pow 10 (-exponent).toNat)

/-- The number nearest to `± digits · 10 ^ exponent`; the sign is kept on zero. -/
def Binary64.ofDecimal (negative : Bool) (digits places : Nat) (exponent : Int) : Binary64 :=
  let sign : Nat := if negative then 1 <<< 63 else 0
  ⟨(sign + decimalBits digits places exponent).toUInt64⟩

/-- The exponent of a numeral: its marker, its sign and its digits. -/
structure Exponent where
  marker : Char
  sign : List Char
  digits : List Char
  deriving DecidableEq, Repr

/-- The shape of a number: a minus sign or digit, digits, and perhaps a fraction and an exponent,
either of which may lack digits. -/
structure Numeral where
  first : Char
  more : List Char
  fraction : Option (List Char)
  exponent : Option Exponent
  deriving DecidableEq, Repr

def digitsValue (ds : List Char) : Nat := ds.foldl (fun n d => 10 * n + (d.toNat - '0'.toNat)) 0

def takeFraction : List Char → Option (List Char) × List Char
  | '.' :: cs => (some (cs.takeWhile Char.isDigit), cs.dropWhile Char.isDigit)
  | cs => (none, cs)

def takeSign : List Char → List Char × List Char
  | c :: cs => if c = '+' ∨ c = '-' then ([c], cs) else ([], c :: cs)
  | [] => ([], [])

def takeExponent : List Char → Option Exponent × List Char
  | c :: cs =>
    if c = 'e' ∨ c = 'E' then
      let s := takeSign cs
      (some ⟨c, s.1, s.2.takeWhile Char.isDigit⟩, s.2.dropWhile Char.isDigit)
    else (none, c :: cs)
  | [] => (none, [])

namespace Exponent

def text (e : Exponent) : List Char := e.marker :: e.sign ++ e.digits

def withSmallMarker (e : Exponent) : Exponent := { e with marker := 'e' }

/-- The power of ten. -/
def value (e : Exponent) : Int :=
  if e.sign = ['-'] then -(digitsValue e.digits : Int) else digitsValue e.digits

end Exponent

namespace Numeral

def fractionText (n : Numeral) : List Char := n.fraction.elim [] ('.' :: ·)

def text (n : Numeral) : List Char :=
  n.first :: n.more ++ n.fractionText ++ n.exponent.elim [] Exponent.text

/-- The numeral as messages quote it, with a small exponent marker. -/
def quotedText (n : Numeral) : List Char :=
  text { n with exponent := n.exponent.map Exponent.withSmallMarker }

/-- The longest numeral that starts with `first` and goes on in `cs`, and the characters left. -/
def take (first : Char) (cs : List Char) : Numeral × List Char :=
  let f := takeFraction (cs.dropWhile Char.isDigit)
  let e := takeExponent f.2
  (⟨first, cs.takeWhile Char.isDigit, f.1, e.1⟩, e.2)

def isNegative (n : Numeral) : Bool := n.first == '-'

/-- The digits before the fraction. -/
def whole (n : Numeral) : List Char := if n.isNegative then n.more else n.first :: n.more

/-- All digits of the significand. -/
def digits (n : Numeral) : List Char := n.whole ++ n.fraction.getD []

/-- The numeral has neither fraction nor exponent. -/
def isInteger (n : Numeral) : Bool := n.fraction.isNone && n.exponent.isNone

def intValue (n : Numeral) : Int :=
  if n.isNegative then -(digitsValue n.whole : Int) else digitsValue n.whole

/-- The fractional number rounded to the binary format. -/
def floatValue (n : Numeral) : Binary64 :=
  .ofDecimal n.isNegative (digitsValue n.digits) n.digits.length
    (n.exponent.elim 0 Exponent.value - (n.fraction.getD []).length)

end Numeral

theorem takeFraction_append (cs : List Char) :
    (takeFraction cs).1.elim [] ('.' :: ·) ++ (takeFraction cs).2 = cs := by
  unfold takeFraction
  split <;> simp

theorem takeSign_append (cs : List Char) : (takeSign cs).1 ++ (takeSign cs).2 = cs := by
  unfold takeSign
  split
  · split <;> rfl
  · rfl

theorem takeExponent_append (cs : List Char) :
    (takeExponent cs).1.elim [] Exponent.text ++ (takeExponent cs).2 = cs := by
  unfold takeExponent
  split
  · next c cs =>
    split
    · simp only [Option.elim_some, Exponent.text, List.cons_append, List.append_assoc,
        List.takeWhile_append_dropWhile, takeSign_append]
    · rfl
  · rfl

/-- A numeral and what it leaves make up the text again. -/
theorem Numeral.take_append (first : Char) (cs : List Char) :
    (Numeral.take first cs).1.text ++ (Numeral.take first cs).2 = first :: cs := by
  simp only [Numeral.take, Numeral.text, Numeral.fractionText, List.cons_append, List.append_assoc,
    takeExponent_append, takeFraction_append, List.takeWhile_append_dropWhile]

end TransformDirective.Number
