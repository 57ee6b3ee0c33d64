import Mathlib.Data.List.Forall2
import Mathlib.Data.Nat.Digits.Defs
import Mathlib.Tactic.Ring
import TransformDirective.Number.Numeral
import TransformDirective.Text.Character

namespace TransformDirective.Number

open TransformDirective.Text

/-- The character is a digit of the base; the digits behind nine are letters of either case. -/
def IsDigitOf (base : Nat) (d : Char) (k : Nat) : Prop :=
  k < base ∧ (d = Nat.digitChar k ∨ d = (Nat.digitChar k).toUpper)

instance (base : Nat) (d : Char) (k : Nat) : Decidable (IsDigitOf base d k) :=
  inferInstanceAs (Decidable (_ ∧ _))

def AreDigitsOf (base : Nat) (ds : List Char) : Prop := ∀ d ∈ ds, ∃ k, IsDigitOf base d k

/-- The digits write the number in the base, the most significant digit first. -/
def Writes (base : Nat) (ds : List Char) (n : Nat) : Prop :=
  ∃ ks, List.Forall₂ (IsDigitOf base) ds ks ∧ n = Nat.ofDigits base ks.reverse

section Fold

variable {base : Nat} {value : Char → Nat} {ds : List Char} {ks : List Nat}

theorem foldl_digits (h : List.Forall₂ (fun d k => value d = k) ds ks) (a : Nat) :
    ds.foldl (fun n d => base * n + value d) a =
      Nat.ofDigits base ks.reverse + base ^ ks.length * a := by
  induction h generalizing a with
  | nil => simp
  | @cons d k ds ks first _ ih =>
    rw [List.foldl_cons, ih, List.reverse_cons, Nat.ofDigits_append, Nat.ofDigits_singleton,
      List.length_reverse, List.length_cons, first]
    ring

/-- Reading digit by digit gives the number that is written. -/
theorem writes_iff (digit : ∀ {d k}, IsDigitOf base d k → value d = k) {n : Nat}
    (h : AreDigitsOf base ds) :
    Writes base ds n ↔ n = ds.foldl (fun n d => base * n + value d) 0 := by
  have read {ks : List Nat} (hks : List.Forall₂ (IsDigitOf base) ds ks) :
      ds.foldl (fun n d => base * n + value d) 0 = Nat.ofDigits base ks.reverse := by
    rw [foldl_digits (hks.imp fun _ _ => digit), Nat.mul_zero, Nat.add_zero]
  constructor
  · rintro ⟨ks, hks, rfl⟩
    exact (read hks).symm
  · rintro rfl
    have all : List.Forall₂ (IsDigitOf base) ds (ds.map value) := by
      rw [List.forall₂_map_right_iff, List.forall₂_same]
      intro d hd
      obtain ⟨k, hk⟩ := h d hd
      rwa [digit hk]
    exact ⟨_, all, read all⟩

theorem Writes.digits {n : Nat} (h : Writes base ds n) : AreDigitsOf base ds := by
  obtain ⟨ks, hks, -⟩ := h
  induction hks with
  | nil => exact fun d hd => nomatch hd
  | cons first _ ih => exact List.forall_mem_cons.mpr ⟨⟨_, first⟩, ih⟩

/-- The number is below the least one that takes one more digit. -/
theorem Writes.lt_pow {n : Nat} (h : Writes base ds n) (some : 1 < base) :
    n < base ^ ds.length := by
  obtain ⟨ks, hks, rfl⟩ := h
  have length := hks.length_eq
  have below : ∀ k ∈ ks, k < base := by
    induction hks with
    | nil => exact fun k hk => nomatch hk
    | cons first _ ih => exact List.forall_mem_cons.mpr ⟨first.1, ih (Nat.succ.inj length)⟩
  have bound : Nat.ofDigits base ks.reverse < base ^ ks.reverse.length :=
    Nat.ofDigits_lt_base_pow_length some fun k hk => below k (List.mem_reverse.mp hk)
  rwa [List.length_reverse, ← length] at bound

end Fold

section Decimal

variable {d : Char} {k n : Nat} {ds : List Char}

theorem decimal_of_isDigitOf (h : IsDigitOf 10 d k) : d.isDigit ∧ d.toNat - '0'.toNat = k := by
  obtain ⟨small, same⟩ := h
  have check : ∀ k < 10, (Nat.digitChar k).isDigit ∧ (Nat.digitChar k).toNat - '0'.toNat = k ∧
      (Nat.digitChar k).toUpper = Nat.digitChar k := by decide
  obtain ⟨digit, value, upper⟩ := check k small
  rw [upper, or_self] at same
  rw [same]
  exact ⟨digit, value⟩

theorem exists_digitChar (h : d.isDigit) : ∃ k < 10, d = Nat.digitChar k := by
  have check : ∀ n < 58, (Char.ofNat n).isDigit → ∃ k < 10, Char.ofNat n = Nat.digitChar k := by
    decide
  have small : d.toNat < 58 := by
    have bounds := Bool.and_eq_true_iff.mp h
    have high : d.toNat ≤ 57 := of_decide_eq_true bounds.2
    omega
  have digit := check d.toNat small (by rwa [Char.ofNat_toNat])
  rwa [Char.ofNat_toNat] at digit

theorem isDigitOf_of_isDigit (h : d.isDigit) : ∃ k, IsDigitOf 10 d k := by
  obtain ⟨k, small, same⟩ := exists_digitChar h
  exact ⟨k, small, .inl same⟩

/-- What is read digit by digit is the number that the decimal digits write. -/
theorem writes_decimal_iff (h : ∀ d ∈ ds, d.isDigit) : Writes 10 ds n ↔ n = digitsValue ds :=
  writes_iff (fun digit => (decimal_of_isDigitOf digit).2) fun d hd => isDigitOf_of_isDigit (h d hd)

end Decimal

section Hexadecimal

variable {d : Char} {k n : Nat} {ds : List Char}

theorem hexDigit?_of_isDigitOf (h : IsDigitOf 16 d k) : hexDigit? d = some k := by
  obtain ⟨small, same⟩ := h
  have check : ∀ k < 16, hexDigit? (Nat.digitChar k) = some k ∧
      hexDigit? (Nat.digitChar k).toUpper = some k := by decide
  obtain ⟨lower, upper⟩ := check k small
  obtain rfl | rfl := same
  · exact lower
  · exact upper

theorem isDigitOf_of_hexDigit? (h : (hexDigit? d).isSome) : ∃ k, IsDigitOf 16 d k := by
  have check : ∀ n < 103, (hexDigit? (Char.ofNat n)).isSome →
      ∃ k < 16, IsDigitOf 16 (Char.ofNat n) k := by decide
  have small : d.toNat < 103 := by
    unfold hexDigit? at h
    split at h
    · next digit =>
      have bounds := Bool.and_eq_true_iff.mp digit
      have high : d.toNat ≤ 57 := of_decide_eq_true bounds.2
      omega
    · split at h
      · next lower =>
        have high : d.toNat ≤ 102 := lower.2
        omega
      · split at h
        · next upper =>
          have high : d.toNat ≤ 70 := upper.2
          omega
        · cases h
  obtain ⟨k, -, digit⟩ := check d.toNat small (by rwa [Char.ofNat_toNat])
  rw [Char.ofNat_toNat] at digit
  exact ⟨k, digit⟩

theorem hexDigit?_eq_none_iff : hexDigit? d = none ↔ ∀ k, ¬IsDigitOf 16 d k := by
  constructor
  · intro none k digit
    rw [hexDigit?_of_isDigitOf digit] at none
    cases none
  · intro other
    by_contra some
    obtain ⟨k, digit⟩ := isDigitOf_of_hexDigit? (Option.isSome_iff_ne_none.mpr some)
    exact other k digit

theorem scalar?_toNat (c : Char) : scalar? c.toNat = some c := by
  have valid : c.toNat.isValidChar := c.valid
  rw [scalar?, dif_pos valid]
  rfl

/-- What is read digit by digit is the number that the hexadecimal digits write. -/
theorem writes_hex_iff (h : AreDigitsOf 16 ds) : Writes 16 ds n ↔ n = hexValue ds :=
  writes_iff (fun digit => by rw [hexDigit?_of_isDigitOf digit, Option.getD_some]) h

end Hexadecimal

end TransformDirective.Number
