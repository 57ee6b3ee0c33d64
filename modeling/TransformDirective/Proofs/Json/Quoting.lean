import TransformDirective.Json.Text
import TransformDirective.Proofs.Number.Positional

namespace TransformDirective.Json

open TransformDirective.Text TransformDirective.Number

/-- In front of any other pieces the piece is read as this character. -/
def StandsFor (p : Piece) (c : Char) : Prop :=
  ∀ ps, piecesText? (p :: ps) = (piecesText? ps).map (c :: ·)

/-- A character between two quotes stands for itself. -/
theorem char_standsFor (c : Char) : StandsFor (.char c) c := fun _ => rfl

/-- The UTF-16 unit of a control character stands for it, as it is no half of a surrogate pair. -/
theorem unit_standsFor {c : Char} (h : c < ' ') : StandsFor (.unit c.toNat) c := by
  have small : c.toNat < 32 := h
  have notHigh : isHighSurrogate c.toNat = false := by
    rw [isHighSurrogate, decide_eq_false (by omega), Bool.false_and]
  intro ps
  cases ps with
  | nil => simp [piecesText?, scalar?_toNat]
  | cons q ps =>
    cases q with
    | char d => simp [piecesText?, scalar?_toNat]
    | unit m => simp [piecesText?, pairChar?, notHigh, scalar?_toNat]

theorem scanPieces?_hex {n : Nat} (h : n < 32) (cs : List Char) :
    scanPieces? .plain ('\\' :: 'u' :: '0' :: '0' :: Nat.digitChar (n / 16) ::
      Nat.digitChar (n % 16) :: cs) = (scanPieces? .plain cs).map (pushPiece (.unit n)) := by
  have zero : hexDigit? '0' = some 0 := by decide
  have digit {k : Nat} (small : k < 16) : hexDigit? (Nat.digitChar k) = some k :=
    hexDigit?_of_isDigitOf ⟨small, .inl rfl⟩
  have high := digit (k := n / 16) (by omega)
  have low := digit (k := n % 16) (by omega)
  have written : hexValue ['0', '0', Nat.digitChar (n / 16), Nat.digitChar (n % 16)] = n := by
    simp only [hexValue, List.foldl_cons, List.foldl_nil, zero, high, low, Option.getD_some]
    omega
  simp [scanPieces?, zero, high, low, written]

theorem scanPieces?_short {d c : Char} (notHex : d ≠ 'u') (h : shortEscape? d = some c)
    (cs : List Char) : scanPieces? .plain ('\\' :: d :: cs) =
      (scanPieces? .plain cs).map (pushPiece (.char c)) := by
  simp [scanPieces?, notHex, h]

theorem scanPieces?_char {c : Char} (quote : c ≠ '"') (backslash : c ≠ '\\') (control : ¬c < ' ')
    (cs : List Char) : scanPieces? .plain (c :: cs) =
      (scanPieces? .plain cs).map (pushPiece (.char c)) := by
  rw [scanPieces?, if_neg quote, if_neg backslash, if_neg control]

/-- A character is written with a letter behind a backslash, with its number, or as it is. -/
theorem escapeChar_cases (c : Char) :
    (∃ d, d ≠ 'u' ∧ shortEscape? d = some c ∧ escapeChar c = ['\\', d]) ∨
    (c < ' ' ∧ escapeChar c =
      ['\\', 'u', '0', '0', Nat.digitChar (c.toNat / 16), Nat.digitChar (c.toNat % 16)]) ∨
    (c ≠ '"' ∧ c ≠ '\\' ∧ ¬c < ' ' ∧ escapeChar c = [c]) := by
  by_cases short : c ∈ ['"', '\\', '\x08', '\t', '\n', '\x0c', '\r']
  · left
    simp only [List.mem_cons, List.not_mem_nil, or_false] at short
    rcases short with rfl | rfl | rfl | rfl | rfl | rfl | rfl
    · exact ⟨'"', by decide, rfl, rfl⟩
    · exact ⟨'\\', by decide, rfl, rfl⟩
    · exact ⟨'b', by decide, rfl, rfl⟩
    · exact ⟨'t', by decide, rfl, rfl⟩
    · exact ⟨'n', by decide, rfl, rfl⟩
    · exact ⟨'f', by decide, rfl, rfl⟩
    · exact ⟨'r', by decide, rfl, rfl⟩
  · right
    simp only [List.mem_cons, List.not_mem_nil, or_false, not_or] at short
    by_cases control : c < ' '
    · exact .inl ⟨control, by simp [escapeChar, short, control]⟩
    · exact .inr ⟨short.1, short.2.1, control, by simp [escapeChar, short, control]⟩

/-- What is written for a character is one piece that stands for it. -/
theorem scanPieces?_escapeChar (c : Char) : ∃ p, StandsFor p c ∧
    ∀ cs, scanPieces? .plain (escapeChar c ++ cs) = (scanPieces? .plain cs).map (pushPiece p) := by
  rcases escapeChar_cases c with ⟨d, notHex, stands, written⟩ | ⟨control, written⟩ |
    ⟨quote, backslash, control, written⟩
  · refine ⟨.char c, char_standsFor c, fun cs => ?_⟩
    rw [written]
    exact scanPieces?_short notHex stands cs
  · refine ⟨.unit c.toNat, unit_standsFor control, fun cs => ?_⟩
    rw [written]
    exact scanPieces?_hex control cs
  · refine ⟨.char c, char_standsFor c, fun cs => ?_⟩
    rw [written]
    exact scanPieces?_char quote backslash control cs

/-- What is written for a text is read up to the closing quote, and is that text. -/
theorem scanPieces?_escaped (cs rest : List Char) :
    ∃ ps, scanPieces? .plain (cs.flatMap escapeChar ++ '"' :: rest) = some (ps, rest) ∧
      piecesText? ps = some cs := by
  induction cs with
  | nil => exact ⟨[], by simp [scanPieces?], rfl⟩
  | cons c cs ih =>
    obtain ⟨ps, scanned, text⟩ := ih
    obtain ⟨p, stands, written⟩ := scanPieces?_escapeChar c
    refine ⟨p :: ps, ?_, ?_⟩
    · rw [List.flatMap_cons, List.append_assoc, written, scanned]
      rfl
    · rw [stands, text]
      rfl

end TransformDirective.Json
