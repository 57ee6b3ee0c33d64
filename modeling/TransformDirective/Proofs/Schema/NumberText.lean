import TransformDirective.Proofs.Number.LongestNumeral
import TransformDirective.Proofs.Number.Positional
import TransformDirective.Proofs.Schema.Spelling
import TransformDirective.Proofs.Schema.WordStarts

namespace TransformDirective.Schema

open TransformDirective.Text TransformDirective.Number

/-- The number with the sign that the numeral starts with. -/
def signed (n : Numeral) (v : Nat) : Int := if n.first = '-' then -(v : Int) else v

/-- What a numeral means. Without fraction and exponent it is the integer that its digits write, if
there are digits and the integer has 64 bits; otherwise it needs a digit in front of the exponent
and, behind the marker, one in it. -/
inductive NumeralMeans (n : Numeral) : Lexeme → Prop
  | int {v : Nat} (fraction : n.fraction = none) (exponent : n.exponent = none)
      (some : n.whole ≠ []) (written : Writes 10 n.whole v) (low : -2 ^ 63 ≤ signed n v)
      (high : signed n v ≤ 2 ^ 63 - 1) : NumeralMeans n (.int (signed n v))
  | float (notInt : n.fraction ≠ none ∨ n.exponent ≠ none) (some : n.digits ≠ [])
      (exponent : ∀ e ∈ n.exponent, e.digits ≠ []) : NumeralMeans n (.float n.floatValue)

section Meaning

variable {n : Numeral} {l : Lexeme}

theorem isDigit_whole (h : n.IsShaped) : ∀ d ∈ n.whole, d.isDigit := by
  unfold Numeral.whole Numeral.isNegative
  split
  · exact h.more
  · next other =>
    refine List.forall_mem_cons.mpr ⟨h.first.resolve_left fun minus => ?_, h.more⟩
    exact other (beq_iff_eq.mpr minus)

theorem signed_digitsValue (n : Numeral) : signed n (digitsValue n.whole) = n.intValue := by
  simp [signed, Numeral.intValue, Numeral.isNegative]

theorem isInteger_iff : n.isInteger ↔ n.fraction = none ∧ n.exponent = none := by
  simp [Numeral.isInteger]

/-- A numeral is judged by what it means. -/
theorem numeralLexeme?_eq_some_iff (h : n.IsShaped) :
    numeralLexeme? n = some l ↔ NumeralMeans n l := by
  have written {v : Nat} := writes_decimal_iff (n := v) (isDigit_whole h)
  unfold numeralLexeme?
  by_cases integer : n.isInteger
  · obtain ⟨fraction, exponent⟩ := isInteger_iff.mp integer
    rw [if_pos integer]
    constructor
    · intro value
      split at value
      · next fits =>
        obtain ⟨some, low, high⟩ := fits
        obtain rfl := Option.some.inj value
        rw [← signed_digitsValue] at low high ⊢
        exact .int fraction exponent some (written.mpr rfl) (by omega) (by omega)
      · cases value
    · intro means
      cases means with
      | int _ _ some digits low high =>
        obtain rfl := written.mp digits
        rw [signed_digitsValue] at low high ⊢
        rw [if_pos ⟨some, by omega, by omega⟩]
      | float notInt => simp [fraction, exponent] at notInt
  · have notInt : n.fraction ≠ none ∨ n.exponent ≠ none := by
      rw [isInteger_iff] at integer
      tauto
    rw [if_neg integer]
    constructor
    · intro value
      split at value
      · next fits =>
        obtain rfl := Option.some.inj value
        refine .float notInt fits.1 fun e he => ?_
        have all := fits.2
        rw [he] at all
        simpa using all
      · cases value
    · intro means
      cases means with
      | int fraction exponent => exact absurd (isInteger_iff.mpr ⟨fraction, exponent⟩) integer
      | float _ some exponent =>
        rw [if_pos]
        refine ⟨some, ?_⟩
        cases he : n.exponent with
        | none => rfl
        | some e => simpa using exponent e he

end Meaning

section Scanning

variable {c : Char} {cs : List Char} {l : Lexeme}

theorem scanLexeme_number (h : c = '-' ∨ c.isDigit) (cs : List Char) :
    scanLexeme c cs = scanNumber c cs := by
  have number : Punct.ofChar? c = none ∧ c ≠ '.' ∧ c ≠ '"' ∧ ¬isNameStart c := by
    obtain rfl | digit := h
    · decide
    · have check : ∀ k < 10, Punct.ofChar? (Nat.digitChar k) = none ∧ Nat.digitChar k ≠ '.' ∧
          Nat.digitChar k ≠ '"' ∧ ¬isNameStart (Nat.digitChar k) := by decide
      obtain ⟨k, small, rfl⟩ := exists_digitChar digit
      exact check k small
  obtain ⟨mark, point, quote, name⟩ := number
  rw [scanLexeme, mark]
  simp only [if_neg point, if_neg quote, if_neg name, if_pos h]

/-- Only what starts like a number is read as an integer. -/
theorem number_of_int {v : Int} (h : (scanLexeme c cs).value = .ok (.int v)) :
    c = '-' ∨ c.isDigit := by
  unfold scanLexeme at h
  split at h
  · cases h
  · split at h
    · unfold scanSpread at h
      split at h <;> cases h
    · split at h
      · obtain ⟨s, string⟩ := exists_string_of_scanText h
        cases string
      · split at h
        · cases h
        · split at h
          · next number => exact number
          · cases h

/-- Where a word starts like a number, the longest number is taken, and what it means is decided by
its parts. -/
theorem value_of_means (h : c = '-' ∨ c.isDigit) :
    (scanLexeme c cs).value = .ok l ↔ NumeralMeans (Numeral.take c cs).1 l := by
  rw [scanLexeme_number h, ← numeralLexeme?_eq_some_iff (isShaped_take h cs), scanNumber]
  cases numeralLexeme? (Numeral.take c cs).1 with
  | none => simp
  | some l' => simp

/-- A number without a meaning is no word at all. -/
theorem value_of_meaningless (h : c = '-' ∨ c.isDigit)
    (none : ∀ l, ¬NumeralMeans (Numeral.take c cs).1 l) : (scanLexeme c cs).value =
      .error (.invalidNumber (Numeral.take c cs).1.quotedText) := by
  have judged : numeralLexeme? (Numeral.take c cs).1 = .none := by
    rw [Option.eq_none_iff_forall_ne_some]
    intro l value
    exact none l ((numeralLexeme?_eq_some_iff (isShaped_take h cs)).mp value)
  rw [scanLexeme_number h, scanNumber, judged]
  rfl

theorem text_of_number (h : c = '-' ∨ c.isDigit) (cs : List Char) :
    (scanLexeme c cs).text = (Numeral.take c cs).1.text := by
  rw [scanLexeme_number h]
  rfl

end Scanning

section Numbers

variable {source : String} {front cs text : List Char} {c : Char} {l : Lexeme} {n : Numeral}

theorem WordStarts.taken_number_iff (h : WordStarts source.toList front c cs)
    (number : c = '-' ∨ c.isDigit) (longest : n.IsLongest (c :: cs)) :
    TakenAs source front text l ↔ text = n.text ∧ NumeralMeans n l := by
  obtain rfl := longest.unique (isLongest_take number cs)
  constructor
  · intro taken
    obtain ⟨rest, scan⟩ := h.scan_of_taken taken
    rw [← text_of_number number, ← value_of_means number, scan]
    exact ⟨rfl, rfl⟩
  · rintro ⟨rfl, means⟩
    rw [← text_of_number number]
    exact h.takenAs ((value_of_means number).mpr means)

theorem WordStarts.refused_number_iff (h : WordStarts source.toList front c cs)
    (number : c = '-' ∨ c.isDigit) (longest : n.IsLongest (c :: cs)) :
    RefusedAs source front n.text (.invalidNumber n.quotedText) ↔ ∀ l, ¬NumeralMeans n l := by
  constructor
  · intro refused l means
    have taken := (h.taken_number_iff number longest).mpr ⟨rfl, means⟩
    exact taken.not_refused refused
  · intro none
    obtain rfl := longest.unique (isLongest_take number cs)
    rw [← text_of_number number]
    exact h.refusedAs (value_of_meaningless number none)

/-- Every integer among the words of a text is written in the text. -/
theorem integer_of_token {ts : Tokens} (h : tokenize source = .ok ts) {t : Token}
    (ht : t ∈ ts.words) {v : Int} (hv : t.lexeme = .int v) : ∃ front rest, ∃ n : Numeral,
      source.toList = front ++ n.text ++ rest ∧ t.span = stretch front n.text ∧
      n.IsLongest (n.text ++ rest) ∧ NumeralMeans n (.int v) := by
  obtain ⟨front, c, cs, starts, value, span⟩ := exists_wordStarts h ht
  rw [hv] at value
  have number := number_of_int value
  have whole := Numeral.take_append c cs
  refine ⟨front, (Numeral.take c cs).2, (Numeral.take c cs).1, ?_, ?_, ?_, ?_⟩
  · rw [starts.whole, List.append_assoc, whole]
  · rw [span, text_of_number number]
  · rw [whole]
    exact isLongest_take number cs
  · exact (value_of_means number).mp value

end Numbers

/-- Where a word starts with a minus sign or a digit, one text of the shape of a number is the
longest. It is read as what it means, an integer as the number its digits write; if it means nothing
the source is refused for this very text. So every integer that is read stands in the source. -/
theorem numbers_read_exactly (source : String) :
    (∀ front c cs, WordStarts source.toList front c cs → c = '-' ∨ c.isDigit →
      (∃! n : Numeral, n.IsLongest (c :: cs)) ∧
      ∀ n : Numeral, n.IsLongest (c :: cs) →
        (∀ text l, TakenAs source front text l ↔ text = n.text ∧ NumeralMeans n l) ∧
        (RefusedAs source front n.text (.invalidNumber n.quotedText) ↔
          ∀ l, ¬NumeralMeans n l)) ∧
    ∀ ts, tokenize source = .ok ts → ∀ t ∈ ts.words, ∀ v, t.lexeme = .int v →
      ∃ front rest, ∃ n : Numeral, source.toList = front ++ n.text ++ rest ∧
        t.span = stretch front n.text ∧ n.IsLongest (n.text ++ rest) ∧
        NumeralMeans n (.int v) := by
  refine ⟨fun front c cs starts number => ⟨?_, fun n longest => ⟨fun text l => ?_, ?_⟩⟩,
    fun ts h t ht v => integer_of_token h ht⟩
  · have longest := isLongest_take number cs
    exact ⟨_, longest, fun m other => other.unique longest⟩
  · exact starts.taken_number_iff number longest
  · exact starts.refused_number_iff number longest

/-- The least integer of 64 bits in front of a name, the next one below it, and an exponent without
digits in front of a point. -/
theorem numbers_read_exactly_least :
    TakenAs " -9223372036854775808a" [' '] "-9223372036854775808".toList
      (.int (-9223372036854775808)) ∧
    RefusedAs " -9223372036854775809" [' '] "-9223372036854775809".toList
      (.invalidNumber "-9223372036854775809".toList) ∧
    RefusedAs " 1.5E+." [' '] "1.5E+".toList (.invalidNumber "1.5e+".toList) := by
  have starts {c : Char} {cs : List Char} (solid : isSeparator c = false) :
      WordStarts (' ' :: c :: cs) [' '] c cs :=
    ⟨rfl, ⟨[], [' '], rfl, .nil, .separator rfl .nil⟩, solid⟩
  have meaningless {n : Numeral} (shape : n.IsShaped) (none : numeralLexeme? n = .none) :
      ∀ l, ¬NumeralMeans n l := by
    intro l means
    rw [← numeralLexeme?_eq_some_iff shape, none] at means
    cases means
  refine ⟨?_, ?_, ?_⟩
  · have longest := isLongest_take (.inl rfl) "9223372036854775808a".toList
    have number := (numbers_read_exactly " -9223372036854775808a").1 [' '] '-' _ (starts rfl)
      (.inl rfl)
    refine ((number.2 _ longest).1 _ _).mpr ⟨by decide +kernel, ?_⟩
    rw [← numeralLexeme?_eq_some_iff longest.shape]
    decide +kernel
  · have longest := isLongest_take (.inl rfl) "9223372036854775809".toList
    have number := (numbers_read_exactly " -9223372036854775809").1 [' '] '-' _ (starts rfl)
      (.inl rfl)
    exact (number.2 _ longest).2.mpr (meaningless longest.shape (by decide +kernel))
  · have longest := isLongest_take (c := '1') (.inr rfl) ".5E+.".toList
    have number := (numbers_read_exactly " 1.5E+.").1 [' '] '1' _ (starts rfl) (.inr rfl)
    exact (number.2 _ longest).2.mpr (meaningless longest.shape (by decide +kernel))

end TransformDirective.Schema
