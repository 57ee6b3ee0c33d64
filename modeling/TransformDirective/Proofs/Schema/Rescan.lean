import TransformDirective.Schema.Token

namespace TransformDirective.Schema

open TransformDirective.Text TransformDirective.Number

section Runs

variable {α : Type} {p : α → Bool} {run rest : List α}

theorem takeWhile_run (hrun : ∀ x ∈ run, p x) (hrest : ∀ x ∈ rest.head?, p x = false) :
    (run ++ rest).takeWhile p = run := by
  rw [List.takeWhile_append_of_pos hrun]
  cases rest with
  | nil => simp
  | cons x rest => rw [List.takeWhile_cons_of_neg (by simp [hrest x rfl]), List.append_nil]

theorem dropWhile_run (hrun : ∀ x ∈ run, p x) (hrest : ∀ x ∈ rest.head?, p x = false) :
    (run ++ rest).dropWhile p = rest := by
  rw [List.dropWhile_append_of_pos hrun]
  cases rest with
  | nil => rfl
  | cons x rest => rw [List.dropWhile_cons_of_neg (by simp [hrest x rfl])]

theorem head_dropWhile (cs : List α) : ∀ x ∈ (cs.dropWhile p).head?, p x = false := by
  intro x hx
  have stop := List.head?_dropWhile_not p cs
  rw [hx] at stop
  exact stop

end Runs

section Separators

/-- A character that ends every word in front of it: a separator or the start of a comment. -/
def isSeparator (c : Char) : Bool := c == '#' || isIgnored c

theorem isSeparator_eq_false {c : Char} :
    isSeparator c = false ↔ c ≠ '#' ∧ isIgnored c = false := by
  simp [isSeparator]

theorem toNat_of_isNameChar {c : Char} (h : isNameChar c) : 48 ≤ c.toNat ∧ c.toNat ≤ 122 := by
  obtain h | h := Bool.or_eq_true_iff.mp h
  · obtain rfl : c = '_' := eq_of_beq h
    decide
  · obtain alpha | digit := Bool.or_eq_true_iff.mp h
    · obtain upper | lower := Bool.or_eq_true_iff.mp alpha
      · have bounds : 65 ≤ c.toNat ∧ c.toNat ≤ 90 := of_decide_eq_true upper
        omega
      · obtain ⟨low, high⟩ := Bool.and_eq_true_iff.mp lower
        have low : 97 ≤ c.toNat := of_decide_eq_true low
        have high : c.toNat ≤ 122 := of_decide_eq_true high
        omega
    · obtain ⟨low, high⟩ := Bool.and_eq_true_iff.mp digit
      have low : 48 ≤ c.toNat := of_decide_eq_true low
      have high : c.toNat ≤ 57 := of_decide_eq_true high
      omega

theorem not_separator_of_isNameChar {c : Char} (h : isNameChar c) : isSeparator c = false := by
  obtain ⟨low, high⟩ := toNat_of_isNameChar h
  have other : ∀ d : Char, d.toNat < 48 ∨ 122 < d.toNat → c ≠ d := by
    intro d hd he
    subst he
    omega
  have ranges : inRanges blankRanges c = false :=
    inRanges_eq_false (n := 123) (by decide) (by omega)
  have control : ¬ (9 ≤ c.toNat ∧ c.toNat ≤ 13) := by omega
  rw [isSeparator_eq_false]
  refine ⟨other '#' (by decide), ?_⟩
  simp [isIgnored, isBlank, ranges, other ' ' (by decide), other ',' (by decide),
    other '\uFEFF' (by decide)]
  omega

theorem not_nameChar_of_separator {c : Char} (h : isSeparator c) : isNameChar c = false := by
  rw [Bool.eq_false_iff]
  intro name
  rw [not_separator_of_isNameChar name] at h
  cases h

theorem not_digit_of_separator {c : Char} (h : isSeparator c) : c.isDigit = false := by
  have name := not_nameChar_of_separator h
  simp only [isNameChar, Char.isAlphanum, Bool.or_eq_false_iff] at name
  exact name.2.2

/-- A word that stops in front of the first text stops in front of the second one. -/
def StopsAlike (old rest : List Char) : Prop :=
  rest.head? = old.head? ∨ ∀ c ∈ rest.head?, isSeparator c

namespace StopsAlike

variable {old rest : List Char}

theorem append (h : StopsAlike old rest) (us : List Char) :
    StopsAlike (us ++ old) (us ++ rest) := by
  cases us with
  | nil => exact h
  | cons u us => exact .inl rfl

/-- A text may be cut anywhere. -/
theorem cut (us vs : List Char) : StopsAlike (us ++ vs) us := by
  cases us with
  | nil => exact .inr fun _ hc => nomatch hc
  | cons u us => exact .inl rfl

theorem separator {c : Char} (hc : isSeparator c) (cs : List Char) : StopsAlike old (c :: cs) := by
  refine .inr fun d hd => ?_
  obtain rfl : c = d := Option.some.inj hd
  exact hc

/-- A separator and more may be put behind a text. -/
theorem more {c : Char} (hc : isSeparator c) (us cs : List Char) :
    StopsAlike us (us ++ c :: cs) := by
  cases us with
  | nil => exact .separator hc cs
  | cons u us => exact .inl rfl

/-- What the old text does not start with and no separator is, the new text does not start with. -/
theorem head {P : Char → Prop} (h : StopsAlike old rest) (front : ∀ c ∈ old.head?, P c)
    (sep : ∀ c, isSeparator c → P c) : ∀ c ∈ rest.head?, P c := by
  intro c hc
  obtain same | other := h
  · exact front c (same ▸ hc)
  · exact sep c (other c hc)

end StopsAlike

end Separators

section Numbers

/-- What is taken from a text is taken again in front of a text that stops it alike. -/
def Retakes {β : Type} (take : List Char → β × List Char) (text : β → List Char) : Prop :=
  ∀ cs rest, StopsAlike (take cs).2 rest → take (text (take cs).1 ++ rest) = ((take cs).1, rest)

theorem run_retakes {p : Char → Bool} (hp : ∀ c, isSeparator c → p c = false) :
    Retakes (fun cs => (cs.takeWhile p, cs.dropWhile p)) id := by
  intro cs rest h
  have inside : ∀ x ∈ cs.takeWhile p, p x :=
    List.all_eq_true.mp List.all_takeWhile
  have stop : ∀ x ∈ rest.head?, p x = false := h.head (head_dropWhile cs) hp
  exact Prod.ext (takeWhile_run inside stop) (dropWhile_run inside stop)

theorem digits_retakes :
    Retakes (fun cs => (cs.takeWhile Char.isDigit, cs.dropWhile Char.isDigit)) id :=
  run_retakes fun _ => not_digit_of_separator

theorem takeSign_other {cs : List Char} (h : ∀ c ∈ cs.head?, c ≠ '+' ∧ c ≠ '-') :
    takeSign cs = ([], cs) := by
  cases cs with
  | nil => rfl
  | cons c cs => simp [takeSign, h c rfl]

theorem takeSign_retakes : Retakes takeSign id := by
  intro cs rest h
  by_cases sign : ∃ c cs', cs = c :: cs' ∧ (c = '+' ∨ c = '-')
  · obtain ⟨c, cs, rfl, hc⟩ := sign
    simp only [takeSign, if_pos hc, id_eq, List.cons_append, List.nil_append]
  · have none : ∀ c ∈ cs.head?, c ≠ '+' ∧ c ≠ '-' := by
      intro c hc
      obtain ⟨cs', rfl⟩ := List.head?_eq_some_iff.mp hc
      simpa using fun he => sign ⟨c, cs', rfl, he⟩
    rw [takeSign_other none] at h ⊢
    exact takeSign_other (h.head none fun c hc => by constructor <;> rintro rfl <;> cases hc)

def exponentText (e : Option Exponent) : List Char := e.elim [] Exponent.text

theorem takeExponent_other {cs : List Char} (h : ∀ c ∈ cs.head?, c ≠ 'e' ∧ c ≠ 'E') :
    takeExponent cs = (none, cs) := by
  cases cs with
  | nil => rfl
  | cons c cs => simp [takeExponent, h c rfl]

/-- An exponent is taken again in front of a text that stops it alike. -/
theorem takeExponent_retakes : Retakes takeExponent exponentText := by
  intro cs rest h
  by_cases marker : ∃ c cs', cs = c :: cs' ∧ (c = 'e' ∨ c = 'E')
  · obtain ⟨c, cs, rfl, hc⟩ := marker
    simp only [takeExponent, if_pos hc] at h ⊢
    let ds := (takeSign cs).2.takeWhile Char.isDigit
    have behind : StopsAlike (takeSign cs).2 (ds ++ rest) := by
      have whole := h.append ds
      rwa [List.takeWhile_append_dropWhile] at whole
    have sign := takeSign_retakes cs (ds ++ rest) behind
    have digits := digits_retakes (takeSign cs).2 rest h
    simp only [id_eq, Prod.mk.injEq] at sign digits
    simp only [exponentText, Option.elim_some, Exponent.text, List.cons_append, List.append_assoc,
      if_pos hc, ds, sign, digits]
  · have none : ∀ c ∈ cs.head?, c ≠ 'e' ∧ c ≠ 'E' := by
      intro c hc
      obtain ⟨cs', rfl⟩ := List.head?_eq_some_iff.mp hc
      simpa using fun he => marker ⟨c, cs', rfl, he⟩
    rw [takeExponent_other none] at h ⊢
    exact takeExponent_other (h.head none fun c hc => by constructor <;> rintro rfl <;> cases hc)

def fractionText (f : Option (List Char)) : List Char := f.elim [] ('.' :: ·)

theorem takeFraction_other {cs : List Char} (h : ∀ c ∈ cs.head?, c ≠ '.') :
    takeFraction cs = (none, cs) := by
  unfold takeFraction
  split
  · exact absurd rfl (h '.' rfl)
  · rfl

theorem takeFraction_retakes : Retakes takeFraction fractionText := by
  intro cs rest h
  by_cases point : ∃ cs', cs = '.' :: cs'
  · obtain ⟨cs, rfl⟩ := point
    have digits := digits_retakes cs rest h
    simp only [id_eq, Prod.mk.injEq] at digits
    simp only [takeFraction, fractionText, Option.elim_some, List.cons_append, digits]
  · have none : ∀ c ∈ cs.head?, c ≠ '.' := by
      intro c hc he
      obtain ⟨cs', hcs⟩ := List.head?_eq_some_iff.mp hc
      exact point ⟨cs', by rw [hcs, he]⟩
    rw [takeFraction_other none] at h ⊢
    exact takeFraction_other (h.head none fun c hc => by rintro rfl; cases hc)

/-- A numeral is taken again. -/
theorem numeral_retakes (first : Char) : Retakes (Numeral.take first) fun n => n.text.tail := by
  intro cs rest h
  let fraction := takeFraction (cs.dropWhile Char.isDigit)
  let exponent := takeExponent fraction.2
  have exponentAgain := takeExponent_retakes fraction.2 rest h
  have behindFraction : StopsAlike fraction.2 (exponentText exponent.1 ++ rest) := by
    have whole := h.append (exponentText exponent.1)
    rwa [show exponentText exponent.1 ++ (Numeral.take first cs).2 = fraction.2 from
      takeExponent_append fraction.2] at whole
  have fractionAgain := takeFraction_retakes _ _ behindFraction
  have behindDigits : StopsAlike (cs.dropWhile Char.isDigit)
      (fractionText fraction.1 ++ (exponentText exponent.1 ++ rest)) := by
    have whole := behindFraction.append (fractionText fraction.1)
    rwa [show fractionText fraction.1 ++ fraction.2 = cs.dropWhile Char.isDigit from
      takeFraction_append _] at whole
  have digitsAgain := digits_retakes cs _ behindDigits
  have text : (Numeral.take first cs).1.text.tail ++ rest =
      cs.takeWhile Char.isDigit ++
        (fractionText fraction.1 ++ (exponentText exponent.1 ++ rest)) := by
    simp [Numeral.take, Numeral.text, Numeral.fractionText, fractionText, exponentText, fraction,
      exponent]
  simp only [id_eq, Prod.mk.injEq] at digitsAgain
  rw [text]
  simp only [Numeral.take, digitsAgain, fractionAgain, exponentAgain, fraction, exponent]

end Numbers

/-- The scan takes its text again, whatever stands behind it. -/
def Again {α : Type} (scan : List Char → Scan α) (s : Scan α) : Prop :=
  ∀ rest, scan (s.text ++ rest) = { s with rest := rest }

section Again

variable {α β : Type} {scan : List Char → Scan α} {s : Scan α}

theorem Again.cons {scan' : List Char → Scan α} {c : Char} (h : Again scan s)
    (hscan : ∀ rest, scan' (c :: (s.text ++ rest)) = (scan (s.text ++ rest)).cons c) :
    Again scan' (s.cons c) := by
  intro rest
  exact (hscan rest).trans (congrArg (Scan.cons c) (h rest))

theorem Again.map (f : α → β) (h : Again scan s) : Again (fun cs => (scan cs).map f) (s.map f) := by
  intro rest
  exact congrArg (Scan.map f) (h rest)

theorem isOk_map {ε : Type} (f : α → β) (x : Except ε α) : (x.map f).isOk = x.isOk := by
  cases x <;> rfl

end Again

/-- A string ends at its own quote, whatever stands behind that. -/
theorem scanQuoted_again (q : QuoteState) (cs : List Char) (h : (scanQuoted q cs).value.isOk) :
    Again (scanQuoted q) (scanQuoted q cs) := by
  fun_induction scanQuoted q cs with
  | case1 | case2 | case4 | case9 | case10 | case13 => cases h
  | case3 => intro rest; simp [scanQuoted]
  | case5 cs _ _ ih => exact (ih h).cons fun rest => by simp [scanQuoted]
  | case6 c cs hquote hline hslash ih =>
    rw [Scan.cons, pushChar, Scan.map, isOk_map] at h
    exact ((ih h).map _).cons fun rest => by
      rw [scanQuoted, if_neg hquote, if_neg hline, if_neg hslash]
      rfl
  | case7 cs ih => exact (ih h).cons fun rest => by simp [scanQuoted]
  | case8 c cs hu d hd ih =>
    rw [Scan.cons, pushChar, Scan.map, isOk_map] at h
    exact ((ih h).map _).cons fun rest => by
      simp only [scanQuoted, if_neg hu, hd]
      rfl
  | case11 ds c cs hc hlen ih =>
    exact (ih h).cons fun rest => by rw [scanQuoted, if_neg hc, if_pos hlen]
  | case12 ds c cs hc hlen d hd ih =>
    rw [Scan.cons, pushChar, Scan.map, isOk_map] at h
    exact ((ih h).map _).cons fun rest => by
      simp only [scanQuoted, if_neg hc, if_neg hlen, hd]
      rfl

theorem scanString_again (cs : List Char) (h : (scanString cs).value.isOk) :
    Again scanString (scanString cs) := by
  rw [scanString, Scan.map, isOk_map] at h
  exact (scanQuoted_again .plain cs h).map _

theorem scanBlockContent_text (cs : List Char) (h : (scanBlockContent cs).value.isSome) :
    ∃ c d e more, (scanBlockContent cs).text = c :: d :: e :: more := by
  fun_induction scanBlockContent cs with
  | case1 => cases h
  | case2 cs => exact ⟨_, _, _, [], rfl⟩
  | case3 cs ih => exact ⟨_, _, _, _, rfl⟩
  | case4 c cs _ _ ih =>
    rw [Scan.cons, Scan.map, Option.isSome_map] at h
    obtain ⟨d, e, f, more, htext⟩ := ih h
    exact ⟨c, d, e, f :: more, congrArg (c :: ·) htext⟩

/-- A block string ends at its own quotes: the characters that decide where are part of it. -/
theorem scanBlockContent_again (cs : List Char) (h : (scanBlockContent cs).value.isSome) :
    Again scanBlockContent (scanBlockContent cs) := by
  fun_induction scanBlockContent cs with
  | case1 => cases h
  | case2 cs => exact fun rest => rfl
  | case3 cs ih =>
    simp only [Scan.cons, Scan.map, Option.isSome_map] at h
    intro rest
    simp only [Scan.cons, Scan.map, List.cons_append, scanBlockContent, ih h rest]
  | case4 c cs hclose hescaped ih =>
    rw [Scan.cons, Scan.map, Option.isSome_map] at h
    obtain ⟨d, e, f, more, htext⟩ := scanBlockContent_text cs h
    have hcs := scanBlockContent_splits cs
    rw [Scan.Splits, htext] at hcs
    refine ((ih h).map _).cons fun rest => ?_
    rw [Scan.map, htext, scanBlockContent]
    · intro cs' hc he
      simp only [List.cons_append, List.cons.injEq] at he
      obtain ⟨rfl, rfl, -⟩ := he
      exact hclose _ hc hcs.symm
    · intro cs' hc he
      simp only [List.cons_append, List.cons.injEq] at he
      obtain ⟨rfl, rfl, rfl, -⟩ := he
      exact hescaped _ hc hcs.symm

/-- The scan takes its text again in front of a text that stops it alike. -/
def ReadsAgain {α : Type} (scan : List Char → Scan α) (s : Scan α) : Prop :=
  ∀ rest, StopsAlike s.rest rest → scan (s.text ++ rest) = { s with rest := rest }

theorem scanText_single {cs : List Char} (h : ∀ cs', cs ≠ '"' :: '"' :: cs') :
    scanText cs = scanString cs := by
  unfold scanText
  split
  · exact absurd rfl (h _)
  · rfl

theorem scanBlockString_again (cs : List Char) (h : (scanBlockString cs).value.isOk) :
    Again scanBlockString (scanBlockString cs) := by
  refine (scanBlockContent_again cs ?_).map _
  unfold scanBlockString Scan.map at h
  cases hv : (scanBlockContent cs).value with
  | none => rw [hv] at h; cases h
  | some raw => rfl

theorem scanQuoted_text_ne_nil {q : QuoteState} {cs : List Char}
    (h : (scanQuoted q cs).value.isOk) : (scanQuoted q cs).text ≠ [] := by
  fun_cases scanQuoted q cs
  case case1 | case2 => simp_all [scanQuoted, Except.isOk, Except.toBool]
  all_goals simp_all [scanQuoted, Scan.cons]

/-- A string of either form is read again. A second quote at the front would have stood there
before, too. -/
theorem scanText_again (cs : List Char) (h : (scanText cs).value.isOk) :
    ReadsAgain scanText (scanText cs) := by
  intro rest alike
  by_cases block : ∃ cs', cs = '"' :: '"' :: cs'
  · obtain ⟨cs, rfl⟩ := block
    have inside := scanBlockString_again cs h rest
    simp only [scanText, Scan.cons, List.cons_append, inside]
  · have single : ∀ cs', cs ≠ '"' :: '"' :: cs' := fun cs' he => block ⟨cs', he⟩
    rw [scanText_single single] at h alike ⊢
    rw [scanText_single, scanString_again cs h]
    intro cs' he
    have splits := scanString_splits cs
    rw [scanString, Scan.map, isOk_map] at h
    obtain ⟨c, more, text⟩ := List.exists_cons_of_ne_nil (scanQuoted_text_ne_nil h)
    have text : (scanString cs).text = c :: more := text
    rw [text, List.cons_append] at he
    rw [Scan.Splits, text, List.cons_append] at splits
    obtain ⟨rfl, second⟩ := List.cons.inj he
    refine (alike.append more).head (P := (· ≠ '"')) ?_ ?_ '"' (by rw [second]; rfl) rfl
    · rintro d hd rfl
      obtain ⟨cs'', old⟩ := List.head?_eq_some_iff.mp hd
      exact single cs'' (by rw [← splits, old])
    · rintro d hd rfl
      cases hd

theorem scanName_again (c : Char) (cs rest : List Char)
    (alike : StopsAlike (scanName c cs).rest rest) :
    scanName c ((scanName c cs).text.tail ++ rest) = { scanName c cs with rest := rest } := by
  have name := run_retakes (fun _ => not_nameChar_of_separator) cs rest alike
  simp only [id_eq, Prod.mk.injEq] at name
  simp only [scanName, List.tail_cons, name]

theorem scanNumber_again (c : Char) (cs rest : List Char)
    (alike : StopsAlike (scanNumber c cs).rest rest) :
    scanNumber c ((scanNumber c cs).text.tail ++ rest) = { scanNumber c cs with rest := rest } := by
  have number := numeral_retakes c cs rest alike
  simp only [scanNumber, number]

theorem scanSpread_again (cs rest : List Char) (h : (scanSpread cs).value.isOk) :
    scanSpread ((scanSpread cs).text.tail ++ rest) = { scanSpread cs with rest := rest } := by
  unfold scanSpread at h
  split at h
  · rfl
  · cases h

/-- A word is read again in front of a text that stops it alike. -/
theorem scanLexeme_again (c : Char) (cs rest : List Char) (h : (scanLexeme c cs).value.isOk)
    (alike : StopsAlike (scanLexeme c cs).rest rest) :
    scanLexeme c ((scanLexeme c cs).text.tail ++ rest) = { scanLexeme c cs with rest := rest } := by
  unfold scanLexeme at h alike ⊢
  cases hp : Punct.ofChar? c with
  | some p => rfl
  | none =>
    simp only [hp] at h alike ⊢
    split
    · next hc =>
      rw [if_pos hc] at h
      exact scanSpread_again cs rest h
    · next point =>
      rw [if_neg point] at h alike
      split
      · next hc =>
        rw [if_pos hc] at h alike
        exact congrArg (Scan.cons c) (scanText_again cs h rest alike)
      · next quote =>
        rw [if_neg quote] at h alike
        split
        · next name =>
          rw [if_pos name] at alike
          exact scanName_again c cs rest alike
        · next name =>
          rw [if_neg name] at h alike
          split
          · next number =>
            rw [if_pos number] at alike
            exact scanNumber_again c cs rest alike
          · next number =>
            rw [if_neg number] at h
            cases h

end TransformDirective.Schema
