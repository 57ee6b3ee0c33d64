import TransformDirective.Proofs.Number.Positional
import TransformDirective.Proofs.Schema.WordStarts

namespace TransformDirective.Schema

open TransformDirective.Text TransformDirective.Number

def shortEscapes : List (Char × Char) :=
  [('n', '\n'), ('t', '\t'), ('r', '\r'), ('b', '\x08'), ('f', '\x0c'), ('/', '/'), ('\\', '\\'),
    ('"', '"')]

/-- The text spells the character: as it is, by a short escape, or by its code point. -/
inductive Spelled (c : Char) : List Char → Prop
  | raw (quote : c ≠ '"') (slash : c ≠ '\\') (line : c ≠ '\n') : Spelled c [c]
  | short {e : Char} (escape : (e, c) ∈ shortEscapes) : Spelled c ['\\', e]
  | code {ds : List Char} (four : ds.length = 4) (digits : Writes 16 ds c.toNat) :
      Spelled c ('\\' :: 'u' :: ds)

/-- The text spells the characters one by one. -/
inductive SpelledText : List Char → List Char → Prop
  | nil : SpelledText [] []
  | cons {c : Char} {cs text more : List Char} (first : Spelled c text)
      (others : SpelledText cs more) : SpelledText (c :: cs) (text ++ more)

/-- In front of the rest, this text spells no character and does not close the string. -/
inductive Misspelled : LexFault → List Char → List Char → Prop
  | unclosed : Misspelled .unterminatedString [] []
  | lineFeed (rest : List Char) : Misspelled .unterminatedString ['\n'] rest
  | openEscape : Misspelled .unterminatedString ['\\'] []
  | unknown {e : Char} (code : e ≠ 'u') (other : ∀ c, (e, c) ∉ shortEscapes) (rest : List Char) :
      Misspelled (.invalidEscape e) ['\\', e] rest
  | openCode {ds : List Char} (few : ds.length < 4) (digits : AreDigitsOf 16 ds) :
      Misspelled .shortUnicodeEscape ('\\' :: 'u' :: ds) []
  | brokenCode {ds : List Char} {d : Char} (few : ds.length < 4)
      (digits : AreDigitsOf 16 ds) (other : ∀ k, ¬IsDigitOf 16 d k)
      (rest : List Char) : Misspelled .shortUnicodeEscape ('\\' :: 'u' :: (ds ++ [d])) rest
  | surrogate {ds : List Char} {n : Nat} (four : ds.length = 4) (digits : Writes 16 ds n)
      (low : 0xD800 ≤ n) (high : n ≤ 0xDFFF) (rest : List Char) :
      Misspelled (.surrogateEscape ds) ('\\' :: 'u' :: ds) rest

section Characters

theorem shortEscape?_eq_some_iff {e c : Char} :
    shortEscape? e = some c ↔ (e, c) ∈ shortEscapes := by
  unfold shortEscape?
  split
  all_goals simp_all [shortEscapes, eq_comm]

theorem shortEscape?_eq_none_iff {e : Char} :
    shortEscape? e = none ↔ ∀ c, (e, c) ∉ shortEscapes := by
  simp only [Option.eq_none_iff_forall_ne_some, ne_eq, shortEscape?_eq_some_iff]

theorem not_short_code (c : Char) : ('u', c) ∉ shortEscapes := by
  rw [← shortEscape?_eq_some_iff]
  exact nofun

variable {ds : List Char}

theorem scalar?_eq_none {n : Nat} (low : 0xD800 ≤ n) (high : n ≤ 0xDFFF) : scalar? n = none := by
  have half : ¬n.isValidChar := by
    rintro (below | ⟨above, -⟩)
    · omega
    · omega
  rw [scalar?, dif_neg half]

/-- Four digits write the code point of a character or half of a surrogate pair. -/
theorem code_cases (four : ds.length = 4) (digits : AreDigitsOf 16 ds) :
    (∃ c : Char, Writes 16 ds c.toNat) ∨ ∃ n, Writes 16 ds n ∧ 0xD800 ≤ n ∧ n ≤ 0xDFFF := by
  have written : Writes 16 ds (hexValue ds) := (writes_hex_iff digits).mpr rfl
  have small : hexValue ds < 16 ^ 4 := four ▸ written.lt_pow (by decide)
  by_cases valid : (hexValue ds).isValidChar
  · exact .inl ⟨Char.ofNatAux _ valid, written⟩
  · refine .inr ⟨_, written, ?_⟩
    simp only [Nat.isValidChar, not_or, not_and, not_lt] at valid
    omega

end Characters

section Reading

variable {value text more ds cs rest : List Char} {c : Char} {f : LexFault}

/-- The scan that took a text in front that spells these characters. -/
def continued (value text : List Char) (s : Scan (Except LexFault (List Char))) :
    Scan (Except LexFault (List Char)) := ⟨s.value.map (value ++ ·), text ++ s.text, s.rest⟩

theorem continued_nil (s : Scan (Except LexFault (List Char))) : continued [] [] s = s := by
  obtain ⟨value, text, rest⟩ := s
  cases value
  all_goals rfl

theorem cons_eq_continued (c : Char) (s : Scan (Except LexFault (List Char))) :
    s.cons c = continued [] [c] s := by
  obtain ⟨value, text, rest⟩ := s
  cases value
  all_goals rfl

theorem continued_continued (value value' text text' : List Char)
    (s : Scan (Except LexFault (List Char))) : continued value text (continued value' text' s) =
      continued (value ++ value') (text ++ text') s := by
  obtain ⟨result, _, _⟩ := s
  cases result
  all_goals simp [continued, Except.map]

/-- The digits of a code point are read one by one. A digit that was read stands in the state, no
longer in the text. -/
theorem scanQuoted_digits (ds : List Char) (digits : AreDigitsOf 16 more)
    (few : (ds ++ more).length < 4) (rest : List Char) :
    scanQuoted (.hex ds) (more ++ rest) =
      continued [] more (scanQuoted (.hex (ds ++ more)) rest) := by
  induction more generalizing ds with
  | nil => rw [List.append_nil, continued_nil, List.nil_append]
  | cons d more ih =>
    obtain ⟨⟨k, digit⟩, others⟩ := List.forall_mem_cons.mp digits
    have some : ¬(hexDigit? d).isNone := by simp [hexDigit?_of_isDigitOf digit]
    have room : ds.length < 3 := by
      rw [List.length_append, List.length_cons] at few
      omega
    rw [← List.singleton_append, ← List.append_assoc] at few
    have next := ih _ others few
    rw [List.append_assoc, List.singleton_append] at next
    rw [List.cons_append, scanQuoted, if_neg some, if_pos room, next, cons_eq_continued,
      continued_continued]
    rfl

/-- The first digits of a code point are read one by one. -/
theorem scanQuoted_escape (digits : AreDigitsOf 16 ds) (few : ds.length < 4)
    (rest : List Char) : scanQuoted .plain ('\\' :: 'u' :: (ds ++ rest)) =
      continued [] ('\\' :: 'u' :: ds) (scanQuoted (.hex ds) rest) := by
  have behind : scanQuoted (.hex []) (ds ++ rest) = continued [] ds (scanQuoted (.hex ds) rest) :=
    scanQuoted_digits [] digits few rest
  simp [scanQuoted, behind, cons_eq_continued, continued_continued]

theorem scanQuoted_code (digits : AreDigitsOf 16 ds) (four : ds.length = 4)
    (rest : List Char) : scanQuoted .plain ('\\' :: 'u' :: (ds ++ rest)) =
      match scalar? (hexValue ds) with
      | some c => continued [c] ('\\' :: 'u' :: ds) (scanQuoted .plain rest)
      | none => ⟨.error (.surrogateEscape ds), '\\' :: 'u' :: ds, rest⟩ := by
  obtain rfl | ⟨front, d, rfl⟩ := List.eq_nil_or_concat' ds
  · cases four
  obtain ⟨early, late⟩ := List.forall_mem_append.mp digits
  obtain ⟨k, digit⟩ := late d (List.mem_singleton_self d)
  rw [List.length_append, List.length_singleton] at four
  have some : ¬(hexDigit? d).isNone := by simp [hexDigit?_of_isDigitOf digit]
  rw [List.append_assoc, scanQuoted_escape early (by omega), List.singleton_append, scanQuoted,
    if_neg some, if_neg (by omega)]
  cases scalar? (hexValue (front ++ [d])) with
  | none => rfl
  | some c => exact continued_continued [] [c] ('\\' :: 'u' :: front) [d] _

theorem Spelled.scanQuoted (h : Spelled c text) (rest : List Char) :
    scanQuoted .plain (text ++ rest) = continued [c] text (scanQuoted .plain rest) := by
  cases h with
  | raw quote slash line =>
    rw [List.singleton_append, Schema.scanQuoted, if_neg quote, if_neg line, if_neg slash]
    rfl
  | @short e escape =>
    have notCode : e ≠ 'u' := by
      rintro rfl
      exact not_short_code c escape
    have value := shortEscape?_eq_some_iff.mpr escape
    have behind : Schema.scanQuoted .plain ('\\' :: e :: rest) =
        (Schema.scanQuoted .escaped (e :: rest)).cons '\\' := rfl
    simp only [List.cons_append, List.nil_append, behind, Schema.scanQuoted, if_neg notCode, value]
    rfl
  | code four digits =>
    have value : hexValue _ = c.toNat := ((writes_hex_iff digits.digits).mp digits).symm
    rw [List.cons_append, List.cons_append, scanQuoted_code digits.digits four, value,
      scalar?_toNat]

theorem SpelledText.scanQuoted (h : SpelledText value text) (rest : List Char) :
    scanQuoted .plain (text ++ rest) = continued value text (scanQuoted .plain rest) := by
  induction h with
  | nil => exact (continued_nil _).symm
  | cons first _ ih =>
    rw [List.append_assoc, first.scanQuoted, ih, continued_continued, List.singleton_append]

/-- What stands between the marks spells the value, character by character. -/
theorem SpelledText.closed (h : SpelledText value text) (rest : List Char) :
    Schema.scanQuoted .plain (text ++ '"' :: rest) = ⟨.ok value, text ++ ['"'], rest⟩ := by
  have close : Schema.scanQuoted .plain ('"' :: rest) = ⟨.ok [], ['"'], rest⟩ := rfl
  rw [h.scanQuoted, close, continued, Except.map, List.append_nil]

/-- What does not spell a value is refused where the spelling breaks off. -/
theorem Misspelled.scanQuoted (h : Misspelled f text rest) :
    scanQuoted .plain (text ++ rest) = ⟨.error f, text, rest⟩ := by
  cases h with
  | unclosed | lineFeed | openEscape => rfl
  | @unknown e code other =>
    have value := shortEscape?_eq_none_iff.mpr other
    simp [Schema.scanQuoted, code, value, Scan.cons]
  | @openCode ds few digits =>
    rw [List.cons_append, List.cons_append, scanQuoted_escape digits few]
    simp [Schema.scanQuoted, continued, Except.map]
  | @brokenCode ds d few digits other =>
    have value := hexDigit?_eq_none_iff.mpr other
    rw [List.cons_append, List.cons_append, List.append_assoc, scanQuoted_escape digits few]
    simp [Schema.scanQuoted, value, continued, Except.map]
  | surrogate four digits low high =>
    have value : hexValue _ = _ := ((writes_hex_iff digits.digits).mp digits).symm
    rw [List.cons_append, List.cons_append, scanQuoted_code digits.digits four, value,
      scalar?_eq_none low high]

/-- Behind a spelled text the reading stops where the spelling breaks off. -/
theorem SpelledText.broken (h : SpelledText value text) {bad : List Char}
    (stop : Misspelled f bad rest) :
    Schema.scanQuoted .plain (text ++ (bad ++ rest)) = ⟨.error f, text ++ bad, rest⟩ := by
  rw [h.scanQuoted, stop.scanQuoted]
  rfl

end Reading

section Spellings

theorem Spelled.ne_nil {c : Char} {text : List Char} (h : Spelled c text) : text ≠ [] := by
  cases h
  all_goals exact List.cons_ne_nil _ _

/-- A text starts with so many digits, ends before them, or breaks them off. -/
theorem digits_cases (n : Nat) (cs : List Char) :
    (∃ ds rest, cs = ds ++ rest ∧ ds.length = n ∧ AreDigitsOf 16 ds) ∨
    (cs.length < n ∧ AreDigitsOf 16 cs) ∨
    ∃ ds d rest, cs = ds ++ d :: rest ∧ ds.length < n ∧ AreDigitsOf 16 ds ∧
      ∀ k, ¬IsDigitOf 16 d k := by
  induction n generalizing cs with
  | zero => exact .inl ⟨[], cs, rfl, rfl, nofun⟩
  | succ n ih =>
    cases cs with
    | nil => exact .inr (.inl ⟨Nat.succ_pos n, nofun⟩)
    | cons c cs =>
      by_cases digit : ∃ k, IsDigitOf 16 c k
      · have one {ds : List Char} (others : AreDigitsOf 16 ds) : AreDigitsOf 16 (c :: ds) :=
          List.forall_mem_cons.mpr ⟨digit, others⟩
        obtain ⟨ds, rest, rfl, full, digits⟩ | ⟨few, digits⟩ |
          ⟨ds, d, rest, rfl, few, digits, other⟩ := ih cs
        · exact .inl ⟨c :: ds, rest, rfl, congrArg (· + 1) full, one digits⟩
        · exact .inr (.inl ⟨Nat.succ_lt_succ few, one digits⟩)
        · exact .inr (.inr ⟨c :: ds, d, rest, rfl, Nat.succ_lt_succ few, one digits, other⟩)
      · exact .inr (.inr ⟨[], c, cs, rfl, Nat.succ_pos n, nofun, not_exists.mp digit⟩)

/-- The text starts with the spelling of a character or with what spells none. -/
def Starts (cs : List Char) : Prop :=
  (∃ c text rest, cs = text ++ rest ∧ Spelled c text) ∨
    ∃ f bad rest, cs = bad ++ rest ∧ Misspelled f bad rest

theorem starts_code (cs : List Char) : Starts ('\\' :: 'u' :: cs) := by
  obtain ⟨ds, rest, rfl, four, digits⟩ | ⟨few, digits⟩ | ⟨ds, d, rest, rfl, few, digits, other⟩ :=
    digits_cases 4 cs
  · obtain ⟨c, written⟩ | ⟨n, written, low, high⟩ := code_cases four digits
    · exact .inl ⟨c, '\\' :: 'u' :: ds, rest, rfl, .code four written⟩
    · exact .inr ⟨_, '\\' :: 'u' :: ds, rest, rfl, .surrogate four written low high rest⟩
  · exact .inr ⟨_, '\\' :: 'u' :: cs, [], (List.append_nil _).symm, .openCode few digits⟩
  · exact .inr ⟨_, '\\' :: 'u' :: (ds ++ [d]), rest, by simp, .brokenCode few digits other rest⟩

theorem starts_escape (cs : List Char) : Starts ('\\' :: cs) := by
  cases cs with
  | nil => exact .inr ⟨_, ['\\'], [], rfl, .openEscape⟩
  | cons e cs =>
    by_cases code : e = 'u'
    · subst code
      exact starts_code cs
    · by_cases known : ∃ c, (e, c) ∈ shortEscapes
      · obtain ⟨c, known⟩ := known
        exact .inl ⟨c, ['\\', e], cs, rfl, .short known⟩
      · exact .inr ⟨_, ['\\', e], cs, rfl, .unknown code (not_exists.mp known) cs⟩

/-- Whatever does not close a string goes on with a spelled character or breaks the spelling off. -/
theorem starts_of_open {cs : List Char} (h : ∀ rest, cs ≠ '"' :: rest) : Starts cs := by
  cases cs with
  | nil => exact .inr ⟨_, [], [], rfl, .unclosed⟩
  | cons c cs =>
    by_cases slash : c = '\\'
    · subst slash
      exact starts_escape cs
    · by_cases line : c = '\n'
      · subst line
        exact .inr ⟨_, ['\n'], cs, rfl, .lineFeed cs⟩
      · have quote : c ≠ '"' := fun same => h cs (congrArg (· :: cs) same)
        exact .inl ⟨c, [c], cs, rfl, .raw quote slash line⟩

/-- Every text is spelled up to a closing mark or up to where the spelling breaks off. -/
theorem exists_spelling (cs : List Char) : ∃ value text, SpelledText value text ∧
    ((∃ rest, cs = text ++ '"' :: rest) ∨
      ∃ f bad rest, cs = text ++ (bad ++ rest) ∧ Misspelled f bad rest) := by
  induction length : cs.length using Nat.strongRecOn generalizing cs with
  | ind n ih =>
    by_cases close : ∃ rest, cs = '"' :: rest
    · exact ⟨[], [], .nil, .inl close⟩
    · obtain ⟨c, text, rest, rfl, first⟩ | stop := starts_of_open (not_exists.mp close)
      · have shorter : rest.length < n := by
          have some := List.length_pos_iff.mpr first.ne_nil
          rw [List.length_append] at length
          omega
        obtain ⟨value, more, others, ends⟩ := ih _ shorter rest rfl
        refine ⟨c :: value, text ++ more, .cons first others, ?_⟩
        obtain ⟨behind, rfl⟩ | ⟨f, bad, behind, rfl, stop⟩ := ends
        · exact .inl ⟨behind, (List.append_assoc _ _ _).symm⟩
        · exact .inr ⟨f, bad, behind, (List.append_assoc _ _ _).symm, stop⟩
      · exact ⟨[], [], .nil, .inr stop⟩

end Spellings

section Strings

variable {value text bad rest front cs : List Char} {f : LexFault}

def inQuotes (text : List Char) : List Char := '"' :: (text ++ ['"'])

/-- No two more quote marks follow the first, which would open a block string. -/
def IsSingle (cs : List Char) : Prop := ¬['"', '"'] <+: cs

instance (cs : List Char) : Decidable (IsSingle cs) := inferInstanceAs (Decidable (¬_))

theorem IsSingle.scanLexeme (h : IsSingle cs) : scanLexeme '"' cs = (scanString cs).cons '"' := by
  have single : scanText cs = scanString cs := scanText_single fun more same =>
    h ⟨more, same.symm⟩
  rw [← single]
  rfl

theorem SpelledText.scanLexeme_closed (h : SpelledText value text)
    (single : IsSingle (text ++ '"' :: rest)) : scanLexeme '"' (text ++ '"' :: rest) =
      ⟨.ok (.string (String.ofList value)), inQuotes text, rest⟩ := by
  rw [single.scanLexeme, scanString, h.closed]
  rfl

theorem SpelledText.scanLexeme_broken (h : SpelledText value text) (stop : Misspelled f bad rest)
    (single : IsSingle (text ++ (bad ++ rest))) : scanLexeme '"' (text ++ (bad ++ rest)) =
      ⟨.error f, '"' :: (text ++ bad), rest⟩ := by
  rw [single.scanLexeme, scanString, h.broken stop]
  rfl

/-- What is read behind a single quote mark is closed and spells its value. -/
theorem scanLexeme_string {l : Lexeme} (single : IsSingle cs)
    (h : scanLexeme '"' cs = ⟨.ok l, text, rest⟩) : ∃ v inside, l = .string v ∧
      text = inQuotes inside ∧ cs = inside ++ '"' :: rest ∧ SpelledText v.toList inside := by
  obtain ⟨value, inside, spelled, ⟨behind, rfl⟩ | ⟨f, bad, behind, rfl, stop⟩⟩ := exists_spelling cs
  · rw [spelled.scanLexeme_closed single] at h
    simp only [Scan.mk.injEq, Except.ok.injEq] at h
    obtain ⟨rfl, rfl, rfl⟩ := h
    exact ⟨_, inside, rfl, rfl, rfl, String.toList_ofList.symm ▸ spelled⟩
  · rw [spelled.scanLexeme_broken stop single] at h
    simp only [Scan.mk.injEq, reduceCtorEq, false_and] at h

theorem SpelledText.isSingle (h : SpelledText value text) : IsSingle (text ++ ['"']) := by
  rintro ⟨more, whole⟩
  cases h with
  | nil => simp at whole
  | cons first _ =>
    cases first with
    | raw quote => exact quote (List.cons.inj whole).1.symm
    | short => exact absurd (List.cons.inj whole).1 (by decide)
    | code => exact absurd (List.cons.inj whole).1 (by decide)

theorem tokenize_inQuotes {v : String} (h : SpelledText v.toList text) :
    tokenize (String.ofList (inQuotes text)) =
      .ok ⟨[⟨.string v, stretch [] (inQuotes text)⟩], .behind (inQuotes text)⟩ := by
  have scan := h.scanLexeme_closed h.isSingle
  rw [String.ofList_toList] at scan
  have word : Reads (inQuotes text) (.string v) [] := by
    refine ⟨'"', text ++ ['"'], rfl, rfl, ?_⟩
    rw [List.append_nil]
    exact scan
  let w : Written := ⟨[], inQuotes text, .string v⟩
  have laid : Laid [] [w] := .cons .nil word .nil
  have whole : (String.ofList (inQuotes text)).toList = layout [w] ++ [] := by simp [w]
  have words := laid.tokenize rfl whole
  rw [String.toList_ofList] at words
  exact words

/-- A word that was read from a single quote mark is a string, and its value is spelled between the
marks. -/
theorem string_of_token {source : String} {ts : Tokens} (h : tokenize source = .ok ts) {t : Token}
    (ht : t ∈ ts.words) (whole : source.toList = front ++ '"' :: cs)
    (start : t.span.start = (Cursor.behind front).offset) (single : IsSingle cs) :
    ∃ v inside rest, t.lexeme = .string v ∧ cs = inside ++ '"' :: rest ∧
      SpelledText v.toList inside ∧ t.span = stretch front (inQuotes inside) := by
  obtain ⟨front', c, cs', starts, value, span⟩ := exists_wordStarts h ht
  have same : (Cursor.behind front').offset = (Cursor.behind front).offset := by
    rw [← start, span]
    rfl
  obtain ⟨rfl, here⟩ := append_cancel_of_offset (starts.whole.symm.trans whole) same
  obtain ⟨rfl, rfl⟩ := List.cons.inj here
  have scan : scanLexeme '"' cs' =
      ⟨.ok t.lexeme, (scanLexeme '"' cs').text, (scanLexeme '"' cs').rest⟩ := by
    rw [← value]
  obtain ⟨v, inside, string, text, closed, spelled⟩ := scanLexeme_string single scan
  exact ⟨v, inside, _, string, closed, spelled, by rw [span, text]⟩

variable {source : String}

theorem WordStarts.taken_string_iff (h : WordStarts source.toList front '"' cs)
    (single : IsSingle cs) {v : String} : TakenAs source front text (.string v) ↔
      ∃ inside rest, text = inQuotes inside ∧ cs = inside ++ '"' :: rest ∧
        SpelledText v.toList inside := by
  constructor
  · intro taken
    obtain ⟨rest, scan⟩ := h.scan_of_taken taken
    obtain ⟨w, inside, same, text, closed, spelled⟩ := scanLexeme_string single scan
    obtain rfl := Lexeme.string.inj same
    exact ⟨inside, rest, text, closed, spelled⟩
  · rintro ⟨inside, rest, rfl, rfl, spelled⟩
    have scan := spelled.scanLexeme_closed single
    rw [String.ofList_toList] at scan
    have taken := h.takenAs (congrArg Scan.value scan)
    rwa [scan] at taken

theorem WordStarts.refused_string (h : WordStarts source.toList front '"' cs)
    (single : IsSingle cs) (whole : cs = text ++ (bad ++ rest)) (spelled : SpelledText value text)
    (stop : Misspelled f bad rest) : RefusedAs source front ('"' :: (text ++ bad)) f := by
  subst whole
  have scan := spelled.scanLexeme_broken stop single
  have refused := h.refusedAs (congrArg Scan.value scan)
  rwa [scan] at refused

end Strings

/-- Between two quote marks every spelling of a text is read as this text. What was read from a
quote mark that no two more follow is a string whose value is spelled between its marks. Where a
word starts with such a mark, the text goes on with a spelling and the closing mark, and that is the
word, or the spelling breaks off, and for that the source is refused. -/
theorem quotedStrings_decode :
    (∀ (v : String) (inside : List Char), SpelledText v.toList inside →
      tokenize (String.ofList (inQuotes inside)) =
        .ok ⟨[⟨.string v, stretch [] (inQuotes inside)⟩], .behind (inQuotes inside)⟩) ∧
    (∀ (source : String) (ts : Tokens), tokenize source = .ok ts → ∀ t ∈ ts.words, ∀ front cs,
      source.toList = front ++ '"' :: cs → t.span.start = (Cursor.behind front).offset →
      IsSingle cs → ∃ v inside rest, t.lexeme = .string v ∧ cs = inside ++ '"' :: rest ∧
        SpelledText v.toList inside ∧ t.span = stretch front (inQuotes inside)) ∧
    ∀ (source : String) (front cs : List Char), WordStarts source.toList front '"' cs →
      IsSingle cs →
      (∀ v text, TakenAs source front text (.string v) ↔ ∃ inside rest,
        text = inQuotes inside ∧ cs = inside ++ '"' :: rest ∧ SpelledText v.toList inside) ∧
      (∀ value inside bad rest f, cs = inside ++ (bad ++ rest) → SpelledText value inside →
        Misspelled f bad rest → RefusedAs source front ('"' :: (inside ++ bad)) f) ∧
      ∃ value inside, SpelledText value inside ∧ ((∃ rest, cs = inside ++ '"' :: rest) ∨
        ∃ f bad rest, cs = inside ++ (bad ++ rest) ∧ Misspelled f bad rest) := by
  refine ⟨fun v inside h => tokenize_inQuotes h, fun source ts h t ht front cs => ?_,
    fun source front cs starts single => ⟨fun v text => ?_, ?_, exists_spelling cs⟩⟩
  · exact string_of_token h ht
  · exact starts.taken_string_iff single
  · intro value inside bad rest f whole spelled stop
    exact starts.refused_string single whole spelled stop

/-- A letter, a code point in digits of both cases and a short escape; and behind a name the same
string, and one that spells half of a surrogate pair. -/
theorem quotedStrings_decode_escapes :
    let inside := ['a', '\\', 'u', '0', '0', 'e', 'E', '\\', 'n']
    let bad := ['\\', 'u', 'd', '8', '0', '0']
    tokenize "\"a\\u00eE\\n\"" = .ok ⟨[⟨.string "aî\n", ⟨0, 11, 1, 1⟩⟩], ⟨11, 1, 12⟩⟩ ∧
    (∃ v inside' rest, Lexeme.string "aî\n" = .string v ∧ inside ++ ['"'] = inside' ++ '"' :: rest ∧
      SpelledText v.toList inside' ∧ ⟨0, 11, 1, 1⟩ = stretch [] (inQuotes inside')) ∧
    TakenAs "x \"a\\u00eE\\n\"" ['x', ' '] (inQuotes inside) (.string "aî\n") ∧
    RefusedAs "x \"a\\ud800\"" ['x', ' '] ('"' :: (['a'] ++ bad))
      (.surrogateEscape ['d', '8', '0', '0']) := by
  intro inside bad
  obtain ⟨reads, found, starts⟩ := quotedStrings_decode
  have letter : Spelled 'a' ['a'] := .raw (by decide) (by decide) (by decide)
  have written : Writes 16 ['0', '0', 'e', 'E'] 'î'.toNat := ⟨[0, 0, 14, 14], by decide, by decide⟩
  have spelled : SpelledText "aî\n".toList inside :=
    .cons letter (.cons (.code rfl written) (.cons (.short (e := 'n') (by decide)) .nil))
  have half : Writes 16 ['d', '8', '0', '0'] 0xD800 := ⟨[13, 8, 0, 0], by decide, by decide⟩
  have broken : Misspelled (.surrogateEscape ['d', '8', '0', '0']) bad ['"'] :=
    .surrogate rfl half (by decide) (by decide) _
  have behindName {cs : List Char} : WordStarts ('x' :: ' ' :: '"' :: cs) ['x', ' '] '"' cs :=
    ⟨rfl, ⟨[⟨[], ['x'], .name "x"⟩], [' '], rfl,
      .cons .nil ⟨'x', [], rfl, rfl, rfl⟩ .nil, .separator rfl .nil⟩, rfl⟩
  have read := reads "aî\n" inside spelled
  refine ⟨read, ?_, ?_, ?_⟩
  · exact found _ _ read _ (List.mem_singleton_self _) [] (inside ++ ['"']) String.toList_ofList rfl
      (by decide)
  · exact ((starts "x \"a\\u00eE\\n\"" _ _ behindName (by decide)).1 _ _).mpr
      ⟨inside, [], rfl, rfl, spelled⟩
  · exact (starts "x \"a\\ud800\"" _ _ behindName (by decide)).2.1 ['a'] ['a'] bad ['"'] _ rfl
      (.cons letter .nil) broken

end TransformDirective.Schema
