import Mathlib.Data.List.Forall2
import TransformDirective.Proofs.Schema.Recognition
import TransformDirective.Proofs.Schema.Rescan
import TransformDirective.Proofs.Text.Position

namespace TransformDirective.Schema

open TransformDirective.Text

section Reading

/-- No separator and no comment stands behind the separators and comments. -/
theorem skipTrivia_head (comment : Bool) (cs : List Char) {c : Char} {r : List Char}
    (h : (skipTrivia comment cs).2 = c :: r) : isSeparator c = false := by
  induction cs generalizing comment with
  | nil => cases h
  | cons d cs ih =>
    unfold skipTrivia at h
    split at h
    · exact ih _ h
    · next hd =>
      obtain ⟨rfl, -⟩ := List.cons.inj h
      simp only [not_or, Bool.not_eq_true] at hd
      exact isSeparator_eq_false.mpr ⟨hd.2.1, hd.2.2⟩

theorem skipTrivia_word {c : Char} (hc : isSeparator c = false) (cs : List Char) :
    skipTrivia false (c :: cs) = ([], c :: cs) := by
  obtain ⟨hash, ignored⟩ := isSeparator_eq_false.mp hc
  simp [skipTrivia, hash, ignored]

variable {p : Cursor} {cs : List Char}

theorem tokensFrom_end (h : (skipTrivia false cs).2 = []) :
    tokensFrom p cs = .ok ⟨[], p.advance (skipTrivia false cs).1⟩ := by
  rw [tokensFrom]
  split
  · rfl
  · next h' => rw [h] at h'; cases h'

/-- The words behind the first one are read from where it ends. -/
theorem tokensFrom_word {c : Char} {r : List Char} (h : (skipTrivia false cs).2 = c :: r)
    {l : Lexeme} (hl : (scanLexeme c r).value = .ok l) :
    tokensFrom p cs =
      (tokensFrom ((p.advance (skipTrivia false cs).1).advance (scanLexeme c r).text)
        (scanLexeme c r).rest).map fun ts =>
          { ts with words := ⟨l, .between (p.advance (skipTrivia false cs).1)
            ((p.advance (skipTrivia false cs).1).advance (scanLexeme c r).text)⟩ :: ts.words } := by
  rw [tokensFrom]
  split
  · next h' => rw [h] at h'; cases h'
  · next c' r' h' =>
    rw [h] at h'
    obtain ⟨rfl, rfl⟩ := List.cons.inj h'
    simp only [hl]
    split
    · next e he => rw [he]; rfl
    · next ts hts => rw [hts]; rfl

theorem tokensFrom_fault {c : Char} {r : List Char} (h : (skipTrivia false cs).2 = c :: r)
    {f : LexFault} (hf : (scanLexeme c r).value = .error f) :
    tokensFrom p cs = .error ⟨.lexical f, .between (p.advance (skipTrivia false cs).1)
      ((p.advance (skipTrivia false cs).1).advance (scanLexeme c r).text)⟩ := by
  rw [tokensFrom]
  split
  · next h' => rw [h] at h'; cases h'
  · next c' r' h' =>
    rw [h] at h'
    obtain ⟨rfl, rfl⟩ := List.cons.inj h'
    simp only [hf]

theorem length_rest_lt {c : Char} {r : List Char} (h : (skipTrivia false cs).2 = c :: r) :
    (scanLexeme c r).rest.length < cs.length := by
  have hle := length_scanLexeme_rest_le c r
  have happend := congrArg List.length (skipTrivia_append false cs)
  rw [h, List.length_append, List.length_cons] at happend
  omega

/-- What holds of every text that is at its end, that starts with a fault, or that starts with a
word and behind which it holds, holds of every text. -/
theorem tokensFrom_induction {motive : Cursor → List Char → Prop}
    (done : ∀ p cs, (skipTrivia false cs).2 = [] → motive p cs)
    (fault : ∀ p cs c r f, (skipTrivia false cs).2 = c :: r →
      (scanLexeme c r).value = .error f → motive p cs)
    (word : ∀ p cs c r l, (skipTrivia false cs).2 = c :: r → (scanLexeme c r).value = .ok l →
      motive ((p.advance (skipTrivia false cs).1).advance (scanLexeme c r).text)
        (scanLexeme c r).rest → motive p cs) (p : Cursor) (cs : List Char) : motive p cs := by
  induction hk : cs.length using Nat.strongRecOn generalizing p cs with
  | ind k ih =>
    subst hk
    cases hcs : (skipTrivia false cs).2 with
    | nil => exact done p cs hcs
    | cons c r =>
      cases hv : (scanLexeme c r).value with
      | error f => exact fault p cs c r f hcs hv
      | ok l => exact word p cs c r l hcs hv (ih _ (length_rest_lt hcs) _ _ rfl)

/-- The words are the same from behind the separators in front of them. -/
theorem tokensFrom_congr {q : Cursor} {ds : List Char}
    (front : p.advance (skipTrivia false cs).1 = q.advance (skipTrivia false ds).1)
    (back : (skipTrivia false cs).2 = (skipTrivia false ds).2) :
    tokensFrom p cs = tokensFrom q ds := by
  cases hcs : (skipTrivia false cs).2 with
  | nil =>
    have hds : (skipTrivia false ds).2 = [] := by rw [← back, hcs]
    rw [tokensFrom_end hcs, tokensFrom_end hds, front]
  | cons c r =>
    have hds : (skipTrivia false ds).2 = c :: r := by rw [← back, hcs]
    cases hv : (scanLexeme c r).value with
    | error f => rw [tokensFrom_fault hcs hv, tokensFrom_fault hds hv, front]
    | ok l => rw [tokensFrom_word hcs hv, tokensFrom_word hds hv, front]

end Reading

section Trivia

/-- Separators and closed comments. -/
inductive Trivia : List Char → Prop
  | nil : Trivia []
  | separator {c : Char} {cs : List Char} (hc : isIgnored c) (more : Trivia cs) : Trivia (c :: cs)
  | comment {text cs : List Char} (line : '\n' ∉ text) (more : Trivia cs) :
      Trivia ('#' :: text ++ '\n' :: cs)

theorem skipTrivia_ignored {c : Char} (hc : isIgnored c) (cs : List Char) :
    skipTrivia false (c :: cs) = (c :: (skipTrivia false cs).1, (skipTrivia false cs).2) := by
  have other : c ≠ '#' := by
    rintro rfl
    exact absurd hc (by decide)
  simp [skipTrivia, hc, other]

theorem skipTrivia_hash (cs : List Char) :
    skipTrivia false ('#' :: cs) = ('#' :: (skipTrivia true cs).1, (skipTrivia true cs).2) := by
  simp [skipTrivia]

theorem skipTrivia_inside {c : Char} (hc : c ≠ '\n') (cs : List Char) :
    skipTrivia true (c :: cs) = (c :: (skipTrivia true cs).1, (skipTrivia true cs).2) := by
  simp [skipTrivia, hc]

theorem skipTrivia_close (cs : List Char) :
    skipTrivia true ('\n' :: cs) = ('\n' :: (skipTrivia false cs).1, (skipTrivia false cs).2) := by
  simp [skipTrivia]

theorem skipTrivia_comment {text : List Char} (line : '\n' ∉ text) (cs : List Char) :
    skipTrivia true (text ++ '\n' :: cs) =
      (text ++ '\n' :: (skipTrivia false cs).1, (skipTrivia false cs).2) := by
  induction text with
  | nil => exact skipTrivia_close cs
  | cons d text ih =>
    rw [List.mem_cons, not_or] at line
    rw [List.cons_append, skipTrivia_inside (Ne.symm line.1), ih line.2, List.cons_append]

/-- Separators and closed comments are skipped as a whole. -/
theorem Trivia.skip {gap : List Char} (h : Trivia gap) (cs : List Char) :
    skipTrivia false (gap ++ cs) = (gap ++ (skipTrivia false cs).1, (skipTrivia false cs).2) := by
  induction h with
  | nil => rfl
  | separator hc _ ih => rw [List.cons_append, skipTrivia_ignored hc, ih, List.cons_append]
  | comment line _ ih =>
    rw [List.append_assoc, List.cons_append, List.cons_append, skipTrivia_hash,
      skipTrivia_comment line, ih, List.append_assoc, List.cons_append, List.cons_append]

/-- What ends a comment that is still open if nothing is left. -/
def closing : List Char → List Char
  | [] => ['\n']
  | _ :: _ => []

/-- What is skipped is made of separators and comments, also from inside a comment. -/
theorem trivia_closed (cs : List Char) :
    Trivia ((skipTrivia false cs).1 ++ closing (skipTrivia false cs).2) ∧
      ∃ text gap, (skipTrivia true cs).1 ++ closing (skipTrivia true cs).2 = text ++ '\n' :: gap ∧
        '\n' ∉ text ∧ Trivia gap := by
  induction cs with
  | nil => exact ⟨.separator rfl .nil, [], [], rfl, List.not_mem_nil, .nil⟩
  | cons d cs ih =>
    obtain ⟨plain, text, gap, inside, line, trivia⟩ := ih
    constructor
    · by_cases hash : d = '#'
      · subst hash
        rw [skipTrivia_hash, List.cons_append, inside]
        exact .comment line trivia
      · by_cases ignored : isIgnored d
        · rw [skipTrivia_ignored ignored]
          exact .separator ignored plain
        · rw [skipTrivia_word (isSeparator_eq_false.mpr ⟨hash, Bool.eq_false_iff.mpr ignored⟩)]
          exact .nil
    · by_cases close : d = '\n'
      · subst close
        rw [skipTrivia_close]
        exact ⟨[], _, rfl, List.not_mem_nil, plain⟩
      · rw [skipTrivia_inside close]
        refine ⟨d :: text, gap, congrArg (d :: ·) inside, ?_, trivia⟩
        rw [List.mem_cons, not_or]
        exact ⟨Ne.symm close, line⟩

theorem trivia_of_word {cs r : List Char} {c : Char} (h : (skipTrivia false cs).2 = c :: r) :
    Trivia (skipTrivia false cs).1 := by
  have closed := (trivia_closed cs).1
  rw [h] at closed
  rwa [closing, List.append_nil] at closed

theorem trivia_of_end {cs : List Char} (h : (skipTrivia false cs).2 = []) :
    Trivia (cs ++ ['\n']) := by
  have closed := (trivia_closed cs).1
  have whole := skipTrivia_append false cs
  rw [h, List.append_nil] at whole
  rwa [h, whole] at closed

theorem Trivia.tokensFrom {gap : List Char} (h : Trivia gap) (p : Cursor) (cs : List Char) :
    tokensFrom p (gap ++ cs) = tokensFrom (p.advance gap) cs := by
  apply tokensFrom_congr
  · rw [h.skip, Cursor.advance_append]
  · rw [h.skip]

theorem Trivia.head {gap : List Char} (h : Trivia gap) : ∀ c ∈ gap.head?, isSeparator c := by
  intro c hc
  cases h with
  | nil => cases hc
  | separator sep _ =>
    obtain rfl := Option.some.inj hc
    simp [isSeparator, sep]
  | comment _ _ =>
    obtain rfl := Option.some.inj hc
    rfl

end Trivia

section Words

/-- The text in front of the rest is read as the word. -/
def Reads (text : List Char) (l : Lexeme) (rest : List Char) : Prop :=
  ∃ c cs, text = c :: cs ∧ isSeparator c = false ∧ scanLexeme c (cs ++ rest) = ⟨.ok l, text, rest⟩

namespace Reads

variable {text old rest : List Char} {l : Lexeme}

theorem of_scan {c : Char} {r : List Char} (hc : isSeparator c = false)
    (h : (scanLexeme c r).value = .ok l) :
    Reads (scanLexeme c r).text l (scanLexeme c r).rest ∧
      (scanLexeme c r).text ++ (scanLexeme c r).rest = c :: r := by
  have splits : (scanLexeme c r).text ++ (scanLexeme c r).rest = c :: r := scanLexeme_splits c r
  obtain ⟨d, cs, text⟩ := List.exists_cons_of_ne_nil (scanLexeme_text_ne_nil c r)
  refine ⟨⟨d, cs, text, ?_⟩, splits⟩
  rw [text, List.cons_append] at splits
  obtain ⟨rfl, whole⟩ := List.cons.inj splits
  refine ⟨hc, ?_⟩
  rw [whole, ← h]

theorem ne_nil (h : Reads text l rest) : text ≠ [] := by
  obtain ⟨c, cs, rfl, -⟩ := h
  exact List.cons_ne_nil c cs

/-- A word is read in front of every text that stops it as the old one did. -/
theorem alike (h : Reads text l old) (stops : StopsAlike old rest) : Reads text l rest := by
  obtain ⟨c, cs, rfl, hc, scan⟩ := h
  refine ⟨c, cs, rfl, hc, ?_⟩
  have again := scanLexeme_again c (cs ++ old) rest (by rw [scan]; rfl) (by rw [scan]; exact stops)
  rw [scan] at again
  exact again

/-- The first word of a text that starts with separators and this word. -/
theorem tokensFrom {gap : List Char} (h : Reads text l rest) (trivia : Trivia gap) (p : Cursor) :
    tokensFrom p (gap ++ text ++ rest) =
      (tokensFrom (p.advance (gap ++ text)) rest).map fun ts => { ts with
        words := ⟨l, .between (p.advance gap) (p.advance (gap ++ text))⟩ :: ts.words } := by
  obtain ⟨c, cs, rfl, hc, scan⟩ := h
  have skip : skipTrivia false (gap ++ c :: cs ++ rest) = (gap, c :: (cs ++ rest)) := by
    rw [List.append_assoc, trivia.skip, List.cons_append, skipTrivia_word hc, List.append_nil]
  have value : (scanLexeme c (cs ++ rest)).value = .ok l := by rw [scan]
  rw [tokensFrom_word (congrArg Prod.snd skip) value, skip, scan, Cursor.advance_append]

end Reads

/-- A word as it stands in a text: what separates it from the text in front of it, its characters
and its meaning. -/
structure Written where
  gap : List Char
  text : List Char
  lexeme : Lexeme

def Written.chars (w : Written) : List Char := w.gap ++ w.text

def layout (ws : List Written) : List Char := ws.flatMap Written.chars

@[simp] theorem layout_nil : layout [] = [] := rfl

@[simp] theorem layout_cons (w : Written) (ws : List Written) :
    layout (w :: ws) = w.gap ++ w.text ++ layout ws := rfl

@[simp] theorem layout_append (us vs : List Written) : layout (us ++ vs) = layout us ++ layout vs :=
  List.flatMap_append

def placed (front : List Char) : List Written → List Token
  | [] => []
  | w :: ws =>
    ⟨w.lexeme, .between (.behind (front ++ w.gap)) (.behind (front ++ w.gap ++ w.text))⟩ ::
      placed (front ++ w.gap ++ w.text) ws

theorem placed_append (front : List Char) (us vs : List Written) :
    placed front (us ++ vs) = placed front us ++ placed (front ++ layout us) vs := by
  induction us generalizing front with
  | nil => simp [placed]
  | cons w us ih => simp [placed, ih]

theorem length_placed (front : List Char) (ws : List Written) :
    (placed front ws).length = ws.length := by
  induction ws generalizing front with
  | nil => rfl
  | cons w ws ih => rw [placed, List.length_cons, ih, List.length_cons]

theorem placed_eq_append {front : List Char} {ws : List Written} {us vs : List Token}
    (h : placed front ws = us ++ vs) : ∃ as bs, ws = as ++ bs ∧ placed front as = us ∧
      placed (front ++ layout as) bs = vs := by
  have whole : ws.take us.length ++ ws.drop us.length = ws := List.take_append_drop _ _
  have length := congrArg List.length h
  rw [length_placed, List.length_append] at length
  rw [← whole, placed_append] at h
  obtain ⟨front, back⟩ := List.append_inj h (by rw [length_placed, List.length_take]; omega)
  exact ⟨_, _, whole.symm, front, back⟩

theorem lexemes_placed (front : List Char) (ws : List Written) :
    lexemes (placed front ws) = ws.map (·.lexeme) := by
  induction ws generalizing front with
  | nil => rfl
  | cons w ws ih => exact congrArg (w.lexeme :: ·) (ih _)

/-- Each word's place cuts its characters out of the text. -/
theorem placed_excerpts (front : List Char) (ws : List Written) (last : List Char) :
    List.Forall₂ (fun t w => Excerpt (front ++ layout ws ++ last) t.span w.text)
      (placed front ws) ws := by
  induction ws generalizing front with
  | nil => exact .nil
  | cons w ws ih =>
    apply List.Forall₂.cons
    · refine ⟨front ++ w.gap, layout ws ++ last, ?_, rfl⟩
      simp only [layout_cons, List.append_assoc]
    · have more := ih (front ++ w.gap ++ w.text)
      rw [layout_cons, ← List.append_assoc, ← List.append_assoc]
      exact more

theorem excerpt_of_mem {front : List Char} {ws : List Written} (last : List Char) {t : Token}
    (ht : t ∈ placed front ws) : ∃ text, Excerpt (front ++ layout ws ++ last) t.span text := by
  obtain ⟨i, hi, rfl⟩ := List.getElem_of_mem ht
  have length := length_placed front ws
  have cut := (placed_excerpts front ws last).get hi (length ▸ hi)
  exact ⟨_, cut⟩

theorem le_placed {front : List Char} {ws : List Written} :
    ∀ t ∈ placed front ws, (Cursor.behind front).offset ≤ t.span.start := by
  induction ws generalizing front with
  | nil => exact fun t ht => nomatch ht
  | cons w ws ih =>
    intro t ht
    obtain rfl | ht := List.mem_cons.mp ht
    · exact Cursor.offset_behind_le front w.gap
    · have first := Cursor.offset_behind_le front (w.gap ++ w.text)
      have more := ih t ht
      rw [← List.append_assoc] at first
      exact Nat.le_trans first more

/-- The words stand one behind the other. -/
theorem placed_pairwise (front : List Char) (ws : List Written) :
    (placed front ws).Pairwise (·.span.stop ≤ ·.span.start) := by
  induction ws generalizing front with
  | nil => exact .nil
  | cons w ws ih => exact .cons le_placed (ih _)

end Words

/-- Each word stands behind separators and is read in front of what follows it. -/
inductive Laid (last : List Char) : List Written → Prop
  | nil : Laid last []
  | cons {w : Written} {ws : List Written} (gap : Trivia w.gap)
      (word : Reads w.text w.lexeme (layout ws ++ last)) (more : Laid last ws) : Laid last (w :: ws)

namespace Laid

variable {last last' : List Char} {ws us vs : List Written}

/-- The words of a text that is laid out so far are followed by those of the rest. -/
theorem tokensFrom (h : Laid last ws) (front : List Char) :
    tokensFrom (.behind front) (layout ws ++ last) =
      (tokensFrom (.behind (front ++ layout ws)) last).map fun ts =>
        { ts with words := placed front ws ++ ts.words } := by
  induction h generalizing front with
  | nil =>
    rw [layout_nil, List.append_nil, List.nil_append]
    cases Schema.tokensFrom (.behind front) last <;> rfl
  | @cons w ws gap word _ ih =>
    have first := word.tokensFrom gap (.behind front)
    rw [Cursor.advance_behind, Cursor.advance_behind, ← List.append_assoc front, ih] at first
    rw [layout_cons, List.append_assoc, first, ← List.append_assoc front, ← List.append_assoc front]
    cases Schema.tokensFrom (.behind (front ++ w.gap ++ w.text ++ layout ws)) last <;> rfl

theorem reads (h : Laid last ws) {w : Written} (hw : w ∈ ws) :
    ∃ rest, Reads w.text w.lexeme rest := by
  induction h with
  | nil => cases hw
  | cons _ word _ ih =>
    obtain rfl | hw := List.mem_cons.mp hw
    · exact ⟨_, word⟩
    · exact ih hw

/-- Words are laid out in front of what follows them, whether that is words or not. -/
theorem append_iff : Laid last (us ++ vs) ↔ Laid (layout vs ++ last) us ∧ Laid last vs := by
  constructor
  · intro h
    induction us with
    | nil => exact ⟨.nil, h⟩
    | cons w us ih =>
      cases h with
      | cons gap word more =>
        obtain ⟨front, back⟩ := ih more
        rw [show layout (us.append vs) = layout us ++ layout vs from layout_append us vs,
          List.append_assoc] at word
        exact ⟨.cons gap word front, back⟩
  · rintro ⟨front, back⟩
    induction front with
    | nil => exact back
    | cons gap word _ ih =>
      rw [← List.append_assoc, ← layout_append] at word
      exact .cons gap word ih

/-- No word is empty. -/
theorem start_lt_stop (h : Laid last ws) (front : List Char) :
    ∀ t ∈ placed front ws, t.span.start < t.span.stop := by
  induction h generalizing front with
  | nil => exact fun t ht => nomatch ht
  | @cons w ws _ word _ ih =>
    intro t ht
    obtain rfl | ht := List.mem_cons.mp ht
    · exact Cursor.offset_behind_lt (front ++ w.gap) word.ne_nil
    · exact ih _ t ht

theorem ascending (h : Laid last ws) (front : List Char) :
    (placed front ws).Pairwise (·.span.start < ·.span.start) := by
  apply (placed_pairwise front ws).imp_of_mem
  intro s t hs _ le
  exact Nat.lt_of_lt_of_le (h.start_lt_stop front s hs) le

/-- What stands behind the words may be changed if the last word stops as before. -/
theorem alike (h : Laid last ws) (stops : StopsAlike last last') : Laid last' ws := by
  induction h with
  | nil => exact .nil
  | cons gap word _ ih => exact .cons gap (word.alike (stops.append _)) ih

/-- A text that is laid out may be cut behind any of its words. -/
theorem cut (h : Laid (last ++ last') ws) : Laid last ws := h.alike (.cut last last')

end Laid

/-- Every text is laid out up to its end or its first fault. -/
theorem exists_laid (cs : List Char) : ∃ ws last, cs = layout ws ++ last ∧ Laid last ws ∧
    ∀ c r, (skipTrivia false last).2 = c :: r → ∃ f, (scanLexeme c r).value = .error f := by
  induction Cursor.start, cs using tokensFrom_induction with
  | done _ cs hcs =>
    refine ⟨[], cs, rfl, .nil, fun c r h => ?_⟩
    rw [hcs] at h
    cases h
  | fault _ cs c r f hcs hv =>
    refine ⟨[], cs, rfl, .nil, fun c' r' h => ?_⟩
    obtain ⟨rfl, rfl⟩ := List.cons.inj (hcs.symm.trans h)
    exact ⟨f, hv⟩
  | word _ cs c r l hcs hv ih =>
    obtain ⟨ws, last, rest, laid, stop⟩ := ih
    have trivia := trivia_of_word hcs
    obtain ⟨word, splits⟩ := Reads.of_scan (skipTrivia_head false cs hcs) hv
    refine ⟨⟨(skipTrivia false cs).1, (scanLexeme c r).text, l⟩ :: ws, last, ?_,
      .cons trivia ?_ laid, stop⟩
    · have whole := skipTrivia_append false cs
      rw [hcs, ← splits, rest] at whole
      rw [layout_cons, List.append_assoc, List.append_assoc]
      exact whole.symm
    · rw [← rest]
      exact word

/-- The text holds no word behind its words. -/
def Blank (last : List Char) : Prop := (skipTrivia false last).2 = []

theorem tokensFrom_blank {last : List Char} (h : Blank last) (p : Cursor) :
    tokensFrom p last = .ok ⟨[], p.advance last⟩ := by
  have whole := skipTrivia_append false last
  rw [h, List.append_nil] at whole
  rw [tokensFrom_end h, whole]

/-- A text that is laid out to its end is made of these words. -/
theorem Laid.tokenize {ws : List Written} {last : List Char} {source : String} (h : Laid last ws)
    (blank : Blank last) (whole : source.toList = layout ws ++ last) :
    tokenize source = .ok ⟨placed [] ws, .behind source.toList⟩ := by
  have words := h.tokensFrom []
  rw [tokensFrom_blank blank, Cursor.advance_behind, List.nil_append] at words
  rw [Schema.tokenize, whole]
  exact words.trans (congrArg Except.ok (congrArg (Tokens.mk · _) (List.append_nil _)))

/-- What a text is made of is laid out in it. -/
theorem exists_layout {source : String} {ts : Tokens} (h : tokenize source = .ok ts) :
    ∃ ws last, source.toList = layout ws ++ last ∧ Laid last ws ∧ Blank last ∧
      ts = ⟨placed [] ws, .behind source.toList⟩ := by
  obtain ⟨ws, last, whole, laid, stop⟩ := exists_laid source.toList
  cases rest : (skipTrivia false last).2 with
  | nil =>
    have words := laid.tokenize rest whole
    exact ⟨ws, last, whole, laid, rest, Except.ok.inj (h.symm.trans words)⟩
  | cons c r =>
    obtain ⟨f, fault⟩ := stop c r rest
    have words := laid.tokensFrom []
    rw [tokensFrom_fault rest fault] at words
    rw [Schema.tokenize, whole] at h
    cases h.symm.trans words

/-- The words of a text stand one behind the other. -/
theorem tokenize_ascending {source : String} {ts : Tokens} (h : tokenize source = .ok ts) :
    ts.words.Pairwise (·.span.start < ·.span.start) := by
  obtain ⟨ws, last, -, laid, -, rfl⟩ := exists_layout h
  exact laid.ascending []

end TransformDirective.Schema
