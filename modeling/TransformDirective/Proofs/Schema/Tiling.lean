import TransformDirective.Proofs.Schema.Layout

namespace TransformDirective.Schema

open TransformDirective.Text

/-- A comment of a text: it goes on to the next line feed or to the end. -/
structure Comment (source front inside back : List Char) : Prop where
  whole : source = front ++ '#' :: inside ++ back
  line : '\n' ∉ inside
  ends : ∀ c ∈ back.head?, c = '\n'

/-- The text behind this front has nothing in common with a word. -/
def Outside (words : List Token) (front text : List Char) : Prop :=
  ∀ t ∈ words, t.span.stop ≤ (Cursor.behind front).offset ∨
    (Cursor.behind (front ++ text)).offset ≤ t.span.start

/-- The character behind this front belongs to a comment outside all words. -/
def Commented (source : List Char) (words : List Token) (front : List Char) (c : Char) : Prop :=
  ∃ us inside back before after, Comment source us inside back ∧
    Outside words us ('#' :: inside) ∧ '#' :: inside = before ++ c :: after ∧ front = us ++ before

/-- The words stand one behind the other in the text, no word is empty, and what no word covers is
blank, a comma, a byte order mark or part of a comment. -/
structure Tiles (source : List Char) (ts : Tokens) : Prop where
  words : ∀ t ∈ ts.words, t.span.start < t.span.stop ∧ ∃ text, Excerpt source t.span text
  ordered : ts.words.Pairwise (·.span.stop ≤ ·.span.start)
  ends : ts.stop = .behind source
  between : ∀ front c back, source = front ++ c :: back → Outside ts.words front [c] →
    isIgnored c ∨ Commented source ts.words front c

/-- The error is that of the word which starts behind these words and separators. -/
def FaultIn (source : List Char) (e : SyntaxError) : Prop :=
  ∃ ws gap c back f, source = layout ws ++ gap ++ c :: back ∧ Laid (gap ++ c :: back) ws ∧
    Trivia gap ∧ isSeparator c = false ∧ (scanLexeme c back).value = .error f ∧
    e = ⟨.lexical f, .between (.behind (layout ws ++ gap))
      (.behind (layout ws ++ gap ++ (scanLexeme c back).text))⟩

section Between

/-- A character of two texts belongs to the first or to the second one. -/
theorem split_append {xs ys us vs : List Char} {c : Char} (h : xs ++ ys = us ++ c :: vs) :
    (∃ more, xs = us ++ c :: more) ∨ ∃ more, us = xs ++ more ∧ ys = more ++ c :: vs := by
  obtain ⟨more, front, back⟩ | ⟨more, front, back⟩ := List.append_eq_append_iff.mp h
  · exact .inr ⟨more, front, back⟩
  · cases more with
    | nil =>
      rw [List.append_nil] at front
      exact .inr ⟨[], by rw [front, List.append_nil], back.symm⟩
    | cons d more =>
      obtain ⟨rfl, -⟩ := List.cons.inj back
      exact .inl ⟨more, front⟩

/-- Each skipped character is a separator or belongs to a comment that a line feed ends. -/
theorem Trivia.char {gap : List Char} (h : Trivia gap) {us vs : List Char} {c : Char}
    (split : gap = us ++ c :: vs) :
    isIgnored c ∨ ∃ front inside back before after, gap = front ++ '#' :: inside ++ '\n' :: back ∧
      '\n' ∉ inside ∧ '#' :: inside = before ++ c :: after ∧ us = front ++ before := by
  induction h generalizing us with
  | nil => cases us <;> cases split
  | @separator d gap ignored _ ih =>
    cases us with
    | nil =>
      obtain ⟨rfl, -⟩ := List.cons.inj split
      exact .inl ignored
    | cons u us =>
      obtain ⟨rfl, tail⟩ := List.cons.inj split
      refine (ih tail).imp_right ?_
      rintro ⟨front, inside, back, before, after, whole, line, place, rfl⟩
      exact ⟨d :: front, inside, back, before, after, congrArg (d :: ·) whole, line, place, rfl⟩
  | @comment text gap line _ ih =>
    obtain ⟨after, inside⟩ | ⟨more, rfl, behind⟩ := split_append split
    · exact .inr ⟨[], text, gap, us, after, rfl, line, inside, rfl⟩
    · cases more with
      | nil =>
        obtain ⟨rfl, -⟩ := List.cons.inj behind
        exact .inl rfl
      | cons d more =>
        obtain ⟨rfl, tail⟩ := List.cons.inj behind
        refine (ih tail).imp_right ?_
        rintro ⟨front, inside, back, before, after, whole, line', place, rfl⟩
        refine ⟨'#' :: text ++ '\n' :: front, inside, back, before, after, ?_, line', place, ?_⟩
        · simp only [whole, List.append_assoc, List.cons_append]
        · simp only [List.append_assoc, List.cons_append]

/-- Each character behind the last word is a separator or belongs to a comment. -/
theorem Blank.char {last : List Char} (h : Blank last) {us vs : List Char} {c : Char}
    (split : last = us ++ c :: vs) :
    isIgnored c ∨ ∃ front inside back before after, Comment last front inside back ∧
      '#' :: inside = before ++ c :: after ∧ us = front ++ before := by
  have closed : last ++ ['\n'] = us ++ c :: (vs ++ ['\n']) := by
    rw [split, List.append_assoc, List.cons_append]
  refine ((trivia_of_end h).char closed).imp_right ?_
  rintro ⟨front, inside, back, before, after, whole, line, place, rfl⟩
  obtain rfl | ⟨back, d, rfl⟩ := List.eq_nil_or_concat back
  · have whole : last = front ++ '#' :: inside ++ [] := by
      rw [List.append_nil]
      exact List.append_cancel_right whole
    exact ⟨front, inside, [], before, after, ⟨whole, line, fun _ hd => nomatch hd⟩, place, rfl⟩
  · have whole : last = front ++ '#' :: inside ++ '\n' :: back := by
      rw [List.concat_eq_append, ← List.cons_append, ← List.append_assoc] at whole
      exact (List.append_inj' whole rfl).1
    refine ⟨front, inside, '\n' :: back, before, after, ⟨whole, line, ?_⟩, place, rfl⟩
    exact fun d hd => (Option.some.inj hd).symm

/-- No character of a word is outside it. -/
theorem not_outside {l : Lexeme} {words : List Token} {front text us vs : List Char} {c : Char}
    (split : text = us ++ c :: vs)
    (h : Outside (⟨l, .between (.behind front) (.behind (front ++ text))⟩ :: words)
      (front ++ us) [c]) : False := by
  have start := Cursor.offset_behind_le front us
  have char := Cursor.offset_behind_lt (front ++ us) (List.cons_ne_nil c [])
  have stop := Cursor.offset_behind_le (front ++ us ++ [c]) vs
  have whole : front ++ us ++ [c] ++ vs = front ++ text := by simp [split]
  rw [whole] at stop
  obtain before | behind := h _ List.mem_cons_self
  · have before : (Cursor.behind (front ++ text)).offset ≤ (Cursor.behind (front ++ us)).offset :=
      before
    omega
  · have behind : (Cursor.behind (front ++ us ++ [c])).offset ≤ (Cursor.behind front).offset :=
      behind
    omega

/-- A character that no word covers is a separator or belongs to a comment. -/
theorem Laid.between {last : List Char} {ws : List Written} (h : Laid last ws) (blank : Blank last)
    {front us vs : List Char} {c : Char} (split : layout ws ++ last = us ++ c :: vs)
    (outside : Outside (placed front ws) (front ++ us) [c]) :
    isIgnored c ∨ ∃ head inside back before after, Comment (layout ws ++ last) head inside back ∧
      Outside (placed front ws) (front ++ head) ('#' :: inside) ∧
      '#' :: inside = before ++ c :: after ∧ us = head ++ before := by
  induction h generalizing front us with
  | nil =>
    refine (blank.char split).imp_right ?_
    rintro ⟨head, inside, back, before, after, comment, place, rfl⟩
    exact ⟨head, inside, back, before, after, comment, fun t ht => (nomatch ht), place, rfl⟩
  | @cons w ws gap word _ ih =>
    rw [layout_cons, List.append_assoc, List.append_assoc] at split
    obtain ⟨more, inGap⟩ | ⟨us, rfl, behindGap⟩ := split_append split
    · refine (gap.char inGap).imp_right ?_
      rintro ⟨head, inside, back, before, after, whole, line, place, rfl⟩
      refine ⟨head, inside, '\n' :: back ++ (w.text ++ (layout ws ++ last)), before, after,
        ⟨?_, line, fun d hd => (Option.some.inj hd).symm⟩, ?_, place, rfl⟩
      · rw [layout_cons, whole]
        simp only [List.append_assoc]
      · -- the comment is in front of the first word, and so of all words
        have first := Cursor.offset_behind_le (front ++ (head ++ '#' :: inside)) ('\n' :: back)
        rw [List.append_assoc, ← whole] at first
        intro t ht
        refine .inr ?_
        rw [List.append_assoc]
        obtain rfl | ht := List.mem_cons.mp ht
        · exact first
        · have word := Cursor.offset_behind_le (front ++ w.gap) w.text
          have more := le_placed t ht
          omega
    · obtain ⟨more, inText⟩ | ⟨us, rfl, behindText⟩ := split_append behindGap
      · rw [← List.append_assoc] at outside
        exact (not_outside inText outside).elim
      · have apart : Outside (placed (front ++ w.gap ++ w.text) ws)
            (front ++ w.gap ++ w.text ++ us) [c] := by
          intro t ht
          have far := outside t (List.mem_cons_of_mem _ ht)
          simpa only [List.append_assoc] using far
        refine (ih behindText apart).imp_right ?_
        rintro ⟨head, inside, back, before, after, comment, uncovered, place, rfl⟩
        refine ⟨w.gap ++ w.text ++ head, inside, back, before, after,
          ⟨?_, comment.line, comment.ends⟩, ?_, place, ?_⟩
        · rw [layout_cons, List.append_assoc, comment.whole]
          simp only [List.append_assoc]
        · simp only [← List.append_assoc]
          exact List.forall_mem_cons.mpr ⟨.inl (Cursor.offset_behind_le _ head), uncovered⟩
        · simp only [List.append_assoc]

end Between

/-- The words of every text tile it; where it is not made of words, the error is where the word
starts that is none. -/
theorem tokenize_tiles (source : String) :
    match tokenize source with
    | .ok ts => Tiles source.toList ts
    | .error e => FaultIn source.toList e := by
  obtain ⟨ws, last, whole, laid, stop⟩ := exists_laid source.toList
  cases rest : (skipTrivia false last).2 with
  | nil =>
    rw [laid.tokenize rest whole]
    refine ⟨?_, placed_pairwise [] ws, rfl, ?_⟩
    · intro t ht
      obtain ⟨text, cut⟩ := excerpt_of_mem last ht
      exact ⟨laid.start_lt_stop [] t ht, text, whole ▸ cut⟩
    · intro front c back split outside
      rw [whole] at split ⊢
      have uncovered : Outside (placed [] ws) ([] ++ front) [c] := outside
      exact laid.between rest split uncovered
  | cons c back =>
    obtain ⟨f, fault⟩ := stop c back rest
    have parts := skipTrivia_append false last
    rw [rest] at parts
    have words := laid.tokensFrom []
    rw [tokensFrom_fault rest fault, Cursor.advance_behind, Cursor.advance_behind] at words
    have failed : tokenize source = _ := (congrArg (Schema.tokensFrom .start) whole).trans words
    rw [failed]
    refine ⟨ws, (skipTrivia false last).1, c, back, f, ?_, ?_, trivia_of_word rest,
      skipTrivia_head false last rest, fault, rfl⟩
    · rw [whole, List.append_assoc, parts]
    · rw [parts]
      exact laid

end TransformDirective.Schema
