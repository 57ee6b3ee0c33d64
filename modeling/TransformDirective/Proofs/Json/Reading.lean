import Mathlib.Data.List.Forall2
import TransformDirective.Json.Value
import TransformDirective.Proofs.Json.Quoting

namespace TransformDirective.Json

open TransformDirective.Text

section Reads

variable {α β : Type} {n : Nat} {p : Reader α} {a : α}

/-- The reader takes the text and gives the value, whatever follows, as long as no more than `n`
characters are left. A value calls its own reader on shorter texts only, so the bound is needed. -/
def Reads (n : Nat) (p : Reader α) (text : List Char) (a : α) : Prop :=
  ∀ rest, (text ++ rest).length ≤ n → p (text ++ rest) = .ok a rest

/-- One text behind another is read by one reader behind the other. -/
theorem Reads.bind {f : α → Reader β} {us vs : List Char} {b : β} (first : Reads n p us a)
    (second : Reads n (f a) vs b) : Reads n (p >>= f) (us ++ vs) b := by
  intro rest bound
  have shorter : (vs ++ rest).length ≤ n := by
    simp only [List.length_append] at bound ⊢
    omega
  rw [List.append_assoc] at bound ⊢
  rw [Parser.bind_apply, first _ bound]
  exact second rest shorter

theorem Reads.answer {text : List Char} (h : Reads n p text a) (f : α → β) :
    Reads n (p >>= fun a => pure (f a)) text (f a) := by
  intro rest bound
  rw [Parser.bind_apply, h rest bound]
  rfl

theorem Reads.mono {text : List Char} {k : Nat} (h : Reads n p text a) (le : k ≤ n) :
    Reads k p text a := by
  intro rest bound
  exact h rest (Nat.le_trans bound le)

/-- A reader that is only used on fewer than `m` characters. -/
theorem Reads.below {text : List Char} {m : Nat} (h : Reads n p text a) (lt : n < m)
    (fault : Option Char → Unit) :
    Reads n (fun r => if r.length < m then p r else Parser.fail fault r) text a := by
  intro rest bound
  have here : (text ++ rest).length < m := by omega
  exact (if_pos here).trans (h rest bound)

theorem char_reads (c : Char) : Reads n (Reader.char c) [c] () := by
  intro rest _
  simp [Reader.char, Reader.satisfy, Reader.any, Parser.bind_apply, Parser.next, Parser.pure_apply]

theorem spaces_idle {c : Char} (cs : List Char) (h : isSpace c = false) :
    spaces (c :: cs) = .ok () (c :: cs) := by
  simp [spaces, Parser.bind_apply, Parser.takeWhile, Parser.pure_apply, h]

theorem Reads.behind_spaces {c : Char} {cs : List Char} (h : isSpace c = false)
    (hp : Reads n p (c :: cs) a) : Reads n (spaces >>= fun _ => p) (c :: cs) a := by
  intro rest bound
  rw [List.cons_append, Parser.bind_apply, spaces_idle _ h]
  exact hp rest bound

theorem nextIs_apply (c d : Char) (cs : List Char) :
    Reader.nextIs c (d :: cs) = .ok (d == c) (d :: cs) := rfl

end Reads

section Items

variable {α : Type} {n : Nat} {item : Reader α} {closing : Char} {texts : List (List Char)} {a : α}
  {as : List α}

def furtherItem (item : Reader α) : Reader (Option α) := do
  spaces
  if ← Reader.nextIs ',' then
    Reader.char ','
    return some (← item)
  else return none

theorem furtherItem_reads {text : List Char} (h : Reads n item text a) :
    Reads n (furtherItem item) (',' :: text) (some a) := by
  have behind : Reads n (Reader.char ',' >>= fun _ => item >>= fun a => pure (some a))
      (',' :: text) (some a) := (char_reads ',').bind (h.answer some)
  exact .behind_spaces (by decide) behind

theorem furtherItem_stops (item : Reader α) {c : Char} (space : isSpace c = false) (comma : c ≠ ',')
    (cs : List Char) : furtherItem item (c :: cs) = .ok none (c :: cs) := by
  have other : (c == ',') = false := by simpa using comma
  rw [furtherItem, Parser.bind_apply, spaces_idle cs space]
  simp [Parser.bind_apply, nextIs_apply, other, Parser.pure_apply]

/-- Items behind commas are read up to the bracket that closes the list. -/
theorem furtherItems_read (space : isSpace closing = false) (comma : closing ≠ ',')
    (h : List.Forall₂ (Reads n item) texts as) (rest : List Char)
    (bound : (texts.flatMap (',' :: ·) ++ closing :: rest).length ≤ n) :
    Parser.collect (furtherItem item) (texts.flatMap (',' :: ·) ++ closing :: rest) =
      .ok as (closing :: rest) := by
  induction h with
  | nil =>
    rw [List.flatMap_nil, List.nil_append, Parser.collect_apply, furtherItem_stops item space comma]
  | @cons text a texts as here _ ih =>
    rw [List.flatMap_cons, List.append_assoc] at bound ⊢
    have shorter : (texts.flatMap (',' :: ·) ++ closing :: rest).length <
        (',' :: text ++ (texts.flatMap (',' :: ·) ++ closing :: rest)).length := by
      simp only [List.length_append, List.length_cons]
      omega
    have more := ih (by omega)
    rw [Parser.collect_apply, furtherItem_reads here _ bound]
    simp only [shorter, if_true, more]

theorem itemsUntil_empty (item : Reader α) (space : isSpace closing = false) :
    Reads n (itemsUntil closing item) [closing] [] := by
  apply Reads.behind_spaces space
  intro rest bound
  rw [List.singleton_append, Parser.bind_apply, nextIs_apply, beq_self_eq_true]
  exact (char_reads closing).answer (fun _ => []) rest bound

/-- A list is read that has items. That no further item follows is only seen at the closing bracket.
-/
theorem itemsUntil_cons {c : Char} {cs : List Char} (space : isSpace closing = false)
    (comma : closing ≠ ',') (notSpace : isSpace c = false) (notClosing : c ≠ closing)
    (first : Reads n item (c :: cs) a) (more : List.Forall₂ (Reads n item) texts as) :
    Reads n (itemsUntil closing item) (c :: (cs ++ (texts.flatMap (',' :: ·) ++ [closing])))
      (a :: as) := by
  have last : Reads n (spaces >>= fun _ => Reader.char closing >>= fun _ => pure (a :: as))
      [closing] (a :: as) :=
    .behind_spaces space ((char_reads closing).answer fun _ => a :: as)
  have items : Reads n (item >>= fun a => Parser.collect (furtherItem item) >>= fun as =>
      spaces >>= fun _ => Reader.char closing >>= fun _ => pure (a :: as))
      (c :: cs ++ (texts.flatMap (',' :: ·) ++ [closing])) (a :: as) := by
    refine first.bind fun rest bound => ?_
    rw [List.append_assoc, List.singleton_append] at bound ⊢
    rw [Parser.bind_apply, furtherItems_read space comma more rest bound]
    rw [List.length_append] at bound
    exact last rest (by rw [List.singleton_append]; omega)
  apply Reads.behind_spaces notSpace
  intro rest bound
  have goesOn : (c == closing) = false := by simpa using notClosing
  rw [List.cons_append, Parser.bind_apply, nextIs_apply, goesOn]
  exact items rest bound

theorem intercalate_cons (sep text : List Char) (texts : List (List Char)) :
    List.intercalate sep (text :: texts) = text ++ texts.flatMap (sep ++ ·) := by
  induction texts generalizing text with
  | nil => simp
  | cons other texts ih => simp [List.intercalate_cons_cons, ih]

/-- A list of items none of which starts like a blank or the closing bracket. -/
theorem itemsUntil_reads (space : isSpace closing = false) (comma : closing ≠ ',')
    (starts : ∀ text ∈ texts, ∃ c cs, text = c :: cs ∧ isSpace c = false ∧ c ≠ closing)
    (h : List.Forall₂ (Reads n item) texts as) :
    Reads n (itemsUntil closing item) (List.intercalate [','] texts ++ [closing]) as := by
  cases h with
  | nil => exact itemsUntil_empty item space
  | @cons text a texts as first more =>
    obtain ⟨c, cs, rfl, notSpace, notClosing⟩ := starts text List.mem_cons_self
    rw [intercalate_cons, List.append_assoc]
    exact itemsUntil_cons space comma notSpace notClosing first more

end Items

section Strings

variable {n : Nat}

theorem quote_eq (text : String) :
    quote text = '"' :: (text.toList.flatMap escapeChar ++ ['"']) := rfl

/-- Every character of a text is written as one piece, and the pieces stand for the characters they
were written for. -/
theorem stringBody_reads (text : String) :
    Reads n stringBody (text.toList.flatMap escapeChar ++ ['"']) (some text) := by
  intro rest _
  obtain ⟨ps, scanned, chars⟩ := scanPieces?_escaped text.toList rest
  rw [List.append_assoc, List.singleton_append, stringBody, scanned]
  simp [chars]

/-- A quoted text is read back. It ends by itself, so what follows it is left as it is. -/
theorem value_string_reads (text : String) : Reads n value (quote text) (.string (some text)) := by
  have body : Reads n (Reader.char '"' >>= fun _ => stringBody >>= fun t => pure (Value.string t))
      (quote text) (.string (some text)) :=
    (char_reads '"').bind ((stringBody_reads text).answer Value.string)
  intro rest bound
  have read := body rest bound
  rw [quote_eq, List.cons_append] at read ⊢
  rw [value, Parser.recursive_apply, Parser.bind_apply, spaces_idle _ (by decide)]
  exact read

end Strings

end TransformDirective.Json
