import TransformDirective.Proofs.Schema.Following
import TransformDirective.Proofs.Schema.Settling

namespace TransformDirective.Schema

open TransformDirective.Text

def Request.atEnd (stop : Cursor) : Request → Except SyntaxError Reading
  | typeRef => .error ⟨.unexpected .typeRef none, .atCursor stop⟩
  | document => .ok (.document ⟨[]⟩)

/-- What the answer `a` to the request `q` tells about the walker `w` in front of it and the walker
`w'` behind it. A walker for nothing but the words ahead gives the same answer and passes as many of
them. -/
structure Walker.Answers (w : Walker) (q : Request) (a : Except SyntaxError Reading) (w' : Walker) :
    Prop where
  ends : w.Answered [q] [a] w'
  tokens : w'.tokens = w.tokens
  forward : w.position ≤ w'.position
  inside : w'.position ≤ w.tokens.words.length
  takes : q = .typeRef → a.isOk → w.position < w'.position
  alone : w.ahead.walker.Answered [q] [a] ⟨w.ahead, w'.position - w.position⟩
  last : q = .document → a.isOk → w'.position = w.tokens.words.length ∧
    ∀ later, w'.Answered later (later.map (·.atEnd w.tokens.stop)) w'

/-- The walk for a request follows its rule. -/
theorem Follows.request (n : Nat) (q : Request) : Follows n q.walk q.rule := by
  cases q with
  | typeRef => exact typeRef.bind fun _ => .pure _
  | document => exact document.bind fun _ => .pure _

theorem Walker.Answered.of_answer {w w' : Walker} {q : Request} {a : Except SyntaxError Reading}
    (h : ∀ depth > w.tokens.words.length, w.answer depth q = some (a, w')) :
    w.Answered [q] [a] w' := by
  intro depth deep
  rw [Walker.answers, h depth deep]
  rfl

section Answer

variable {w : Walker} (inside : w.position ≤ w.tokens.words.length)
include inside

/-- A request is answered by its rule from the words ahead, and what the rule takes is passed, at
every depth that suffices. -/
theorem answer_eq (q : Request) :
    ∃ us, w.ahead.words = us ++ (q.rule w.ahead.words).rest ∧
      ∀ depth > w.tokens.words.length, w.answer depth q =
        some (w.ahead.parse q.rule, ⟨w.tokens, w.position + us.length⟩) := by
  obtain ⟨⟨words, stop⟩, position⟩ := w
  have length : (words.take position).length = position := List.length_take_of_le inside
  obtain ⟨us, split, -⟩ := Follows.request _ q _ stop [] (words.drop position)
    (Nat.lt_succ_self _) (Nat.lt_succ_self _)
  refine ⟨us, split, fun depth deep => ?_⟩
  have short : (words.drop position).length < depth :=
    Nat.lt_of_le_of_lt (List.drop_suffix position words).length_le deep
  obtain ⟨vs, split', run⟩ := Follows.request _ q depth stop (words.take position)
    (words.drop position) (Nat.lt_succ_self _) short
  obtain rfl : us = vs := List.append_cancel_right (split.symm.trans split')
  rw [List.take_append_drop, List.length_append, length] at run
  rw [Walker.answer, run]
  rfl

/-- The words in front, those that an answer passes and those that it leaves are all words. -/
theorem length_split {us rest : List Token} (split : w.ahead.words = us ++ rest) :
    w.position + us.length + rest.length = w.tokens.words.length := by
  have words := congrArg List.length split
  rw [Walker.ahead, List.length_drop, List.length_append] at words
  omega

end Answer

/-- What an answer leaves is what the next one starts from. -/
theorem ahead_behind {w : Walker} {us rest : List Token} (split : w.ahead.words = us ++ rest) :
    Walker.ahead ⟨w.tokens, w.position + us.length⟩ = ⟨rest, w.tokens.stop⟩ := by
  have behind : w.tokens.words.drop (w.position + us.length) = rest := by
    rw [← List.drop_drop]
    show w.ahead.words.drop us.length = rest
    rw [split, List.drop_left]
  rw [Walker.ahead, behind]

theorem ahead_walker (ts : Tokens) : ts.walker.ahead = ts := rfl

section Success

variable {α β : Type} {us r : List Token} {ts : Tokens}

theorem ok_of_map {p : Rule α} {f : α → β} {b : β}
    (h : (do return f (← p) : Rule β) us = .ok b r) : ∃ a, p us = .ok a r := by
  rw [Parser.bind_apply] at h
  cases read : p us with
  | error e left => rw [read] at h; cases h
  | ok a r' =>
    rw [read] at h
    cases h
    exact ⟨a, rfl⟩

theorem exists_ok_of_isOk {rule : Rule α} (ok : (ts.parse rule).isOk) :
    ∃ a r, rule ts.words = .ok a r := by
  cases read : rule ts.words with
  | ok a r => exact ⟨a, r, rfl⟩
  | error e left =>
    rw [Tokens.parse, read] at ok
    cases ok

theorem rest_of_typeRef (ok : (ts.parse Request.typeRef.rule).isOk) :
    (Request.typeRef.rule ts.words).rest.length < ts.words.length := by
  obtain ⟨a, r, read⟩ := exists_ok_of_isOk ok
  obtain ⟨t, type⟩ := ok_of_map read
  rw [read]
  exact typeRef_takesWord type

/-- Behind a document nothing is left. -/
theorem rest_of_document (ok : (ts.parse Request.document.rule).isOk) :
    (Request.document.rule ts.words).rest = [] := by
  obtain ⟨a, r, read⟩ := exists_ok_of_isOk ok
  obtain ⟨d, document⟩ := ok_of_map read
  rw [read]
  exact document_rest document

end Success

section End

theorem typeRef_nil : Rule.typeRef [] = .error (.unexpected .typeRef none) [] :=
  Parser.recursive_apply _ _ _

/-- Behind the last word every request has the answer for an empty text. -/
theorem parse_atEnd {ts : Tokens} (done : ts.words = []) (q : Request) :
    ts.parse q.rule = q.atEnd ts.stop := by
  rw [Tokens.parse, done]
  cases q with
  | typeRef => rw [Request.rule, Parser.bind_apply, typeRef_nil]; rfl
  | document => rw [Request.rule, Parser.bind_apply, document_nil]; rfl

variable {w : Walker} (inside : w.position ≤ w.tokens.words.length) (done : w.ahead.words = [])
include inside done

theorem answer_atEnd (q : Request) {depth : Nat} (deep : w.tokens.words.length < depth) :
    w.answer depth q = some (q.atEnd w.tokens.stop, w) := by
  obtain ⟨us, split, answer⟩ := answer_eq inside q
  rw [done] at split
  obtain ⟨rfl, -⟩ := List.append_eq_nil_iff.mp split.symm
  rw [answer depth deep, parse_atEnd done]
  rfl

/-- At the end every request has the same answer each time. -/
theorem answered_atEnd (qs : List Request) :
    w.Answered qs (qs.map (·.atEnd w.tokens.stop)) w := by
  intro depth deep
  induction qs with
  | nil => rfl
  | cons q qs ih =>
    rw [Walker.answers, answer_atEnd inside done q deep]
    show (w.answers depth qs).bind _ = _
    rw [ih]
    rfl

end End

section Steps

variable {w : Walker} (inside : w.position ≤ w.tokens.words.length)
include inside

/-- One answer, wherever the ones before it stopped. -/
theorem exists_answer (q : Request) : ∃ a w', w.Answers q a w' := by
  obtain ⟨us, split, answer⟩ := answer_eq inside q
  have all := length_split inside split
  have inside' : w.position + us.length ≤ w.tokens.words.length := by omega
  refine ⟨_, _, .of_answer answer, rfl, Nat.le_add_right _ _, inside', ?takes, ?alone, ?last⟩
  case takes =>
    rintro rfl ok
    have shorter := rest_of_typeRef ok
    have words := congrArg List.length split
    rw [List.length_append] at words
    show w.position < w.position + us.length
    omega
  case alone =>
    obtain ⟨vs, split', alone⟩ := answer_eq (w := w.ahead.walker) (Nat.zero_le _) q
    rw [ahead_walker] at split' alone
    obtain rfl : us = vs := List.append_cancel_right (split.symm.trans split')
    have count : w.position + us.length - w.position = 0 + us.length := by omega
    show w.ahead.walker.Answered [q] _ ⟨w.ahead, w.position + us.length - w.position⟩
    rw [count]
    exact .of_answer alone
  case last =>
    rintro rfl ok
    rw [rest_of_document ok] at split all
    have passed : w.position + us.length = w.tokens.words.length := all
    have done := congrArg Tokens.words (ahead_behind split)
    exact ⟨passed, answered_atEnd inside' done⟩

/-- All answers, each from what the one before it left. -/
theorem exists_answers (qs : List Request) :
    ∃ w', w.Answered qs (w.ahead.readings qs) w' ∧ w'.tokens = w.tokens ∧
      w'.position ≤ w.tokens.words.length := by
  induction qs generalizing w with
  | nil => exact ⟨w, fun _ _ => rfl, rfl, inside⟩
  | cons q qs ih =>
    obtain ⟨us, split, answer⟩ := answer_eq inside q
    have all := length_split inside split
    have inside' : w.position + us.length ≤ w.tokens.words.length := by omega
    obtain ⟨w', rest, tokens, inside'⟩ := ih (w := ⟨w.tokens, w.position + us.length⟩) inside'
    refine ⟨w', fun depth deep => ?_, tokens, inside'⟩
    rw [Walker.answers, answer depth deep]
    show (Walker.answers depth _ qs).bind _ = _
    rw [rest depth deep, ahead_behind split]
    rfl

end Steps

/-- Requests in a row are all answered, as their rules answer them. Wherever they leave the walker,
it answers the next request, whatever that is. -/
theorem requests_answered_in_turn (ts : Tokens) (qs : List Request) :
    ∃ w, ts.walker.Answered qs (ts.readings qs) w ∧ w.tokens = ts ∧
      w.position ≤ ts.words.length ∧ ∀ q, ∃ a w', w.Answers q a w' := by
  obtain ⟨w, answered, rfl, inside⟩ := exists_answers (w := ts.walker) (Nat.zero_le _) qs
  exact ⟨w, answered, rfl, inside, exists_answer inside⟩

end TransformDirective.Schema
