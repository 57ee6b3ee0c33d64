import Mathlib.Tactic.MkIffOfInductiveProp
import TransformDirective.Proofs.Traversal
import TransformDirective.Scenario.Run

namespace TransformDirective.Scenario

open TransformDirective.Resolver TransformDirective.Template TransformDirective.Compile
  TransformDirective.Traversal

/-- What a check says of a request template, if there is one. -/
def RequestCheck.Holds (patterns : PatternReader) (request : Option String) : RequestCheck → Prop
  | equals t => request = some t
  | startsWith t => ∃ r, request = some r ∧ t.toList <+: r.toList
  | contains t => ∃ r, request = some r ∧ t.toList <:+: r.toList
  | fits p => ∃ r, request = some r ∧ ∃ test, patterns p = some test ∧ test r = true
  | blockOrder fs => ∃ r, request = some r ∧ blockFields r = fs
  | absent => request = none

namespace Expectation

/-- All that is expected holds of a step's result. -/
@[mk_iff]
structure Holds (patterns : PatternReader) (e : Expectation) (r : StepResult) : Prop where
  error : ∀ t, e.error = some t → ∃ m, r = .error m ∧ t.toList <:+: m.toList
  errorPattern : ∀ p, e.errorPattern = some p →
    ∃ test, patterns p = some test ∧ ∃ m, r = .error m ∧ test m = true
  custom : ∀ test, e.custom = some test → ∃ a, r = .ok a ∧ test a = true
  seeded : ∀ n, e.seeded = some n → ∃ a, r = .ok a ∧ a.report.seeded.length = n
  transforms : ∀ n, e.transforms = some n → ∃ a, r = .ok a ∧ a.report.splices.length = n
  resources : ∀ n, e.resources = some n → ∃ a, r = .ok a ∧ a.store.size = n
  requests : ∀ q ∈ e.requests,
    ∃ a, r = .ok a ∧ q.2.Holds patterns ((a.store.get? q.1).map (·.request))

def ExpectsError (e : Expectation) : Prop := e.error ≠ none ∨ e.errorPattern ≠ none

def ExpectsSuccess (e : Expectation) : Prop :=
  e.seeded ≠ none ∨ e.transforms ≠ none ∨ e.resources ≠ none ∨ e.custom ≠ none ∨ e.requests ≠ []

/-- Nothing that is expected is hidden: where a success is expected no failure can pass, and a
pattern beside a text fits all messages with this text. -/
structure Unmixed (patterns : PatternReader) (e : Expectation) : Prop where
  success : e.ExpectsSuccess → e.error = none ∧
    ∀ p test m, e.errorPattern = some p → patterns p = some test → test m = false
  agree : ∀ t p, e.error = some t → e.errorPattern = some p →
    ∃ test, patterns p = some test ∧ ∀ m : String, t.toList <:+: m.toList → test m = true

/-- The expectations by which a step is judged. -/
def heeded (e : Expectation) : Expectation :=
  match e.error, e.errorPattern with
  | some text, _ => ⟨none, none, none, [], some text, none, none⟩
  | none, some source => ⟨none, none, none, [], none, some source, none⟩
  | none, none => e

end Expectation

/-- The patterns that are read are judged by the place where they fit. -/
theorem Pattern.reader_iff (source text : String) :
    (∃ test, Pattern.reader source = some test ∧ test text = true) ↔
      ∃ p, Pattern.parse? source = some p ∧ p.FoundIn text := by
  simp [Pattern.reader, Pattern.isMatch_iff]

section Judging

variable (patterns : PatternReader)

theorem occursIn_iff (part whole : List Char) : occursIn part whole = true ↔ part <:+: whole := by
  induction whole with
  | nil => simp [occursIn]
  | cons c cs ih =>
    rw [occursIn, Bool.or_eq_true, List.isPrefixOf_iff_prefix, ih, List.infix_cons_iff]

theorem hasText_iff (whole part : String) :
    hasText whole part = true ↔ part.toList <:+: whole.toList :=
  occursIn_iff part.toList whole.toList

theorem judgeError_ok_iff (wanted : String) (test : String → Bool) (r : StepResult) :
    judgeError wanted test r = .ok () ↔ ∃ m, r = .error m ∧ test m = true := by
  cases r with
  | error m => cases h : test m <;> simp [judgeError, h]
  | ok a => simp [judgeError]

theorem judgeCount_ok_iff (what : String) (expected : Option Nat) (actual : Nat) :
    judgeCount what expected actual = .ok () ↔ ∀ n, expected = some n → actual = n := by
  cases expected with
  | none => simp [judgeCount]
  | some n => by_cases h : actual = n <;> simp [judgeCount, h, eq_comm]

/-- `absent` is no check of a template, and all templates pass it. -/
theorem passesCheck_ok_iff (request : String) (check : RequestCheck) :
    passesCheck patterns request check = .ok true ↔
      check = .absent ∨ check.Holds patterns (some request) := by
  cases check with
  | equals t => simp [passesCheck, RequestCheck.Holds]
  | startsWith t => simp [passesCheck, RequestCheck.Holds]
  | contains t => simp [passesCheck, RequestCheck.Holds, hasText_iff]
  | blockOrder fs => simp [passesCheck, RequestCheck.Holds]
  | absent => simp [passesCheck]
  | fits p =>
    cases read : patterns p <;>
      simp [passesCheck, RequestCheck.Holds, compilePattern, read, Except.map]

/-- A resolver passes a check that holds of its template, or of its absence. -/
theorem judgeRequest_ok_iff (store : Store) (k : Key) (check : RequestCheck) :
    judgeRequest patterns store k check = .ok () ↔
      check.Holds patterns ((store.get? k).map (·.request)) := by
  cases h : store.get? k with
  | none => cases check <;> simp [judgeRequest, RequestCheck.Holds, h]
  | some a =>
    by_cases absent : check = .absent
    · subst absent
      simp [judgeRequest, RequestCheck.Holds, h]
    · have passes := passesCheck_ok_iff patterns a.request check
      have verdict : judgeRequest patterns store k check = .ok () ↔
          passesCheck patterns a.request check = .ok true := by
        simp only [judgeRequest, h]
        rw [bind_eq_ok_iff]
        simp
      rw [verdict, passes, Option.map_some]
      simp [absent]

end Judging

namespace Expectation

variable (patterns : PatternReader) (e : Expectation)

theorem holds_ok_iff (a : Achieved) (untold : e.error = none) (unwritten : e.errorPattern = none) :
    e.Holds patterns (.ok a) ↔
      (∀ test, e.custom = some test → test a = true) ∧
      (∀ n, e.seeded = some n → a.report.seeded.length = n) ∧
      (∀ n, e.transforms = some n → a.report.splices.length = n) ∧
      (∀ n, e.resources = some n → a.store.size = n) ∧
      ∀ q ∈ e.requests, q.2.Holds patterns ((a.store.get? q.1).map (·.request)) := by
  simp [holds_iff, untold, unwritten]

theorem judgeAchieved_ok_iff (a : Achieved) (untold : e.error = none)
    (unwritten : e.errorPattern = none) :
    e.judgeAchieved patterns a = .ok () ↔ e.Holds patterns (.ok a) := by
  have custom : (e.custom.any fun test => !test a) = true ↔
      ¬∀ test, e.custom = some test → test a = true := by
    cases e.custom <;> simp
  rw [holds_ok_iff patterns e a untold unwritten, judgeAchieved]
  by_cases passes : ∀ test, e.custom = some test → test a = true
  · rw [if_neg fun fails => custom.mp fails passes]
    simp only [then_eq_ok_iff, forM_eq_ok_iff, judgeCount_ok_iff, judgeRequest_ok_iff]
    exact (and_iff_right passes).symm
  · rw [if_pos (custom.mpr passes)]
    simp [passes, then_eq_ok_iff]

/-- The text of an error hides all else that is expected. -/
theorem judge_error {text : String} (h : e.error = some text) (r : StepResult) :
    e.judge patterns r = .ok () ↔ ∃ m, r = .error m ∧ text.toList <:+: m.toList := by
  simp only [judge, h, judgeError_ok_iff, hasText_iff]

/-- The pattern of an error hides all that is expected of a success. -/
theorem judge_errorPattern {source : String} (untold : e.error = none)
    (h : e.errorPattern = some source) (r : StepResult) :
    e.judge patterns r = .ok () ↔
      ∃ test, patterns source = some test ∧ ∃ m, r = .error m ∧ test m = true := by
  simp only [judge, untold, h]
  cases read : patterns source with
  | none => simp [compilePattern, read]
  | some test => simp [compilePattern, read, judgeError_ok_iff]

theorem judge_calm (untold : e.error = none) (unwritten : e.errorPattern = none)
    (r : StepResult) : e.judge patterns r = .ok () ↔ (∃ a, r = .ok a) ∧ e.Holds patterns r := by
  simp only [judge, untold, unwritten]
  cases r with
  | error m => simp
  | ok a => simp [judgeAchieved_ok_iff patterns e a untold unwritten]

theorem judge_ok_iff (r : StepResult) :
    e.judge patterns r = .ok () ↔
      e.heeded.Holds patterns r ∧ (e.ExpectsError ∨ ∃ a, r = .ok a) := by
  cases told : e.error with
  | some text =>
    rw [judge_error patterns e told]
    simp [heeded, told, holds_iff, ExpectsError]
  | none =>
    cases written : e.errorPattern with
    | some source =>
      rw [judge_errorPattern patterns e told written]
      simp [heeded, told, written, holds_iff, ExpectsError]
    | none =>
      rw [judge_calm patterns e told written]
      simp [heeded, told, written, ExpectsError, and_comm]

variable {patterns : PatternReader} {e : Expectation}

theorem succeeded_of_set {α : Type} {o : Option α} {r : StepResult} {P : α → Achieved → Prop}
    (set : o ≠ none) (h : ∀ x, o = some x → ∃ a, r = .ok a ∧ P x a) : ∃ a, r = .ok a := by
  obtain ⟨x, hx⟩ := Option.ne_none_iff_exists'.mp set
  obtain ⟨a, ha, -⟩ := h x hx
  exact ⟨a, ha⟩

/-- A step that fulfils what is expected of a success succeeded. -/
theorem Holds.succeeded {r : StepResult} (h : e.Holds patterns r) (expected : e.ExpectsSuccess) :
    ∃ a, r = .ok a := by
  obtain seeded | transforms | resources | custom | requests := expected
  · exact succeeded_of_set seeded h.seeded
  · exact succeeded_of_set transforms h.transforms
  · exact succeeded_of_set resources h.resources
  · exact succeeded_of_set custom h.custom
  · obtain ⟨q, hq⟩ := List.exists_mem_of_ne_nil _ requests
    obtain ⟨a, ha, -⟩ := h.requests q hq
    exact ⟨a, ha⟩

theorem Holds.not_error {m : String} (h : e.Holds patterns (.error m)) : ¬e.ExpectsSuccess := by
  intro expected
  obtain ⟨a, ha⟩ := h.succeeded expected
  cases ha

theorem holds_of_error {m : String} (unexpected : ¬e.ExpectsSuccess)
    (text : ∀ t, e.error = some t → t.toList <:+: m.toList)
    (fits : ∀ p, e.errorPattern = some p → ∃ test, patterns p = some test ∧ test m = true) :
    e.Holds patterns (.error m) := by
  simp only [ExpectsSuccess, not_or, not_not] at unexpected
  obtain ⟨seeded, transforms, resources, custom, requests⟩ := unexpected
  simpa [holds_iff, seeded, transforms, resources, custom, requests] using And.intro text fits

theorem Unmixed.holds_of_judge {r : StepResult} (unmixed : e.Unmixed patterns)
    (passes : e.judge patterns r = .ok ()) : e.Holds patterns r := by
  cases told : e.error with
  | some text =>
    obtain ⟨m, rfl, part⟩ := (judge_error patterns e told r).mp passes
    have unexpected : ¬e.ExpectsSuccess := by
      intro expected
      rw [(unmixed.success expected).1] at told
      cases told
    apply holds_of_error unexpected
    · intro t ht
      rw [told, Option.some.injEq] at ht
      exact ht ▸ part
    · intro p written
      obtain ⟨test, read, agree⟩ := unmixed.agree text p told written
      exact ⟨test, read, agree m part⟩
  | none =>
    cases written : e.errorPattern with
    | some source =>
      obtain ⟨test, read, m, rfl, fits⟩ := (judge_errorPattern patterns e told written r).mp passes
      have unexpected : ¬e.ExpectsSuccess := by
        intro expected
        rw [(unmixed.success expected).2 source test m written read] at fits
        cases fits
      apply holds_of_error unexpected
      · simp [told]
      · intro p hp
        rw [written, Option.some.injEq] at hp
        exact ⟨test, hp ▸ read, fits⟩
    | none => exact ((judge_calm patterns e told written r).mp passes).2

/-- The message is all that is looked at where a text is expected, so any hidden expectation can be
broken by a message that has the text. -/
theorem unmixed_of_sound (sound : ∀ r, e.judge patterns r = .ok () → e.Holds patterns r) :
    e.Unmixed patterns := by
  have text {t m : String} (told : e.error = some t) (part : t.toList <:+: m.toList) :
      e.Holds patterns (.error m) :=
    sound _ ((judge_error patterns e told _).mpr ⟨m, rfl, part⟩)
  constructor
  · intro expected
    have untold : e.error = none := by
      cases told : e.error with
      | none => rfl
      | some t => exact absurd expected (text told List.infix_rfl).not_error
    refine ⟨untold, fun p test m written read => ?_⟩
    apply Bool.eq_false_iff.mpr
    intro fits
    have passes := (judge_errorPattern patterns e untold written _).mpr ⟨test, read, m, rfl, fits⟩
    exact (sound _ passes).not_error expected
  · intro t p told written
    obtain ⟨test, read, -⟩ := (text told List.infix_rfl).errorPattern p written
    refine ⟨test, read, fun m part => ?_⟩
    obtain ⟨test', read', m', hm, fits⟩ := (text told part).errorPattern p written
    cases hm
    rw [read, Option.some.injEq] at read'
    exact read' ▸ fits

/-- A step passes exactly if it fulfils the expectations by which it is judged, and it has to
succeed if no error is expected. All that is expected holds of every step that passes exactly if
no expectation is hidden. -/
theorem judge_sound_iff (patterns : PatternReader) (e : Expectation) :
    ((∀ r, e.judge patterns r = .ok () → e.Holds patterns r) ↔ e.Unmixed patterns) ∧
    ∀ r, e.judge patterns r = .ok () ↔
      e.heeded.Holds patterns r ∧ (e.ExpectsError ∨ ∃ a, r = .ok a) :=
  ⟨⟨unmixed_of_sound, fun unmixed _ => unmixed.holds_of_judge⟩, judge_ok_iff patterns e⟩

/-- A text and a pattern of an error that have no message in common. -/
def clashing : Expectation := ⟨none, none, none, [], some "Parse error", some "^Config", none⟩

/-- A step passes with a message that does not fit the pattern. -/
theorem judge_clashing :
    let m := "Parse error: Parse error at line 1, column 12: expected \x7d, found end of input"
    clashing.judge Pattern.reader (.error m) = .ok () ∧
      ¬clashing.Holds Pattern.reader (.error m) := by
  intro m
  have misfit : (Pattern.reader "^Config").map (fun test => test m) = some false := by
    decide +kernel
  constructor
  · decide +kernel
  · intro h
    obtain ⟨test, read, n, same, fits⟩ := h.errorPattern "^Config" rfl
    cases same
    rw [read, Option.map_some, fits] at misfit
    cases misfit

end Expectation

namespace Plan

variable (p : Plan)

theorem judgeStep_ok_iff (c : Compiler) (file : StepFile) (step : Step) :
    p.judgeStep c file step = .ok () ↔ ∃ source, file.text? step.name = some source ∧
      step.expectation.judge Pattern.reader (p.runStep c source) = .ok () := by
  cases h : file.text? step.name with
  | none => simp [judgeStep, h]
  | some source =>
    cases verdict : step.expectation.judge Pattern.reader (p.runStep c source) <;>
      simp [judgeStep, h, verdict, Except.mapError]

/-- A scenario passes if its steps can be read and each of them passes. -/
theorem run_ok_iff :
    p.run = .ok () ↔ ∃ file c, p.stepFile = .ok file ∧ p.compiler = .ok c ∧
      ∀ step ∈ p.steps, ∃ source, file.text? step.name = some source ∧
        step.expectation.judge Pattern.reader (p.runStep c source) = .ok () := by
  simp only [run, bind_eq_ok_iff, forM_eq_ok_iff, judgeStep_ok_iff]
  simp

/-- In a scenario that passes, every step fulfils its expectations, if none of them is hidden. -/
theorem holds_of_run (unmixed : ∀ step ∈ p.steps, step.expectation.Unmixed Pattern.reader)
    (passes : p.run = .ok ()) :
    ∃ file c, p.stepFile = .ok file ∧ p.compiler = .ok c ∧
      ∀ step ∈ p.steps, ∃ source, file.text? step.name = some source ∧
        step.expectation.Holds Pattern.reader (p.runStep c source) := by
  obtain ⟨file, c, hfile, hc, steps⟩ := p.run_ok_iff.mp passes
  refine ⟨file, c, hfile, hc, fun step hstep => ?_⟩
  obtain ⟨source, text, verdict⟩ := steps step hstep
  exact ⟨source, text, (unmixed step hstep).holds_of_judge verdict⟩

/-- In a scenario that passes, every pattern by which a step is judged fits somewhere in the text
it is meant for: the pattern of an error in the message the step fails with, and the pattern of a
request in the template of its resolver. -/
theorem found_of_run (passes : p.run = .ok ()) :
    ∃ file c, p.stepFile = .ok file ∧ p.compiler = .ok c ∧
      ∀ step ∈ p.steps, ∃ source, file.text? step.name = some source ∧
        (∀ w, step.expectation.heeded.errorPattern = some w →
          ∃ m, p.runStep c source = .error m ∧
            ∃ q, Pattern.parse? w = some q ∧ q.FoundIn m) ∧
        ∀ k w, (k, .fits w) ∈ step.expectation.heeded.requests →
          ∃ a x, p.runStep c source = .ok a ∧ a.store.get? k = some x ∧
            ∃ q, Pattern.parse? w = some q ∧ q.FoundIn x.request := by
  obtain ⟨file, c, hfile, hc, steps⟩ := p.run_ok_iff.mp passes
  refine ⟨file, c, hfile, hc, fun step hstep => ?_⟩
  obtain ⟨source, text, verdict⟩ := steps step hstep
  have heeded := ((step.expectation.judge_ok_iff Pattern.reader _).mp verdict).1
  refine ⟨source, text, fun w written => ?_, fun k w listed => ?_⟩
  · obtain ⟨test, read, m, failed, fits⟩ := heeded.errorPattern w written
    exact ⟨m, failed, (Pattern.reader_iff w m).mp ⟨test, read, fits⟩⟩
  · obtain ⟨a, done, r, present, fits⟩ := heeded.requests (k, .fits w) listed
    obtain ⟨x, stored, rfl⟩ := Option.map_eq_some_iff.mp present
    exact ⟨a, x, done, stored, (Pattern.reader_iff w x.request).mp fits⟩

end Plan

end TransformDirective.Scenario
