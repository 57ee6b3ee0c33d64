import TransformDirective.Scenario.Expectation
import TransformDirective.Scenario.Pattern.Reading

namespace TransformDirective.Scenario

open TransformDirective.Resolver TransformDirective.Template

/-- What a step did: it failed with a message, or it left something behind. -/
abbrev StepResult : Type := Except String Achieved

/-- The part stands somewhere in the whole. -/
def occursIn (part : List Char) : List Char → Bool
  | [] => part.isEmpty
  | c :: cs => part.isPrefixOf (c :: cs) || occursIn part cs

def hasText (whole part : String) : Bool := occursIn part.toList whole.toList

/-- What reads patterns: the test that a text writes, if it writes one. -/
abbrev PatternReader : Type := String → Option (String → Bool)

/-- Reads the patterns that are made of the known pieces. -/
def Pattern.reader : PatternReader := fun source => (Pattern.parse? source).map Pattern.isMatch

/-- The test that a text writes as a pattern, or the message that it writes none. -/
def compilePattern (patterns : PatternReader) (source : String) :
    Except String (String → Bool) :=
  match patterns source with
  | some test => .ok test
  | none => .error "invalid regex pattern:"

/-- The step failed with a message that passes the test; `wanted` says what the test asks for. -/
def judgeError (wanted : String) (test : String → Bool) : StepResult → Except String Unit
  | .error m => if test m then .ok () else .error s!"expected error {wanted}, got: {m}"
  | .ok _ => .error s!"expected error {wanted}, but step succeeded"

/-- A count is the expected one, if one is expected. -/
def judgeCount (what : String) (expected : Option Nat) (actual : Nat) : Except String Unit :=
  match expected with
  | none => .ok ()
  | some n => if n = actual then .ok () else .error s!"expected {n} {what}, got {actual}"

/-- A request template passes a check; `absent` is no check of a template. -/
def passesCheck (patterns : PatternReader) (request : String) : RequestCheck → Except String Bool
  | .equals t => .ok (request == t)
  | .startsWith t => .ok (t.toList.isPrefixOf request.toList)
  | .contains t => .ok (hasText request t)
  | .fits p => (compilePattern patterns p).map fun test => test request
  | .blockOrder fs => .ok (blockFields request == fs)
  | .absent => .ok true

/-- A resolver passes a check. -/
def judgeRequest (patterns : PatternReader) (store : Store) (k : Key) (check : RequestCheck) :
    Except String Unit :=
  match store.get? k, check with
  | none, .absent => .ok ()
  | some _, .absent => .error s!"expected no resolver {k.id}, but it exists"
  | none, _ => .error s!"resolver {k.id} not found"
  | some a, check => do
    if ← passesCheck patterns a.request check then .ok ()
    else .error <| "request template of " ++ k.id ++ " failed " ++ check.shown ++
      "\n--- actual ---\n" ++ a.request

namespace Expectation

/-- What a step left behind is as expected. -/
def judgeAchieved (patterns : PatternReader) (e : Expectation) (a : Achieved) :
    Except String Unit := do
  if e.custom.any fun test => !test a then .error "custom assertion failed"
  judgeCount "seeded" e.seeded a.report.seeded.length
  judgeCount "transforms" e.transforms a.report.splices.length
  judgeCount "resources" e.resources a.store.size
  e.requests.forM fun r => judgeRequest patterns a.store r.1 r.2

/-- A step's result is as expected, or the message why not. -/
def judge (patterns : PatternReader) (e : Expectation) (result : StepResult) :
    Except String Unit :=
  match e.error, e.errorPattern with
  | some text, _ => judgeError s!"containing '{text}'" (hasText · text) result
  | none, some source =>
    match compilePattern patterns source with
    | .error m => .error m
    | .ok test => judgeError s!"matching '{source}'" test result
  | none, none =>
    match result with
    | .error m => .error s!"step failed: {m}"
    | .ok a => e.judgeAchieved patterns a

end Expectation

end TransformDirective.Scenario
