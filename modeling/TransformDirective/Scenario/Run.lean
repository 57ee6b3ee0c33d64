import TransformDirective.Scenario.Folder
import TransformDirective.Scenario.StepFile
import TransformDirective.Scenario.Verdict

namespace TransformDirective.Scenario

open TransformDirective.Config TransformDirective.Resolver TransformDirective.Compile

structure Step where
  name : String
  expectation : Expectation

/-- What a scenario is made of. Its steps are in a text of its own or else in a file of the folder;
the settings are a TOML document, and the preset resolvers are in every step's store. -/
structure Plan where
  name : String
  folder : Folder
  source : Option String
  path : Option String
  toml : Option String
  preset : List (Key × Artifact)
  steps : List Step

inductive ScenarioError where
  | fileRead (path : String) (fault : ReadFault)
  | stepFile (path message : String)
  | settings (scenario : String)
  | assertion (step message : String)
  | stepNotFound (step : String)
  | noSteps (scenario : String)
  deriving DecidableEq, Repr

namespace ScenarioError

def message : ScenarioError → String
  | fileRead p f => s!"failed to read file '{p}': {f.message}"
  | stepFile p m => s!"failed to parse schemas file '{p}': {m}"
  | settings s => s!"invalid config for scenario '{s}': "
  | assertion s m => s!"assertion failed for step '{s}': {m}"
  | stepNotFound s => s!"step '{s}' not found in schemas file"
  | noSteps s => s!"schemas not specified for scenario '{s}'"

end ScenarioError

/-- Reads steps that are given as a text. -/
def parseInline (source : String) : Except ScenarioError StepFile :=
  (StepFile.parse source).mapError fun f => .stepFile "<inline>" f.message

/-- Reads steps from a file of a folder. -/
def loadFile (d : Folder) (path : String) : Except ScenarioError StepFile :=
  match d.read path with
  | .error fault => .error (.fileRead (d.shownPath path) fault)
  | .ok source => (parseInline source).mapError fun e => .stepFile (d.shownPath path) e.message

namespace Plan

def stepFile (p : Plan) : Except ScenarioError StepFile :=
  match p.source, p.path with
  | some source, _ => parseInline source
  | none, some path => loadFile p.folder path
  | none, none => .error (.noSteps p.name)

def compiler (p : Plan) : Except ScenarioError Compiler :=
  match p.toml with
  | none => .ok (.ofSettings .default)
  | some toml =>
    match Settings.ofToml? toml with
    | some settings => .ok (.ofSettings settings)
    | none => .error (.settings p.name)

def initialStore (p : Plan) : Store := p.preset.foldl (fun s e => s.set e.1 e.2) .empty

def runStep (p : Plan) (c : Compiler) (source : String) : StepResult :=
  match c.transformSource source p.initialStore with
  | .error e => .error e.message
  | .ok (report, store) => .ok ⟨report, store⟩

def judgeStep (p : Plan) (c : Compiler) (file : StepFile) (step : Step) :
    Except ScenarioError Unit :=
  match file.text? step.name with
  | none => .error (.stepNotFound step.name)
  | some source =>
    (step.expectation.judge Pattern.reader (p.runStep c source)).mapError (.assertion step.name)

/-- Runs a scenario; it passes if every step does. -/
def run (p : Plan) : Except ScenarioError Unit := do
  let file ← p.stepFile
  let c ← p.compiler
  p.steps.forM (p.judgeStep c file)

end Plan

end TransformDirective.Scenario
