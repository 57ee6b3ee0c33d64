import TransformDirective.Text.Lines

namespace TransformDirective.Scenario

open TransformDirective.Text

/-- The steps of a file in order, each with its trimmed text. -/
structure StepFile where
  sections : List (String × String)
  deriving DecidableEq, Repr

inductive StepFault where
  | emptyName
  | duplicateName (name : String)
  deriving DecidableEq, Repr

def StepFault.message : StepFault → String
  | emptyName => "empty step name after --#"
  | duplicateName n => s!"duplicate step name '{n}'"

namespace StepFile

def markerName? (line : List Char) : Option (List Char) :=
  let l := trim line
  if ['-', '-', '#'].isPrefixOf l then some (trim (l.drop 3)) else none

/-- A line that says something about a step and is not part of its text. -/
def isRemark (line : List Char) : Bool := ['-', '-', ' ', '@'].isPrefixOf (trim line)

/-- The lines in front of the first marker, and the lines behind each marker with its name. -/
def groups : List (List Char) → List (List Char) × List (List Char × List (List Char))
  | [] => ([], [])
  | l :: ls =>
    let r := groups ls
    match markerName? l with
    | some n => ([], (n, r.1) :: r.2)
    | none => (if isRemark l then r.1 else l :: r.1, r.2)

/-- The first name that is empty or repeats one before it. -/
def nameFault? : List (List Char) → List (List Char) → Option StepFault
  | _, [] => none
  | seen, n :: ns =>
    if n = [] then some .emptyName
    else if n ∈ seen then some (.duplicateName (String.ofList n))
    else nameFault? (n :: seen) ns

def parse (source : String) : Except StepFault StepFile :=
  let gs := (groups (textLines source.toList)).2
  match nameFault? [] (gs.map (·.1)) with
  | some f => .error f
  | none => .ok ⟨gs.map fun g => (String.ofList g.1, String.ofList (trim (joinLines g.2)))⟩

def names (f : StepFile) : List String := f.sections.map (·.1)

/-- The text of a step, unless it is empty or there is no such step. -/
def text? (f : StepFile) (name : String) : Option String :=
  (f.sections.find? fun s => s.1 == name && s.2 ≠ "").map (·.2)

/-- The number of steps with a text. -/
def size (f : StepFile) : Nat := (f.sections.filter (·.2 ≠ "")).length

end StepFile

end TransformDirective.Scenario
