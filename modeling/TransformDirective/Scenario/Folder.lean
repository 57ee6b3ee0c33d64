namespace TransformDirective.Scenario

inductive ReadFault where
  | nulInPath
  | tooLong
  | missing
  | notFolder
  | isFolder
  deriving DecidableEq, Repr

/-- The message for a fault, with its number if it is the system that finds it. -/
def ReadFault.message : ReadFault → String
  | nulInPath => "file name contained an unexpected NUL byte"
  | tooLong => "File name too long (os error 36)"
  | missing => "No such file or directory (os error 2)"
  | notFolder => "Not a directory (os error 20)"
  | isFolder => "Is a directory (os error 21)"

def maxStepBytes : Nat := 255

def maxPathBytes : Nat := 4095

abbrev Route : Type := List String

def routeOf (path : String) : Route := path.splitOn "/"

/-- A folder by its name, with the files below it. -/
structure Folder where
  name : String
  files : List (Route × String)
  deriving DecidableEq, Repr

/-- Where a path can lead: below the folder, or to the folders around it. -/
inductive Place where
  | below (route : Route)
  | around
  deriving DecidableEq, Repr

namespace Folder

/-- A step that stays where it is: a dot, or nothing between two slashes. -/
def isIdle (step : String) : Bool := step == "" || step == "."

def single (name file text : String) : Folder :=
  ⟨name, [((routeOf file).filter (!isIdle ·), text)]⟩

def fileAt? (d : Folder) : Place → Option String
  | .below route => d.files.lookup route
  | .around => none

/-- There is a file at the place, or one below it. -/
def hasPlace (d : Folder) (route : Route) : Bool := d.files.any fun f => route.isPrefixOf f.1

/-- One step from a place, which has to be a folder. Nothing else is known of the folders around. -/
def step (d : Folder) (place : Place) (name : String) : Except ReadFault Place :=
  if (d.fileAt? place).isSome then .error .notFolder
  else if isIdle name then .ok place
  else if name = ".." then
    match place with
    | .below (s :: route) => .ok (.below (s :: route).dropLast)
    | _ => .ok .around
  else if maxStepBytes < name.utf8ByteSize then .error .tooLong
  else
    match place with
    | .below route =>
      if d.hasPlace (route ++ [name]) then .ok (.below (route ++ [name])) else .error .missing
    | .around => .error .missing

def isAbsolute (path : String) : Bool := path.toList.head? == some '/'

/-- A path as it is shown: below the folder, unless it is absolute. -/
def shownPath (d : Folder) (path : String) : String :=
  if isAbsolute path then path else d.name ++ "/" ++ path

def follow (d : Folder) (path : String) : Except ReadFault Place :=
  (routeOf path).foldlM d.step (if isAbsolute path then .around else .below [])

/-- The text of the file at the end of a path. The path as a whole is looked at before its steps. -/
def read (d : Folder) (path : String) : Except ReadFault String :=
  if '\x00' ∈ path.toList then .error .nulInPath
  else if maxPathBytes < (d.shownPath path).utf8ByteSize then .error .tooLong
  else do
    match d.fileAt? (← d.follow path) with
    | some text => return text
    | none => throw .isFolder

end Folder

end TransformDirective.Scenario
