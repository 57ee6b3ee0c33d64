import TransformDirective.Template.Tree

namespace TransformDirective.Template

def startMarker (header : String) : String := "## [Start] " ++ header ++ ". **"

def endMarker (header : String) : String := "## [End] " ++ header ++ ". **"

def markedBlock (header body : String) : String :=
  startMarker header ++ "\n" ++ body ++ "\n" ++ endMarker header

/-- A way to write the block for a header and a tree. -/
structure Renderer where
  block : String → Tree → String

namespace Renderer

/-- Writes trees by `text` and puts them between markers. -/
def marking (text : Tree → String) : Renderer := ⟨fun header t => markedBlock header (text t)⟩

/-- Prints trees with `indent` blanks a level. -/
def printer (indent : Nat) : Renderer := marking (Tree.text indent)

/-- Writes the calls of a tree, one a line. -/
def callList : Renderer := marking fun t => "\n".intercalate t.calls

end Renderer

/-- What the header of a block starts with, before the name of its field. -/
def headerStart : String := "Transformation for \""

/-- The text in front of a field name in a block. -/
def fieldMark : List Char := ("## [Start] " ++ headerStart).toList

/-- The text behind `front`, if the text starts with it. -/
def dropFront? (front : List Char) (cs : List Char) : Option (List Char) :=
  if front.isPrefixOf cs then some (cs.drop front.length) else none

/-- The name that starts here and the text behind its closing quote; a name is not empty. -/
def quotedName? (cs : List Char) : Option (List Char × List Char) :=
  match cs.takeWhile (· ≠ '"'), cs.dropWhile (· ≠ '"') with
  | [], _ => none
  | _, [] => none
  | n, _ :: rest => some (n, rest)

/-- The field name of a block that starts here, and the text behind the name. -/
def blockField? (cs : List Char) : Option (List Char × List Char) :=
  (dropFront? fieldMark cs).bind quotedName?

/-- The field names of the blocks in a text, in order. -/
def blockFieldsOf : List Char → List (List Char)
  | [] => []
  | c :: cs =>
    match blockField? (c :: cs) with
    | some (n, rest) => if rest.length ≤ cs.length then n :: blockFieldsOf rest else [n]
    | none => blockFieldsOf cs
termination_by cs => cs.length

def blockFields (request : String) : List String :=
  (blockFieldsOf request.toList).map String.ofList

end TransformDirective.Template
