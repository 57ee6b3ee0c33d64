namespace TransformDirective.Template

/-- A template: a guarded one, one for every entry of a collection, a call made for its effect, or
text that is written as it stands. -/
inductive Tree where
  | guarded (guard body : Tree)
  | loop (var collection : String) (body : List Tree)
  | call (text : String)
  | raw (text : String)
  deriving Repr

namespace Tree

def isGuarded : Tree → Bool
  | guarded _ _ => true
  | _ => false

def isLoop : Tree → Bool
  | loop _ _ _ => true
  | _ => false

def call? : Tree → Option String
  | call t => some t
  | _ => none

mutual

/-- The tree and all its parts: a node before its parts, a guard before its body. -/
def nodes : Tree → List Tree
  | guarded g b => guarded g b :: (g.nodes ++ b.nodes)
  | loop v c body => loop v c body :: nodesOfAll body
  | call t => [call t]
  | raw t => [raw t]

def nodesOfAll : List Tree → List Tree
  | [] => []
  | t :: ts => t.nodes ++ nodesOfAll ts

end

def calls (t : Tree) : List String := t.nodes.filterMap call?

def negation (condition : String) : Tree := raw ("!" ++ condition)

end Tree

def doubleQuotes (cs : List Char) : List Char :=
  cs.flatMap fun c => if c = '\'' then ['\'', '\''] else [c]

/-- The literal for a text: in single quotes, with quotes doubled. -/
def quoted (text : String) : String :=
  String.ofList ('\'' :: doubleQuotes text.toList ++ ['\''])

/-- The blanks in front of a line at a level. -/
def padding (indent level : Nat) : String := String.ofList (List.replicate (indent * level) ' ')

namespace Tree

mutual

/-- The lines of a tree at a level. A guard is written on one line, as its lines with a blank
between each two. -/
def lines (indent level : Nat) : Tree → List String
  | guarded g b =>
    (padding indent level ++ "#if( " ++ " ".intercalate (g.lines indent 0) ++ " )") ::
      b.lines indent (level + 1) ++ [padding indent level ++ "#end"]
  | loop v c body =>
    (padding indent level ++ "#foreach( $" ++ v ++ " in " ++ c ++ " )") ::
      linesOfAll indent (level + 1) body ++ [padding indent level ++ "#end"]
  | call t => [padding indent level ++ "$util.qr(" ++ t ++ ")"]
  | raw t => [padding indent level ++ t]

def linesOfAll (indent level : Nat) : List Tree → List String
  | [] => []
  | t :: ts => t.lines indent level ++ linesOfAll indent level ts

end

/-- The text of a tree with `indent` blanks a level. -/
def text (indent : Nat) (t : Tree) : String := "\n".intercalate (t.lines indent 0)

end Tree

end TransformDirective.Template
