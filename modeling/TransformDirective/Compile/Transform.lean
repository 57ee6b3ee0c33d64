import TransformDirective.Compile.Seed
import TransformDirective.Schema.Reading
import TransformDirective.Usage.Check

namespace TransformDirective.Compile

open TransformDirective.Config TransformDirective.Resolver TransformDirective.Schema
open TransformDirective.Template TransformDirective.Usage

/-- What a usage did: its block, the resolvers that received it and those that were absent. -/
structure Splice where
  block : String
  updated : List Key
  skipped : List Key
  deriving DecidableEq, Repr

/-- Puts a block in front of the request templates of a type's resolvers. -/
def splice (typeName block : String) (s : Store) : Splice × Store :=
  let keys := Key.ofType typeName
  (⟨block, keys.filter s.contains, keys.filter fun k => !s.contains k⟩,
    keys.foldl (fun s k => s.modify k (·.prepend block)) s)

/-- The settings of a compiler and the way it writes blocks. -/
structure Compiler where
  settings : Settings
  renderer : Renderer

/-- What a transform did: the resolvers it added and the splices in order. -/
structure Report where
  seeded : List Key
  splices : List Splice
  deriving DecidableEq, Repr

inductive TransformError where
  | misuse (error : Misuse)
  | malformed (error : SyntaxError)
  deriving DecidableEq, Repr

def TransformError.message : TransformError → String
  | misuse e => e.message
  | malformed e => "Parse error: " ++ e.message

/-- A change of the store that may be refused. A refusal also leaves a store, with all that was
changed before it. -/
abbrev Change (α : Type) : Type := ExceptT Misuse (StateM Store) α

namespace Change

variable {α : Type}

/-- The answer, and the store as it is left. -/
def applyTo (m : Change α) (s : Store) : Except Misuse α × Store := m.run.run s

/-- The answer together with the store, or the refusal. -/
def outcome (m : Change α) (s : Store) : Except Misuse (α × Store) :=
  match m.applyTo s with
  | (.ok a, t) => .ok (a, t)
  | (.error e, _) => .error e

end Change

namespace Compiler

/-- The compiler that prints blocks with the indentation of the settings. -/
def ofSettings (settings : Settings) : Compiler := ⟨settings, .printer settings.indent⟩

/-- The block for a field with these arguments. -/
def block (c : Compiler) (fieldName : String) (a : Arguments) : String :=
  c.renderer.block (a.header fieldName) (statement c.settings fieldName a)

def processIn (c : Compiler) (parent : TypeDefinition) (field : Field) (d : Directive) :
    Change Splice := do
  let a ← MonadExcept.ofExcept (check c.settings parent field d)
  modifyGet (splice parent.name (c.block field.name a))

theorem applyTo_processIn (c : Compiler) (parent : TypeDefinition) (field : Field)
    (d : Directive) (s : Store) :
    (c.processIn parent field d).applyTo s = match check c.settings parent field d with
      | .error e => (.error e, s)
      | .ok a =>
        let r := splice parent.name (c.block field.name a) s
        (.ok r.1, r.2) := by
  unfold processIn
  cases check c.settings parent field d <;> rfl

/-- Checks one usage and splices its block, with the store that this leaves. -/
def process (c : Compiler) (parent : TypeDefinition) (field : Field) (d : Directive) (s : Store) :
    Except Misuse (Splice × Store) := (c.processIn parent field d).outcome s

def spliceAll (c : Compiler) : List Site → Store → List Splice × Store
  | [], s => ([], s)
  | u :: us, s =>
    let r := splice u.parent.name (c.block u.field.name u.args) s
    let rs := spliceAll c us r.2
    (r.1 :: rs.1, rs.2)

/-- Transforms a document: once all usages are found and checked, the resolvers of its model types
are added and every usage is spliced in order. -/
def transformIn (c : Compiler) (d : Document) : Change Report := do
  let us ← MonadExcept.ofExcept (sites c.settings d)
  let seeded ← modifyGet (seed c.settings d)
  let splices ← modifyGet (c.spliceAll us)
  return ⟨seeded, splices⟩

/-- All usages of a document are checked before the store is changed. -/
theorem applyTo_transformIn (c : Compiler) (d : Document) (s : Store) :
    (c.transformIn d).applyTo s = match sites c.settings d with
      | .error e => (.error e, s)
      | .ok us =>
        let r := seed c.settings d s
        let rs := c.spliceAll us r.2
        (.ok ⟨r.1, rs.1⟩, rs.2) := by
  unfold transformIn
  cases sites c.settings d <;> rfl

/-- Transforms a document, with the store that this leaves. -/
def transform (c : Compiler) (d : Document) (s : Store) : Except Misuse (Report × Store) :=
  (c.transformIn d).outcome s

def transformSource (c : Compiler) (source : String) (s : Store) :
    Except TransformError (Report × Store) :=
  match Document.parse source with
  | .error e => .error (.malformed e)
  | .ok d => (c.transform d s).mapError .misuse

end Compiler

def warnings (settings : Settings) (d : Document) : List Warning :=
  match sites settings d with
  | .ok us => us.filterMap fun u => warning? u.parent.name u.field.name u.args
  | .error _ => []

end TransformDirective.Compile
