import TransformDirective.Json.Value
import TransformDirective.Resolver.Store

namespace TransformDirective.Resolver

open TransformDirective.Json

def memberText (name : String) (value : List Char) : List Char := quote name ++ ':' :: value

def objectText (members : List (List Char)) : List Char :=
  '{' :: List.intercalate [','] members ++ ['}']

namespace Artifact

def dumpText (a : Artifact) : List Char :=
  objectText
    [memberText "Type" (quote a.type),
      memberText "Properties" (objectText
        [memberText "TypeName" (quote a.typeName),
          memberText "FieldName" (quote a.fieldName),
          memberText "RequestMappingTemplate" (quote a.request),
          memberText "ResponseMappingTemplate" (quote a.response)])]

/-- The resolver that a resource type and a JSON value of its properties describe. The response
template may be left out and is then empty. -/
def ofProperties? (type : String) (v : Json.Value) : Option Artifact := do
  match ← v.fields? ["TypeName", "FieldName", "RequestMappingTemplate",
      "ResponseMappingTemplate"] with
  | [some t, some f, some q, none] => some ⟨type, ← t.text?, ← f.text?, ← q.text?, ""⟩
  | [some t, some f, some q, some p] =>
    some ⟨type, ← t.text?, ← f.text?, ← q.text?, ← p.text?⟩
  | _ => none

def ofValue? (v : Json.Value) : Option Artifact := do
  match ← v.fields? ["Type", "Properties"] with
  | [some t, some p] => ofProperties? (← t.text?) p
  | _ => none

end Artifact

namespace Store

def dump (s : Store) : String :=
  String.ofList (objectText (s.entries.map fun e => memberText e.1 e.2.dumpText))

def entryOf? (m : Option String × Json.Value) : Option (String × Artifact) := do
  return (← m.1, ← Artifact.ofValue? m.2)

/-- The store that a JSON value describes; of members with one name the last counts. -/
def ofValue? : Json.Value → Option Store
  | .object ms => (ms.mapM entryOf?).map ofEntries
  | _ => none

def load? (source : String) : Option Store := (parse? source).bind ofValue?

end Store

end TransformDirective.Resolver
