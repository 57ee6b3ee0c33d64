import TransformDirective.Config.Settings
import TransformDirective.Resolver.Store
import TransformDirective.Schema.Document

namespace TransformDirective.Compile

open TransformDirective.Config TransformDirective.Resolver TransformDirective.Schema

def createRequest : String := "\n".intercalate
  ["\x7b",
    "  \"version\": \"2018-05-29\",",
    "  \"operation\": \"PutItem\",",
    "  \"key\": \x7b",
    "    \"id\": $util.dynamodb.toDynamoDBJson(" ++
      "$util.defaultIfNullOrBlank($ctx.args.input.id, $util.autoId()))",
    "  \x7d,",
    "  \"attributeValues\": $util.dynamodb.toMapValuesJson($ctx.args.input),",
    "  \"condition\": \x7b",
    "    \"expression\": \"attribute_not_exists(#id)\",",
    "    \"expressionNames\": \x7b",
    "      \"#id\": \"id\"",
    "    \x7d",
    "  \x7d",
    "\x7d"]

def updateRequest : String := "\n".intercalate
  ["\x7b",
    "  \"version\": \"2018-05-29\",",
    "  \"operation\": \"UpdateItem\",",
    "  \"key\": \x7b",
    "    \"id\": $util.dynamodb.toDynamoDBJson($ctx.args.input.id)",
    "  \x7d,",
    "  \"update\": $util.toJson($util.dynamodb.toUpdateExpression($ctx.args.input)),",
    "  \"condition\": \x7b",
    "    \"expression\": \"attribute_exists(#id)\",",
    "    \"expressionNames\": \x7b",
    "      \"#id\": \"id\"",
    "    \x7d",
    "  \x7d",
    "\x7d"]

/-- The request template that a resolver of a kind starts with. -/
def initialRequest : Kind → String
  | .create => createRequest
  | .update => updateRequest

def initialResolver (k : Kind) (fieldName : String) : Artifact :=
  { Artifact.ofRequest "Mutation" fieldName (initialRequest k) with
    response := "$util.toJson($ctx.result)" }

/-- The name of the mutation field of a kind, or nothing if the `mutations` argument of the model
directive disables the kind. Null disables every kind; in an object, an entry for the kind names
its field, and disables the kind if it is no string. -/
def mutationField? (mutations : Option Value) (typeName : String) (k : Kind) : Option String :=
  match mutations with
  | some .null => none
  | some (.object ms) =>
    match Value.member? k.fieldStart (.object ms) with
    | some v => v.string?
    | none => some (k.mutationField typeName)
  | _ => some (k.mutationField typeName)

/-- The resolvers that a model type starts with. -/
def resolversOfType (settings : Settings) (t : TypeDefinition) : List (Key × Artifact) :=
  match t.kind, t.directive? settings.modelDirective with
  | .object, some model =>
    Kind.all.filterMap fun k =>
      (mutationField? (model.argument? "mutations") t.name k).map fun f =>
        (⟨t.name, k⟩, initialResolver k f)
  | _, _ => []

def modelResolvers (settings : Settings) (d : Document) : List (Key × Artifact) :=
  d.types.flatMap (resolversOfType settings)

/-- Adds the resolvers whose keys the store lacks, and tells which ones. -/
def addAbsent : List (Key × Artifact) → Store → List Key × Store
  | [], s => ([], s)
  | e :: es, s =>
    if s.contains e.1 then addAbsent es s
    else
      let r := addAbsent es (s.set e.1 e.2)
      (e.1 :: r.1, r.2)

/-- Adds the resolvers of the model types that the store lacks, and tells which ones. -/
def seed (settings : Settings) (d : Document) (s : Store) : List Key × Store :=
  addAbsent (modelResolvers settings d) s

end TransformDirective.Compile
