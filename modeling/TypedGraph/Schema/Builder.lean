import TypedGraph.Schema.Implication

/-!
# Building Schemas

Schemas from declarations, one kind after the other. A kind that is declared again keeps its place
and takes the new structure; a checked build refuses this, and references to kinds that are not
declared.
-/

namespace TypedGraph

/-- What is wrong with a schema. -/
inductive SchemaError where
  /-- Some kinds imply others. -/
  | incoherent (problems : List Implication)
  /-- A reference names a kind that is not declared. -/
  | unknownKind (reference : DanglingRef)
  /-- A kind is declared more than once. -/
  | duplicateKind (name : String)
deriving DecidableEq

/-- The wording of what is wrong. -/
def SchemaError.message : SchemaError → String
  | incoherent problems =>
    "incoherent type system (implications found): " ++
      ", ".intercalate (problems.map Implication.display)
  | unknownKind r =>
    "kind " ++ quoted r.kind ++ ", field " ++ quoted r.field ++
      ": reference to undeclared kind " ++ quoted r.missing
  | duplicateKind name => "kind " ++ quoted name ++ " declared more than once"

/-- Fails with every implication when the schema is incoherent. -/
def Schema.assertCoherent (schema : Schema) : Except SchemaError Unit :=
  let analysis := schema.analyze
  if analysis.isCoherent then .ok () else .error (.incoherent analysis.problems)

/-- Kinds declared so far. -/
structure SchemaBuilder where
  /-- The structures of the kinds. -/
  kinds : OrderedMap String Structure
  /-- The names that were declared again, in the order in which this happened. -/
  redeclared : List String
deriving DecidableEq

namespace SchemaBuilder

/-- The builder without declarations. -/
def empty : SchemaBuilder := ⟨∅, []⟩

/-- Declares a kind. -/
def declare (b : SchemaBuilder) (name : String) (s : Structure) : SchemaBuilder :=
  { kinds := b.kinds.insert name s
    redeclared := if b.kinds.contains name then b.redeclared ++ [name] else b.redeclared }

/-- Declares kinds one after the other. -/
def declareAll (b : SchemaBuilder) (l : List (String × Structure)) : SchemaBuilder :=
  l.foldl (fun b d => b.declare d.1 d.2) b

/-- The schema of the declarations. -/
def build (b : SchemaBuilder) : Schema := ⟨b.kinds⟩

/-- The schema of the declarations, unless a kind was declared again or a reference dangles. -/
def buildChecked (b : SchemaBuilder) : Except SchemaError Schema :=
  match b.redeclared, b.build.danglingRefs with
  | name :: _, _ => .error (.duplicateKind name)
  | [], r :: _ => .error (.unknownKind r)
  | [], [] => .ok b.build

end SchemaBuilder

end TypedGraph
