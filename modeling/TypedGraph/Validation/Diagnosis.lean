import TypedGraph.Validation.Search

/-!
# Diagnosis

Why an entity does not conform to a kind: the first reason that shows when every field is matched by
itself. An entity without such a reason may still be in conflict with the kinds of other entities.
-/

namespace TypedGraph

/-- Why an entity does not conform to a kind. -/
inductive Mismatch where
  /-- The kind is not declared. -/
  | unknownKind
  /-- The entity is no object. -/
  | notAnObject
  /-- The entity has a field that the kind does not declare. -/
  | undeclaredField (name : String)
  /-- A required field is absent. -/
  | missingField (name : String)
  /-- A field that is present does not match its descriptor. -/
  | fieldType (field : String) (expected : Descriptor) (found : Json)
  /-- The entity conforms by itself but not together with the kinds of others. -/
  | conflict
deriving DecidableEq

/-- The wording of a mismatch. -/
def Mismatch.display : Mismatch → String
  | unknownKind => "kind is not declared"
  | notAnObject => "entity is not an object"
  | undeclaredField name => "field " ++ quoted name ++ " is not declared"
  | missingField name => "required field " ++ quoted name ++ " is missing"
  | fieldType field expected found =>
    "field " ++ quoted field ++ ": expected " ++ expected.display ++ ", found " ++ found.text
  | conflict => "conflicts with the kinds of other entities"

/-- For each kind why an entity does not conform to it. -/
abbrev Explanation := List (String × Mismatch)

namespace Validator

/-- Why a field of an entity does not match its descriptor. -/
def diagnoseField (v : Validator) (members : List (String × Json)) (name : String)
    (d : Descriptor) : Option Mismatch :=
  match Json.lookup members name with
  | none => if d.isOptional then none else some (.missingField name)
  | some value =>
    if (v.matchValue d (some value) ∅).1 then none else some (.fieldType name d value)

/-- The first reason why an entity does not conform to a kind, if one shows in a field by itself. -/
def diagnose (v : Validator) (kind : String) (entity : Json) : Option Mismatch :=
  match v.schema.kind? kind, entity.members? with
  | none, _ => some .unknownKind
  | _, none => some .notAnObject
  | some s, some members =>
    match members.find? fun m => !s.contains m.1 with
    | some m => some (.undeclaredField m.1)
    | none => s.fields.entries.findSome? fun f => v.diagnoseField members f.1 f.2

/-- Why an entity of the graph does not conform to each of the kinds. -/
def explain (v : Validator) (id : EntityId) : Option Explanation := do
  let entity ← v.entity? id
  return v.schema.kindNames.map fun kind => (kind, (v.diagnose kind entity).getD .conflict)

end Validator

end TypedGraph
