import TypedGraph.Entity.Graph
import TypedGraph.Json.Pointer

/-!
# Entity Views

An entity together with its id and its kind, for reading its fields.
-/

namespace TypedGraph

/-- An entity with its id and its kind. -/
structure EntityView where
  /-- The id of the entity. -/
  id : EntityId
  /-- The kind of the entity. -/
  kind : String
  /-- The entity itself. -/
  data : Json
deriving DecidableEq

namespace EntityView

/-- The value of a field. -/
def get? (view : EntityView) (field : String) : Option Json := view.data.member? field

/-- The string at a pointer. -/
def string? (view : EntityView) (pointer : String) : Option String := do
  (← view.data.pointer? pointer).str?

/-- The truth value at a pointer. -/
def bool? (view : EntityView) (pointer : String) : Option Bool := do
  (← view.data.pointer? pointer).bool?

/-- The number at a pointer. -/
def number? (view : EntityView) (pointer : String) : Option Binary64 := do
  (← view.data.pointer? pointer).binary64?

/-- The token in a field. -/
def ref? (view : EntityView) (field : String) : Option RefToken := do
  (RefToken.ofJson (← view.get? field)).toOption

/-- The tokens in a field that holds an array; items of another form are left out. -/
def refs (view : EntityView) (field : String) : List RefToken :=
  match view.get? field with
  | some (.arr items) => items.filterMap fun item => (RefToken.ofJson item).toOption
  | _ => []

end EntityView

end TypedGraph
