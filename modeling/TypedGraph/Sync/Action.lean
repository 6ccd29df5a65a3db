import TypedGraph.Store
import TypedGraph.Sync.Message

/-!
# Actions

How the authority carries out the actions that remotes ask for. A handler changes the model and says
whether it refuses; the built-in action sets a field, checked against its descriptor. Applications
bring their own handlers. Three simple ones are given as samples of what a handler may do; nothing
in the library uses them.
-/

namespace TypedGraph

/-- The argument of the action that sets a field. -/
structure FieldUpdate where
  /-- The entity to change. -/
  target : RefToken
  /-- The field to set. -/
  field : String
  /-- The new value. -/
  value : Json
deriving DecidableEq

namespace FieldUpdate

/-- The name of the action. -/
def op : String := "setField"

/-- The written form, with the target first. -/
def written (u : FieldUpdate) : Json :=
  .obj [("ref", u.target.toJson), ("field", .str u.field), ("value", u.value)]

/-- The update as an untyped value, with sorted members. -/
def toJson (u : FieldUpdate) : Json :=
  .obj [("field", .str u.field), ("ref", u.target.toJson), ("value", u.value)]

/-- The update of its three parts. -/
def ofParts? (target field value : Option Json) : Option FieldUpdate := do
  return ⟨← RefToken.decode? (← target), ← (← field).str?, ← value⟩

/-- The update that a value stands for: an object with the three parts, or the array of them. -/
def decode? : Json → Option FieldUpdate
  | .obj members =>
    ofParts? (Json.lookup members "ref") (Json.lookup members "field") (Json.lookup members "value")
  | .arr [target, field, value] => ofParts? (some target) (some field) (some value)
  | _ => none

/-- The action that asks for the update. -/
def request (u : FieldUpdate) : ActionRequest := ⟨op, u.toJson⟩

theorem decode?_toJson (u : FieldUpdate) : decode? u.toJson = some u := by
  have h1 : ("ref" == "field") = false := by decide
  have h2 : ("value" == "field") = false := by decide
  have h3 : ("value" == "ref") = false := by decide
  simp [toJson, decode?, ofParts?, Json.lookup, List.lookup_cons, h1, h2, h3,
    RefToken.decode?_toJson, Json.str?]

end FieldUpdate

/-- Carries out an action for a remote: whether it is refused, and the model after it. -/
abbrev ActionHandler := ActionRequest → RefToken → DataModel → Bool × DataModel

namespace ActionHandler

/-- Sets a field. Other actions, malformed arguments and updates that the model does not take are
refused. -/
def setField : ActionHandler := fun request _ m =>
  if request.op = FieldUpdate.op then
    match FieldUpdate.decode? request.value with
    | some u =>
      let (applied, m) := m.setField u.target.id u.field u.value
      (!applied, m)
    | none => (true, m)
  else (true, m)

/-- A sample handler only, not a built-in action: it puts in a new entity, and the action names its
kind. -/
def create : ActionHandler := fun request _ m => (false, (m.create request.op request.value).2)

/-- A sample handler only, not a built-in action: it sets a field of the entity that the remote
stands for, and the action names the field. -/
def selfField : ActionHandler := fun request self m =>
  let (applied, m) := m.setField self.id request.op request.value
  (!applied, m)

/-- A sample handler only, not a built-in action: it takes over the argument as a whole graph. -/
def init : ActionHandler := fun request _ m =>
  let (index, m) := m.initJson request.value
  (index.isNone, m)

end ActionHandler

end TypedGraph
