import TypedGraph.Entity.Id
import TypedGraph.Json.Printer

/-!
# Ref Tokens

Pointers from one entity to another, written as an object with the id under `ref`. A token carries
the id alone; finding the entity is a lookup elsewhere.
-/

namespace TypedGraph

/-- A pointer to an entity. -/
structure RefToken where
  /-- The id it points at. -/
  id : EntityId
deriving DecidableEq

namespace RefToken

/-- The text under `ref` in an object, whatever else the object holds. -/
def peek (value : Json) : Option String := do (← value.member? "ref").str?

/-- The refusal of a value that is no token. -/
inductive ParseError where
  /-- The value has no string under `ref`. -/
  | notARef (value : Json)

/-- The wording of a refusal. -/
def ParseError.message : ParseError → String
  | notARef value => "not a ref token: " ++ value.text

/-- The token that a value holds. -/
def ofJson (value : Json) : Except ParseError RefToken :=
  match peek value with
  | some text => .ok ⟨⟨text⟩⟩
  | none => .error (.notARef value)

/-- The token as a value. -/
def toJson (token : RefToken) : Json := .obj [("ref", .str token.id.text)]

/-- The token that a value stands for as a record: an object with a string under `ref`, or the array
of this string alone. -/
def decode? : Json → Option RefToken
  | .obj members => (peek (.obj members)).map fun text => ⟨⟨text⟩⟩
  | .arr [.str text] => some ⟨⟨text⟩⟩
  | _ => none

theorem peek_toJson (token : RefToken) : peek token.toJson = some token.id.text := by
  simp [peek, toJson, Json.member?, Json.members?, Json.lookup, Json.str?]

/-- A token is read back from its value. -/
theorem toOption_ofJson_toJson (token : RefToken) :
    (ofJson token.toJson).toOption = some token := by
  rw [ofJson, peek_toJson]
  rfl

theorem decode?_toJson (token : RefToken) : decode? token.toJson = some token := by
  rw [toJson, decode?, ← toJson, peek_toJson]
  rfl

end RefToken

end TypedGraph
