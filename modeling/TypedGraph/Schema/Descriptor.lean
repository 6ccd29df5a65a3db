import TypedGraph.Json.Printer
import TypedGraph.StringSet
import TypedGraph.Text.Quoted

/-!
# Type Descriptors

The shapes that the fields of an entity can have: a scalar, a string out of a fixed set, an optional
value, an array, or a reference to an entity of one of several kinds.
-/

namespace TypedGraph

/-- The kinds of scalars. -/
inductive Primitive where
  | string
  | number
  | boolean
deriving DecidableEq

namespace Primitive

/-- A value is exactly of this kind; nothing is converted. -/
def accepts : Primitive → Json → Bool
  | string, .str _ => true
  | number, .num _ => true
  | boolean, .bool _ => true
  | _, _ => false

/-- The name of the kind in a schema. -/
def keyword : Primitive → String
  | string => "string"
  | number => "number"
  | boolean => "boolean"

/-- The kind of a name. -/
def ofKeyword? (name : String) : Option Primitive :=
  if name = "string" then some string
  else if name = "number" then some number
  else if name = "boolean" then some boolean
  else none

/-- The kind that a value names: its name, or the object with `null` under its name. -/
def ofJson? : Json → Option Primitive
  | .str name => ofKeyword? name
  | .obj [(name, .null)] => ofKeyword? name
  | _ => none

theorem ofKeyword?_keyword (p : Primitive) : ofKeyword? p.keyword = some p := by
  cases p <;> rfl

end Primitive

/-- The shape of a field's value. -/
inductive Descriptor where
  /-- A scalar of exactly this kind. -/
  | primitive (kind : Primitive)
  /-- One of these strings. -/
  | union (literals : StringSet)
  /-- Nothing, or a value of the inner shape. -/
  | optional (inner : Descriptor)
  /-- An array of values of the inner shape. -/
  | arrayOf (inner : Descriptor)
  /-- A token pointing at an entity of one of these kinds, which are tried in this order. -/
  | ref (kinds : List String)
deriving DecidableEq

namespace Descriptor

instance : Inhabited Descriptor := ⟨primitive .string⟩

/-- A string scalar. -/
abbrev string : Descriptor := primitive .string

/-- A number scalar. -/
abbrev number : Descriptor := primitive .number

/-- A boolean scalar. -/
abbrev boolean : Descriptor := primitive .boolean

/-- The value may be absent. -/
def isOptional : Descriptor → Bool
  | optional _ => true
  | _ => false

/-- The descriptor under one `optional` at the top. -/
def unwrapOptional : Descriptor → Descriptor
  | optional inner => inner
  | d => d

/-- The kinds named by the reference in a descriptor, each as often as it is named. -/
def referencedKinds : Descriptor → List String
  | primitive _ => []
  | union _ => []
  | optional inner => inner.referencedKinds
  | arrayOf inner => inner.referencedKinds
  | ref kinds => kinds

/-- Descriptors as messages show them. -/
def display : Descriptor → String
  | primitive p => p.keyword
  | union literals => " | ".intercalate (literals.toList.map quoted)
  | optional inner => "optional " ++ inner.display
  | arrayOf inner => "array of " ++ inner.display
  | ref kinds => "ref<" ++ " | ".intercalate kinds ++ ">"

/-- The written form: the keyword of a scalar, or the object with the payload under its keyword. -/
def toJson : Descriptor → Json
  | primitive p => .str p.keyword
  | union literals => .obj [("union", .arr (literals.toList.map .str))]
  | optional inner => .obj [("optional", inner.toJson)]
  | arrayOf inner => .obj [("arrayOf", inner.toJson)]
  | ref kinds => .obj [("ref", .arr (kinds.map .str))]

/-- The written form as text. -/
def text (d : Descriptor) : String := d.toJson.text

end Descriptor

end TypedGraph
