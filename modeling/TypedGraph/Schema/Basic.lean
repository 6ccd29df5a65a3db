import TypedGraph.OrderedMap
import TypedGraph.Schema.Reading

/-!
# Schemas

A schema declares kinds of entities, each by the table of its fields. The order of the kinds
matters: validation tries them in this order. The order of the fields only matters for messages.
-/

namespace TypedGraph

/-- The fields of one kind of entities, in order. -/
structure Structure where
  /-- The descriptor of each field. -/
  fields : OrderedMap String Descriptor
deriving DecidableEq

namespace Structure

instance : Inhabited Structure := ⟨⟨∅⟩⟩

/-- The structure without fields. -/
def empty : Structure := ⟨∅⟩

/-- Declares a field; a field declared before keeps its place and takes the new descriptor. -/
def field (s : Structure) (name : String) (d : Descriptor) : Structure := ⟨s.fields.insert name d⟩

/-- Declares a required string field. -/
def string (s : Structure) (name : String) : Structure := s.field name .string

/-- Declares a required number field. -/
def number (s : Structure) (name : String) : Structure := s.field name .number

/-- Declares a required boolean field. -/
def boolean (s : Structure) (name : String) : Structure := s.field name .boolean

/-- Declares an optional field. -/
def optional (s : Structure) (name : String) (d : Descriptor) : Structure :=
  s.field name (.optional d)

/-- Declares a required reference to one of some kinds. -/
def reference (s : Structure) (name : String) (kinds : List String) : Structure :=
  s.field name (.ref kinds)

/-- The structure of a list of fields. -/
def ofFields (fields : List (String × Descriptor)) : Structure := ⟨.ofList fields⟩

/-- The descriptor of a field. -/
def get? (s : Structure) (name : String) : Option Descriptor := s.fields.get? name

/-- The field is declared. -/
def contains (s : Structure) (name : String) : Bool := s.fields.contains name

/-- The field is declared and not optional. -/
def isRequired (s : Structure) (name : String) : Bool :=
  (s.get? name).any fun d => !d.isOptional

/-- The names of the fields that are not optional, in order. -/
def requiredFields (s : Structure) : List String :=
  (s.fields.entries.filter fun f => !f.2.isOptional).map Prod.fst

/-- The written form, with the fields in order. -/
def toJson (s : Structure) : Json :=
  .obj (s.fields.entries.map fun f => (f.1, f.2.toJson))

/-- Reads a structure from an object of descriptors. -/
def read (r : Json.Reading) : Except Json.ReadError Structure :=
  (r.members Descriptor.read).map ofFields

end Structure

/-- The kinds of entities, in order. -/
structure Schema where
  /-- The structure of each kind. -/
  kinds : OrderedMap String Structure
deriving DecidableEq

/-- A reference to a kind that the schema does not declare. -/
structure DanglingRef where
  /-- The kind whose structure holds the reference. -/
  kind : String
  /-- The field that holds the reference. -/
  field : String
  /-- The kind that is not declared. -/
  missing : String
deriving DecidableEq

namespace Schema

instance : Inhabited Schema := ⟨⟨∅⟩⟩

/-- The schema of a list of kinds. -/
def ofKinds (kinds : List (String × Structure)) : Schema := ⟨.ofList kinds⟩

/-- The names of the kinds in order. -/
def kindNames (schema : Schema) : List String := schema.kinds.keys

/-- The structure of a kind. -/
def kind? (schema : Schema) (name : String) : Option Structure := schema.kinds.get? name

/-- The kind is declared. -/
def containsKind (schema : Schema) (name : String) : Bool := schema.kinds.contains name

/-- The descriptor of a field of a kind. -/
def field? (schema : Schema) (kind field : String) : Option Descriptor := do
  (← schema.kind? kind).get? field

/-- The references of a kind's structure to kinds that are not declared. -/
def danglingRefsOf (schema : Schema) (kind : String) (s : Structure) : List DanglingRef :=
  s.fields.entries.flatMap fun f =>
    (f.2.referencedKinds.filter fun k => !schema.containsKind k).map (⟨kind, f.1, ·⟩)

/-- All references to kinds that are not declared, by kind, field and place in the descriptor.
Validation puts up with them: such a kind never matches. -/
def danglingRefs (schema : Schema) : List DanglingRef :=
  schema.kinds.entries.flatMap fun k => schema.danglingRefsOf k.1 k.2

/-- The written form, with kinds and fields in order. -/
def toJson (schema : Schema) : Json :=
  .obj (schema.kinds.entries.map fun k => (k.1, k.2.toJson))

/-- The written form as text. -/
def text (schema : Schema) : String := schema.toJson.text

/-- Reads a schema from an object of structures. -/
def read (r : Json.Reading) : Except Json.ReadError Schema :=
  (r.members Structure.read).map ofKinds

/-- Reads a schema from a text. -/
def ofText (text : String) : Except Json.ReadError Schema := Json.readText read text

/-- The schema that an untyped value is the written form of. -/
def ofJson? (value : Json) : Option Schema := (read (.ofJson value)).toOption

end Schema

end TypedGraph
