import TypedGraph.Schema.Basic
import TypedGraph.Entity.Graph

/-!
# Conformance

What it means that values and entities have the shapes that a schema declares, said without the
search. References are judged by a relation between entities and kinds: an index of kinds gives one
such relation, and a *loose typing* is one that may give several kinds to an entity.
-/

namespace TypedGraph

/-- Which entities have which kinds. -/
abbrev Typing := EntityId → String → Prop

/-- A value, or its absence, conforms to a descriptor: references are exactly tokens that point at
an entity of the graph with one of the kinds. -/
inductive Conforms (graph : EntityGraph) (typing : Typing) : Descriptor → Option Json → Prop where
  | absent {d : Descriptor} : Conforms graph typing (.optional d) none
  | present {d : Descriptor} {value : Json} (h : Conforms graph typing d (some value)) :
    Conforms graph typing (.optional d) (some value)
  | primitive {p : Primitive} {value : Json} (h : p.accepts value) :
    Conforms graph typing (.primitive p) (some value)
  | union {literals : StringSet} {s : String} (h : s ∈ literals) :
    Conforms graph typing (.union literals) (some (.str s))
  | arrayOf {d : Descriptor} {items : List Json}
    (h : ∀ item ∈ items, Conforms graph typing d (some item)) :
    Conforms graph typing (.arrayOf d) (some (.arr items))
  | ref {kinds : List String} {kind text : String} (hid : graph.contains ⟨text⟩)
    (hkind : kind ∈ kinds) (h : typing ⟨text⟩ kind) :
    Conforms graph typing (.ref kinds) (some (.obj [("ref", .str text)]))

/-- An entity conforms to a structure: it is an object with declared fields only, and each declared
field, present or absent, conforms. -/
structure ConformsTo (graph : EntityGraph) (typing : Typing) (s : Structure)
    (members : List (String × Json)) : Prop where
  /-- Every field is declared. -/
  declared : ∀ m ∈ members, s.contains m.1
  /-- Every declared field conforms. -/
  fields : ∀ f ∈ s.fields.entries, Conforms graph typing f.2 (Json.lookup members f.1)

/-- An entity of the graph conforms to a declared kind. -/
def EntityConforms (schema : Schema) (graph : EntityGraph) (typing : Typing) (id : EntityId)
    (kind : String) : Prop :=
  ∃ s members, schema.kind? kind = some s ∧ graph.get? id = some (.obj members) ∧
    ConformsTo graph typing s members

/-- A typing in which every entity conforms to all kinds it has. -/
def LooseTyping (schema : Schema) (graph : EntityGraph) (typing : Typing) : Prop :=
  ∀ id kind, typing id kind → EntityConforms schema graph typing id kind

/-- Some loose typing gives the kind to the entity. -/
def CanBe (schema : Schema) (graph : EntityGraph) (id : EntityId) (kind : String) : Prop :=
  ∃ typing, LooseTyping schema graph typing ∧ typing id kind

/-- The typing of an index of kinds. -/
def KindIndex.typing (index : KindIndex) : Typing := fun id kind => index.get? id = some kind

end TypedGraph
