import TypedGraph.Entity.Ref
import TypedGraph.Json.Reading
import TypedGraph.OrderedMap

/-!
# Entity Graphs

Entities by id, in the order in which they were put in. An entity is any JSON value; whether it
conforms to a kind is another matter. A graph is also the form in which snapshots travel.
-/

namespace TypedGraph

/-- Entities by id, in order. -/
abbrev EntityGraph := OrderedMap EntityId Json

/-- The kind of each entity, in the order of the graph. -/
abbrev KindIndex := OrderedMap EntityId String

namespace EntityGraph

/-- The ids in order. -/
def ids (graph : EntityGraph) : List EntityId := graph.keys

/-- The graph of entities given by the texts of their ids. A repeated id keeps its first position
and takes its last entity. -/
def ofMembers (members : List (String × Json)) : EntityGraph :=
  OrderedMap.ofList (members.map fun m => (⟨m.1⟩, m.2))

/-- The graph that an object holds. -/
def ofJson? : Json → Option EntityGraph
  | .obj members => some (ofMembers members)
  | _ => none

/-- The entities under the texts of their ids, in order. -/
def members (graph : EntityGraph) : List (String × Json) :=
  graph.entries.map fun e => (e.1.text, e.2)

/-- The graph as an untyped object, whose members are sorted by id. -/
def toJson (graph : EntityGraph) : Json := Json.object graph.members

/-- The graph as it is written, in its own order. -/
def written (graph : EntityGraph) : Json := .obj graph.members

/-- The text of a graph. -/
def text (graph : EntityGraph) : String := graph.written.text

/-- Reads a graph from an object of untyped entities. -/
def read (r : Json.Reading) : Except Json.ReadError EntityGraph :=
  (r.members Json.Reading.untyped).map ofMembers

/-- Reads a graph from a text. -/
def ofText (text : String) : Except Json.ReadError EntityGraph := Json.readText read text

/-- All entities are canonical values. -/
def Canonical (graph : EntityGraph) : Prop :=
  ∀ id entity, graph.get? id = some entity → entity.Canonical

end EntityGraph

end TypedGraph
