import TypedGraph.Entity.View
import TypedGraph.Validation.Diagnosis

/-!
# Data Models

A store of validated entities: a graph, and the kind of each entity in it. Entities come in one by
one without validation, or as a whole graph that is validated first. Fields change only to values
that match their descriptors; what references point at keeps the kind it has.
-/

namespace TypedGraph

/-- A store of entities with their kinds. -/
structure DataModel where
  /-- The kinds that entities can have. -/
  schema : Schema
  /-- The entities. -/
  entities : EntityGraph
  /-- The kind of each entity. -/
  kinds : KindIndex
  /-- The source of ids for new entities. -/
  mint : IdMint
deriving DecidableEq

/-- Why an entity cannot be read as a value of some type. -/
inductive ModelError where
  /-- There is no such entity. -/
  | notFound (id : EntityId)
  /-- The entity has another kind. -/
  | wrongKind (id : EntityId) (expected actual : String)
  /-- The entity has another shape. -/
  | shape

/-- The wording of an error, where it has one of its own. -/
def ModelError.message? : ModelError → Option String
  | notFound id => some ("entity not found: " ++ id.text)
  | wrongKind id expected actual =>
    some ("entity " ++ id.text ++ " is a " ++ actual ++ ", not a " ++ expected)
  | shape => none

namespace DataModel

/-- The empty store of a schema, with a source of ids. -/
def empty (schema : Schema) (mint : IdMint) : DataModel := ⟨schema, ∅, ∅, mint⟩

/-- A validator over the entities of the store. -/
def validator (m : DataModel) : Validator := .of m.schema m.entities

/-! ## New Entities and New Graphs -/

/-- Mints ids until one is not taken, giving up after some more tries. -/
def mintFresh (taken : EntityId → Bool) : Nat → IdMint → EntityId × IdMint
  | 0, mint => mint.mint
  | tries + 1, mint =>
    if taken mint.mint.1 then mintFresh taken tries mint.mint.2 else mint.mint

/-- Puts in a new entity under a fresh id, without validation. There are fewer ids in the store than
tries, so that the id is fresh while the counters last. -/
def create (m : DataModel) (kind : String) (value : Json) : RefToken × DataModel :=
  let (id, mint) := mintFresh m.entities.contains m.entities.size m.mint
  (⟨id⟩, { m with
    entities := m.entities.insert id value
    kinds := m.kinds.insert id kind
    mint })

/-- Validates a graph and takes it over in place of the one before; without a kind for every entity
the store stays as it is, and the first entity that has none is named. -/
def tryInit (m : DataModel) (graph : EntityGraph) : Except EntityId KindIndex × DataModel :=
  match (Validator.of m.schema graph).assign with
  | .ok index =>
    (.ok index, { m with
      entities := graph
      kinds := index
      mint := graph.ids.foldl IdMint.observe m.mint })
  | .error id => (.error id, m)

theorem tryInit_of_ok {m : DataModel} {graph : EntityGraph} {index : KindIndex}
    (h : (Validator.of m.schema graph).assign = .ok index) :
    m.tryInit graph = (.ok index, { m with
      entities := graph
      kinds := index
      mint := graph.ids.foldl IdMint.observe m.mint }) := by
  rw [tryInit, h]

theorem tryInit_of_error {m : DataModel} {graph : EntityGraph} {id : EntityId}
    (h : (Validator.of m.schema graph).assign = .error id) :
    m.tryInit graph = (.error id, m) := by
  rw [tryInit, h]

/-- A store takes over a graph with the kinds that a search gives its entities. -/
theorem fst_tryInit (m : DataModel) (graph : EntityGraph) :
    (m.tryInit graph).1 = (Validator.of m.schema graph).assign := by
  cases h : (Validator.of m.schema graph).assign with
  | ok index => rw [tryInit_of_ok h]
  | error id => rw [tryInit_of_error h]

/-- Validates a graph and takes it over, without a reason for a refusal. -/
def init (m : DataModel) (graph : EntityGraph) : Option KindIndex × DataModel :=
  let (result, m) := m.tryInit graph
  (result.toOption, m)

/-- Validates an untyped value as a graph and takes it over; only objects are graphs. -/
def initJson (m : DataModel) (value : Json) : Option KindIndex × DataModel :=
  match EntityGraph.ofJson? value with
  | some graph => m.init graph
  | none => (none, m)

/-- The entities of the store would be accepted as a whole graph. -/
def isValid (m : DataModel) : Bool := m.validator.assign.isOk

/-! ## Fields -/

/-- The descriptor of a field of an entity of the store. -/
def fieldDescriptor? (m : DataModel) (id : EntityId) (field : String) : Option Descriptor := do
  m.schema.field? (← m.kinds.get? id) field

/-- The members of an entity of the store that is an object. -/
def membersOf? (m : DataModel) (id : EntityId) : Option (List (String × Json)) := do
  (← m.entities.get? id).members?

/-- Puts an object in the place of an entity. -/
def replaceMembers (m : DataModel) (id : EntityId) (members : List (String × Json)) : DataModel :=
  { m with entities := m.entities.insert id (.obj members) }

/-- The value matches the descriptor with the kinds that the entities of the store have. -/
def accepts (m : DataModel) (d : Descriptor) (value : Json) : Bool :=
  (m.validator.matchValue d (some value) (.ofIndex m.kinds)).1

/-- Sets a field of an entity if its kind declares the field and the value matches. -/
def setField (m : DataModel) (id : EntityId) (field : String) (value : Json) : Bool × DataModel :=
  match m.fieldDescriptor? id field with
  | none => (false, m)
  | some d =>
    if m.accepts d value then
      match m.membersOf? id with
      | some members => (true, m.replaceMembers id (Json.insertMember field value members))
      | none => (false, m)
    else (false, m)

/-- Removes a field of an entity if its kind declares it as optional. -/
def clearField (m : DataModel) (id : EntityId) (field : String) : Bool × DataModel :=
  match m.fieldDescriptor? id field with
  | none => (false, m)
  | some d =>
    if d.isOptional then
      match m.membersOf? id with
      | some members => (true, m.replaceMembers id (Json.eraseMember field members))
      | none => (false, m)
    else (false, m)

/-! ## Access -/

/-- All entities with their kinds, in the order of the graph. -/
def views (m : DataModel) : List EntityView :=
  m.entities.entries.filterMap fun e => (m.kinds.get? e.1).map fun kind => ⟨e.1, kind, e.2⟩

/-- An entity with its kind. -/
def view? (m : DataModel) (id : EntityId) : Option EntityView := do
  let kind ← m.kinds.get? id
  let data ← m.entities.get? id
  return ⟨id, kind, data⟩

/-- The kind of an entity. -/
def kindOf? (m : DataModel) (id : EntityId) : Option String := m.kinds.get? id

/-- The entities of a kind, in order. -/
def idsOfKind (m : DataModel) (kind : String) : List EntityId :=
  (m.kinds.entries.filter (·.2 = kind)).map Prod.fst

/-- The entity has the kind. -/
def isOfKind (m : DataModel) (id : EntityId) (kind : String) : Bool := m.kindOf? id = some kind

/-- The entity that a token points at. -/
def resolve? (m : DataModel) (token : RefToken) : Option Json := m.entities.get? token.id

/-- The entity that a token points at, if it has the kind. -/
def resolveAs? (m : DataModel) (token : RefToken) (kind : String) : Option EntityView :=
  if m.isOfKind token.id kind then m.view? token.id else none

/-- Reads an entity of a kind as a value of some type. -/
def typed {α : Type u} (m : DataModel) (decode? : Json → Option α) (id : EntityId) (kind : String) :
    Except ModelError α :=
  match m.view? id with
  | none => .error (.notFound id)
  | some view =>
    if view.kind = kind then
      match decode? view.data with
      | some a => .ok a
      | none => .error .shape
    else .error (.wrongKind id kind view.kind)

/-- The entities as an untyped object. -/
def toJson (m : DataModel) : Json := m.entities.toJson

end DataModel

end TypedGraph
