import TypedGraph.Store
import TypedGraph.Validation.Conformance

/-!
# Histories of Stores

The changes that a store can go through one after the other, whether they are taken or refused, and
what it means that all entities of a store have the shapes of their kinds.
-/

namespace TypedGraph.DataModel

/-- A change that a store is asked for. -/
inductive Change where
  /-- A new entity. -/
  | create (kind : String) (value : Json)
  /-- A whole graph. -/
  | init (graph : EntityGraph)
  /-- A whole graph as an untyped value. -/
  | initJson (value : Json)
  /-- A new value of a field. -/
  | setField (id : EntityId) (field : String) (value : Json)
  /-- The removal of a field. -/
  | clearField (id : EntityId) (field : String)
deriving DecidableEq

namespace Change

/-- The change is one of fields. -/
def isEdit : Change → Bool
  | setField _ _ _ => true
  | clearField _ _ => true
  | _ => false

end Change

/-- Asks for a change: whether it is taken, and the store then. -/
def change (m : DataModel) : Change → Bool × DataModel
  | .create kind value => (true, (m.create kind value).2)
  | .init graph =>
    let (index, m) := m.init graph
    (index.isSome, m)
  | .initJson value =>
    let (index, m) := m.initJson value
    (index.isSome, m)
  | .setField id field value => m.setField id field value
  | .clearField id field => m.clearField id field

/-- The store after some changes. -/
def after (m : DataModel) (changes : List Change) : DataModel :=
  changes.foldl (fun m c => (m.change c).2) m

/-- Every entity of the store conforms to its kind, with the kinds that the store has. -/
def WellTyped (m : DataModel) : Prop :=
  ∀ id ∈ m.entities.ids, ∃ kind, m.kindOf? id = some kind ∧
    EntityConforms m.schema m.entities (KindIndex.typing m.kinds) id kind

end TypedGraph.DataModel
