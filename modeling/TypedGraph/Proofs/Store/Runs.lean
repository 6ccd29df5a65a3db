import TypedGraph.Proofs.Store.Minting
import TypedGraph.Proofs.Store.Typing

/-!
# Runs of Stores

A store starts empty and goes through changes: new entities, whole graphs, and changes of fields.
New entities are put in without validation, so that it is up to the caller to give them values of
their kinds. If callers do, all states of the store are well-typed: a new entity has an id that
nothing pointed at as another kind before, a whole graph brings its own kinds along, and changes of
fields revise a store that is consistent.

## Main definitions

* `DataModel.Admits`: the caller keeps its side of a change;
* `DataModel.Reached`: the states of the stores over a schema.

## Main results

* `DataModel.consistent_create`: a new entity that conforms to its kind keeps a store consistent;
* `DataModel.consistent_change`: so does every change;
* `DataModel.wellTyped_of_reached`: every state of a store is well-typed.
-/

namespace TypedGraph.DataModel

variable {schema : Schema} {m : DataModel}

/-! ## One Change -/

/-- The caller keeps its side of a change. The value of a new entity conforms to its kind once the
entity is in the store, so that it may point at itself. There is an id left for it; otherwise
looking for one would not end. Anything may be asked of the changes that the store checks itself. -/
def Admits (m : DataModel) : Change → Prop
  | .create kind value => m.HasFreshId ∧
    EntityConforms m.schema (m.entities.insert m.newId value)
      (KindIndex.typing (m.kinds.insert m.newId kind)) m.newId kind
  | _ => True

theorem consistent_empty (schema : Schema) (mint : IdMint) : (empty schema mint).Consistent :=
  ⟨rfl, fun _ hid => absurd hid List.not_mem_nil⟩

/-- A new entity that conforms to its kind keeps a store consistent. -/
theorem consistent_create {kind : String} {value : Json} (h : m.Consistent)
    (hadmits : m.Admits (.create kind value)) : (m.create kind value).2.Consistent := by
  obtain ⟨hfresh, hvalue⟩ := hadmits
  have hfree : ¬ m.entities.contains m.newId := by simp [not_contains_newId hfresh]
  have hids : (m.create kind value).2.entities.ids = m.entities.ids ++ [m.newId] := by
    rw [entities_create, EntityGraph.ids, OrderedMap.keys_insert, if_neg hfree, EntityGraph.ids]
  constructor
  · exact coherent_create h.keys kind value
  · intro j hj
    rw [hids, List.mem_append, List.mem_singleton] at hj
    rcases hj with hold | rfl
    · -- what was in the store before points at entities other than the new one
      have hne {i : EntityId} (hi : m.entities.contains i) : i ≠ m.newId :=
        fun heq => hfree (heq ▸ hi)
      have hj := hne (OrderedMap.contains_iff.2 hold)
      obtain ⟨kind', hkind', s, members, hs, hmembers, hto⟩ := h.typed j hold
      refine ⟨kind', (OrderedMap.get?_insert_of_ne _ _ hj).trans hkind', s, members, hs,
        (OrderedMap.get?_insert_of_ne _ _ hj).trans hmembers, hto.mono ?_ ?_⟩
      · intro i hi
        rw [OrderedMap.contains_iff] at hi ⊢
        show i ∈ (m.create kind value).2.entities.ids
        rw [hids]
        exact List.mem_append_left _ hi
      · intro i k hi hty
        exact (OrderedMap.get?_insert_of_ne _ _ (hne hi)).trans hty
    · exact ⟨kind, OrderedMap.get?_insert_self _ _ _, hvalue⟩

/-- Trying to take over a graph keeps a store consistent, whether it succeeds or not. -/
theorem consistent_tryInit (h : m.Consistent) (graph : EntityGraph) :
    (m.tryInit graph).2.Consistent ∧ (m.tryInit graph).2.schema = m.schema := by
  cases hassign : (Validator.of m.schema graph).assign with
  | ok index =>
    have htaken : (m.tryInit graph).1 = .ok index := (fst_tryInit m graph).trans hassign
    obtain ⟨hconsistent, hschema, -⟩ := consistent_of_tryInit htaken
    exact ⟨hconsistent, hschema⟩
  | error id =>
    rw [tryInit_of_error hassign]
    exact ⟨h, rfl⟩

/-- Changes keep a store consistent, with the same schema. -/
theorem consistent_change {c : Change} (h : m.Consistent) (hadmits : m.Admits c) :
    (m.change c).2.Consistent ∧ (m.change c).2.schema = m.schema := by
  have hedit (hc : c.isEdit) :
      (m.change c).2.Consistent ∧ (m.change c).2.schema = m.schema :=
    have hrevised := (revised_edit h hc).consistent h
    ⟨hrevised.1, hrevised.2.1⟩
  cases c with
  | create kind value => exact ⟨consistent_create h hadmits, rfl⟩
  | init graph => exact consistent_tryInit h graph
  | initJson value =>
    show (m.initJson value).2.Consistent ∧ (m.initJson value).2.schema = m.schema
    unfold initJson
    cases EntityGraph.ofJson? value with
    | some graph => exact consistent_tryInit h graph
    | none => exact ⟨h, rfl⟩
  | setField id field value => exact hedit rfl
  | clearField id field => exact hedit rfl

/-! ## Whole Runs -/

/-- The states of the stores over a schema: those reached from the empty store by changes on which
the callers keep their side, be they taken or refused. -/
inductive Reached (schema : Schema) : DataModel → Prop
  | empty (mint : IdMint) : Reached schema (empty schema mint)
  | tryInit {m : DataModel} (h : Reached schema m) (graph : EntityGraph) :
    Reached schema (m.tryInit graph).2
  | change {m : DataModel} (h : Reached schema m) (c : Change) (hadmits : m.Admits c) :
    Reached schema (m.change c).2

theorem consistent_of_reached (h : Reached schema m) : m.Consistent ∧ m.schema = schema := by
  induction h with
  | empty mint => exact ⟨consistent_empty schema mint, rfl⟩
  | tryInit _ graph ih =>
    obtain ⟨hconsistent, hschema⟩ := consistent_tryInit ih.1 graph
    exact ⟨hconsistent, hschema.trans ih.2⟩
  | change _ c hadmits ih =>
    obtain ⟨hconsistent, hschema⟩ := consistent_change ih.1 hadmits
    exact ⟨hconsistent, hschema.trans ih.2⟩

/-- Every state of a store is well-typed, over the schema that the store started with. -/
theorem wellTyped_of_reached (h : Reached schema m) : m.schema = schema ∧ m.WellTyped :=
  ⟨(consistent_of_reached h).2, (consistent_of_reached h).1.typed⟩

/-- A schema of nodes that may point at a next one. -/
def nodeSchema : Schema := .ofKinds [
  ("Node", .ofFields [("name", .string), ("next", .optional (.ref ["Node"]))])]

/-- Two nodes that point at each other. -/
def ringGraph : EntityGraph := .ofMembers [
  ("a", .obj [("name", .str "first"), ("next", RefToken.toJson ⟨⟨"b"⟩⟩)]),
  ("b", .obj [("name", .str "second"), ("next", RefToken.toJson ⟨⟨"a"⟩⟩)])]

/-- The store that has taken over the two nodes. -/
def ringStore : DataModel := ((empty nodeSchema (.ofStem IdMint.defaultStem)).tryInit ringGraph).2

/-- A node that points at itself, once it is in the store under its new id. -/
def selfNode : Json := .obj [("name", .str "third"), ("next", RefToken.toJson ⟨⟨"$0"⟩⟩)]

/-- The store with the node that points at itself. -/
def rootedStore : DataModel := (ringStore.change (.create "Node" selfNode)).2

/-- The node conforms under the index that has its own id as well. -/
theorem admits_selfNode : ringStore.Admits (.create "Node" selfNode) := by
  refine ⟨⟨0, by decide +kernel⟩, ?_⟩
  have hgoals : (Validator.of ringStore.schema
      (ringStore.entities.insert ringStore.newId selfNode)).goalsOf ringStore.newId "Node" =
        some [⟨⟨"$0"⟩, ["Node"]⟩] := by decide +kernel
  refine (Validator.entityConforms_iff (v := .of _ _)).2 ⟨_, hgoals, ?_⟩
  intro g hg
  rw [List.mem_singleton.1 hg]
  exact ⟨"Node", List.mem_singleton_self _, by unfold KindIndex.typing; decide +kernel⟩

/-- The store once the first of the two nodes points at the new one and the second one at nothing,
and after a value that is no graph has been refused. -/
def rewiredStore : DataModel := rootedStore.after [
  .setField ⟨"a"⟩ "next" (RefToken.toJson ⟨⟨"$0"⟩⟩), .clearField ⟨"b"⟩ "next", .initJson .null]

/-- The store with the node that points at itself stays well-typed. -/
theorem wellTyped_rewiredStore :
    Reached nodeSchema rewiredStore ∧ rewiredStore.WellTyped ∧
      rewiredStore.entities.get? ⟨"a"⟩ = some
        (.obj [("name", .str "first"), ("next", RefToken.toJson ⟨⟨"$0"⟩⟩)]) := by
  have hring : Reached nodeSchema ringStore := (Reached.empty _).tryInit ringGraph
  have hrooted : Reached nodeSchema rootedStore := hring.change _ admits_selfNode
  have hset := hrooted.change (.setField ⟨"a"⟩ "next" (RefToken.toJson ⟨⟨"$0"⟩⟩)) trivial
  have hcleared := hset.change (.clearField ⟨"b"⟩ "next") trivial
  have hrewired : Reached nodeSchema rewiredStore := hcleared.change (.initJson .null) trivial
  exact ⟨hrewired, (wellTyped_of_reached hrewired).2, by decide +kernel⟩

end TypedGraph.DataModel
