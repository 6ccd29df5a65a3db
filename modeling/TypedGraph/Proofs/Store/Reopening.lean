import TypedGraph.Proofs.Store.Typing
import TypedGraph.Proofs.Validation.Guidance
import TypedGraph.Sync.Client

/-!
# Reopening Edited Stores

Edits are checked against the kinds that entities have, but when the entities of a store are taken
over by another one all kinds are searched anew. The search comes to the same kinds exactly if
nothing diverts it: when it is led by the kinds that the entities have, it must not find that an
entity could get another kind that is tried earlier.

## Main definitions

* `Validator.Undiverted`: a search that is led by an index finds no earlier kind to take;
* `DataModel.Edited`: a store that has taken over a graph and has gone through edits since.

## Main results

* `Validator.assign_eq_ok_iff_undiverted`: a consistent index is found exactly if nothing diverts
  the search from it;
* `DataModel.undiverted_of_unambiguous`: nothing diverts the search in unambiguous graphs;
* `DataModel.reopens_iff_undiverted`: when the entities of an edited store are taken over with the
  same kinds.
-/

namespace TypedGraph

namespace Validator

variable {v : Validator} {index : KindIndex}

/-- Nothing diverts the search for all entities from an index: wherever a search comes that is led
by it, the entity gets none of the kinds that are tried before that of the index. -/
def Undiverted (v : Validator) (index : KindIndex) : Prop :=
  v.UndivertedFrom index.get? (v.wholeGoals v.graph.ids)

/-- A consistent index is found exactly if nothing diverts the search from it. -/
theorem assign_eq_ok_iff_undiverted (hkeys : index.keys = v.graph.ids)
    (hloose : LooseTyping v.schema v.graph (KindIndex.typing index)) :
    v.assign = .ok index ↔ v.Undiverted index := by
  constructor
  · intro hassign
    obtain ⟨a, hall, rfl⟩ := assign_eq_ok_iff.1 hassign
    refine undivertedFrom_of_meet hall fun id kind hkind => ?_
    rw [(grows_of_meet hall).1.get?_toIndex]
    exact hkind
  · intro hu
    have hmet (g : RefGoal) (hg : g ∈ v.wholeGoals v.graph.ids) :
        g.Met (KindIndex.typing index) := by
      obtain ⟨id, hid, rfl⟩ := List.mem_map.1 hg
      rw [← hkeys] at hid
      obtain ⟨kind, hkind⟩ := OrderedMap.mem_keys_iff.1 hid
      obtain ⟨s, members, hs, -, -⟩ := hloose id kind hkind
      exact ⟨kind, OrderedMap.mem_keys_iff.2 ⟨s, hs⟩, hkind⟩
    obtain ⟨a, hmeet, hplan⟩ := exists_meet_start hu hloose hmet
    have hassign : v.assign = .ok (a.toIndex v.graph) := assign_eq_ok_iff.2 ⟨a, hmeet, rfl⟩
    have hkeys' := keys_of_assign hassign
    rw [hassign, Except.ok.injEq]
    refine OrderedMap.ext_get? (hkeys'.trans hkeys.symm) fun id => ?_
    cases hkind : (a.toIndex v.graph).get? id with
    | some kind =>
      -- the search has only given kinds of the index
      rw [(grows_of_meet hmeet).1.get?_toIndex] at hkind
      exact (hplan id kind hkind).symm
    | none =>
      rw [OrderedMap.get?_eq_none_iff, hkeys', ← hkeys, ← OrderedMap.get?_eq_none_iff] at hkind
      exact hkind.symm

end Validator

namespace DataModel

variable {m : DataModel}

/-- A store that has taken over a graph and has gone through changes of fields since. -/
def Edited (m : DataModel) : Prop :=
  ∃ (m₀ : DataModel) (graph : EntityGraph) (index : KindIndex) (changes : List Change),
    (m₀.tryInit graph).1 = .ok index ∧ (∀ c ∈ changes, c.isEdit) ∧
      m = (m₀.tryInit graph).2.after changes

/-- Nothing diverts the search from the kinds that the entities of the store have. -/
def Undiverted (m : DataModel) : Prop := m.validator.Undiverted m.kinds

theorem consistent_of_edited (h : m.Edited) : m.Consistent := by
  obtain ⟨m₀, graph, index, changes, hinit, hchanges, rfl⟩ := h
  exact (consistent_after (consistent_of_tryInit hinit).1 hchanges).1

/-- The kinds of a consistent store are a loose typing of its entities. -/
theorem looseTyping_of_consistent (h : m.Consistent) :
    LooseTyping m.schema m.entities (KindIndex.typing m.kinds) := by
  intro id kind hkind
  have hid : id ∈ m.entities.ids := by
    rw [← h.keys]
    exact OrderedMap.mem_keys_iff.2 ⟨kind, hkind⟩
  obtain ⟨kind', hkind', hconforms⟩ := h.typed id hid
  cases hkind.symm.trans hkind'
  exact hconforms

/-- The entities of a consistent store get the kinds that they have exactly if nothing diverts the
search. -/
theorem assign_validator_iff (h : m.Consistent) :
    m.validator.assign = .ok m.kinds ↔ m.Undiverted :=
  Validator.assign_eq_ok_iff_undiverted h.keys (looseTyping_of_consistent h)

/-- Nothing diverts the search if no entity can be two kinds. -/
theorem undiverted_of_unambiguous (h : m.Consistent)
    (hu : Unambiguous m.schema m.entities) : m.Undiverted := by
  have hassign : m.validator.assign = .ok m.kinds :=
    m.validator.assign_eq_ok_of_looseTyping hu h.keys (looseTyping_of_consistent h)
  exact (assign_validator_iff h).1 hassign

/-- When the entities of an edited store are taken over with the same kinds by a fresh store, and
hence by clients. Every entity of an edited store conforms to its kind; what can go wrong is that an
earlier kind diverts the search, and this cannot happen in unambiguous graphs. -/
theorem reopens_iff_undiverted {m : DataModel} (h : m.Edited) :
    m.WellTyped ∧
    (∀ mint, ((empty m.schema mint).tryInit m.entities).1 = .ok m.kinds ↔ m.Undiverted) ∧
    (m.Undiverted → m.isValid ∧ ∀ client : Client, client.schema = m.schema →
      ∃ rebuilt, client.rebuild m.entities = .ok rebuilt ∧ rebuilt.kinds = m.kinds ∧
        rebuilt.entities = m.entities) ∧
    (Unambiguous m.schema m.entities → m.Undiverted) := by
  have hconsistent := consistent_of_edited h
  refine ⟨hconsistent.typed, fun mint => ?_, fun hu => ⟨?_, fun client hschema => ?_⟩,
    undiverted_of_unambiguous hconsistent⟩
  · rw [fst_tryInit]
    exact assign_validator_iff hconsistent
  · rw [isValid, (assign_validator_iff hconsistent).2 hu]
    rfl
  · have hassign : (Validator.of client.schema m.entities).assign = .ok m.kinds := by
      rw [hschema]
      exact (assign_validator_iff hconsistent).2 hu
    exact ⟨_, Client.rebuild_of_ok hassign, rfl, rfl⟩

/-- A schema in which an entity of the second kind that loses its `y` also fits the first one. -/
def driftSchema : Schema := .ofKinds [
  ("A", .ofFields [("x", .optional .string), ("z", .optional .string)]),
  ("B", .ofFields [("x", .optional .string), ("y", .optional .number)]),
  ("H", .ofFields [("r", .ref ["B"])])]

/-- An entity of the second kind, and one that points at it. -/
def driftGraph : EntityGraph := .ofMembers [
  ("e", .obj [("y", .num (.int 1))]),
  ("h", .obj [("r", RefToken.toJson ⟨⟨"e"⟩⟩)])]

/-- The store that has taken over the graph. -/
def driftStore : DataModel :=
  ((empty driftSchema (.ofStem IdMint.defaultStem)).tryInit driftGraph).2

/-- The store after changes of fields has taken over the graph before. -/
theorem edited_driftStore (changes : List Change) (h : ∀ c ∈ changes, c.isEdit) :
    (driftStore.after changes).Edited := by
  refine ⟨_, driftGraph, .ofList [(⟨"e"⟩, "B"), (⟨"h"⟩, "H")], changes, ?_, h, rfl⟩
  exact eq_ok_of_toOption (by decide +kernel)

/-- The store once `y` has another value and `x` has been removed. -/
def keptStore : DataModel :=
  driftStore.after [.setField ⟨"e"⟩ "y" (.num (.int 2)), .clearField ⟨"e"⟩ "x"]

/-- With another value of `y` the entity still fits its own kind only, and the store can be
reopened. -/
theorem keptStore_reopened :
    keptStore.Edited ∧ keptStore.WellTyped ∧ keptStore.Undiverted ∧ keptStore.isValid ∧
      (∀ mint, ((empty keptStore.schema mint).tryInit keptStore.entities).1 =
        .ok keptStore.kinds) ∧
      ∀ client : Client, client.schema = keptStore.schema →
        ∃ rebuilt, client.rebuild keptStore.entities = .ok rebuilt ∧
          rebuilt.kinds = keptStore.kinds ∧ rebuilt.entities = keptStore.entities := by
  have hedited : keptStore.Edited := edited_driftStore _ (by decide)
  obtain ⟨htyped, hreopens, hclients, -⟩ := reopens_iff_undiverted hedited
  have hu : keptStore.Undiverted := by
    rw [← hreopens keptStore.mint, fst_tryInit]
    exact eq_ok_of_toOption (by decide +kernel)
  obtain ⟨hvalid, hrebuild⟩ := hclients hu
  exact ⟨hedited, htyped, hu, hvalid, fun mint => (hreopens mint).2 hu, hrebuild⟩

/-- The store once `y` has been removed. -/
def driftedStore : DataModel := driftStore.after [.clearField ⟨"e"⟩ "y"]

/-- Without `y` the entity is taken for the first kind, so that the one that points at it fits none,
and the store cannot be reopened. -/
theorem driftedStore_not_reopened :
    driftedStore.Edited ∧ driftedStore.isValid = false ∧
      ∀ mint, ((empty driftedStore.schema mint).tryInit driftedStore.entities).1 =
        .error ⟨"h"⟩ := by
  have hvalid : driftedStore.isValid = false := by decide +kernel
  refine ⟨edited_driftStore _ (by decide), hvalid, fun mint => ?_⟩
  rw [fst_tryInit]
  have hfailed : (match driftedStore.validator.assign with
      | .error id => some id
      | .ok _ => none) = some ⟨"h"⟩ := by decide +kernel
  show driftedStore.validator.assign = .error ⟨"h"⟩
  revert hfailed
  cases driftedStore.validator.assign with
  | error id =>
    intro h
    exact congrArg Except.error (Option.some.inj h)
  | ok index =>
    intro h
    cases h

end DataModel

end TypedGraph
