import TypedGraph.Proofs.Json.Canonical
import TypedGraph.Proofs.Store.Reopening

/-!
# Stores Written as Untyped Objects

The members of an untyped object are sorted, so that a graph that goes through one comes back with
the same entities sorted by id. Every entity still conforms to the kind that it had. But validation
visits the entities in the order of the graph, and the first kind that fits an entity depends on
what has been visited before, so that another order can lead to other kinds, or to none for some
entity. The graph itself keeps its order, and is taken over with the kinds that it had.

## Main definitions

* `EntityGraph.sorted`: the entities sorted by id;
* `KindIndex.along`: the kinds of an index in the order of a graph.

## Main results

* `EntityGraph.perm_sorted` and `EntityGraph.sorted_of_increasing`: sorting reorders the entities,
  and keeps the order of ids that increase already;
* `Validator.Undiverted.congr`: whether a search is diverted does not depend on the order of the
  index;
* `Validator.exists_assign_iff_undiverted`: when the search gives the kinds that a graph has in
  another order;
* `DataModel.readsBack_iff_undivertedSorted`: when a store that goes through an untyped object comes
  back with the same kinds.
-/

namespace TypedGraph

/-! ## Sorted Graphs -/

namespace EntityGraph

variable {graph : EntityGraph}

/-- The entities of a graph, sorted by id. -/
def sorted (graph : EntityGraph) : EntityGraph := ofMembers (Json.sortMembers graph.members)

/-- A graph comes back sorted from an untyped object. -/
theorem ofJson?_toJson (graph : EntityGraph) : ofJson? graph.toJson = some graph.sorted := rfl

theorem nodup_keys_members (graph : EntityGraph) : (graph.members.map Prod.fst).Nodup := by
  have hkeys : graph.members.map Prod.fst = graph.keys.map EntityId.text := by
    rw [members, OrderedMap.keys, List.map_map, List.map_map]
    rfl
  rw [hkeys]
  refine graph.keys_nodup.map fun a b hab => ?_
  cases a
  exact congrArg EntityId.mk hab

theorem members_sorted (graph : EntityGraph) :
    graph.sorted.members = Json.sortMembers graph.members :=
  members_ofMembers (Json.increasing_sortMembers _).nodup_keys

/-- Ids increase in a sorted graph. -/
theorem increasing_sorted (graph : EntityGraph) : Json.Increasing graph.sorted.members := by
  rw [members_sorted]
  exact Json.increasing_sortMembers _

/-- A graph is made up of its members. -/
theorem ofMembers_members (graph : EntityGraph) : ofMembers graph.members = graph := by
  have hentries : (graph.members.map fun m => ((⟨m.1⟩ : EntityId), m.2)) = graph.entries := by
    rw [members, List.map_map]
    exact List.map_id graph.entries
  rw [ofMembers, hentries]
  exact OrderedMap.ofList_entries graph

/-- A graph whose ids increase is sorted already. -/
theorem sorted_of_increasing (h : Json.Increasing graph.members) : graph.sorted = graph := by
  rw [sorted, Json.sortMembers_of_increasing h, ofMembers_members]

theorem lookup_members (graph : EntityGraph) (id : EntityId) :
    Json.lookup graph.members id.text = graph.get? id := by
  let byText : OrderedMap String Json := ⟨graph.members, graph.nodup_keys_members⟩
  show byText.get? id.text = graph.get? id
  ext entity
  rw [OrderedMap.get?_eq_some_iff, OrderedMap.get?_eq_some_iff]
  constructor
  · intro h
    obtain ⟨⟨⟨text⟩, e⟩, he, heq⟩ := List.mem_map.1 h
    cases heq
    exact he
  · exact fun h => List.mem_map.2 ⟨_, h, rfl⟩

/-- Sorting a graph keeps the entity under each id. -/
theorem get?_sorted (graph : EntityGraph) (id : EntityId) :
    graph.sorted.get? id = graph.get? id := by
  rw [← lookup_members, ← lookup_members, members_sorted]
  exact Json.lookup_sortMembers ⟨graph.members, graph.nodup_keys_members⟩ id.text

/-- Sorting a graph reorders its entities. -/
theorem perm_sorted (graph : EntityGraph) : graph.entries.Perm graph.sorted.entries := by
  refine (List.perm_ext_iff_of_nodup (.of_map _ graph.nodup_keys)
    (.of_map _ graph.sorted.nodup_keys)).2 fun e => ?_
  rw [← OrderedMap.get?_eq_some_iff, ← OrderedMap.get?_eq_some_iff, get?_sorted]

end EntityGraph

/-! ## Searches in Another Order -/

/-- The kinds of an index in the order of a graph. -/
def KindIndex.along (index : KindIndex) (graph : EntityGraph) : KindIndex :=
  (Assignment.ofIndex index).toIndex graph

namespace KindIndex

variable {index : KindIndex} {graph : EntityGraph}

theorem get?_along (h : ∀ id, id ∈ graph.ids ↔ id ∈ index.keys) (id : EntityId) :
    (index.along graph).get? id = index.get? id := by
  rw [along, Assignment.get?_toIndex, Assignment.kind?_ofIndex]
  by_cases hid : graph.contains id
  · rw [if_pos hid]
  · rw [OrderedMap.contains_iff, ← EntityGraph.ids, h] at hid
    rw [OrderedMap.get?_eq_none_iff.2 hid, ite_self]

theorem keys_along (h : ∀ id, id ∈ graph.ids ↔ id ∈ index.keys) :
    (index.along graph).keys = graph.ids := by
  refine Assignment.keys_toIndex fun id hid => ?_
  obtain ⟨kind, hkind⟩ := OrderedMap.mem_keys_iff.1 ((h id).1 hid)
  exact ⟨kind, (Assignment.kind?_ofIndex index id).trans hkind⟩

end KindIndex

namespace Validator

variable {v : Validator} {index index' : KindIndex}

/-- Only the kinds that an index gives matter, not their order. -/
theorem Undiverted.congr (hget : ∀ id, index.get? id = index'.get? id) (h : v.Undiverted index) :
    v.Undiverted index' := by
  have hplan : index.get? = index'.get? := funext hget
  unfold Undiverted at h ⊢
  rwa [← hplan]

/-- The entities in another order get the kinds of a consistent index exactly if nothing diverts the
search from it. -/
theorem exists_assign_iff_undiverted {schema : Schema} {graph graph' : EntityGraph}
    (hperm : graph.entries.Perm graph'.entries) (hindex : index.keys = graph.ids)
    (hloose : LooseTyping schema graph (KindIndex.typing index)) :
    (∃ index', (Validator.of schema graph').assign = .ok index' ∧
        ∀ id, index'.get? id = index.get? id) ↔
      (Validator.of schema graph').Undiverted index := by
  have hids (id : EntityId) : id ∈ graph'.ids ↔ id ∈ index.keys := by
    rw [hindex]
    exact (hperm.map Prod.fst).mem_iff.symm
  -- the index is brought into the order of the graph, where it is consistent as well
  have hget := KindIndex.get?_along hids
  have hkeys : (index.along graph').keys = graph'.ids := KindIndex.keys_along hids
  have halong : LooseTyping schema graph' (KindIndex.typing (index.along graph')) := by
    intro id kind hkind
    have hconforms := hloose id kind ((hget id).symm.trans hkind)
    refine (hconforms.of_reorders (.refl schema) hperm).mono fun j k hjk => ?_
    exact (hget j).trans hjk
  have hiff := assign_eq_ok_iff_undiverted (v := .of schema graph') hkeys halong
  constructor
  · rintro ⟨index', hassign, hget'⟩
    have heq : index' = index.along graph' :=
      OrderedMap.ext_get? ((keys_of_assign hassign).trans hkeys.symm) fun id =>
        (hget' id).trans (hget id).symm
    exact (hiff.1 (heq ▸ hassign)).congr hget
  · intro hu
    exact ⟨_, hiff.2 (hu.congr fun id => (hget id).symm), hget⟩

end Validator

/-! ## Stores -/

namespace DataModel

variable {m : DataModel}

/-- A fresh store takes over the untyped object of the store, and gives every entity the kind that
it has in the store. -/
def ReadsBack (m : DataModel) (mint : IdMint) : Prop :=
  ∃ index, ((empty m.schema mint).initJson m.toJson).1 = some index ∧
    ∀ id, index.get? id = m.kinds.get? id

/-- Nothing diverts the search over the sorted entities from the kinds that they have in the
store. -/
def UndivertedSorted (m : DataModel) : Prop :=
  (Validator.of m.schema m.entities.sorted).Undiverted m.kinds

theorem fst_init (m : DataModel) (graph : EntityGraph) :
    (m.init graph).1 = (Validator.of m.schema graph).assign.toOption := by
  show (m.tryInit graph).1.toOption = _
  rw [fst_tryInit]

/-- A store takes over the untyped object of a graph with the kinds that a search gives the sorted
entities. -/
theorem fst_initJson_toJson (m : DataModel) (graph : EntityGraph) :
    (m.initJson graph.toJson).1 = (Validator.of m.schema graph.sorted).assign.toOption :=
  fst_init m graph.sorted

/-- A store that has taken over a graph. -/
theorem init_of_eq_some {graph : EntityGraph} {index : KindIndex}
    (h : (m.init graph).1 = some index) :
    (Validator.of m.schema graph).assign = .ok index ∧ (m.init graph).2.schema = m.schema ∧
      (m.init graph).2.entities = graph ∧ (m.init graph).2.kinds = index := by
  rw [fst_init] at h
  have hassign := eq_ok_of_toOption h
  rw [init, tryInit_of_ok hassign]
  exact ⟨hassign, rfl, rfl, rfl⟩

/-- A consistent store reads back with its kinds exactly if nothing diverts the search. -/
theorem readsBack_iff_of_consistent (h : m.Consistent) (mint : IdMint) :
    m.ReadsBack mint ↔ m.UndivertedSorted := by
  refine Iff.trans ?_ (Validator.exists_assign_iff_undiverted m.entities.perm_sorted h.keys
    (looseTyping_of_consistent h))
  have hinit := fst_initJson_toJson (empty m.schema mint) m.entities
  constructor
  · rintro ⟨index, hindex, hget⟩
    exact ⟨index, eq_ok_of_toOption (hinit.symm.trans hindex), hget⟩
  · rintro ⟨index, hassign, hget⟩
    refine ⟨index, hinit.trans ?_, hget⟩
    exact congrArg Except.toOption hassign

/-- Nothing diverts the search over the sorted entities if no entity can be two kinds. -/
theorem undivertedSorted_of_unambiguous (h : m.Consistent) (hu : Unambiguous m.schema m.entities) :
    m.UndivertedSorted := by
  refine (Validator.exists_assign_iff_undiverted m.entities.perm_sorted h.keys
    (looseTyping_of_consistent h)).1 ?_
  have hassign : m.validator.assign = .ok m.kinds :=
    (assign_validator_iff h).2 (undiverted_of_unambiguous h hu)
  have hsame := sameOutcome_of_reorders hu (.refl m.schema) m.entities.perm_sorted
  change SameOutcome m.validator.assign _ at hsame
  rw [hassign] at hsame
  cases hsame' : (Validator.of m.schema m.entities.sorted).assign with
  | ok index =>
    rw [hsame'] at hsame
    cases hsame with
    | ok hget => exact ⟨index, rfl, fun id => (hget id).symm⟩
  | error id =>
    rw [hsame'] at hsame
    cases hsame

/-- Nothing diverts the search if sorting leaves the entities where they are. -/
theorem undivertedSorted_of_increasing {graph : EntityGraph} {index : KindIndex}
    (h : (m.init graph).1 = some index) (hsorted : Json.Increasing graph.members) :
    (m.init graph).2.UndivertedSorted := by
  obtain ⟨hassign, hschema, hentities, hkinds⟩ := init_of_eq_some h
  rw [UndivertedSorted, hschema, hentities, hkinds, EntityGraph.sorted_of_increasing hsorted]
  exact (Validator.assign_eq_ok_iff_undiverted (Validator.keys_of_assign hassign)
    (Validator.looseTyping_of_assign hassign)).1 hassign

/-- When a store that has taken over a graph reads back with the same kinds. Its untyped object
holds the same entities sorted by id, and the kinds come back exactly if nothing diverts the search
over them. This is so if no entity can be two kinds, and if the ids were sorted already. The graph
in its own order is always taken over with the same kinds. -/
theorem readsBack_iff_undivertedSorted {m₀ : DataModel} {graph : EntityGraph} {index : KindIndex}
    (h : (m₀.init graph).1 = some index) :
    let m := (m₀.init graph).2
    m.schema = m₀.schema ∧ m.entities = graph ∧ m.kinds = index ∧
    EntityGraph.ofJson? m.toJson = some graph.sorted ∧
    graph.entries.Perm graph.sorted.entries ∧ Json.Increasing graph.sorted.members ∧
    (∀ mint, m.ReadsBack mint ↔ m.UndivertedSorted) ∧
    (Unambiguous m.schema graph → m.UndivertedSorted) ∧
    (Json.Increasing graph.members → m.UndivertedSorted) ∧
    ∀ mint, ((empty m.schema mint).init m.entities).1 = some index := by
  intro m
  obtain ⟨hassign, hschema, hentities, hkinds⟩ := init_of_eq_some h
  have hconsistent : m.Consistent :=
    (consistent_of_tryInit ((fst_tryInit m₀ graph).trans hassign)).1
  refine ⟨hschema, hentities, hkinds, ?_, graph.perm_sorted, graph.increasing_sorted,
    readsBack_iff_of_consistent hconsistent, fun hu => ?_, undivertedSorted_of_increasing h,
    fun mint => ?_⟩
  · rw [toJson, hentities]
    exact graph.ofJson?_toJson
  · exact undivertedSorted_of_unambiguous hconsistent (hentities.symm ▸ hu)
  · rw [fst_init, hentities]
    show (Validator.of m.schema graph).assign.toOption = _
    rw [hschema, hassign]
    rfl

/-- A holder that comes before the entity that it points at, with a note between them that fits the
first two kinds of the schema. -/
def lateGraph : EntityGraph := .ofMembers [
  ("h", .obj [("r", RefToken.toJson ⟨⟨"e"⟩⟩)]),
  ("n", .obj [("x", .str "note")]),
  ("e", .obj [("y", .num (.int 1))])]

/-- The index of the holder, the note and the entity. -/
def lateIndex : KindIndex := .ofList [(⟨"h"⟩, "H"), (⟨"n"⟩, "A"), (⟨"e"⟩, "B")]

/-- The entity fits the second kind only, so that it gets this kind also where it comes first. -/
theorem readsBack_late :
    let m := ((empty driftSchema (.ofStem IdMint.defaultStem)).init lateGraph).2
    ((empty driftSchema (.ofStem IdMint.defaultStem)).init lateGraph).1 = some lateIndex ∧
      ¬ Json.Increasing lateGraph.members ∧ m.UndivertedSorted ∧ ∀ mint, m.ReadsBack mint := by
  intro m
  have hinit : ((empty driftSchema (.ofStem IdMint.defaultStem)).init lateGraph).1 =
      some lateIndex := by decide +kernel
  obtain ⟨hschema, hentities, hkinds, -, -, -, hreads, -, -, -⟩ :=
    readsBack_iff_undivertedSorted hinit
  have hfresh : m.ReadsBack m.mint := by
    refine ⟨.ofList [(⟨"e"⟩, "B"), (⟨"h"⟩, "H"), (⟨"n"⟩, "A")], by decide +kernel, fun id => ?_⟩
    rw [hkinds]
    refine get?_of_perm ?_ id
    decide +kernel
  have hu := (hreads m.mint).1 hfresh
  exact ⟨hinit, by decide +kernel, hu, fun mint => (hreads mint).2 hu⟩

/-- A holder before the entity that it points at, which fits both kinds before the holder's. -/
def bareGraph : EntityGraph := .ofMembers [
  ("h", .obj [("r", RefToken.toJson ⟨⟨"e"⟩⟩)]),
  ("e", .obj [])]

/-- The index of the holder and the entity. -/
def bareIndex : KindIndex := .ofList [(⟨"h"⟩, "H"), (⟨"e"⟩, "B")]

/-- A schema in which holders prefer entities of the second kind to those of the first one. -/
def choiceSchema : Schema := .ofKinds [
  ("A", .ofFields [("x", .optional .string), ("z", .optional .string)]),
  ("B", .ofFields [("x", .optional .string), ("y", .optional .number)]),
  ("H", .ofFields [("r", .ref ["B", "A"])])]

/-- The store of a schema that is asked for the bare graph. -/
def bareStore (schema : Schema) : Option KindIndex × DataModel :=
  (empty schema (.ofStem IdMint.defaultStem)).init bareGraph

/-- Where the entity comes first, it is taken for the first kind. Then the holder fits no kind, or
it makes do with the first kind, so that the store does not read back, or not with the same
kinds. -/
theorem not_readsBack_bare :
    (bareStore driftSchema).1 = some bareIndex ∧
    (∀ mint, ((empty driftSchema mint).initJson (bareStore driftSchema).2.toJson).1 = none) ∧
    (bareStore choiceSchema).1 = some bareIndex ∧
    (∀ mint, ((empty choiceSchema mint).initJson (bareStore choiceSchema).2.toJson).1 =
      some (.ofList [(⟨"e"⟩, "A"), (⟨"h"⟩, "H")])) ∧
    ¬ ∀ (m : DataModel) (graph : EntityGraph) (index : KindIndex) (mint : IdMint),
      (m.init graph).1 = some index → (m.init graph).2.ReadsBack mint := by
  have hkept : (bareStore driftSchema).1 = some bareIndex := by decide +kernel
  have hrefused (mint : IdMint) :
      ((empty driftSchema mint).initJson (bareStore driftSchema).2.toJson).1 = none := by
    rw [toJson, fst_initJson_toJson]
    show (Validator.of driftSchema (bareStore driftSchema).2.entities.sorted).assign.toOption = none
    decide +kernel
  refine ⟨hkept, hrefused, by decide +kernel, fun mint => ?_, fun hall => ?_⟩
  · rw [toJson, fst_initJson_toJson]
    show (Validator.of choiceSchema (bareStore choiceSchema).2.entities.sorted).assign.toOption = _
    decide +kernel
  · have hreads : (bareStore driftSchema).2.ReadsBack (.ofStem IdMint.defaultStem) :=
      hall _ bareGraph bareIndex _ hkept
    obtain ⟨index, hindex, -⟩ := hreads
    have hschema : (bareStore driftSchema).2.schema = driftSchema := (init_of_eq_some hkept).2.1
    rw [hschema, hrefused] at hindex
    cases hindex

end DataModel

end TypedGraph
