import TypedGraph.Proofs.Store.Edits
import TypedGraph.Proofs.Store.Minting
import TypedGraph.Proofs.Validation.Soundness

/-!
# Coherence of Stores

A store keeps its entities and their kinds in two maps, which have to have the same ids in the same
order. Whatever a store is asked for keeps them so: a new entity goes last in both maps, a whole
graph comes with an index that has its ids in order, and edits leave the ids alone. A graph is taken
over as a whole or not at all.

The entities of a store need not conform to their kinds here, as new entities are put in without
validation.

## Main definitions

* `DataModel.Coherent`: the entities of a store are those that have kinds, in the same order;
* `DataModel.Arises`: the stores over a schema, whatever they have been asked for;
* `DataModel.TakenOver`: the store has taken over a graph;
* `DataModel.Attempted`: the graph has been taken over, or nothing has changed.

## Main results

* `DataModel.coherent_of_arises`: all stores are coherent, and their entities canonical;
* `DataModel.permits_iff_conforms`: a coherent store permits an edit exactly if the content conforms
  to what is declared, under the kinds of the store;
* `DataModel.coherent_and_atomic`: coherence, and what comes of attempts to take over a graph.
-/

namespace TypedGraph

namespace EntityGraph

variable {members : List (String × Json)}

/-- Members with different keys are taken over as they stand. -/
theorem members_ofMembers (h : (members.map Prod.fst).Nodup) :
    (ofMembers members).members = members := by
  have hids : ((members.map fun m => ((⟨m.1⟩ : EntityId), m.2)).map Prod.fst).Nodup := by
    rw [List.map_map]
    have hmap := h.map (f := EntityId.mk) fun a b hab => congrArg EntityId.text hab
    rwa [List.map_map] at hmap
  rw [EntityGraph.members, ofMembers, OrderedMap.entries_ofList_of_nodup hids, List.map_map]
  exact List.map_id members

/-- The graph of canonical members with different keys has canonical entities. -/
theorem canonical_ofMembers (hkeys : (members.map Prod.fst).Nodup)
    (h : Json.CanonicalMembers members) : (ofMembers members).Canonical := by
  intro id entity hget
  have hmem : (id.text, entity) ∈ (ofMembers members).members :=
    List.mem_map.2 ⟨(id, entity), OrderedMap.get?_eq_some_iff.1 hget, rfl⟩
  rw [members_ofMembers hkeys] at hmem
  exact Json.canonicalMembers_iff.1 h _ hmem

theorem Canonical.insert {graph : EntityGraph} {id : EntityId} {entity : Json}
    (h : graph.Canonical) (hentity : entity.Canonical) :
    EntityGraph.Canonical (OrderedMap.insert graph id entity) := by
  intro j e hget
  rw [OrderedMap.get?_insert] at hget
  split at hget
  · cases hget
    exact hentity
  · exact h j e hget

end EntityGraph

namespace DataModel

variable {schema : Schema} {m m' : DataModel} {e : Edit}

/-- The entities of the store are those that have kinds, in the same order. -/
def Coherent (m : DataModel) : Prop := m.kinds.keys = m.entities.ids

/-! ## Values That Are Accepted -/

/-- A coherent store accepts a value exactly if it conforms under the kinds of the store. All
entities have kinds already, so that none of them is looked into. -/
theorem accepts_iff_conforms (h : m.Coherent) {d : Descriptor} {value : Json} :
    m.accepts d value ↔ Conforms m.entities (KindIndex.typing m.kinds) d (some value) := by
  have htyping : (Assignment.ofIndex m.kinds).typing = KindIndex.typing m.kinds := by
    funext id kind
    rw [Assignment.typing, Assignment.kind?_ofIndex, KindIndex.typing]
  rw [← htyping]
  -- the entities of the graph are those that have kinds, so that the search opens none of them
  refine Validator.fst_matchValue_iff_of_known (v := m.validator) fun id hid => ?_
  rw [OrderedMap.contains_iff] at hid
  rw [Assignment.kind?_ofIndex]
  refine OrderedMap.mem_keys_iff.1 ?_
  rw [h]
  exact hid

/-- In a coherent store a field may hold exactly what conforms to its descriptor. -/
theorem suits_iff_conforms (h : m.Coherent) {d : Descriptor} {content : Option Json} :
    m.suits d content ↔ Conforms m.entities (KindIndex.typing m.kinds) d content := by
  cases content with
  | some value => exact accepts_iff_conforms h
  | none =>
    constructor
    · intro hoptional
      cases d with
      | optional d => exact .absent
      | _ => cases hoptional
    · rintro ⟨⟩
      rfl

/-- A coherent store permits an edit exactly if the entity has a kind that declares the field, it is
an object, and the content conforms under the kinds of the store. -/
theorem permits_iff_conforms (h : m.Coherent) :
    m.Permits e ↔ ∃ kind d members, m.kindOf? e.id = some kind ∧
      m.schema.field? kind e.field = some d ∧ m.entities.get? e.id = some (.obj members) ∧
      Conforms m.entities (KindIndex.typing m.kinds) d e.content := by
  constructor
  · rintro ⟨d, members, hd, hsuits, hmembers⟩
    obtain ⟨kind, hkind, hfield⟩ := Option.bind_eq_some_iff.1 hd
    exact ⟨kind, d, members, hkind, hfield, membersOf?_eq_some_iff.1 hmembers,
      (suits_iff_conforms h).1 hsuits⟩
  · rintro ⟨kind, d, members, hkind, hfield, hmembers, hconforms⟩
    exact ⟨d, members, Option.bind_eq_some_iff.2 ⟨kind, hkind, hfield⟩,
      (suits_iff_conforms h).2 hconforms, membersOf?_eq_some_iff.2 hmembers⟩

/-! ## One Change -/

theorem coherent_empty (schema : Schema) (mint : IdMint) : (empty schema mint).Coherent := rfl

/-- A new entity goes last in both maps; should no id be left for it, it takes the place of another
one in both. -/
theorem coherent_create (h : m.Coherent) (kind : String) (value : Json) :
    (m.create kind value).2.Coherent := by
  have hkeys : m.kinds.keys = m.entities.keys := h
  -- whether the id is new or not, it is so for both maps
  have hcontains : m.kinds.contains m.newId = m.entities.contains m.newId := by
    rw [Bool.eq_iff_iff, OrderedMap.contains_iff, OrderedMap.contains_iff, hkeys]
  rw [Coherent, kinds_create, entities_create, EntityGraph.ids, OrderedMap.keys_insert,
    OrderedMap.keys_insert, hcontains, hkeys]

theorem Alike.coherent (halike : m.Alike m') (h : m.Coherent) : m'.Coherent := by
  rw [Coherent, halike.kinds, halike.ids]
  exact h

/-- The second store is the first one once it has taken over a graph. -/
structure TakenOver (m : DataModel) (graph : EntityGraph) (index : KindIndex) (m' : DataModel) :
    Prop where
  /-- The search over the graph gives its entities the kinds of the index. -/
  assigned : (Validator.of m.schema graph).assign = .ok index
  schema : m'.schema = m.schema
  entities : m'.entities = graph
  kinds : m'.kinds = index
  stem : m'.mint.stem = m.mint.stem
  /-- The counter of new ids has not gone back. -/
  next_le : m.mint.next ≤ m'.mint.next

/-- What comes of an attempt to take over a graph, if there is one: the index and the store then. -/
inductive Attempted (m : DataModel) (graph? : Option EntityGraph) :
    Option KindIndex → DataModel → Prop where
  /-- There is no graph, or its search fails, and the store is what it was. -/
  | refused (h : ∀ graph index, graph? = some graph →
      (Validator.of m.schema graph).assign ≠ .ok index) : Attempted m graph? none m
  /-- The graph has been taken over with the index. -/
  | taken {graph : EntityGraph} {index : KindIndex} {m' : DataModel} (hgraph : graph? = some graph)
    (h : m.TakenOver graph index m') : Attempted m graph? (some index) m'

theorem attempted_tryInit (m : DataModel) (graph : EntityGraph) :
    m.Attempted (some graph) (m.tryInit graph).1.toOption (m.tryInit graph).2 := by
  cases hassign : (Validator.of m.schema graph).assign with
  | ok index =>
    rw [tryInit_of_ok hassign]
    exact .taken rfl ⟨hassign, rfl, rfl, rfl, m.mint.stem_foldl_observe _,
      m.mint.next_le_foldl_observe _⟩
  | error id =>
    rw [tryInit_of_error hassign]
    refine .refused fun graph' index hgraph hok => ?_
    cases hgraph
    cases hassign.symm.trans hok

theorem attempted_init (m : DataModel) (graph : EntityGraph) :
    m.Attempted (some graph) (m.init graph).1 (m.init graph).2 :=
  m.attempted_tryInit graph

theorem attempted_initJson (m : DataModel) (value : Json) :
    m.Attempted (EntityGraph.ofJson? value) (m.initJson value).1 (m.initJson value).2 := by
  unfold initJson
  cases EntityGraph.ofJson? value with
  | some graph => exact m.attempted_init graph
  | none => exact .refused nofun

theorem Attempted.coherent {graph? : Option EntityGraph} {index? : Option KindIndex}
    (hattempted : m.Attempted graph? index? m') (h : m.Coherent) : m'.Coherent := by
  cases hattempted with
  | refused _ => exact h
  | taken _ htaken =>
    rw [Coherent, htaken.kinds, htaken.entities]
    exact Validator.keys_of_assign htaken.assigned

theorem Attempted.schema_eq {graph? : Option EntityGraph} {index? : Option KindIndex}
    (hattempted : m.Attempted graph? index? m') : m'.schema = m.schema := by
  cases hattempted with
  | refused _ => rfl
  | taken _ htaken => exact htaken.schema

theorem Attempted.canonical {graph? : Option EntityGraph} {index? : Option KindIndex}
    (hattempted : m.Attempted graph? index? m') (h : m.entities.Canonical)
    (hgraph : ∀ graph, graph? = some graph → graph.Canonical) : m'.entities.Canonical := by
  cases hattempted with
  | refused _ => exact h
  | taken hsome htaken =>
    rw [htaken.entities]
    exact hgraph _ hsome

/-! ## Whole Runs -/

/-- The values that a change brings along are canonical, as untyped values are by their making. -/
def Change.Canonical : Change → Prop
  | .create _ value => value.Canonical
  | .init graph => graph.Canonical
  | .initJson value => value.Canonical
  | .setField _ _ value => value.Canonical
  | .clearField _ _ => True

/-- The stores over a schema: those that come of the empty store by any changes, be they taken or
refused. -/
inductive Arises (schema : Schema) : DataModel → Prop
  | empty (mint : IdMint) : Arises schema (empty schema mint)
  | tryInit {m : DataModel} (h : Arises schema m) (graph : EntityGraph) (hgraph : graph.Canonical) :
    Arises schema (m.tryInit graph).2
  | change {m : DataModel} (h : Arises schema m) (c : Change) (hc : c.Canonical) :
    Arises schema (m.change c).2

/-- An edit that brings canonical values along keeps canonical entities canonical. -/
theorem canonical_edit (h : m.entities.Canonical)
    (hcontent : ∀ value, e.content = some value → value.Canonical) :
    (m.edit e).2.entities.Canonical := by
  rcases edit_cases m e with ⟨d, members, -, -, hget, hedit⟩ | ⟨-, hedit⟩
  · rw [hedit]
    obtain ⟨hincreasing, hvalues⟩ : (Json.obj members).Canonical := h _ _ hget
    rw [Json.canonicalMembers_iff] at hvalues
    refine EntityGraph.Canonical.insert h ⟨e.increasing_revise hincreasing, ?_⟩
    rw [Json.canonicalMembers_iff]
    intro member hmember
    rcases Edit.mem_revise hmember with hold | ⟨-, hnew⟩
    · exact hvalues member hold
    · exact hcontent _ hnew
  · rw [hedit]
    exact h

/-- A change keeps a store coherent and its entities canonical, over the same schema. -/
theorem coherent_change {c : Change} (h : m.Coherent) (hcanonical : m.entities.Canonical)
    (hc : c.Canonical) :
    (m.change c).2.Coherent ∧ (m.change c).2.entities.Canonical ∧
      (m.change c).2.schema = m.schema := by
  have hedit (e : Edit) (hcontent : ∀ value, e.content = some value → value.Canonical) :
      (m.edit e).2.Coherent ∧ (m.edit e).2.entities.Canonical ∧ (m.edit e).2.schema = m.schema :=
    ⟨(alike_edit m e).coherent h, canonical_edit hcanonical hcontent, (alike_edit m e).schema⟩
  cases c with
  | create kind value =>
    exact ⟨coherent_create h kind value, hcanonical.insert hc, rfl⟩
  | init graph =>
    have hattempted := m.attempted_init graph
    refine ⟨hattempted.coherent h, hattempted.canonical hcanonical ?_, hattempted.schema_eq⟩
    rintro _ ⟨⟩
    exact hc
  | initJson value =>
    have hattempted := m.attempted_initJson value
    refine ⟨hattempted.coherent h, hattempted.canonical hcanonical fun graph hgraph => ?_,
      hattempted.schema_eq⟩
    cases value with
    | obj members =>
      cases hgraph
      exact EntityGraph.canonical_ofMembers hc.1.nodup_keys hc.2
    | _ => cases hgraph
  | setField id field value =>
    refine hedit ⟨id, field, some value⟩ ?_
    rintro _ ⟨⟩
    exact hc
  | clearField id field => exact hedit ⟨id, field, none⟩ nofun

/-- All stores are coherent, and their entities canonical. -/
theorem coherent_of_arises (h : Arises schema m) :
    m.Coherent ∧ m.entities.Canonical ∧ m.schema = schema := by
  -- on how the store has arisen; a change is asked of a store that is coherent already
  induction h with
  | empty mint => exact ⟨coherent_empty schema mint, nofun, rfl⟩
  | @tryInit m _ graph hgraph ih =>
    obtain ⟨hcoherent, hcanonical, hschema⟩ := ih
    have hattempted := m.attempted_tryInit graph
    refine ⟨hattempted.coherent hcoherent, hattempted.canonical hcanonical ?_,
      hattempted.schema_eq.trans hschema⟩
    rintro _ ⟨⟩
    exact hgraph
  | change _ c hc ih =>
    obtain ⟨hcoherent, hcanonical, hschema⟩ := ih
    obtain ⟨hcoherent', hcanonical', hschema'⟩ := coherent_change hcoherent hcanonical hc
    exact ⟨hcoherent', hcanonical', hschema'.trans hschema⟩

/-- What arises from a store by changes arises as well. -/
theorem Arises.after {changes : List Change} (h : Arises schema m)
    (hchanges : ∀ c ∈ changes, c.Canonical) : Arises schema (m.after changes) := by
  induction changes generalizing m with
  | nil => exact h
  | cons c changes ih =>
    obtain ⟨hc, hrest⟩ := List.forall_mem_cons.1 hchanges
    exact ih (h.change c hc) hrest

/-- An untyped value that is taken over as a graph is an object, and its members are the
entities. -/
theorem members_initJson {value : Json} (hvalue : value.Canonical)
    (h : (m.initJson value).1.isSome) :
    value.members? = some (m.initJson value).2.entities.members := by
  cases value with
  | obj members =>
    have hattempted := m.attempted_initJson (.obj members)
    generalize m.initJson (.obj members) = out at h hattempted
    cases hindex : out.1 with
    | none =>
      rw [hindex] at h
      cases h
    | some index =>
      rw [hindex] at hattempted
      cases hattempted with
      | taken hgraph htaken =>
        cases hgraph
        rw [htaken.entities, EntityGraph.members_ofMembers hvalue.1.nodup_keys]
        rfl
  | _ => cases h

/-- The entities of every store are those that have kinds, each once and in the same order. An
attempt to take over a graph is refused and leaves the store as it was, or it makes the graph and
its index those of the store without moving the counter of new ids back. Values that are no objects
are refused, and the members of an object that is not refused are the entities. -/
theorem coherent_and_atomic (h : Arises schema m) :
    m.schema = schema ∧ m.kinds.keys = m.entities.ids ∧ m.entities.ids.Nodup ∧
    (∀ graph, m.Attempted (some graph) (m.tryInit graph).1.toOption (m.tryInit graph).2) ∧
    (∀ graph, m.Attempted (some graph) (m.init graph).1 (m.init graph).2) ∧
    (∀ value, m.Attempted (EntityGraph.ofJson? value) (m.initJson value).1 (m.initJson value).2) ∧
    (∀ value, value.members? = none → m.initJson value = (none, m)) ∧
    ∀ value, value.Canonical → (m.initJson value).1.isSome →
      value.members? = some (m.initJson value).2.entities.members := by
  obtain ⟨hcoherent, -, hschema⟩ := coherent_of_arises h
  refine ⟨hschema, hcoherent, m.entities.keys_nodup, m.attempted_tryInit, m.attempted_init,
    m.attempted_initJson, fun value hvalue => ?_, fun value hvalue hsome =>
    members_initJson hvalue hsome⟩
  cases value with
  | obj members => cases hvalue
  | _ => rfl

/-- A schema of shelves and the books on them. -/
def shelfSchema : Schema := .ofKinds [
  ("Book", .ofFields [("title", .string)]),
  ("Shelf", .ofFields [("best", .optional (.ref ["Book"])), ("rest", .arrayOf (.ref ["Book"]))])]

/-- A shelf with one book. -/
def shelfGraph : EntityGraph := .ofMembers [
  ("s", .obj [("rest", .arr [RefToken.toJson ⟨⟨"b"⟩⟩])]),
  ("b", .obj [("title", .str "Atlas")])]

/-- A new entity of no use, a whole graph in its place, a value that is no graph and a graph that
does not fit, a new book, and edits of the shelf, of which the one with itself as its best book is
refused. -/
def shelfChanges : List Change := [
  .create "Shelf" .null,
  .init shelfGraph,
  .initJson .null,
  .initJson (.obj [("x", .null)]),
  .create "Book" (.obj [("title", .str "Almanac")]),
  .setField ⟨"s"⟩ "best" (RefToken.toJson ⟨⟨"$1"⟩⟩),
  .setField ⟨"s"⟩ "best" (RefToken.toJson ⟨⟨"s"⟩⟩),
  .setField ⟨"s"⟩ "rest" (.arr [])]

/-- An empty store after all of these. -/
def shelfStore : DataModel := (empty shelfSchema (.ofStem IdMint.defaultStem)).after shelfChanges

theorem arises_shelfStore : Arises shelfSchema shelfStore := by
  have hgraph : shelfGraph.Canonical :=
    EntityGraph.canonical_ofMembers (by decide) (by simp [Json.CanonicalMembers, Json.Canonical,
      Json.CanonicalItems, RefToken.toJson, Json.Increasing, Json.keys])
  refine (Arises.empty _).after ?_
  simp [shelfChanges, Change.Canonical, hgraph, Json.Canonical, Json.CanonicalMembers,
    Json.CanonicalItems, RefToken.toJson, Json.Increasing, Json.keys]

/-- The shelf and its books are there with their kinds, and a graph that does not fit changes
nothing. -/
theorem coherent_shelfStore :
    Arises shelfSchema shelfStore ∧ shelfStore.kinds.keys = shelfStore.entities.ids ∧
      shelfStore.entities.ids = [⟨"s"⟩, ⟨"b"⟩, ⟨"$1"⟩] ∧
      shelfStore.initJson .null = (none, shelfStore) ∧
      (shelfStore.initJson (.obj [("c", .obj [("title", .str "Herbarium")])])).2.entities.members =
        [("c", .obj [("title", .str "Herbarium")])] := by
  obtain ⟨-, hkeys, -, -, -, -, hrefused, hmembers⟩ := coherent_and_atomic arises_shelfStore
  have hgraph := hmembers (.obj [("c", .obj [("title", .str "Herbarium")])])
    (by simp [Json.Canonical, Json.CanonicalMembers, Json.Increasing, Json.keys])
    (by decide +kernel)
  exact ⟨arises_shelfStore, hkeys, by decide +kernel, hrefused .null rfl,
    (Option.some.inj hgraph).symm⟩

end DataModel

end TypedGraph
