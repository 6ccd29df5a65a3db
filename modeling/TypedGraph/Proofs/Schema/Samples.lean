import Mathlib.Data.List.Nodup
import Mathlib.Logic.Relation
import TypedGraph.Proofs.Json.Canonical
import TypedGraph.Proofs.Schema.Implication

/-!
# Sample Graphs

To see that one kind is not included in another, a graph must be given that tells them apart. Such
graphs are put together here: objects with a chosen value for every field, and graphs with a loose
typing that grow by entities of all kinds that a kind reaches through references. What an entity of
such a graph can be does not change when the graph grows, as its references stay within the graph.

## Main definitions

* `Schema.Reaches`: references lead from one kind to another;
* `Descriptor.solid` and `Schema.PlainFrom`: shapes that have a value, with `optional` only around
  the whole field;
* `Descriptor.sample` and `Structure.objectMembers`: a value of a shape, and an object of a
  structure;
* `LooseGraph`: a graph of canonical entities with a loose typing;
* `LooseGraph.Populated`: every kind that a kind reaches has an entity.

## Main results

* `LooseGraph.canBe_of_within`: an entity that has a kind can be in a larger graph only what it can
  be;
* `LooseGraph.exists_populated`: every graph with a loose typing can be populated;
* `LooseGraph.exists_insert`: an object in line with a kind's structure can be put into the graph.
-/

namespace TypedGraph

/-! ## Objects with Chosen Values -/

theorem OrderedMap.get?_filterMap {κ : Type u} {β : Type v} {γ : Type w} [DecidableEq κ]
    (m : OrderedMap κ β) (f : κ → β → Option γ) (k : κ) :
    (m.filterMap f).get? k = (m.get? k).bind (f k) := by
  ext c
  rw [get?_eq_some_iff, Option.bind_eq_some_iff]
  simp only [filterMap, List.mem_filterMap, Option.map_eq_some_iff, Prod.mk.injEq, Prod.exists,
    get?_eq_some_iff]
  constructor
  · rintro ⟨j, b, hmem, c', hc', rfl, rfl⟩
    exact ⟨b, hmem, hc'⟩
  · rintro ⟨b, hmem, hc⟩
    exact ⟨k, b, hmem, c, hc, rfl, rfl⟩

/-- Entries with new keys are found beside the old ones. -/
theorem OrderedMap.get?_insertMany_iff {κ : Type u} {β : Type v} [DecidableEq κ]
    {m : OrderedMap κ β} {l : List (κ × β)} (h : ((m.entries ++ l).map Prod.fst).Nodup) {k : κ}
    {v : β} :
    (m.insertMany l).get? k = some v ↔ m.get? k = some v ∨ (k, v) ∈ l := by
  rw [get?_eq_some_iff, get?_eq_some_iff, entries_insertMany_of_disjoint _ _ h, List.mem_append]

namespace Structure

/-- The members of an object that has the given values for the fields of a structure. -/
def objectMembers (s : Structure) (value : String → Descriptor → Option Json) :
    List (String × Json) := Json.sortMembers (s.fields.filterMap value).entries

variable {s : Structure} {value : String → Descriptor → Option Json}

theorem lookup_objectMembers (name : String) :
    Json.lookup (s.objectMembers value) name = (s.get? name).bind (value name) := by
  rw [objectMembers, Json.lookup_sortMembers, OrderedMap.get?_filterMap]
  rfl

theorem canonical_objectMembers
    (h : ∀ name d x, s.get? name = some d → value name d = some x → x.Canonical) :
    (Json.obj (s.objectMembers value)).Canonical := by
  refine Json.canonical_object fun m hm => ?_
  have hget := OrderedMap.get?_eq_some_iff.2 hm
  rw [OrderedMap.get?_filterMap, Option.bind_eq_some_iff] at hget
  obtain ⟨d, hd, hx⟩ := hget
  exact h m.1 d m.2 hd hx

/-- An object whose values conform is in line with the structure. -/
theorem conformsTo_objectMembers {graph : EntityGraph} {typing : Typing}
    (h : ∀ name d, s.get? name = some d → Conforms graph typing d (value name d)) :
    ConformsTo graph typing s (s.objectMembers value) := by
  constructor
  · intro m hm
    have hfound : (Json.lookup (s.objectMembers value) m.1).isSome :=
      OrderedMap.lookup_isSome_iff.2 (List.mem_map_of_mem hm)
    rw [lookup_objectMembers] at hfound
    exact Option.isSome_of_isSome_bind hfound
  · rintro ⟨name, d⟩ hf
    have hget : s.get? name = some d := OrderedMap.get?_eq_some_iff.2 hf
    rw [lookup_objectMembers, hget, Option.bind_some]
    exact h name d hget

end Structure

/-! ## Plain Kinds and Sample Values -/

/-- The shape has a value, and nothing in it is optional. -/
def Descriptor.solid : Descriptor → Bool
  | primitive _ => true
  | union literals => !literals.toList.isEmpty
  | optional _ => false
  | arrayOf inner => inner.solid
  | ref kinds => !kinds.isEmpty

/-- Every field has a solid shape, which may be optional as a whole. -/
def Structure.plain (s : Structure) : Bool := s.fields.entries.all fun f => f.2.unwrapOptional.solid

/-- A value of a shape, with an entity to point at for each kind. -/
def Descriptor.sample (point : String → EntityId) : Descriptor → Json
  | primitive .string => .str ""
  | primitive .number => .num (.int 0)
  | primitive .boolean => .bool true
  | union literals => .str (literals.toList.headD "")
  | optional inner => inner.sample point
  | arrayOf _ => .arr []
  | ref kinds => RefToken.toJson ⟨point (kinds.headD "")⟩

theorem Descriptor.canonical_sample (point : String → EntityId) {d : Descriptor} (hd : d.solid) :
    (d.sample point).Canonical := by
  cases d with
  | primitive p => cases p <;> exact trivial
  | union literals => exact trivial
  | optional d => cases hd
  | arrayOf d => exact trivial
  | ref kinds => simp [sample, RefToken.toJson, Json.Canonical, Json.Increasing, Json.keys,
      Json.CanonicalMembers]

theorem Descriptor.referencedKinds_unwrapOptional (d : Descriptor) :
    d.unwrapOptional.referencedKinds = d.referencedKinds := by
  cases d <;> rfl

namespace Schema

/-- A field of the first kind refers to the second one. -/
def Refers (schema : Schema) (a b : String) : Prop :=
  ∃ name d, schema.field? a name = some d ∧ b ∈ d.referencedKinds

/-- References lead from the first kind to the second one, in any number of steps. -/
def Reaches (schema : Schema) : String → String → Prop := Relation.ReflTransGen schema.Refers

/-- Every kind that the given one reaches has a plain structure. -/
def PlainFrom (schema : Schema) (root : String) : Prop :=
  ∀ kind s, schema.Reaches root kind → schema.kind? kind = some s → s.plain

variable {schema : Schema} {root kind name : String} {s : Structure} {d : Descriptor}

theorem field?_eq (hs : schema.kind? kind = some s) : schema.field? kind name = s.get? name := by
  rw [field?, hs]
  rfl

theorem Reaches.referenced (h : schema.Reaches root kind) (hd : schema.field? kind name = some d)
    {k : String} (hk : k ∈ d.referencedKinds) : schema.Reaches root k := h.tail ⟨name, d, hd, hk⟩

theorem PlainFrom.of_reaches (h : schema.PlainFrom root) (hkind : schema.Reaches root kind) :
    schema.PlainFrom kind := fun k s hk => h k s (hkind.trans hk)

theorem PlainFrom.solid (h : schema.PlainFrom root) (hkind : schema.Reaches root kind)
    (hd : schema.field? kind name = some d) : d.unwrapOptional.solid := by
  obtain ⟨s, hs, hget⟩ := Option.bind_eq_some_iff.1 hd
  exact List.all_eq_true.1 (h kind s hkind hs) _ (OrderedMap.get?_eq_some_iff.1 hget)

/-- Without dangling references, references name declared kinds. -/
theorem mem_kindNames_of_referenced (h : schema.danglingRefs = [])
    (hd : schema.field? kind name = some d) {k : String} (hk : k ∈ d.referencedKinds) :
    k ∈ schema.kindNames := by
  obtain ⟨s, hs, hget⟩ := Option.bind_eq_some_iff.1 hd
  have hof := List.flatMap_eq_nil_iff.1 h _ (OrderedMap.get?_eq_some_iff.1 hs)
  have hfield := List.flatMap_eq_nil_iff.1 hof _ (OrderedMap.get?_eq_some_iff.1 hget)
  rw [List.map_eq_nil_iff, List.filter_eq_nil_iff] at hfield
  exact OrderedMap.contains_iff.1 (by simpa [Schema.containsKind] using hfield k hk)

theorem mem_kindNames_of_reaches (h : schema.danglingRefs = []) (hroot : root ∈ schema.kindNames)
    (hkind : schema.Reaches root kind) : kind ∈ schema.kindNames := by
  cases hkind with
  | refl => exact hroot
  | tail _ hrefers =>
    obtain ⟨name, d, hd, hk⟩ := hrefers
    exact mem_kindNames_of_referenced h hd hk

/-- All kinds of a list have plain structures that refer to no other kinds. -/
def closesPlainly (schema : Schema) (kinds : List String) : Bool :=
  kinds.all fun kind => (schema.kind? kind).all fun s =>
    s.plain && s.fields.entries.all fun f => f.2.referencedKinds.all kinds.contains

theorem plainFrom_of_closesPlainly (kinds : List String) (h : schema.closesPlainly kinds)
    (hroot : root ∈ kinds) : schema.PlainFrom root := by
  have hkind (kind : String) (hmem : kind ∈ kinds) (s : Structure)
      (hs : schema.kind? kind = some s) : s.plain ∧
        ∀ f ∈ s.fields.entries, ∀ k ∈ f.2.referencedKinds, k ∈ kinds := by
    have hall := List.all_eq_true.1 h kind hmem
    rw [hs, Option.all_some, Bool.and_eq_true] at hall
    simpa using hall
  have hreached (kind : String) (hkind' : schema.Reaches root kind) : kind ∈ kinds := by
    induction hkind' with
    | refl => exact hroot
    | tail _ hrefers ih =>
      obtain ⟨name, d, hd, hk⟩ := hrefers
      obtain ⟨s, hs, hget⟩ := Option.bind_eq_some_iff.1 hd
      exact (hkind _ ih s hs).2 _ (OrderedMap.get?_eq_some_iff.1 hget) _ hk
  exact fun kind s hreaches hs => (hkind kind (hreached kind hreaches) s hs).1

end Schema

/-! ## Loosely Typed Graphs -/

/-- A graph of canonical entities with a loose typing. -/
structure LooseGraph (schema : Schema) where
  /-- The graph. -/
  graph : EntityGraph
  /-- Its entities are canonical. -/
  canonical : graph.Canonical
  /-- The kinds that entities have. -/
  typing : Typing
  /-- Every entity conforms to all kinds it has. -/
  loose : LooseTyping schema graph typing

/-- All entities of the first graph are in the second one, unchanged. -/
def EntityGraph.Within (graph graph' : EntityGraph) : Prop :=
  ∀ id entity, graph.get? id = some entity → graph'.get? id = some entity

theorem EntityGraph.Within.contains {graph graph' : EntityGraph} (h : graph.Within graph')
    {id : EntityId} (hid : graph.contains id) : graph'.contains id := by
  obtain ⟨entity, hentity⟩ := Option.isSome_iff_exists.1 hid
  exact Option.isSome_iff_exists.2 ⟨entity, h id entity hentity⟩

namespace LooseGraph

variable {schema : Schema} {g : LooseGraph schema} {id : EntityId} {kind : String}

/-- The second graph has all entities of the first one with all kinds they have. -/
instance : LE (LooseGraph schema) :=
  ⟨fun g g' => g.graph.Within g'.graph ∧ ∀ id kind, g.typing id kind → g'.typing id kind⟩

theorem canBe (hty : g.typing id kind) : CanBe schema g.graph id kind := ⟨g.typing, g.loose, hty⟩

theorem contains_of_typing (hty : g.typing id kind) : g.graph.contains id := by
  obtain ⟨s, members, -, hmembers, -⟩ := g.loose id kind hty
  exact Option.isSome_iff_exists.2 ⟨_, hmembers⟩

end LooseGraph

/-! ## What Entities Can Be in Larger Graphs -/

section

variable {graph graph' : EntityGraph} {typing typing' : Typing} {value : Option Json}

/-- The items of an array that conforms to anything conform to something themselves. -/
theorem Conforms.exists_items {d : Descriptor} (h : Conforms graph typing d value)
    {items : List Json} (hvalue : value = some (.arr items)) :
    ∃ inner, ∀ item ∈ items, Conforms graph typing inner (some item) := by
  induction h with
  | absent => cases hvalue
  | present _ ih => exact ih hvalue
  | @primitive p x hp =>
    cases hvalue
    cases p <;> cases hp
  | union => cases hvalue
  | @arrayOf inner items' hitems =>
    cases hvalue
    exact ⟨inner, hitems⟩
  | ref => cases hvalue

/-- A token that conforms to anything points at an entity that has a kind. -/
theorem Conforms.exists_kind {d : Descriptor} (h : Conforms graph typing d value) {text : String}
    (hvalue : value = some (.obj [("ref", .str text)])) :
    graph.contains ⟨text⟩ ∧ ∃ kind, typing ⟨text⟩ kind := by
  induction h with
  | absent => cases hvalue
  | present _ ih => exact ih hvalue
  | @primitive p x hp =>
    cases hvalue
    cases p <;> cases hp
  | union => cases hvalue
  | arrayOf => cases hvalue
  | ref hid hkind hty =>
    cases hvalue
    exact ⟨hid, _, hty⟩

/-- The kinds of the second typing for entities that have some kind in the first one. -/
def Typing.among (typing typing' : Typing) : Typing :=
  fun id kind => typing' id kind ∧ ∃ own, typing id own

theorem Conforms.none_among {e : Descriptor} (h : Conforms graph' typing' e none) :
    Conforms graph typing e none := by
  cases h
  exact .absent

/-- A value that conforms to something in a graph conforms in a larger graph only to what it
conforms to by the entities that have a kind in the first graph. The induction is on the second
derivation. -/
theorem Conforms.among {d e : Descriptor} (h : Conforms graph typing d value)
    (h' : Conforms graph' typing' e value) :
    Conforms graph (typing.among typing') e value := by
  induction h' generalizing d with
  | absent => exact .absent
  | present _ ih => exact .present (ih h)
  | primitive hp => exact .primitive hp
  | union hs => exact .union hs
  | arrayOf _ ih =>
    obtain ⟨inner, hitems⟩ := h.exists_items rfl
    exact .arrayOf fun item hitem => ih item hitem (hitems item hitem)
  | ref hid hkind hty =>
    -- the entity that is pointed at is in the first graph, and has a kind there
    obtain ⟨hin, hown⟩ := h.exists_kind rfl
    exact .ref hin hkind ⟨hty, hown⟩

/-- A field that is there is declared. -/
theorem ConformsTo.contains_of_lookup {s : Structure} {members : List (String × Json)}
    (h : ConformsTo graph typing s members) {name : String} {x : Json}
    (hx : Json.lookup members name = some x) : s.contains name := by
  obtain ⟨before, after, rfl, -⟩ := List.lookup_eq_some_iff.1 hx
  exact h.declared (name, x) (by simp)

theorem ConformsTo.among {s t : Structure} {members : List (String × Json)}
    (h : ConformsTo graph typing s members) (h' : ConformsTo graph' typing' t members) :
    ConformsTo graph (typing.among typing') t members := by
  refine ⟨h'.declared, fun f hf => ?_⟩
  have hvalue := h'.fields f hf
  cases hfound : Json.lookup members f.1 with
  | none =>
    rw [hfound] at hvalue
    exact hvalue.none_among
  | some x =>
    -- the field is there, so that the first structure declares it
    obtain ⟨d, hd⟩ := Option.isSome_iff_exists.1 (h.contains_of_lookup hfound)
    have hown := h.fields (f.1, d) (OrderedMap.get?_eq_some_iff.1 hd)
    rw [← hfound]
    exact hown.among hvalue

end

/-- An entity that has a kind in a graph can be in a larger graph only what it can be in this
one. -/
theorem LooseGraph.canBe_of_within {schema : Schema} {g : LooseGraph schema} {graph' : EntityGraph}
    (hwithin : g.graph.Within graph') {id : EntityId} {own kind : String} (hown : g.typing id own)
    (h : CanBe schema graph' id kind) : CanBe schema g.graph id kind := by
  obtain ⟨typing', hloose, hty⟩ := h
  -- the larger graph's typing, cut down to the entities that have a kind in this one
  refine ⟨g.typing.among typing', ?_, hty, own, hown⟩
  rintro j k ⟨hjk, own', hown'⟩
  obtain ⟨s, members, -, hmembers, hto⟩ := g.loose j own' hown'
  obtain ⟨t, members', ht, hmembers', hto'⟩ := hloose j k hjk
  cases (hwithin j _ hmembers).symm.trans hmembers'
  exact ⟨t, members, ht, hmembers, hto.among hto'⟩

/-! ## Growing Graphs -/

/-- Some text is longer than all texts of a list. -/
theorem exists_longer (l : List String) : ∃ long : String, ∀ s ∈ l, s.length < long.length := by
  induction l with
  | nil => exact ⟨"", fun s hs => nomatch hs⟩
  | cons s l ih =>
    obtain ⟨long, hlong⟩ := ih
    refine ⟨s ++ long ++ "+", List.forall_mem_cons.2 ⟨?_, fun t ht => ?_⟩⟩
    · simp only [String.length_append]
      have : "+".length = 1 := rfl
      omega
    · have := hlong t ht
      simp only [String.length_append]
      omega

/-- There are ids for all texts that are not in a graph. -/
theorem EntityGraph.exists_fresh (graph : EntityGraph) :
    ∃ fresh : String → EntityId, Function.Injective fresh ∧ ∀ text, fresh text ∉ graph.keys := by
  obtain ⟨long, hlong⟩ := exists_longer (graph.keys.map EntityId.text)
  refine ⟨fun text => ⟨long ++ text⟩, fun a b hab => ?_, fun text hmem => ?_⟩
  · exact (String.append_right_inj long).1 (congrArg EntityId.text hab)
  · have hlt := hlong _ (List.mem_map_of_mem hmem)
    rw [String.length_append] at hlt
    omega

namespace LooseGraph

variable {schema : Schema}

/-- New entities that conform to their kinds in the larger graph can be put into a graph. -/
theorem exists_extension (g : LooseGraph schema) {entities : List (EntityId × Json)}
    (typing : Typing) (hfresh : ((g.graph.entries ++ entities).map Prod.fst).Nodup)
    (hcanonical : ∀ e ∈ entities, e.2.Canonical)
    (hnew : ∀ id kind, typing id kind → ∃ s members, schema.kind? kind = some s ∧
      (id, Json.obj members) ∈ entities ∧ ∀ graph', g.graph.Within graph' →
        (∀ e ∈ entities, graph'.contains e.1) →
          ConformsTo graph' (fun j k => g.typing j k ∨ typing j k) s members) :
    ∃ g' : LooseGraph schema, g ≤ g' ∧ (∀ e ∈ entities, g'.graph.get? e.1 = some e.2) ∧
      ∀ id kind, typing id kind → g'.typing id kind := by
  have hget := fun id entity =>
    OrderedMap.get?_insertMany_iff (m := g.graph) hfresh (k := id) (v := entity)
  have hwithin : g.graph.Within (g.graph.insertMany entities) :=
    fun id entity hentity => (hget id entity).2 (.inl hentity)
  have hentities (e : EntityId × Json) (he : e ∈ entities) :
      (g.graph.insertMany entities).get? e.1 = some e.2 := (hget e.1 e.2).2 (.inr he)
  refine ⟨⟨g.graph.insertMany entities, fun id entity hentity => ?_,
    fun j k => g.typing j k ∨ typing j k, ?_⟩, ⟨hwithin, fun _ _ => .inl⟩, hentities,
    fun _ _ => .inr⟩
  · rcases (hget id entity).1 hentity with hold | hmem
    · exact g.canonical id entity hold
    · exact hcanonical _ hmem
  · rintro id kind (hold | hty)
    · -- old entities still conform, as their entities and kinds are kept
      obtain ⟨s, members, hs, hmembers, hto⟩ := g.loose id kind hold
      exact ⟨s, members, hs, hwithin id _ hmembers,
        hto.mono (fun _ => hwithin.contains) fun _ _ _ => .inl⟩
    · obtain ⟨s, members, hs, hmembers, hto⟩ := hnew id kind hty
      exact ⟨s, members, hs, hentities _ hmembers, hto _ hwithin fun e he =>
        Option.isSome_iff_exists.2 ⟨e.2, hentities e he⟩⟩

/-- An object in line with the structure of a kind can be put into the graph. -/
theorem exists_insert (g : LooseGraph schema) {kind : String} {s : Structure}
    {members : List (String × Json)} (hs : schema.kind? kind = some s)
    (hcanonical : (Json.obj members).Canonical) (hto : ConformsTo g.graph g.typing s members) :
    ∃ g' : LooseGraph schema, g ≤ g' ∧ ∃ id, g'.graph.get? id = some (.obj members) ∧
      g'.typing id kind := by
  obtain ⟨fresh, -, hfresh⟩ := g.graph.exists_fresh
  have hdisjoint : ((g.graph.entries ++ [(fresh kind, Json.obj members)]).map Prod.fst).Nodup := by
    rw [List.map_append, List.map_singleton, ← List.concat_eq_append]
    exact List.Nodup.concat (hfresh kind) g.graph.nodup_keys
  obtain ⟨g', hle, hget, htyping⟩ := g.exists_extension
    (fun id k => id = fresh kind ∧ k = kind) hdisjoint
    (fun e he => List.mem_singleton.1 he ▸ hcanonical) (by
      rintro id k ⟨rfl, rfl⟩
      exact ⟨s, members, hs, List.mem_singleton_self _, fun graph' hwithin _ =>
        hto.mono (fun _ => hwithin.contains) fun _ _ _ => .inl⟩)
  exact ⟨g', hle, fresh kind, hget _ (List.mem_singleton_self _), htyping _ _ ⟨rfl, rfl⟩⟩

/-- The graph without entities. -/
instance : Inhabited (LooseGraph schema) :=
  ⟨⟨∅, fun _ _ h => (nomatch h), fun _ _ => False, fun _ _ h => False.elim h⟩⟩

/-- Every kind that the given one reaches has an entity. -/
def Populated (g : LooseGraph schema) (root : String) : Prop :=
  ∃ point : String → EntityId, ∀ kind, schema.Reaches root kind → g.typing (point kind) kind

end LooseGraph

/-! ## Samples in Populated Graphs -/

section

variable {graph : EntityGraph} {typing : Typing} {point : String → EntityId}

theorem Descriptor.conforms_sample {d : Descriptor} (hd : d.solid)
    (hrefs : ∀ k ∈ d.referencedKinds, graph.contains (point k) ∧ typing (point k) k) :
    Conforms graph typing d (some (d.sample point)) := by
  cases d with
  | primitive p => cases p <;> exact .primitive rfl
  | union literals =>
    obtain ⟨_ | ⟨s, rest⟩, hl⟩ := literals
    · cases hd
    · exact .union List.mem_cons_self
  | optional d => cases hd
  | arrayOf d => exact .arrayOf fun item hitem => nomatch hitem
  | ref kinds =>
    obtain _ | ⟨k, rest⟩ := kinds
    · cases hd
    · obtain ⟨hid, hty⟩ := hrefs k List.mem_cons_self
      exact .ref hid List.mem_cons_self hty

theorem Conforms.of_unwrapOptional {d : Descriptor} {x : Json}
    (h : Conforms graph typing d.unwrapOptional (some x)) : Conforms graph typing d (some x) := by
  cases d with
  | optional d => exact .present h
  | _ => exact h

end

namespace LooseGraph

variable {schema : Schema} {root : String}

/-- Every graph can be populated: all kinds that a kind reaches get a sample at once, as samples of
different kinds may point at each other. -/
theorem exists_populated (hplain : schema.PlainFrom root) (hdangling : schema.danglingRefs = [])
    (hroot : root ∈ schema.kindNames) (g : LooseGraph schema) :
    ∃ g' : LooseGraph schema, g ≤ g' ∧ g'.Populated root := by
  classical
  obtain ⟨point, hinjective, hfresh⟩ := g.graph.exists_fresh
  let kinds := schema.kinds.entries.filter fun k => schema.Reaches root k.1
  let entities : List (EntityId × Json) := kinds.map fun k =>
    (point k.1, .obj (k.2.objectMembers fun _ d => some (d.unwrapOptional.sample point)))
  have hkinds {kind : String} {s : Structure} :
      (kind, s) ∈ kinds ↔ schema.kind? kind = some s ∧ schema.Reaches root kind := by
    rw [List.mem_filter, decide_eq_true_iff, Schema.kind?, OrderedMap.get?_eq_some_iff]
  have hkeys : entities.map Prod.fst = (kinds.map Prod.fst).map point := by
    rw [List.map_map, List.map_map]
    rfl
  have hdisjoint : ((g.graph.entries ++ entities).map Prod.fst).Nodup := by
    rw [List.map_append, hkeys]
    -- samples of different kinds have different ids, none of which is taken
    have hnodup : (kinds.map Prod.fst).Nodup :=
      schema.kinds.keys_nodup.sublist (List.filter_sublist.map _)
    refine List.Nodup.append g.graph.nodup_keys (hnodup.map hinjective) ?_
    intro id hid hpoint
    obtain ⟨kind, -, rfl⟩ := List.mem_map.1 hpoint
    exact hfresh kind hid
  have hcanonical : ∀ e ∈ entities, e.2.Canonical := by
    rintro e he
    obtain ⟨⟨kind, s⟩, hk, rfl⟩ := List.mem_map.1 he
    obtain ⟨hs, hreaches⟩ := hkinds.1 hk
    refine Structure.canonical_objectMembers fun name d x hd hx => ?_
    cases hx
    exact d.unwrapOptional.canonical_sample point
      (hplain.solid hreaches ((schema.field?_eq hs).trans hd))
  obtain ⟨g', hle, -, htyping⟩ := g.exists_extension
    (fun id kind => id = point kind ∧ schema.Reaches root kind) hdisjoint hcanonical (by
      rintro id kind ⟨rfl, hreaches⟩
      obtain ⟨s, hs⟩ :=
        OrderedMap.mem_keys_iff.1 (schema.mem_kindNames_of_reaches hdangling hroot hreaches)
      refine ⟨s, _, hs, List.mem_map_of_mem (hkinds.2 ⟨hs, hreaches⟩), fun graph' _ hcontains =>
        Structure.conformsTo_objectMembers fun name d hd => .of_unwrapOptional ?_⟩
      have hfield := (schema.field?_eq hs).trans hd
      -- references of a sample point at the samples of other kinds
      refine Descriptor.conforms_sample (hplain.solid hreaches hfield) fun k hk => ?_
      rw [Descriptor.referencedKinds_unwrapOptional] at hk
      have hreaches' := hreaches.referenced hfield hk
      obtain ⟨t, ht⟩ :=
        OrderedMap.mem_keys_iff.1 (schema.mem_kindNames_of_reaches hdangling hroot hreaches')
      exact ⟨hcontains _ (List.mem_map_of_mem (hkinds.2 ⟨ht, hreaches'⟩)), .inr ⟨rfl, hreaches'⟩⟩)
  exact ⟨g', hle, point, fun kind hkind => htyping _ _ ⟨rfl, hkind⟩⟩

/-- A populated graph has a value for every field of a kind that is reached. -/
theorem Populated.exists_sample (hplain : schema.PlainFrom root) {g : LooseGraph schema}
    (hg : g.Populated root) :
    ∃ sample : Descriptor → Json, ∀ kind name d, schema.Reaches root kind →
      schema.field? kind name = some d →
        (sample d).Canonical ∧ Conforms g.graph g.typing d (some (sample d)) := by
  obtain ⟨point, hpoint⟩ := hg
  refine ⟨fun d => d.unwrapOptional.sample point, fun kind name d hreaches hd => ?_⟩
  have hsolid := hplain.solid hreaches hd
  refine ⟨d.unwrapOptional.canonical_sample point hsolid,
    .of_unwrapOptional (Descriptor.conforms_sample hsolid fun k hk => ?_)⟩
  rw [Descriptor.referencedKinds_unwrapOptional] at hk
  have hty := hpoint k (hreaches.referenced hd hk)
  exact ⟨contains_of_typing hty, hty⟩

end LooseGraph

end TypedGraph
