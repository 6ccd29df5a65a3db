import TypedGraph.Proofs.Validation.Reordering
import TypedGraph.Proofs.Validation.Soundness

/-!
# Completeness on Unambiguous Graphs

The search never reconsiders a kind that an entity has got, and it refuses an entity that has
another kind. In a graph whose entities can each be one kind at most this loses nothing: every
binding that outlives the check that made it is a kind that the entity can be, hence the only one.

## Main definitions

* `Unambiguous`: no entity can be two kinds;
* `Validator.Possible`: an assignment gives only kinds that entities can be;
* `Validator.mightBe`: what entities can be, as far as following references for some rounds shows.

## Main results

* `Validator.possible_of_check`: checks keep to possible assignments;
* `Validator.exists_check_of_canBe`: in an unambiguous graph an entity gets the kind that it can be;
* `assign_eq_of_reorders` and `sameOutcome_of_reorders`: the order of declarations does not matter;
* `unambiguous_of_mightBe`: a test that a graph is unambiguous;
* `assign_of_unambiguous`: the outcome of validation for an unambiguous graph.
-/

namespace TypedGraph

/-- No entity can be two kinds. -/
def Unambiguous (schema : Schema) (graph : EntityGraph) : Prop :=
  ∀ id kind kind', CanBe schema graph id kind → CanBe schema graph id kind' → kind = kind'

/-- Some kind is one that the entity can be. -/
def CanBeSome (schema : Schema) (graph : EntityGraph) (id : EntityId) : Prop :=
  ∃ kind, CanBe schema graph id kind

/-- Two outcomes of validation are the same but for the order of the ids in the index, or for the id
that a failure names. -/
inductive SameOutcome : Except EntityId KindIndex → Except EntityId KindIndex → Prop where
  | ok {index index' : KindIndex} (h : ∀ id, index.get? id = index'.get? id) :
    SameOutcome (.ok index) (.ok index')
  | error (id id' : EntityId) : SameOutcome (.error id) (.error id')

/-- A graph that gets an index has only entities that can be some kind. -/
theorem canBeSome_of_assign {schema : Schema} {graph : EntityGraph} {index : KindIndex}
    (h : (Validator.of schema graph).assign = .ok index) :
    ∀ id ∈ graph.ids, CanBeSome schema graph id := by
  intro id hid
  obtain ⟨kind, hkind, -⟩ := Validator.entityConforms_of_assign h hid
  exact ⟨kind, _, Validator.looseTyping_of_assign h, hkind⟩

theorem CanBe.mem_kindNames {schema : Schema} {graph : EntityGraph} {id : EntityId} {kind : String}
    (h : CanBe schema graph id kind) : kind ∈ schema.kindNames := by
  obtain ⟨s, members, hs, -, -⟩ := looseTyping_canBe schema graph id kind h
  exact OrderedMap.mem_keys_iff.2 ⟨s, hs⟩

theorem CanBe.mem_ids {schema : Schema} {graph : EntityGraph} {id : EntityId} {kind : String}
    (h : CanBe schema graph id kind) : id ∈ graph.ids :=
  OrderedMap.contains_iff.1
    (Validator.contains_of_entityConforms (looseTyping_canBe schema graph id kind h))

theorem Unambiguous.of_reorders {schema schema' : Schema} {graph graph' : EntityGraph}
    (h : Unambiguous schema graph) (hschema : schema.Reorders schema')
    (hgraph : graph.entries.Perm graph'.entries) : Unambiguous schema' graph' := by
  intro id kind kind' hkind hkind'
  rw [← canBe_iff_of_reorders hschema hgraph] at hkind hkind'
  exact h id kind kind' hkind hkind'

/-- In an unambiguous graph an index that types all entities gives each the kind that it can be. -/
theorem Unambiguous.get?_eq_some_iff {schema : Schema} {graph : EntityGraph} {index : KindIndex}
    (h : Unambiguous schema graph) (hkeys : index.keys = graph.ids)
    (hloose : LooseTyping schema graph (KindIndex.typing index)) {id : EntityId} {kind : String} :
    index.get? id = some kind ↔ CanBe schema graph id kind := by
  constructor
  · intro hkind
    exact ⟨_, hloose, hkind⟩
  · intro hcan
    have hid : id ∈ index.keys := by
      rw [hkeys]
      exact hcan.mem_ids
    obtain ⟨kind', hkind'⟩ := OrderedMap.mem_keys_iff.1 hid
    rw [h id kind kind' hcan ⟨_, hloose, hkind'⟩]
    exact hkind'

namespace Validator

variable {v : Validator}

/-! ## Bindings That Are Kept -/

/-- An assignment gives only kinds that entities can be. -/
def Possible (v : Validator) (a : Assignment) : Prop :=
  ∀ id kind, a.kind? id = some kind → CanBe v.schema v.graph id kind

theorem possible_empty (v : Validator) : v.Possible ∅ := by
  intro id kind h
  simp at h

/-- An assignment that has grown from a possible one is possible: with all kinds that entities can
be, its kinds form a loose typing. -/
theorem Grows.possible {a a' : Assignment} (h : v.Grows a a') (ha : v.Possible a) :
    v.Possible a' := by
  intro id kind hkind
  -- the new kinds may rest on kinds that entities can be without having got them
  refine ⟨fun j k => a'.kind? j = some k ∨ CanBe v.schema v.graph j k, ?_, .inl hkind⟩
  have hcanBe (j : EntityId) (k : String) (hjk : CanBe v.schema v.graph j k) :
      EntityConforms v.schema v.graph
        (fun j k => a'.kind? j = some k ∨ CanBe v.schema v.graph j k) j k :=
    (looseTyping_canBe _ _ j k hjk).mono fun _ _ => .inr
  rintro j k (hjk | hjk)
  · rcases h.conforms j k hjk with hold | hnew
    · exact hcanBe j k (ha j k hold)
    · exact hnew.mono fun _ _ => .inl
  · exact hcanBe j k hjk

theorem possible_of_check {id : EntityId} {kind : String} {a a' : Assignment}
    (ha : v.Possible a) (h : v.check id kind a = (true, a')) : v.Possible a' :=
  (grows_of_check h).possible ha

/-- An entity only gets a kind that it can be. -/
theorem canBe_of_check {id : EntityId} {kind : String} {a a' : Assignment}
    (ha : v.Possible a) (h : v.check id kind a = (true, a')) : CanBe v.schema v.graph id kind :=
  possible_of_check ha h id kind (kind?_of_check h)

theorem possible_of_meet {goals : List RefGoal} {a a' : Assignment}
    (ha : v.Possible a) (h : v.meet goals a = (true, a')) : v.Possible a' :=
  (grows_of_meet h).1.possible ha

/-! ## Nothing Is Lost -/

/-- Goals for kinds that the entities can be are met, if checking for such kinds succeeds on top of
all possible extensions. -/
theorem exists_meet_of_canBe_of {a₀ a : Assignment} {goals : List RefGoal}
    (hcheck : ∀ {b id kind}, a₀ ≤ b → v.Possible b → CanBe v.schema v.graph id kind →
      ∃ b', v.check id kind b = (true, b'))
    (hle : a₀ ≤ a) (ha : v.Possible a) (hmet : ∀ g ∈ goals, g.Met (CanBe v.schema v.graph)) :
    ∃ a', v.meet goals a = (true, a') := by
  induction goals generalizing a with
  | nil => exact ⟨a, rfl⟩
  | cons g goals ih =>
    obtain ⟨⟨kind, hkind, hcan⟩, hgoals⟩ := List.forall_mem_cons.1 hmet
    rw [meet_cons]
    cases hfirst : Check.first v.check g.id g.kinds a with
    | mk ok b =>
      cases ok with
      | true =>
        obtain ⟨before, k, after, -, -, hb⟩ := first_eq_true_iff.1 hfirst
        have hleb := le_first v g.id g.kinds a
        rw [hfirst] at hleb
        exact ih (Assignment.le_trans hle hleb) (possible_of_check ha hb) hgoals
      | false =>
        -- the kind that the entity can be would have been refused as well
        obtain ⟨b', hb'⟩ := hcheck hle ha hcan
        have hrefused := (first_eq_false_iff.1 hfirst).2 kind hkind
        rw [hb'] at hrefused
        cases hrefused

/-- In an unambiguous graph an entity gets the kind that it can be. -/
theorem exists_check_of_canBe (hu : Unambiguous v.schema v.graph) {a : Assignment} {id : EntityId}
    {kind : String} (ha : v.Possible a) (hcan : CanBe v.schema v.graph id kind) :
    ∃ a', v.check id kind a = (true, a') := by
  induction a using v.bind_induction generalizing id kind with
  | bind a ih =>
    cases hid : a.kind? id with
    | some bound =>
      -- the entity can be its kind, which is the only one
      have hbound : bound = kind := hu id bound kind (ha id bound hid) hcan
      exact ⟨a, by rw [check_of_known hid, hbound, beq_self_eq_true]⟩
    | none =>
      obtain ⟨goals, hgoals, hmet⟩ := entityConforms_iff.1 (looseTyping_canBe _ _ id kind hcan)
      have hbind : v.Possible (a.bind id kind) := by
        intro j k hj
        rcases Assignment.kind?_bind_cases hj with ⟨rfl, rfl⟩ | hold
        · exact hcan
        · exact ha j k hold
      obtain ⟨a', hmeet⟩ := exists_meet_of_canBe_of
        (fun hle hb hjk => ih hid hgoals hle hb hjk) (Assignment.le_refl _) hbind hmet
      exact ⟨a', check_eq_true_iff.2 (.inr ⟨hid, goals, hgoals, hmeet⟩)⟩

/-- In an unambiguous graph entities that can be some kind all get kinds. -/
theorem exists_meet_wholeGoals (hu : Unambiguous v.schema v.graph) {ids : List EntityId}
    (h : ∀ id ∈ ids, CanBeSome v.schema v.graph id) :
    ∃ a, v.meet (v.wholeGoals ids) ∅ = (true, a) := by
  refine exists_meet_of_canBe_of (fun _ hb hcan => exists_check_of_canBe hu hb hcan)
    (Assignment.le_refl ∅) (possible_empty v) fun g hg => ?_
  obtain ⟨id, hid, rfl⟩ := List.mem_map.1 hg
  obtain ⟨kind, hcan⟩ := h id hid
  exact ⟨kind, hcan.mem_kindNames, hcan⟩

/-! ## Whole Graphs -/

/-- Entities that all get kinds leave the others to what comes after. -/
theorem assignAll_append {before after : List EntityId} {a a' : Assignment}
    (h : v.assignAll before a = .ok a') :
    v.assignAll (before ++ after) a = v.assignAll after a' := by
  induction before generalizing a with
  | nil =>
    cases h
    rfl
  | cons id before ih =>
    rw [assignAll] at h
    rw [List.cons_append, assignAll]
    split
    · next b hb =>
      rw [hb] at h
      exact ih h
    · next b hb =>
      rw [hb] at h
      cases h

/-- An entity that can be no kind gets none. -/
theorem checkAny_of_not_canBeSome {a : Assignment} {id : EntityId} (ha : v.Possible a)
    (h : ¬ CanBeSome v.schema v.graph id) (kinds : List String) :
    v.checkAny id kinds a = (false, a) := by
  rw [checkAny_eq_first, first_eq_false_iff]
  refine ⟨rfl, fun kind _ => ?_⟩
  cases hcheck : v.check id kind a with
  | mk ok a' =>
    cases ok with
    | false => rfl
    | true => exact absurd ⟨kind, canBe_of_check ha hcheck⟩ h

/-- If all entities of an unambiguous graph can be some kind, each gets this kind. -/
theorem assign_of_forall_canBeSome (hu : Unambiguous v.schema v.graph)
    (h : ∀ id ∈ v.graph.ids, CanBeSome v.schema v.graph id) :
    ∃ index, v.assign = .ok index ∧ index.keys = v.graph.ids ∧
      ∀ id kind, index.get? id = some kind ↔ CanBe v.schema v.graph id kind := by
  obtain ⟨a, hmeet⟩ := exists_meet_wholeGoals hu h
  have hassign : v.assign = .ok (a.toIndex v.graph) := assign_eq_ok_iff.2 ⟨a, hmeet, rfl⟩
  refine ⟨_, hassign, keys_of_assign hassign, fun id kind => ?_⟩
  exact hu.get?_eq_some_iff (keys_of_assign hassign) (looseTyping_of_assign hassign)

/-- In an unambiguous graph the only index that types all entities is found. -/
theorem assign_eq_ok_of_looseTyping (hu : Unambiguous v.schema v.graph) {index : KindIndex}
    (hkeys : index.keys = v.graph.ids)
    (hloose : LooseTyping v.schema v.graph (KindIndex.typing index)) : v.assign = .ok index := by
  have hall (id : EntityId) (hid : id ∈ v.graph.ids) : CanBeSome v.schema v.graph id := by
    rw [← hkeys] at hid
    obtain ⟨kind, hkind⟩ := OrderedMap.mem_keys_iff.1 hid
    exact ⟨kind, _, hloose, hkind⟩
  obtain ⟨index', hassign, hkeys', hget⟩ := assign_of_forall_canBeSome hu hall
  have hindex : index' = index := by
    refine OrderedMap.ext_get? (hkeys'.trans hkeys.symm) fun id => ?_
    ext kind
    rw [hget, hu.get?_eq_some_iff hkeys hloose]
  rw [hassign, hindex]

/-- Validation of an unambiguous graph fails with the first entity that can be no kind. -/
theorem assign_of_not_canBeSome (hu : Unambiguous v.schema v.graph) {before after : List EntityId}
    {id : EntityId} (hids : v.graph.ids = before ++ id :: after)
    (hbefore : ∀ j ∈ before, CanBeSome v.schema v.graph j)
    (h : ¬ CanBeSome v.schema v.graph id) : v.assign = .error id := by
  obtain ⟨a, hmeet⟩ := exists_meet_wholeGoals hu hbefore
  have ha := possible_of_meet (possible_empty v) hmeet
  rw [assign, hids, assignAll_append (assignAll_eq_ok_iff.2 hmeet), assignAll,
    checkAny_of_not_canBeSome ha h]
  rfl

end Validator

/-- A list of entities that cannot all be some kind has a first one that can be none. -/
theorem exists_first_not_canBeSome {schema : Schema} {graph : EntityGraph} {ids : List EntityId}
    (h : ¬ ∀ id ∈ ids, CanBeSome schema graph id) :
    ∃ before id after, ids = before ++ id :: after ∧ (∀ j ∈ before, CanBeSome schema graph j) ∧
      ¬ CanBeSome schema graph id := by
  induction ids with
  | nil => exact absurd (by simp) h
  | cons j ids ih =>
    by_cases hj : CanBeSome schema graph j
    · obtain ⟨before, id, after, rfl, hbefore, hid⟩ :=
        ih fun hids => h (List.forall_mem_cons.2 ⟨hj, hids⟩)
      exact ⟨j :: before, id, after, rfl, List.forall_mem_cons.2 ⟨hj, hbefore⟩, hid⟩
    · exact ⟨[], j, ids, rfl, by simp, hj⟩

/-! ## Reordering -/

section

variable {schema schema' : Schema} {graph graph' : EntityGraph}

theorem canBeSome_iff_of_reorders (hschema : schema.Reorders schema')
    (hgraph : graph.entries.Perm graph'.entries) {id : EntityId} :
    CanBeSome schema graph id ↔ CanBeSome schema' graph' id :=
  exists_congr fun _ => canBe_iff_of_reorders hschema hgraph

/-- The same kinds can be given under reordered schemas and graphs. -/
theorem get?_eq_of_reorders (hschema : schema.Reorders schema')
    (hgraph : graph.entries.Perm graph'.entries) {index index' : KindIndex}
    (h : ∀ id kind, index.get? id = some kind ↔ CanBe schema graph id kind)
    (h' : ∀ id kind, index'.get? id = some kind ↔ CanBe schema' graph' id kind) (id : EntityId) :
    index.get? id = index'.get? id := by
  ext kind
  rw [h, h', canBe_iff_of_reorders hschema hgraph]

/-- Reordering the schema does not change the outcome for an unambiguous graph, not even the failure
that is named. -/
theorem assign_eq_of_reorders (hu : Unambiguous schema graph) (hschema : schema.Reorders schema') :
    (Validator.of schema' graph).assign = (Validator.of schema graph).assign := by
  have hu' : Unambiguous schema' graph := hu.of_reorders hschema (.refl _)
  by_cases hall : ∀ id ∈ graph.ids, CanBeSome schema graph id
  · -- both indices give each entity the kind that it can be
    have hall' (id : EntityId) (hid : id ∈ graph.ids) : CanBeSome schema' graph id :=
      (canBeSome_iff_of_reorders hschema (.refl _)).1 (hall id hid)
    obtain ⟨index, hassign, hkeys, hget⟩ :=
      (Validator.of schema graph).assign_of_forall_canBeSome hu hall
    obtain ⟨index', hassign', hkeys', hget'⟩ :=
      (Validator.of schema' graph).assign_of_forall_canBeSome hu' hall'
    rw [hassign, hassign']
    have hindex : index = index' := OrderedMap.ext_get? (hkeys.trans hkeys'.symm)
      (get?_eq_of_reorders hschema (.refl _) hget hget')
    rw [hindex]
  · -- both searches get as far as the first entity that can be no kind
    obtain ⟨before, id, after, hids, hbefore, hid⟩ := exists_first_not_canBeSome hall
    have hassign : (Validator.of schema graph).assign = .error id :=
      Validator.assign_of_not_canBeSome hu hids hbefore hid
    rw [hassign]
    refine Validator.assign_of_not_canBeSome (v := .of schema' graph) hu' hids
      (fun j hj => ?_) fun hid' => hid ?_
    · exact (canBeSome_iff_of_reorders hschema (.refl _)).1 (hbefore j hj)
    · exact (canBeSome_iff_of_reorders hschema (.refl _)).2 hid'

/-- Reordering the graph as well does not change which kinds are given or that validation fails. -/
theorem sameOutcome_of_reorders (hu : Unambiguous schema graph) (hschema : schema.Reorders schema')
    (hgraph : graph.entries.Perm graph'.entries) :
    SameOutcome (Validator.of schema graph).assign (Validator.of schema' graph').assign := by
  have hu' : Unambiguous schema' graph' := hu.of_reorders hschema hgraph
  have hids (id : EntityId) : id ∈ graph'.ids ↔ id ∈ graph.ids := (hgraph.map Prod.fst).mem_iff.symm
  by_cases hall : ∀ id ∈ graph.ids, CanBeSome schema graph id
  · have hall' (id : EntityId) (hid : id ∈ graph'.ids) : CanBeSome schema' graph' id :=
      (canBeSome_iff_of_reorders hschema hgraph).1 (hall id ((hids id).1 hid))
    obtain ⟨index, hassign, -, hget⟩ :=
      (Validator.of schema graph).assign_of_forall_canBeSome hu hall
    obtain ⟨index', hassign', -, hget'⟩ :=
      (Validator.of schema' graph').assign_of_forall_canBeSome hu' hall'
    rw [hassign, hassign']
    exact .ok (get?_eq_of_reorders hschema hgraph hget hget')
  · have hall' : ¬ ∀ id ∈ graph'.ids, CanBeSome schema' graph' id := fun hall' => hall fun id hid =>
      (canBeSome_iff_of_reorders hschema hgraph).2 (hall' id ((hids id).2 hid))
    obtain ⟨before, id, after, hsplit, hbefore, hid⟩ := exists_first_not_canBeSome hall
    obtain ⟨before', id', after', hsplit', hbefore', hid'⟩ := exists_first_not_canBeSome hall'
    have hassign : (Validator.of schema graph).assign = .error id :=
      Validator.assign_of_not_canBeSome hu hsplit hbefore hid
    have hassign' : (Validator.of schema' graph').assign = .error id' :=
      Validator.assign_of_not_canBeSome hu' hsplit' hbefore' hid'
    rw [hassign, hassign']
    exact .error id id'

end

/-! ## Telling That a Graph Is Unambiguous -/

namespace Validator

variable {v : Validator}

/-- The entity might be of the kind, for all that following references for some rounds shows. -/
def mightBe (v : Validator) : Nat → EntityId → String → Bool
  | 0, _, _ => true
  | rounds + 1, id, kind => (v.goalsOf id kind).any fun goals =>
    goals.all fun g => g.kinds.any fun k => v.mightBe rounds g.id k

/-- No number of rounds rules out what an entity can be. -/
theorem mightBe_of_canBe {rounds : Nat} {id : EntityId} {kind : String}
    (h : CanBe v.schema v.graph id kind) : v.mightBe rounds id kind := by
  induction rounds generalizing id kind with
  | zero => rfl
  | succ rounds ih =>
    obtain ⟨goals, hgoals, hmet⟩ := entityConforms_iff.1 (looseTyping_canBe _ _ id kind h)
    rw [mightBe, hgoals, Option.any_some, List.all_eq_true]
    intro g hg
    obtain ⟨k, hk, hcan⟩ := hmet g hg
    exact List.any_eq_true.2 ⟨k, hk, ih hcan⟩

end Validator

/-- A graph is unambiguous if some rounds rule out all kinds but one for each entity. -/
theorem unambiguous_of_mightBe {schema : Schema} {graph : EntityGraph} (rounds : Nat)
    (h : ∀ id ∈ graph.ids, ∀ kind ∈ schema.kindNames, ∀ kind' ∈ schema.kindNames,
      (Validator.of schema graph).mightBe rounds id kind →
      (Validator.of schema graph).mightBe rounds id kind' → kind = kind') :
    Unambiguous schema graph := by
  intro id kind kind' hkind hkind'
  exact h id hkind.mem_ids kind hkind.mem_kindNames kind' hkind'.mem_kindNames
    (Validator.mightBe_of_canBe (v := .of schema graph) hkind)
    (Validator.mightBe_of_canBe (v := .of schema graph) hkind')

/-! ## The Outcome of Validation -/

/-- The outcome of validation for an unambiguous graph. If every entity can be some kind, each gets
this one; otherwise the first that can be none is named. No order of declarations changes this, and
the order of the entities only changes the order of the index and which failure is named. -/
theorem assign_of_unambiguous {schema : Schema} {graph : EntityGraph}
    (hu : Unambiguous schema graph) :
    ((∀ id ∈ graph.ids, CanBeSome schema graph id) →
      ∃ index, (Validator.of schema graph).assign = .ok index ∧ index.keys = graph.ids ∧
        ∀ id kind, index.get? id = some kind ↔ CanBe schema graph id kind) ∧
    ((¬ ∀ id ∈ graph.ids, CanBeSome schema graph id) →
      ∃ before id after, graph.ids = before ++ id :: after ∧
        (∀ j ∈ before, CanBeSome schema graph j) ∧ ¬ CanBeSome schema graph id ∧
        (Validator.of schema graph).assign = .error id) ∧
    (∀ schema', schema.Reorders schema' →
      (Validator.of schema' graph).assign = (Validator.of schema graph).assign) ∧
    (∀ schema' graph', schema.Reorders schema' → graph.entries.Perm graph'.entries →
      SameOutcome (Validator.of schema graph).assign (Validator.of schema' graph').assign) := by
  refine ⟨fun hall => ?_, fun hall => ?_, fun schema' hschema => ?_,
    fun schema' graph' hschema hgraph => ?_⟩
  · exact (Validator.of schema graph).assign_of_forall_canBeSome hu hall
  · obtain ⟨before, id, after, hids, hbefore, hid⟩ := exists_first_not_canBeSome hall
    refine ⟨before, id, after, hids, hbefore, hid, ?_⟩
    exact Validator.assign_of_not_canBeSome hu hids hbefore hid
  · exact assign_eq_of_reorders hu hschema
  · exact sameOutcome_of_reorders hu hschema hgraph

/-- A schema with two kinds of peers that differ only in what they and their tags point at. -/
def peerSchema : Schema := .ofKinds [
  ("PeerA", .ofFields [("peer", .ref ["PeerA"]), ("tag", .ref ["TagA"])]),
  ("PeerB", .ofFields [("peer", .ref ["PeerB"]), ("tag", .ref ["TagA", "TagB"])]),
  ("TagA", .ofFields [("a", .number)]),
  ("TagB", .ofFields [("b", .number)])]

/-- Two peers that point at each other, one of which has a tag that only fits the second kind. -/
def peerGraph : EntityGraph := .ofMembers [
  ("x", .obj [("peer", RefToken.toJson ⟨⟨"y"⟩⟩), ("tag", RefToken.toJson ⟨⟨"s"⟩⟩)]),
  ("y", .obj [("peer", RefToken.toJson ⟨⟨"x"⟩⟩), ("tag", RefToken.toJson ⟨⟨"t"⟩⟩)]),
  ("s", .obj [("a", .num (.int 1))]),
  ("t", .obj [("b", .num (.int 2))])]

/-- The tag at the end of the references tells the kinds of both peers. -/
theorem unambiguous_peerGraph : Unambiguous peerSchema peerGraph :=
  unambiguous_of_mightBe 3 (by decide +kernel)

/-- The peers and their tags get the kinds that they can be. -/
theorem assign_peerGraph :
    Unambiguous peerSchema peerGraph ∧ (∀ id ∈ peerGraph.ids, CanBeSome peerSchema peerGraph id) ∧
      ∃ index, (Validator.of peerSchema peerGraph).assign = .ok index ∧
        index.keys = peerGraph.ids ∧
        ∀ id kind, index.get? id = some kind ↔ CanBe peerSchema peerGraph id kind := by
  have hall : ∀ id ∈ peerGraph.ids, CanBeSome peerSchema peerGraph id := by
    have hsome : (Validator.of peerSchema peerGraph).assign.toOption.isSome := by decide +kernel
    cases hassign : (Validator.of peerSchema peerGraph).assign with
    | error id =>
      rw [hassign] at hsome
      cases hsome
    | ok index => exact canBeSome_of_assign hassign
  exact ⟨unambiguous_peerGraph, hall, (assign_of_unambiguous unambiguous_peerGraph).1 hall⟩

end TypedGraph
