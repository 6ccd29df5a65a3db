import TypedGraph.Proofs.Validation.Matching

/-!
# Soundness of Validation

A binding that the search keeps is justified: the entity conforms to its kind, judged by the kinds
that the assignment gives when the search ends. A reference may have been accepted on a binding that
was still being checked. Such a binding is either kept, and then the reference stands, or taken back
together with everything bound after it, so that nothing justified by it is left.

## Main definitions

* `Grows`: an assignment has come to give more kinds, all new ones justified.

## Main results

* `grows_of_check` and `grows_of_meet`: the search only lets assignments grow;
* `consistent_of_assign`: the index of a whole graph types every entity of it consistently.
-/

namespace TypedGraph.Validator

variable {v : Validator}

/-- An assignment has grown: it keeps its kinds, and each entity with a new kind conforms to it
under the kinds that are given now. -/
structure Grows (v : Validator) (a a' : Assignment) : Prop where
  /-- The kinds given before are kept. -/
  le : a ≤ a'
  /-- A kind was given before or the entity conforms to it. -/
  conforms : ∀ id kind, a'.kind? id = some kind →
    a.kind? id = some kind ∨ EntityConforms v.schema v.graph a'.typing id kind

theorem Grows.refl (v : Validator) (a : Assignment) : v.Grows a a :=
  ⟨Assignment.le_refl a, fun _ _ h => .inl h⟩

theorem Grows.trans {a b c : Assignment} (hab : v.Grows a b) (hbc : v.Grows b c) :
    v.Grows a c := by
  refine ⟨Assignment.le_trans hab.le hbc.le, fun id kind h => ?_⟩
  -- what was justified in between stays justified, as more kinds keep conformance
  rcases hbc.conforms id kind h with hb | hc
  · rcases hab.conforms id kind hb with ha | hb
    · exact .inl ha
    · exact .inr (hb.mono hbc.le)
  · exact .inr hc

theorem Grows.met {a a' : Assignment} {g : RefGoal} (h : v.Grows a a') (hg : g.Met a.typing) :
    g.Met a'.typing :=
  hg.mono h.le

/-- Meeting goals lets the assignment grow to one that meets them, if checking does so on top of all
extensions. -/
theorem grows_of_meet_of {a₀ a a' : Assignment} {goals : List RefGoal}
    (hcheck : ∀ {b b' id kind}, a₀ ≤ b → v.check id kind b = (true, b') → v.Grows b b')
    (hle : a₀ ≤ a) (h : v.meet goals a = (true, a')) :
    v.Grows a a' ∧ ∀ g ∈ goals, g.Met a'.typing := by
  induction goals generalizing a with
  | nil =>
    cases h
    exact ⟨Grows.refl v _, by simp⟩
  | cons g goals ih =>
    rw [meet_cons] at h
    split at h
    · next b hfirst =>
      obtain ⟨before, kind, after, hkinds, -, hb⟩ := first_eq_true_iff.1 hfirst
      have hgrows := hcheck hle hb
      -- the first goal is met at once, and stays met while the other goals are
      obtain ⟨hrest, hmet⟩ := ih (Assignment.le_trans hle hgrows.le) h
      refine ⟨hgrows.trans hrest, List.forall_mem_cons.2 ⟨?_, hmet⟩⟩
      exact hrest.met ⟨kind, by simp [hkinds], kind?_of_check hb⟩
    · cases h

/-- An entity that gets a kind lets the assignment grow. -/
theorem grows_of_check {id : EntityId} {kind : String} {a a' : Assignment}
    (h : v.check id kind a = (true, a')) : v.Grows a a' := by
  induction a using v.bind_induction generalizing a' id kind with
  | bind a ih =>
    rcases check_eq_true_iff.1 h with ⟨-, rfl⟩ | ⟨hnone, goals, hgoals, hmeet⟩
    · exact Grows.refl v a'
    · obtain ⟨hgrows, hmet⟩ := grows_of_meet_of (fun hle hb => ih hnone hgoals hle hb)
        (Assignment.le_refl (a.bind id kind)) hmeet
      refine ⟨Assignment.le_trans (Assignment.le_bind kind hnone) hgrows.le, fun j k hj => ?_⟩
      rcases hgrows.conforms j k hj with hbind | hconforms
      · rcases Assignment.kind?_bind_cases hbind with ⟨rfl, rfl⟩ | hold
        · -- the entity itself: all goals that it opened are met in the end
          exact .inr (entityConforms_iff.2 ⟨goals, hgoals, hmet⟩)
        · exact .inl hold
      · exact .inr hconforms

/-- Meeting goals lets the assignment grow to one that meets them. -/
theorem grows_of_meet {a a' : Assignment} {goals : List RefGoal}
    (h : v.meet goals a = (true, a')) : v.Grows a a' ∧ ∀ g ∈ goals, g.Met a'.typing :=
  grows_of_meet_of (fun _ hb => grows_of_check hb) (Assignment.le_refl a) h

/-- Entities whose goals are met have kinds. -/
theorem exists_kind_of_meet_wholeGoals {ids : List EntityId} {a a' : Assignment}
    (h : v.meet (v.wholeGoals ids) a = (true, a')) :
    ∀ id ∈ ids, ∃ kind ∈ v.schema.kindNames, a'.kind? id = some kind := by
  intro id hid
  exact (grows_of_meet h).2 ⟨id, v.schema.kindNames⟩ (List.mem_map.2 ⟨id, hid, rfl⟩)

/-- An assignment that has grown from nothing is a loose typing. -/
theorem Grows.looseTyping {a : Assignment} (h : v.Grows ∅ a) :
    LooseTyping v.schema v.graph a.typing := by
  intro id kind hty
  rcases h.conforms id kind hty with hempty | hconforms
  · simp at hempty
  · exact hconforms

theorem contains_of_entityConforms {schema : Schema} {graph : EntityGraph} {typing : Typing}
    {id : EntityId} {kind : String} (h : EntityConforms schema graph typing id kind) :
    graph.contains id := by
  obtain ⟨s, members, -, hm, -⟩ := h
  rw [OrderedMap.contains, hm]
  rfl

/-- The index of an assignment that has grown from nothing gives the same kinds. -/
theorem Grows.get?_toIndex {a : Assignment} (h : v.Grows ∅ a) (id : EntityId) :
    (a.toIndex v.graph).get? id = a.kind? id := by
  rw [Assignment.get?_toIndex]
  by_cases hid : v.graph.contains id
  · rw [if_pos hid]
  · rw [if_neg hid]
    cases hkind : a.kind? id with
    | none => rfl
    | some kind => exact absurd (contains_of_entityConforms (h.looseTyping id kind hkind)) hid

/-- A graph gets an index exactly if all its entities get kinds. -/
theorem assign_eq_ok_iff {index : KindIndex} :
    v.assign = .ok index ↔
      ∃ a, v.meet (v.wholeGoals v.graph.ids) ∅ = (true, a) ∧ index = a.toIndex v.graph := by
  rw [assign]
  simp only [← assignAll_eq_ok_iff]
  cases v.assignAll v.graph.ids ∅ with
  | error id => simp [Except.map]
  | ok a => simp [Except.map, eq_comm]

/-- The whole graph has got kinds on an assignment that has grown from nothing. -/
theorem grows_of_assign {index : KindIndex} (h : v.assign = .ok index) :
    ∃ a, v.Grows ∅ a ∧ index = a.toIndex v.graph ∧
      ∀ id ∈ v.graph.ids, ∃ kind ∈ v.schema.kindNames, a.kind? id = some kind := by
  obtain ⟨a, hmeet, rfl⟩ := assign_eq_ok_iff.1 h
  exact ⟨a, (grows_of_meet hmeet).1, rfl, exists_kind_of_meet_wholeGoals hmeet⟩

/-- The index that a graph gets has the ids of the graph in order. -/
theorem keys_of_assign {index : KindIndex} (h : v.assign = .ok index) :
    index.keys = v.graph.ids := by
  obtain ⟨a, -, rfl, hkinds⟩ := grows_of_assign h
  refine Assignment.keys_toIndex fun id hid => ?_
  obtain ⟨kind, -, hkind⟩ := hkinds id hid
  exact ⟨kind, hkind⟩

/-- The kinds of the index are a loose typing. -/
theorem looseTyping_of_assign {index : KindIndex} (h : v.assign = .ok index) :
    LooseTyping v.schema v.graph (KindIndex.typing index) := by
  obtain ⟨a, hgrows, rfl, -⟩ := grows_of_assign h
  have htyping : KindIndex.typing (a.toIndex v.graph) = a.typing := by
    funext id kind
    rw [KindIndex.typing, hgrows.get?_toIndex, Assignment.typing]
  rw [htyping]
  exact hgrows.looseTyping

/-- Every entity conforms to the kind that it has in the index. -/
theorem entityConforms_of_assign {index : KindIndex} (h : v.assign = .ok index) {id : EntityId}
    (hid : id ∈ v.graph.ids) :
    ∃ kind, index.get? id = some kind ∧
      EntityConforms v.schema v.graph (KindIndex.typing index) id kind := by
  rw [← keys_of_assign h] at hid
  obtain ⟨kind, hkind⟩ := OrderedMap.mem_keys_iff.1 hid
  exact ⟨kind, hkind, looseTyping_of_assign h id kind hkind⟩

end Validator

/-- An outcome that is some value without regard to failures is this value. -/
theorem eq_ok_of_toOption {ε α : Type} {x : Except ε α} {a : α} (h : x.toOption = some a) :
    x = .ok a := by
  cases x with
  | error e => cases h
  | ok b => rw [Option.some.inj h]

/-- The index that a graph gets has the ids of the graph, each once and in order, and types the
graph consistently: every entity conforms to its kind under the kinds of the index. -/
theorem consistent_of_assign {schema : Schema} {graph : EntityGraph} {index : KindIndex}
    (h : (Validator.of schema graph).assign = .ok index) :
    index.keys = graph.ids ∧ index.keys.Nodup ∧
      ∀ id ∈ graph.ids, ∃ kind, index.get? id = some kind ∧
        EntityConforms schema graph (KindIndex.typing index) id kind :=
  ⟨Validator.keys_of_assign h, OrderedMap.keys_nodup _,
    fun _ hid => Validator.entityConforms_of_assign h hid⟩

/-- A schema with two kinds of wrappers, the first of which fits a wrapper of the other kind but for
what its tag points at. -/
def wrapperSchema : Schema := .ofKinds [
  ("Holder", .ofFields [("item", .ref ["Wrap1", "Wrap2"])]),
  ("Wrap1", .ofFields
    [("inner", .ref ["LeafA"]), ("owner", .ref ["Holder"]), ("tag", .ref ["TagA"])]),
  ("Wrap2", .ofFields
    [("inner", .ref ["LeafB"]), ("owner", .ref ["Holder"]), ("tag", .ref ["TagB"])]),
  ("LeafA", .ofFields [("v", .number)]),
  ("LeafB", .ofFields [("v", .number)]),
  ("TagA", .ofFields [("a", .number)]),
  ("TagB", .ofFields [("b", .number)])]

/-- A holder and its wrapper, which point at each other. Trying the wrapper as the first kind gives
the leaf a kind that is taken back. -/
def wrapperGraph : EntityGraph := .ofMembers [
  ("h", .obj [("item", RefToken.toJson ⟨⟨"w"⟩⟩)]),
  ("w", .obj [("inner", RefToken.toJson ⟨⟨"l"⟩⟩), ("owner", RefToken.toJson ⟨⟨"h"⟩⟩),
    ("tag", RefToken.toJson ⟨⟨"t"⟩⟩)]),
  ("l", .obj [("v", .num (.int 1))]),
  ("t", .obj [("b", .num (.int 2))])]

/-- The index of the holder and its wrapper. -/
def wrapperIndex : KindIndex :=
  .ofList [(⟨"h"⟩, "Holder"), (⟨"w"⟩, "Wrap2"), (⟨"l"⟩, "LeafB"), (⟨"t"⟩, "TagB")]

/-- The holder and its wrapper are typed consistently. -/
theorem consistent_wrapper :
    (Validator.of wrapperSchema wrapperGraph).assign = .ok wrapperIndex ∧
      wrapperIndex.keys = wrapperGraph.ids ∧ wrapperIndex.keys.Nodup ∧
      ∀ id ∈ wrapperGraph.ids, ∃ kind, wrapperIndex.get? id = some kind ∧
        EntityConforms wrapperSchema wrapperGraph (KindIndex.typing wrapperIndex) id kind := by
  have hassign : (Validator.of wrapperSchema wrapperGraph).assign = .ok wrapperIndex :=
    eq_ok_of_toOption (by decide +kernel)
  exact ⟨hassign, consistent_of_assign hassign⟩

end TypedGraph
