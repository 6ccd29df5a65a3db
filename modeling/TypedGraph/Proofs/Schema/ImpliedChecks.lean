import TypedGraph.Proofs.Schema.Implication
import TypedGraph.Proofs.Validation.Guidance

/-!
# Checks of Implied Kinds

If an entity passes the check of a kind, it conforms to all kinds that this one implies, once
entities may have several kinds. The check of an implied kind can fail nevertheless. It gives every
entity one kind only, and the first one that is accepted for good; an implied kind may look for
other kinds, or for the same ones in another order, so that an entity gets a kind that does not suit
what points at it later. Where no entity is pointed at twice, this cannot happen, and implications
are respected.

## Main results

* `looseTyping_of_check`: the kinds that a check gives, with all kinds that they imply, hold
  together;
* `impliedCheck_iff_undiverted`: when an entity that passes the check of a kind also passes that of
  an implied kind.
-/

namespace TypedGraph

variable {schema : Schema} {graph : EntityGraph} {id : EntityId} {source target : String}

/-- The kinds that a check gives, with all kinds that they imply, hold together. -/
theorem looseTyping_of_check {a : Assignment}
    (h : (Validator.of schema graph).check id source ∅ = (true, a)) :
    LooseTyping schema graph (a.typing.implied schema.analyze.matrix.holds) := by
  have hgrows := Validator.grows_of_check h
  exact looseTyping_implied schema.justified_analyze hgrows.looseTyping

/-- When an entity that passes the check of a kind also passes that of an implied kind. It conforms
to the implied kind in any case, by the kinds that the first check gives and those that they imply.
The second check passes exactly if nothing diverts it from some plan that gives each entity one
kind. Nothing does if the kinds that it prefers are one for each entity, and they are where no
entity is pointed at twice. -/
theorem impliedCheck_iff_undiverted {a : Assignment}
    (himplies : schema.analyze.implies source target)
    (hcheck : (Validator.of schema graph).check id source ∅ = (true, a)) :
    LooseTyping schema graph (a.typing.implied schema.analyze.matrix.holds) ∧
    a.typing.implied schema.analyze.matrix.holds id target ∧
    (((Validator.of schema graph).check id target ∅).1 = true ↔
      ∃ plan : Plan, plan id = some target ∧ LooseTyping schema graph plan.typing ∧
        (Validator.of schema graph).UndivertedFrom plan [⟨id, [target]⟩]) ∧
    ((Validator.of schema graph).Settled id target →
      ((Validator.of schema graph).check id target ∅).1 = true) ∧
    ∀ ids, (Validator.of schema graph).Branching id ids →
      ((Validator.of schema graph).check id target ∅).1 = true := by
  have hloose := looseTyping_of_check hcheck
  have hkind : a.typing.implied schema.analyze.matrix.holds id target :=
    .inr ⟨source, Validator.kind?_of_check hcheck, himplies⟩
  have hsettled (hs : (Validator.of schema graph).Settled id target) :
      ((Validator.of schema graph).check id target ∅).1 = true :=
    Validator.fst_check_of_settled ⟨_, hloose, hkind⟩ hs
  refine ⟨hloose, hkind, Validator.fst_check_eq_true_iff, hsettled, fun ids hb => ?_⟩
  exact hsettled (Validator.settled_of_branching hb target)

/-- A schema in which homes imply shelters, because cats imply pets. -/
def petSchema : Schema := .ofKinds [
  ("Cat", .ofFields [("name", .string)]),
  ("Pet", .ofFields [("name", .string), ("chip", .optional .string)]),
  ("Home", .ofFields [("first", .ref ["Cat"]), ("second", .ref ["Cat"])]),
  ("Shelter", .ofFields [("first", .ref ["Pet", "Cat"]), ("second", .ref ["Cat"])])]

/-- A home of two cats, and a home of one of them only. -/
def catGraph : EntityGraph := .ofMembers [
  ("a", .obj [("first", RefToken.toJson ⟨⟨"t"⟩⟩), ("second", RefToken.toJson ⟨⟨"f"⟩⟩)]),
  ("b", .obj [("first", RefToken.toJson ⟨⟨"t"⟩⟩), ("second", RefToken.toJson ⟨⟨"t"⟩⟩)]),
  ("t", .obj [("name", .str "Tom")]),
  ("f", .obj [("name", .str "Felix")])]

/-- The home of two cats points at each of them once, and passes for a shelter. -/
theorem impliedCheck_catGraph :
    petSchema.analyze.implies "Home" "Shelter" ∧
      ((Validator.of petSchema catGraph).check ⟨"a"⟩ "Home" ∅).1 = true ∧
      (Validator.of petSchema catGraph).Branching ⟨"a"⟩ [⟨"a"⟩, ⟨"t"⟩, ⟨"f"⟩] ∧
      ((Validator.of petSchema catGraph).check ⟨"a"⟩ "Shelter" ∅).1 = true := by
  have himplies : petSchema.analyze.implies "Home" "Shelter" := by decide +kernel
  have hcheck : ((Validator.of petSchema catGraph).check ⟨"a"⟩ "Home" ∅).1 = true := by
    decide +kernel
  have hbranching : (Validator.of petSchema catGraph).Branching ⟨"a"⟩ [⟨"a"⟩, ⟨"t"⟩, ⟨"f"⟩] :=
    ⟨by decide, by decide +kernel, by decide +kernel, by decide +kernel⟩
  obtain ⟨-, -, -, -, himplied⟩ := impliedCheck_iff_undiverted himplies (Prod.ext hcheck rfl)
  exact ⟨himplies, hcheck, hbranching, himplied _ hbranching⟩

/-- The home of one cat is no shelter: the cat is taken for a pet first, and not reconsidered. Taken
for a cat, it would suit both references. -/
theorem not_impliedCheck_catGraph :
    petSchema.danglingRefs = [] ∧ petSchema.analyze.implies "Home" "Shelter" ∧
      ((Validator.of petSchema catGraph).check ⟨"b"⟩ "Home" ∅).1 = true ∧
      ((Validator.of petSchema catGraph).check ⟨"b"⟩ "Shelter" ∅).1 = false ∧
      ((Validator.of petSchema catGraph).check ⟨"b"⟩ "Shelter"
        ((∅ : Assignment).bind ⟨"t"⟩ "Cat")).1 = true := by
  decide +kernel

/-- A schema in which twins have the field of nodes, and so are implied by them. -/
def twinSchema : Schema := .ofKinds [
  ("Node", .ofFields [("next", .ref ["Node"])]), ("Twin", .ofFields [("next", .ref ["Node"])])]

/-- A node that points at itself. -/
def loopGraph : EntityGraph := .ofMembers [("x", .obj [("next", RefToken.toJson ⟨⟨"x"⟩⟩)])]

/-- The node is no twin by any plan: it would have to stay a node as well, for its own sake. -/
theorem no_plan_loopGraph :
    twinSchema.analyze.implies "Node" "Twin" ∧
      ((Validator.of twinSchema loopGraph).check ⟨"x"⟩ "Node" ∅).1 = true ∧
      ¬ ∃ plan : Plan, plan ⟨"x"⟩ = some "Twin" ∧
        LooseTyping twinSchema loopGraph plan.typing := by
  refine ⟨by decide +kernel, by decide +kernel, ?_⟩
  rintro ⟨plan, htwin, hloose⟩
  have hgoals : (Validator.of twinSchema loopGraph).goalsOf ⟨"x"⟩ "Twin" =
      some [⟨⟨"x"⟩, ["Node"]⟩] := by decide +kernel
  obtain ⟨goals, hgoals', hmet⟩ :=
    (Validator.entityConforms_iff (v := .of twinSchema loopGraph)).1 (hloose _ _ htwin)
  cases hgoals.symm.trans hgoals'
  obtain ⟨kind, hkind, hnode⟩ := hmet _ (List.mem_singleton_self _)
  rw [List.mem_singleton.1 hkind] at hnode
  exact absurd (Option.some.inj (htwin.symm.trans hnode)) (by decide)

end TypedGraph
