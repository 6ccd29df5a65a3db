import Mathlib.Data.List.Nodup
import TypedGraph.Proofs.Validation.Completeness

/-!
# Searches Led by a Plan

A plan says which kind each of some entities should get. A search that is led by a plan gives an
entity the kind of the plan whenever it comes to one without kind. The search that is actually made
takes the first kind that is accepted, and never reconsiders it. Both are the same exactly if
nothing diverts the search: wherever the plan leads, the kinds that are tried before that of the
plan are refused. So a search succeeds exactly if there is a plan that holds together and from which
nothing diverts it.

Nothing diverts the search from the plan to give each entity the first kind that it can be at all.
This is a plan if it asks for one kind only of each entity, as it does where no entity is pointed at
twice.

## Main definitions

* `Plan`: which kind entities should get;
* `Validator.Led`: where a search comes that is led by a plan;
* `Validator.UndivertedFrom`: nothing diverts a search from a plan;
* `Validator.Prefers`: the kinds that a check comes to if entities get the first kind that they can
  be;
* `Validator.Settled`: these kinds are one for each entity;
* `Validator.Branching`: some entities point at each other only, at none of them twice, and at the
  first one not at all.

## Main results

* `Validator.fst_meet_eq_true_iff`: a search succeeds exactly if nothing diverts it from some plan;
* `Validator.fst_check_of_settled`: a check succeeds if the preferred kinds are one for each entity;
* `Validator.settled_of_branching`: they are where no entity is pointed at twice.
-/

namespace TypedGraph

/-- Which kind each of some entities should get. -/
abbrev Plan := EntityId → Option String

/-- The typing of a plan. -/
def Plan.typing (plan : Plan) : Typing := fun id kind => plan id = some kind

/-- An assignment gives only kinds of a plan. -/
def Assignment.Follows (a : Assignment) (plan : Plan) : Prop :=
  ∀ id kind, a.kind? id = some kind → plan id = some kind

theorem Assignment.follows_empty (plan : Plan) : (∅ : Assignment).Follows plan := by
  intro id kind h
  simp at h

theorem Assignment.Follows.bind {a : Assignment} {plan : Plan} {id : EntityId} {kind : String}
    (h : a.Follows plan) (hid : plan id = some kind) : (a.bind id kind).Follows plan := by
  intro j k hj
  rcases Assignment.kind?_bind_cases hj with ⟨rfl, rfl⟩ | hold
  · exact hid
  · exact h j k hold

/-! ## Kinds Before a Kind -/

/-- The kinds before one that is in a list, this one, and the rest. -/
theorem exists_eq_takeWhile_append {kind : String} {kinds : List String} (h : kind ∈ kinds) :
    ∃ rest, kinds = kinds.takeWhile (· ≠ kind) ++ kind :: rest := by
  induction kinds with
  | nil => cases h
  | cons k kinds ih =>
    by_cases hk : k = kind
    · subst hk
      exact ⟨kinds, by simp⟩
    · obtain ⟨rest, hrest⟩ := ih ((List.mem_cons.1 h).resolve_left (Ne.symm hk))
      refine ⟨rest, ?_⟩
      rw [List.takeWhile_cons_of_pos (by simpa using hk), List.cons_append, ← hrest]

/-- Only kinds before an occurrence of a kind come before its first one. -/
theorem mem_of_mem_takeWhile {kind k : String} {before after : List String}
    (h : k ∈ (before ++ kind :: after).takeWhile (· ≠ kind)) : k ∈ before := by
  induction before with
  | nil => simp at h
  | cons j before ih =>
    rw [List.cons_append, List.takeWhile_cons] at h
    split at h
    · rcases List.mem_cons.1 h with rfl | hrest
      · exact List.mem_cons_self
      · exact List.mem_cons_of_mem _ (ih hrest)
    · cases h

namespace Validator

variable {v : Validator} {plan : Plan} {start : List RefGoal}

/-! ## The Search Led by a Plan -/

/-- Goals and assignments that a search comes to if it is led by a plan: it passes over entities
that have kinds, and gives the kind of the plan to the others. -/
inductive Led (v : Validator) (plan : Plan) (start : List RefGoal) :
    List RefGoal → Assignment → Prop where
  /-- The search begins with no kinds. -/
  | start : Led v plan start start ∅
  /-- An entity with a kind is passed over. -/
  | pass {id : EntityId} {kinds : List String} {goals : List RefGoal} {a : Assignment}
    {kind : String} (h : Led v plan start (⟨id, kinds⟩ :: goals) a)
    (hid : a.kind? id = some kind) : Led v plan start goals a
  /-- An entity without kind gets that of the plan, and its own goals come first. -/
  | follow {id : EntityId} {kinds : List String} {goals inner : List RefGoal} {a : Assignment}
    {kind : String} (h : Led v plan start (⟨id, kinds⟩ :: goals) a) (hid : a.kind? id = none)
    (hkind : plan id = some kind) (hgoals : v.goalsOf id kind = some inner) :
    Led v plan start (inner ++ goals) (a.bind id kind)

/-- Wherever a search comes that is led by a plan, the entity gets none of the kinds that are tried
before that of the plan. -/
def UndivertedFrom (v : Validator) (plan : Plan) (start : List RefGoal) : Prop :=
  ∀ id kinds goals a kind, v.Led plan start (⟨id, kinds⟩ :: goals) a → a.kind? id = none →
    plan id = some kind → ∀ k ∈ kinds.takeWhile (· ≠ kind), (v.check id k a).1 = false

/-- A search that comes to an end with kinds of a plan, from goals that are first those of one
entity. -/
theorem exists_check_of_meet_cons {id : EntityId} {kinds : List String} {goals : List RefGoal}
    {a a' : Assignment} (h : v.meet (⟨id, kinds⟩ :: goals) a = (true, a'))
    (hplan : a'.Follows plan) :
    ∃ before kind after b, kinds = before ++ kind :: after ∧ plan id = some kind ∧
      (∀ k ∈ before, (v.check id k a).1 = false) ∧ v.check id kind a = (true, b) ∧
      v.meet goals b = (true, a') := by
  rw [meet_cons] at h
  split at h
  · next b hfirst =>
    obtain ⟨before, kind, after, hkinds, hbefore, hb⟩ := first_eq_true_iff.1 hfirst
    have hleb := le_meet v goals b
    rw [h] at hleb
    have hkind := hplan id kind (hleb id kind (kind?_of_check hb))
    exact ⟨before, kind, after, b, hkinds, hkind, hbefore, hb, h⟩
  · cases h

theorem meet_append {goals goals' : List RefGoal} {a b a' : Assignment}
    (h : v.meet goals a = (true, b)) (h' : v.meet goals' b = (true, a')) :
    v.meet (goals ++ goals') a = (true, a') := by
  induction goals generalizing a with
  | nil =>
    cases h
    exact h'
  | cons g goals ih =>
    rw [meet_cons] at h
    rw [List.cons_append, meet_cons]
    split
    · next c hfirst =>
      rw [hfirst] at h
      exact ih h
    · next c hfirst =>
      rw [hfirst] at h
      cases h

/-- If the whole search ends with kinds of a plan, so does it from wherever the plan leads. -/
theorem meet_of_led {goals : List RefGoal} {a a' : Assignment}
    (hall : v.meet start ∅ = (true, a')) (hplan : a'.Follows plan)
    (h : v.Led plan start goals a) : v.meet goals a = (true, a') := by
  induction h with
  | start => exact hall
  | pass h hid ih =>
    -- an entity that has a kind is accepted without a change
    obtain ⟨before, kind, after, b, -, -, -, hb, hmeet⟩ := exists_check_of_meet_cons ih hplan
    rw [check_of_known hid] at hb
    cases (Prod.mk.inj hb).2
    exact hmeet
  | follow h hid hkind hgoals ih =>
    -- the kind that is accepted can only be that of the plan, as it is kept to the end
    obtain ⟨before, kind, after, b, -, hkind', -, hb, hmeet⟩ := exists_check_of_meet_cons ih hplan
    cases hkind.symm.trans hkind'
    rcases check_eq_true_iff.1 hb with ⟨hknown, -⟩ | ⟨-, inner, hinner, hb⟩
    · rw [hid] at hknown
      cases hknown
    · cases hgoals.symm.trans hinner
      exact meet_append hb hmeet

/-- A search that ends with kinds of a plan was not diverted from it. -/
theorem undivertedFrom_of_meet {a' : Assignment} (hall : v.meet start ∅ = (true, a'))
    (hplan : a'.Follows plan) : v.UndivertedFrom plan start := by
  intro id kinds goals a kind hled hid hkind k hk
  have hmeet := meet_of_led hall hplan hled
  obtain ⟨before, kind', after, b, rfl, hkind', hbefore, -, -⟩ :=
    exists_check_of_meet_cons hmeet hplan
  cases hkind.symm.trans hkind'
  exact hbefore k (mem_of_mem_takeWhile hk)

/-- Where a plan leads, goals that it meets are met with kinds of the plan if nothing diverts the
search. -/
theorem exists_meet_of_undivertedFrom (hu : v.UndivertedFrom plan start)
    (hloose : LooseTyping v.schema v.graph plan.typing) {goals rest : List RefGoal}
    {a : Assignment} (hled : v.Led plan start (goals ++ rest) a) (ha : a.Follows plan)
    (hmet : ∀ g ∈ goals, g.Met plan.typing) :
    ∃ a', v.meet goals a = (true, a') ∧ a'.Follows plan ∧ v.Led plan start rest a' := by
  -- an entity that gets a kind opens goals of its own, so the induction on the goals is inside one
  -- on the bindings
  induction a using v.bind_induction generalizing goals rest with
  | bind a ih =>
    induction goals with
    | nil => exact ⟨a, rfl, ha, hled⟩
    | cons g goals ihgoals =>
      obtain ⟨id, kinds⟩ := g
      obtain ⟨⟨kind, hmem, hkind⟩, hgoals⟩ := List.forall_mem_cons.1 hmet
      cases hid : a.kind? id with
      | some bound =>
        -- the entity has the kind of the plan already, which meets the goal
        cases (ha id bound hid).symm.trans hkind
        obtain ⟨a', hmeet, ha', hrest⟩ := ihgoals (.pass hled hid) hgoals
        refine ⟨a', ?_, ha', hrest⟩
        rw [meet_cons, first_of_known hid hmem]
        exact hmeet
      | none =>
        obtain ⟨inner, hinner, hinnerMet⟩ := entityConforms_iff.1 (hloose id kind hkind)
        have hfollow : v.Led plan start (inner ++ (goals ++ rest)) (a.bind id kind) :=
          .follow hled hid hkind hinner
        have hnext {b : Assignment} := ih (b := b) hid hinner
        obtain ⟨b, hb, hplanb, hledb⟩ :=
          hnext (Assignment.le_refl _) hfollow (ha.bind hkind) hinnerMet
        have hbound := le_meet v inner (a.bind id kind)
        rw [hb] at hbound
        obtain ⟨a', hmeet, ha', hrest⟩ := hnext hbound hledb hplanb hgoals
        refine ⟨a', ?_, ha', hrest⟩
        -- no earlier kind diverts the search, and the kind of the plan is accepted
        obtain ⟨after, hafter⟩ := exists_eq_takeWhile_append hmem
        have hfirst : Check.first v.check id kinds a = (true, b) := by
          refine first_eq_true_iff.2 ⟨_, kind, after, hafter, ?_, ?_⟩
          · exact hu id kinds (goals ++ rest) a kind hled hid hkind
          · exact check_eq_true_iff.2 (.inr ⟨hid, inner, hinner, hb⟩)
        rw [meet_cons, hfirst]
        exact hmeet

/-- Goals that a plan meets are met with kinds of the plan if nothing diverts the search. -/
theorem exists_meet_start (hu : v.UndivertedFrom plan start)
    (hloose : LooseTyping v.schema v.graph plan.typing) (hmet : ∀ g ∈ start, g.Met plan.typing) :
    ∃ a, v.meet start ∅ = (true, a) ∧ a.Follows plan := by
  have hled : v.Led plan start (start ++ []) ∅ := by
    rw [List.append_nil]
    exact .start
  obtain ⟨a, hmeet, ha, -⟩ :=
    exists_meet_of_undivertedFrom hu hloose hled (Assignment.follows_empty plan) hmet
  exact ⟨a, hmeet, ha⟩

/-- A search succeeds exactly if nothing diverts it from some plan that holds together and meets the
goals. -/
theorem fst_meet_eq_true_iff :
    (v.meet start ∅).1 = true ↔ ∃ plan : Plan, LooseTyping v.schema v.graph plan.typing ∧
      (∀ g ∈ start, g.Met plan.typing) ∧ v.UndivertedFrom plan start := by
  constructor
  · intro h
    have hmeet : v.meet start ∅ = (true, (v.meet start ∅).2) := Prod.ext h rfl
    obtain ⟨hgrows, hmet⟩ := grows_of_meet hmeet
    -- the plan is what the search has come to
    exact ⟨(v.meet start ∅).2.kind?, hgrows.looseTyping, hmet,
      undivertedFrom_of_meet hmeet fun _ _ hkind => hkind⟩
  · rintro ⟨plan, hloose, hmet, hu⟩
    obtain ⟨a, hmeet, -⟩ := exists_meet_start hu hloose hmet
    rw [hmeet]

theorem fst_meet_singleton (id : EntityId) (kind : String) (a : Assignment) :
    (v.meet [⟨id, [kind]⟩] a).1 = (v.check id kind a).1 := by
  rw [meet_cons, Check.first]
  cases v.check id kind a with
  | mk ok b => cases ok <;> rfl

/-- A check succeeds exactly if nothing diverts it from some plan that holds together and gives the
entity the kind. -/
theorem fst_check_eq_true_iff {id : EntityId} {kind : String} :
    (v.check id kind ∅).1 = true ↔ ∃ plan : Plan, plan id = some kind ∧
      LooseTyping v.schema v.graph plan.typing ∧ v.UndivertedFrom plan [⟨id, [kind]⟩] := by
  rw [← fst_meet_singleton, fst_meet_eq_true_iff]
  refine exists_congr fun plan => ?_
  have hmet : (∀ g ∈ [(⟨id, [kind]⟩ : RefGoal)], g.Met plan.typing) ↔ plan id = some kind := by
    simp [RefGoal.Met, Plan.typing]
  rw [hmet]
  exact and_left_comm

/-! ## Preferred Kinds -/

/-- The kind is the first one of a goal that the entity can be at all. -/
def FirstPossible (v : Validator) (g : RefGoal) (kind : String) : Prop :=
  ∃ before after, g.kinds = before ++ kind :: after ∧ CanBe v.schema v.graph g.id kind ∧
    ∀ k ∈ before, ¬ CanBe v.schema v.graph g.id k

theorem FirstPossible.unique {g : RefGoal} {kind kind' : String} (h : v.FirstPossible g kind)
    (h' : v.FirstPossible g kind') : kind = kind' := by
  obtain ⟨before, after, hkinds, hcan, hnone⟩ := h
  obtain ⟨before', after', hkinds', hcan', hnone'⟩ := h'
  -- one of the kinds would stand before the other
  obtain ⟨mid, hmid, hrest⟩ | ⟨mid, hmid, hrest⟩ :=
    List.append_eq_append_iff.1 (hkinds.symm.trans hkinds')
  · cases mid with
    | nil => exact (List.cons.inj hrest).1
    | cons k mid =>
      obtain ⟨rfl, -⟩ := List.cons.inj hrest
      exact absurd hcan (hnone' kind (by simp [hmid]))
  · cases mid with
    | nil => exact (List.cons.inj hrest).1.symm
    | cons k mid =>
      obtain ⟨rfl, -⟩ := List.cons.inj hrest
      exact absurd hcan' (hnone kind' (by simp [hmid]))

theorem exists_firstPossible {g : RefGoal} (h : g.Met (CanBe v.schema v.graph)) :
    ∃ kind, v.FirstPossible g kind := by
  obtain ⟨id, kinds⟩ := g
  induction kinds with
  | nil =>
    obtain ⟨kind, hmem, -⟩ := h
    cases hmem
  | cons k kinds ih =>
    by_cases hk : CanBe v.schema v.graph id k
    · exact ⟨k, [], kinds, rfl, hk, fun _ hj => absurd hj List.not_mem_nil⟩
    · obtain ⟨kind, hmem, hcan⟩ := h
      have hrest : kind ∈ kinds := (List.mem_cons.1 hmem).resolve_left fun heq => hk (heq ▸ hcan)
      obtain ⟨first, before, after, hkinds, hfirst, hnone⟩ := ih ⟨kind, hrest, hcan⟩
      refine ⟨first, k :: before, after, ?_, hfirst, List.forall_mem_cons.2 ⟨hk, hnone⟩⟩
      exact congrArg (k :: ·) hkinds

/-- A plan gives the entity that a goal refers to the first kind of the goal that it can be. -/
def Favours (v : Validator) (plan : Plan) (g : RefGoal) : Prop :=
  ∃ kind, plan g.id = some kind ∧ v.FirstPossible g kind

/-- Nothing diverts a search from a plan that gives all entities the first kinds that they can be:
kinds that they cannot be are refused. -/
theorem undivertedFrom_of_favours
    (hcan : ∀ id kind, plan id = some kind → CanBe v.schema v.graph id kind)
    (hstart : ∀ g ∈ start, v.Favours plan g)
    (hgoals : ∀ id kind goals, plan id = some kind → v.goalsOf id kind = some goals →
      ∀ g ∈ goals, v.Favours plan g) : v.UndivertedFrom plan start := by
  -- Along a led walk the assignment stays on the plan, and the goals still to come favour it.
  have hled {goals : List RefGoal} {a : Assignment} (h : v.Led plan start goals a) :
      a.Follows plan ∧ ∀ g ∈ goals, v.Favours plan g := by
    induction h with
    | start => exact ⟨Assignment.follows_empty plan, hstart⟩
    | pass _ _ ih => exact ⟨ih.1, (List.forall_mem_cons.1 ih.2).2⟩
    | follow _ _ hkind hinner ih =>
      refine ⟨ih.1.bind hkind, fun g hg => ?_⟩
      rcases List.mem_append.1 hg with hnew | hold
      · exact hgoals _ _ _ hkind hinner g hnew
      · exact (List.forall_mem_cons.1 ih.2).2 g hold
  intro id kinds goals a kind h hid hkind k hk
  obtain ⟨ha, hfavours⟩ := hled h
  obtain ⟨kind', hkind', before, after, hkinds, -, hnone⟩ :=
    hfavours ⟨id, kinds⟩ List.mem_cons_self
  cases hkind.symm.trans hkind'
  cases hkinds
  cases hcheck : v.check id k a with
  | mk ok a' =>
    cases ok with
    | false => rfl
    | true =>
      -- Had an earlier kind been accepted it would be one the entity can be, and the favoured goal
      -- lists none of those before the planned kind.
      have hpossible : v.Possible a := fun j i hj => hcan j i (ha j i hj)
      exact absurd (canBe_of_check hpossible hcheck) (hnone k (mem_of_mem_takeWhile hk))

/-- The kinds that a check comes to if it gives every entity the first kind that it can be: the kind
that is asked for, and what the goals of such entities come to. -/
inductive Prefers (v : Validator) (id : EntityId) (kind : String) : EntityId → String → Prop where
  | root : Prefers v id kind id kind
  | goal {j : EntityId} {k : String} {goals : List RefGoal} {g : RefGoal} {first : String}
    (h : Prefers v id kind j k) (hgoals : v.goalsOf j k = some goals) (hg : g ∈ goals)
    (hfirst : v.FirstPossible g first) : Prefers v id kind g.id first

theorem Prefers.canBe {id j : EntityId} {kind k : String} (h : v.Prefers id kind j k)
    (hcan : CanBe v.schema v.graph id kind) : CanBe v.schema v.graph j k := by
  cases h with
  | root => exact hcan
  | goal _ _ _ hfirst =>
    obtain ⟨-, -, -, hcan', -⟩ := hfirst
    exact hcan'

/-- The kinds that a check prefers are one for each entity. -/
def Settled (v : Validator) (id : EntityId) (kind : String) : Prop :=
  ∀ j k k', v.Prefers id kind j k → v.Prefers id kind j k' → k = k'

/-- Preferred kinds that are one for each entity are a plan. -/
theorem Settled.exists_plan {id : EntityId} {kind : String} (h : v.Settled id kind) :
    ∃ plan : Plan, ∀ j k, plan j = some k ↔ v.Prefers id kind j k := by
  classical
  refine ⟨fun j => if hj : ∃ k, v.Prefers id kind j k then some hj.choose else none, fun j k => ?_⟩
  show (if hj : ∃ k, v.Prefers id kind j k then some hj.choose else none) = some k ↔ _
  by_cases hj : ∃ k, v.Prefers id kind j k
  · rw [dif_pos hj, Option.some.injEq]
    constructor
    · intro heq
      exact heq ▸ hj.choose_spec
    · intro hk
      exact h j _ _ hj.choose_spec hk
  · rw [dif_neg hj]
    constructor
    · intro hnone
      cases hnone
    · intro hk
      exact absurd ⟨k, hk⟩ hj

/-- An entity that can be a kind gets it if the preferred kinds are one for each entity. -/
theorem fst_check_of_settled {id : EntityId} {kind : String}
    (hcan : CanBe v.schema v.graph id kind) (h : v.Settled id kind) :
    (v.check id kind ∅).1 = true := by
  obtain ⟨plan, hplan⟩ := h.exists_plan
  have hfirst (j : EntityId) (k : String) (goals : List RefGoal) (hjk : plan j = some k)
      (hgoals : v.goalsOf j k = some goals) (g : RefGoal) (hg : g ∈ goals) : v.Favours plan g := by
    have hprefers := (hplan j k).1 hjk
    -- the entity can be its kind, so that what it points at can be some kind of the goal
    obtain ⟨goals', hgoals', hmet⟩ :=
      entityConforms_iff.1 (looseTyping_canBe _ _ j k (hprefers.canBe hcan))
    cases hgoals.symm.trans hgoals'
    obtain ⟨first, hfirst⟩ := exists_firstPossible (hmet g hg)
    exact ⟨first, (hplan _ _).2 (.goal hprefers hgoals hg hfirst), hfirst⟩
  have hroot : plan id = some kind := (hplan id kind).2 .root
  refine fst_check_eq_true_iff.2 ⟨plan, hroot, fun j k hjk => ?_, ?_⟩
  · have hjcan := ((hplan j k).1 hjk).canBe hcan
    obtain ⟨goals, hgoals, -⟩ := entityConforms_iff.1 (looseTyping_canBe _ _ j k hjcan)
    refine entityConforms_iff.2 ⟨goals, hgoals, fun g hg => ?_⟩
    obtain ⟨first, hget, before, after, hkinds, -, -⟩ := hfirst j k goals hjk hgoals g hg
    exact ⟨first, by simp [hkinds], hget⟩
  · refine undivertedFrom_of_favours (fun j k hjk => ((hplan j k).1 hjk).canBe hcan) ?_ hfirst
    intro g hg
    rw [List.mem_singleton.1 hg]
    exact ⟨kind, hroot, [], [], rfl, hcan, fun _ hk => absurd hk List.not_mem_nil⟩

/-! ## Branching Graphs -/

/-- Some entities, the first one among them, point at nothing else, and at each of them at most
once; nothing points at the first one. This is so for whatever kinds the entities are taken for. -/
structure Branching (v : Validator) (id : EntityId) (ids : List EntityId) : Prop where
  /-- The first entity is one of them. -/
  mem : id ∈ ids
  /-- They point only at each other, and not at the first one. -/
  closed : ∀ j ∈ ids, ∀ k ∈ v.schema.kindNames, ∀ goals ∈ v.goalsOf j k,
    ∀ g ∈ goals, g.id ∈ ids ∧ g.id ≠ id
  /-- Only one entity points at each of them. -/
  owner : ∀ j ∈ ids, ∀ k ∈ v.schema.kindNames, ∀ goals ∈ v.goalsOf j k,
    ∀ j' ∈ ids, ∀ k' ∈ v.schema.kindNames, ∀ goals' ∈ v.goalsOf j' k',
      ∀ g ∈ goals, ∀ g' ∈ goals', g.id = g'.id → j = j'
  /-- It does so once. -/
  once : ∀ j ∈ ids, ∀ k ∈ v.schema.kindNames, ∀ goals ∈ v.goalsOf j k,
    (goals.map RefGoal.id).Nodup

theorem mem_kindNames_of_goalsOf {id : EntityId} {kind : String} {goals : List RefGoal}
    (h : v.goalsOf id kind = some goals) : kind ∈ v.schema.kindNames := by
  obtain ⟨s, entity, hs, -, -⟩ := goalsOf_eq_some_iff.1 h
  exact OrderedMap.mem_keys_iff.2 ⟨s, hs⟩

/-- A preferred kind is the one that is asked for, or comes of a goal. -/
theorem Prefers.eq_or_exists_goal {id i : EntityId} {kind first : String}
    (h : v.Prefers id kind i first) :
    (i = id ∧ first = kind) ∨ ∃ j k goals g, v.Prefers id kind j k ∧ v.goalsOf j k = some goals ∧
      g ∈ goals ∧ g.id = i ∧ v.FirstPossible g first := by
  cases h with
  | root => exact .inl ⟨rfl, rfl⟩
  | goal h hgoals hg hfirst => exact .inr ⟨_, _, _, _, h, hgoals, hg, rfl, hfirst⟩

theorem Branching.mem_of_prefers {id i : EntityId} {ids : List EntityId} {kind first : String}
    (h : v.Branching id ids) (hi : v.Prefers id kind i first) : i ∈ ids := by
  induction hi with
  | root => exact h.mem
  | goal _ hgoals hg _ ih =>
    exact (h.closed _ ih _ (mem_kindNames_of_goalsOf hgoals) _ hgoals _ hg).1

/-- Where no entity is pointed at twice, the preferred kinds are one for each entity. -/
theorem settled_of_branching {id : EntityId} {ids : List EntityId} (h : v.Branching id ids)
    (kind : String) : v.Settled id kind := by
  intro i first first' hi hi'
  -- on how the check comes to the first kind; the entity that points at `i` is the same both times
  induction hi generalizing first' with
  | root =>
    obtain ⟨-, rfl⟩ | ⟨j, k, goals, g, hj, hgoals, hg, heq, -⟩ := hi'.eq_or_exists_goal
    · rfl
    · have hclosed :=
        h.closed j (h.mem_of_prefers hj) k (mem_kindNames_of_goalsOf hgoals) goals hgoals g hg
      exact absurd heq hclosed.2
  | @goal j k goals g first hj hgoals hg hfirst ih =>
    have hmem := h.mem_of_prefers hj
    have hk := mem_kindNames_of_goalsOf hgoals
    obtain ⟨heq, -⟩ | ⟨j', k', goals', g', hj', hgoals', hg', heq, hfirst'⟩ :=
      hi'.eq_or_exists_goal
    · exact absurd heq (h.closed j hmem k hk goals hgoals g hg).2
    · obtain rfl : j = j' :=
        h.owner j hmem k hk goals hgoals j' (h.mem_of_prefers hj') k'
          (mem_kindNames_of_goalsOf hgoals') goals' hgoals' g hg g' hg' heq.symm
      obtain rfl := ih _ hj'
      cases hgoals.symm.trans hgoals'
      obtain rfl : g' = g := List.inj_on_of_nodup_map (h.once j hmem k hk goals hgoals) hg' hg heq
      exact hfirst.unique hfirst'

end Validator

end TypedGraph
