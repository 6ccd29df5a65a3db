import TypedGraph.Proofs.Validation.Extension
import TypedGraph.Validation.Recursion

/-!
# The Search Frame by Frame

What the search does with a frame does not depend on the frames below: it meets the goals of the
frame one after the other, each with the first of its kinds that the entity can get, and then closes
the frame or lets it fail. So the search is a composition of `check`s, and statements on it need no
stack.

## Main definitions

* `goalsOf`: the goals that an entity of the graph opens when it gets a kind;
* `meet`: goals are met in order.

## Main results

* `resolve_eq`: resolving goals is meeting them, with all taken back on failure;
* `check_of_known` and `check_of_unknown`: an entity with a kind keeps it, and one without gets the
  kind if the goals that it opens can be met;
* `bind_induction`: statements on assignments follow from those on assignments that bind more;
* `check_false`: a kind that an entity cannot get leaves the assignment as it was.
-/

namespace TypedGraph.Validator

variable {v : Validator}

/-! ## Ends of Searches -/

/-- A search that has come to some progress ends with an outcome. -/
inductive Ends (v : Validator) : Progress → Bool × Assignment → Prop
  | done (ok : Bool) (a : Assignment) : Ends v (.done ok a) (ok, a)
  | next {a : Assignment} {stack : List Frame} {out : Bool × Assignment}
      (h : Ends v (v.advance a stack) out) : Ends v (.next a stack) out

/-- A search ends in one way only. -/
theorem Ends.unique {p : Progress} {out out' : Bool × Assignment} (h : v.Ends p out)
    (h' : v.Ends p out') : out = out' := by
  induction h with
  | done ok a => cases h'; rfl
  | next _ ih => cases h' with
    | next h' => exact ih h'

/-- A run of a search gives the outcome with which the search ends. -/
theorem ends_run {a : Assignment} {stack : List Frame} (hn : v.Nested a stack) :
    v.Ends (.next a stack) (v.run a stack hn) := by
  fun_induction v.run a stack hn with
  | case1 a stack hn ok a' hs =>
    refine .next ?_
    rw [hs]
    exact .done ok a'
  | case2 a stack hn a' stack' hs ih =>
    refine .next ?_
    rw [hs]
    exact ih

theorem run_eq_of_ends {a : Assignment} {stack : List Frame} {out : Bool × Assignment}
    (hn : v.Nested a stack) (h : v.Ends (.next a stack) out) : v.run a stack hn = out :=
  (ends_run hn).unique h

/-! ## Meeting the Goals of a Frame -/

/-- Meets goals in order, each with the first of its kinds that the entity can get. -/
def meet (v : Validator) : List RefGoal → Assignment → Bool × Assignment :=
  Check.each fun g => Check.first v.check g.id g.kinds

@[simp]
theorem meet_nil (a : Assignment) : v.meet [] a = (true, a) := rfl

theorem meet_cons (g : RefGoal) (goals : List RefGoal) (a : Assignment) :
    v.meet (g :: goals) a =
      match Check.first v.check g.id g.kinds a with
      | (true, a') => v.meet goals a'
      | (false, a') => (false, a') := rfl

theorem le_first (v : Validator) (id : EntityId) (kinds : List String) (a : Assignment) :
    a ≤ (Check.first v.check id kinds a).2 := by
  induction kinds generalizing a with
  | nil => exact Assignment.le_refl a
  | cons kind kinds ih =>
    have hle := le_check v id kind a
    rw [Check.first]
    split
    · next hcheck => rwa [hcheck] at hle
    · next hcheck =>
      rw [hcheck] at hle
      exact Assignment.le_trans hle (ih _)

theorem le_meet (v : Validator) (goals : List RefGoal) (a : Assignment) :
    a ≤ (v.meet goals a).2 := by
  induction goals generalizing a with
  | nil => exact Assignment.le_refl a
  | cons g goals ih =>
    have hle := le_first v g.id g.kinds a
    rw [meet_cons]
    split
    · next hfirst =>
      rw [hfirst] at hle
      exact Assignment.le_trans hle (ih _)
    · next hfirst => rwa [hfirst] at hle

/-- Leaves a frame that was opened on top of an assignment, with what came of its goals. -/
def leaveFrame (before : Assignment) (rest : List Frame) : Bool × Assignment → Progress
  | (true, a) => closeFrame a rest
  | (false, _) => failFrame ⟨before, []⟩ rest

theorem ends_leaveFrame_nil (before : Assignment) (out : Bool × Assignment) :
    v.Ends (leaveFrame before [] out) (Check.orUndo before out) := by
  obtain ⟨ok, a⟩ := out
  cases ok <;> exact .done _ _

theorem meet_of_check {id : EntityId} {kind : String} {kinds : List String}
    {goals : List RefGoal} {a a' : Assignment} (h : v.check id kind a = (true, a')) :
    v.meet (⟨id, kind :: kinds⟩ :: goals) a = v.meet goals a' := by
  rw [meet_cons, Check.first, h]

theorem meet_of_not_check {id : EntityId} {kind : String} {kinds : List String}
    {goals : List RefGoal} {a a' : Assignment} (h : v.check id kind a = (false, a')) :
    v.meet (⟨id, kind :: kinds⟩ :: goals) a = v.meet (⟨id, kinds⟩ :: goals) a' := by
  rw [meet_cons, Check.first, h, meet_cons]

theorem check_of_settled {id : EntityId} {kind : String} {a : Assignment} {ok : Bool}
    (h : v.enter id kind a = .settled ok) : v.check id kind a = (ok, a) := by
  unfold check
  split
  · next hs =>
    rw [h] at hs
    cases hs
    rfl
  · next hs =>
    rw [h] at hs
    cases hs

/-- Opening a frame runs it on top of nothing. -/
theorem ends_check {id : EntityId} {kind : String} {a bound : Assignment} {goals : List RefGoal}
    (h : v.enter id kind a = .opened bound goals) :
    v.Ends (.next bound [⟨a, goals⟩]) (v.check id kind a) := by
  unfold check
  split
  · next hs =>
    rw [h] at hs
    cases hs
  · next hs =>
    rw [h] at hs
    cases hs
    exact ends_run _

/-- A frame is left with what came of its goals, whatever frames are below. -/
theorem ends_frame {a before : Assignment} {goals : List RefGoal} {rest : List Frame}
    {out : Bool × Assignment} (h : v.Ends (leaveFrame before rest (v.meet goals a)) out) :
    v.Ends (.next a (⟨before, goals⟩ :: rest)) out := by
  -- a goal may open a frame with goals of its own, so the outer induction is on the number of
  -- entities without kind; within it the goals and the kinds of the first goal are taken in turn
  induction hn : v.unbound a using Nat.strongRecOn generalizing a before goals rest out with
  | ind n ih =>
    subst hn
    induction goals with
    | nil => exact .next h
    | cons g goals ihgoals =>
      obtain ⟨id, kinds⟩ := g
      refine .next ?_
      induction kinds with
      -- no kind is left, so that the frame fails
      | nil => exact h
      | cons kind kinds ihkinds =>
        simp only [advance]
        cases henter : v.enter id kind a with
        | settled ok =>
          have hcheck := check_of_settled henter
          cases ok with
          | true =>
            rw [meet_of_check hcheck] at h
            exact ihgoals h
          | false =>
            rw [meet_of_not_check hcheck] at h
            exact .next (ihkinds h)
        | opened bound inner =>
          have hlt := unbound_opened_lt henter
          -- on its own, the new frame ends the way the check of the kind does
          have hcheck : v.check id kind a = Check.orUndo a (v.meet inner bound) :=
            (ends_check henter).unique (ih _ hlt (ends_leaveFrame_nil a _) rfl)
          -- below it the frame with the goal waits, which goes on with the outcome of the new frame
          refine ih _ hlt ?_ rfl
          cases hinner : v.meet inner bound with
          | mk ok a' =>
            rw [hinner] at hcheck
            cases ok with
            | true =>
              rw [meet_of_check hcheck] at h
              have hle := le_meet v inner bound
              rw [hinner] at hle
              exact ih _ (Nat.lt_of_le_of_lt (unbound_le_of_le hle) hlt) h rfl
            | false =>
              rw [meet_of_not_check hcheck] at h
              exact .next (ihkinds h)

/-! ## What Comes of Goals and Kinds -/

/-- A search that opens with one frame meets its goals, or goes back to where it was opened. -/
theorem run_singleton {a before : Assignment} {goals : List RefGoal}
    (hn : v.Nested a [⟨before, goals⟩]) :
    v.run a [⟨before, goals⟩] hn = Check.orUndo before (v.meet goals a) :=
  run_eq_of_ends hn (ends_frame (ends_leaveFrame_nil before _))

/-- Resolving goals is meeting them, with all taken back on failure. -/
theorem resolve_eq (a : Assignment) (goals : List RefGoal) :
    v.resolve a goals = Check.orUndo a (v.meet goals a) :=
  run_singleton (Nat.le_refl _)

/-- The goals that an entity of the graph opens when it gets a kind, if its own fields match. -/
def goalsOf (v : Validator) (id : EntityId) (kind : String) : Option (List RefGoal) := do
  v.collectFields (← v.schema.kind? kind) (← v.graph.get? id)

theorem goalsOf_eq_some_iff {id : EntityId} {kind : String} {goals : List RefGoal} :
    v.goalsOf id kind = some goals ↔
      ∃ s entity, v.schema.kind? kind = some s ∧ v.graph.get? id = some entity ∧
        v.collectFields s entity = some goals := by
  simp [goalsOf, Option.bind_eq_some_iff]

/-- Binding an entity that opens goals leaves fewer entities without kind. -/
theorem unbound_bind_of_goalsOf_lt {id : EntityId} {kind : String} {a : Assignment}
    {goals : List RefGoal} (h : a.kind? id = none) (hgoals : v.goalsOf id kind = some goals) :
    v.unbound (a.bind id kind) < v.unbound a := by
  obtain ⟨s, entity, -, he, -⟩ := goalsOf_eq_some_iff.1 hgoals
  exact unbound_bind_lt (OrderedMap.mem_keys_iff.2 ⟨entity, he⟩) h

/-- Induction on the number of entities without kind: what holds of an assignment as soon as it
holds of all those that extend it with an entity whose goals are open, holds of all assignments. -/
theorem bind_induction (v : Validator) {P : Assignment → Prop}
    (bind : ∀ a, (∀ {id kind goals b}, a.kind? id = none → v.goalsOf id kind = some goals →
      a.bind id kind ≤ b → P b) → P a) (a : Assignment) : P a := by
  induction hn : v.unbound a using Nat.strongRecOn generalizing a with
  | ind n ih =>
    subst hn
    refine bind a fun hnone hgoals hle => ih _ ?_ _ rfl
    exact Nat.lt_of_le_of_lt (unbound_le_of_le hle) (unbound_bind_of_goalsOf_lt hnone hgoals)

/-- An entity with a kind keeps it. -/
theorem check_of_known {id : EntityId} {bound : String} {a : Assignment}
    (h : a.kind? id = some bound) (kind : String) :
    v.check id kind a = (bound == kind, a) := by
  apply check_of_settled
  rw [enter, h]

/-- An entity without kind gets one if the goals that it opens can be met. -/
theorem check_of_unknown {id : EntityId} {kind : String} {a : Assignment} {goals : List RefGoal}
    (h : a.kind? id = none) (hgoals : v.goalsOf id kind = some goals) :
    v.check id kind a = Check.orUndo a (v.meet goals (a.bind id kind)) := by
  obtain ⟨s, entity, hs, he, hg⟩ := goalsOf_eq_some_iff.1 hgoals
  have henter : v.enter id kind a = .opened (a.bind id kind) goals := by
    simp only [enter, h, hs, v.entity?_eq, he, hg]
  exact (ends_check henter).unique (ends_frame (ends_leaveFrame_nil a _))

/-- An entity whose own fields do not match does not get the kind. -/
theorem check_of_goalsOf_eq_none {id : EntityId} {kind : String} {a : Assignment}
    (h : a.kind? id = none) (hgoals : v.goalsOf id kind = none) :
    v.check id kind a = (false, a) := by
  apply check_of_settled
  simp only [enter, h, v.entity?_eq]
  split
  · next s entity hs he =>
    split
    · next goals hg =>
      rw [goalsOf_eq_some_iff.2 ⟨s, entity, hs, he, hg⟩] at hgoals
      cases hgoals
    · rfl
  · rfl

theorem orUndo_eq_false {a a' : Assignment} {out : Bool × Assignment}
    (h : Check.orUndo a out = (false, a')) : a' = a := by
  obtain ⟨ok, b⟩ := out
  cases ok <;> cases h
  rfl

theorem fst_orUndo (a : Assignment) (out : Bool × Assignment) : (Check.orUndo a out).1 = out.1 := by
  obtain ⟨ok, b⟩ := out
  cases ok <;> rfl

theorem orUndo_eq_true_iff {a a' : Assignment} {out : Bool × Assignment} :
    Check.orUndo a out = (true, a') ↔ out = (true, a') := by
  obtain ⟨ok, b⟩ := out
  cases ok <;> simp [Check.orUndo]

/-- A kind that an entity cannot get leaves the assignment as it was. -/
theorem check_false {id : EntityId} {kind : String} {a a' : Assignment}
    (h : v.check id kind a = (false, a')) : a' = a := by
  cases hid : a.kind? id with
  | some bound =>
    rw [check_of_known hid] at h
    exact (congrArg Prod.snd h).symm
  | none =>
    cases hgoals : v.goalsOf id kind with
    | none =>
      rw [check_of_goalsOf_eq_none hid hgoals] at h
      exact (congrArg Prod.snd h).symm
    | some goals =>
      rw [check_of_unknown hid hgoals] at h
      exact orUndo_eq_false h

/-- An entity gets a kind exactly if it has it, or has none and the goals that it opens can be
met. -/
theorem check_eq_true_iff {id : EntityId} {kind : String} {a a' : Assignment} :
    v.check id kind a = (true, a') ↔
      (a.kind? id = some kind ∧ a' = a) ∨
      (a.kind? id = none ∧ ∃ goals, v.goalsOf id kind = some goals ∧
        v.meet goals (a.bind id kind) = (true, a')) := by
  cases hid : a.kind? id with
  | some bound =>
    rw [check_of_known hid, Prod.mk.injEq, beq_iff_eq]
    constructor
    · rintro ⟨rfl, rfl⟩
      exact .inl ⟨rfl, rfl⟩
    · rintro (⟨⟨⟩, rfl⟩ | ⟨⟨⟩, -⟩)
      exact ⟨rfl, rfl⟩
  | none =>
    cases hgoals : v.goalsOf id kind with
    | none => simp [check_of_goalsOf_eq_none hid hgoals]
    | some goals => simp [check_of_unknown hid hgoals, orUndo_eq_true_iff]

theorem kind?_of_check {id : EntityId} {kind : String} {a a' : Assignment}
    (h : v.check id kind a = (true, a')) : a'.kind? id = some kind := by
  rcases check_eq_true_iff.1 h with ⟨hid, rfl⟩ | ⟨-, goals, -, hmeet⟩
  · exact hid
  · have hle := le_meet v goals (a.bind id kind)
    rw [hmeet] at hle
    exact hle id kind (Assignment.kind?_bind_self a id kind)

/-- The first of some kinds that an entity gets is one that it gets, after those that it does not
get. -/
theorem first_eq_true_iff {id : EntityId} {kinds : List String} {a a' : Assignment} :
    Check.first v.check id kinds a = (true, a') ↔
      ∃ before kind after, kinds = before ++ kind :: after ∧
        (∀ k ∈ before, (v.check id k a).1 = false) ∧ v.check id kind a = (true, a') := by
  induction kinds with
  | nil => simp [Check.first]
  | cons k kinds ih =>
    rw [Check.first]
    split
    · next b hcheck =>
      -- the first kind is accepted, so it is the one
      constructor
      · intro h
        exact ⟨[], k, kinds, rfl, by simp, hcheck.trans h⟩
      · rintro ⟨_ | ⟨j, before⟩, kind, after, heq, hbefore, h⟩
        · cases heq
          exact hcheck.symm.trans h
        · cases heq
          have hk := hbefore k (by simp)
          rw [hcheck] at hk
          cases hk
    · next b hcheck =>
      -- the first kind is refused without a trace, and the others are tried on the same assignment
      rw [check_false hcheck, ih]
      constructor
      · rintro ⟨before, kind, after, rfl, hbefore, h⟩
        refine ⟨k :: before, kind, after, rfl, ?_, h⟩
        exact List.forall_mem_cons.2 ⟨by rw [hcheck], hbefore⟩
      · rintro ⟨_ | ⟨j, before⟩, kind, after, heq, hbefore, h⟩
        · cases heq
          rw [hcheck] at h
          cases h
        · cases heq
          exact ⟨before, kind, after, rfl, fun i hi => hbefore i (by simp [hi]), h⟩

/-- An entity that gets none of some kinds leaves the assignment as it was. -/
theorem first_eq_false_iff {id : EntityId} {kinds : List String} {a a' : Assignment} :
    Check.first v.check id kinds a = (false, a') ↔
      a' = a ∧ ∀ k ∈ kinds, (v.check id k a).1 = false := by
  induction kinds with
  | nil =>
    rw [Check.first, Prod.mk.injEq]
    exact ⟨fun h => ⟨h.2.symm, by simp⟩, fun h => ⟨rfl, h.1.symm⟩⟩
  | cons k kinds ih =>
    rw [Check.first, List.forall_mem_cons]
    split
    · next b hcheck => simp [hcheck]
    · next b hcheck => rw [check_false hcheck, ih, hcheck]; simp

/-- An entity with one of some kinds gets none of them anew. -/
theorem first_of_known {id : EntityId} {kind : String} {kinds : List String} {a : Assignment}
    (h : a.kind? id = some kind) (hkind : kind ∈ kinds) :
    Check.first v.check id kinds a = (true, a) := by
  induction kinds with
  | nil => cases hkind
  | cons k kinds ih =>
    rw [Check.first, check_of_known h]
    by_cases hk : kind = k
    · rw [hk, beq_self_eq_true]
    · rw [beq_eq_false_iff_ne.2 hk]
      exact ih ((List.mem_cons.1 hkind).resolve_left hk)

/-! ## Whole Graphs -/

theorem checkAny_eq_first (id : EntityId) (kinds : List String) (a : Assignment) :
    v.checkAny id kinds a = Check.first v.check id kinds a := by
  induction kinds generalizing a with
  | nil => rfl
  | cons kind kinds ih =>
    rw [checkAny, Check.first]
    split <;> simp [*]

/-- The goals that some entities get kinds of the schema. -/
def wholeGoals (v : Validator) (ids : List EntityId) : List RefGoal :=
  ids.map fun id => ⟨id, v.schema.kindNames⟩

/-- Giving kinds to all of some entities is meeting their goals. -/
theorem assignAll_eq_ok_iff {ids : List EntityId} {a a' : Assignment} :
    v.assignAll ids a = .ok a' ↔ v.meet (v.wholeGoals ids) a = (true, a') := by
  induction ids generalizing a with
  | nil => simp [assignAll, wholeGoals]
  | cons id ids ih =>
    have hcons : v.wholeGoals (id :: ids) = ⟨id, v.schema.kindNames⟩ :: v.wholeGoals ids := rfl
    rw [assignAll, hcons, meet_cons, checkAny_eq_first]
    cases Check.first v.check id v.schema.kindNames a with
    | mk ok b => cases ok <;> simp [ih]

end TypedGraph.Validator
