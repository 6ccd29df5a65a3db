import TypedGraph.Proofs.Validation.InPlace
import TypedGraph.Proofs.Validation.Matching

/-!
# The Search and the Recursion

The search first matches an entity as far as it goes by itself, and then resolves all its references
on a stack. The recursion matches one value after the other and resolves a reference at the moment
it is met. They find failures in a different order, but a failure takes back everything, and as long
as nothing fails both meet the same goals in the same order. The loop that changes an assignment in
place has the outcome of the search, and so that of the recursion.

## Main definitions

* `Meets`: a part of a match meets the goals that are collected from it, or fails if there are none;
* `checkOnce`: one level of the recursion, on top of any check;
* `InPlace.answerByRecursion`: the recursion answers a call.

## Main results

* `meets_matchBy`: matching one reference after the other does what is collected;
* `check_eq_checkOnce`: the check of the search answers by recursion to itself;
* `checkOnce_congr`: a level of the recursion only asks for kinds when fewer entities are without;
* `search_eq_recursion`: the search and the recursion give the same answers and the same bindings;
* `InPlace.perform_eq_recursion`: so do calls on an assignment that changes in place.
-/

namespace TypedGraph

namespace Check

variable {α : Type} {part part' : α → Assignment → Bool × Assignment}

theorem each_cons (x : α) (xs : List α) (a : Assignment) :
    each part (x :: xs) a =
      match part x a with
      | (true, a') => each part xs a'
      | (false, a') => (false, a') := rfl

theorem each_append (xs ys : List α) (a : Assignment) :
    each part (xs ++ ys) a =
      match each part xs a with
      | (true, a') => each part ys a'
      | (false, a') => (false, a') := by
  induction xs generalizing a with
  | nil => rfl
  | cons x xs ih =>
    rw [List.cons_append, each_cons, each_cons]
    split
    · exact ih _
    · rfl

theorem le_each (hle : ∀ x a, a ≤ (part x a).2) (xs : List α) (a : Assignment) :
    a ≤ (each part xs a).2 := by
  induction xs generalizing a with
  | nil => exact Assignment.le_refl a
  | cons x xs ih =>
    have hx := hle x a
    rw [each_cons]
    split
    · next a' hpart =>
      rw [hpart] at hx
      exact Assignment.le_trans hx (ih a')
    · next a' hpart => rwa [hpart] at hx

/-- Two ways of doing the parts that agree from some assignment on give the same from there, as they
never go back behind it. -/
theorem each_congr {a₀ : Assignment} (hle : ∀ x a, a ≤ (part' x a).2)
    (heq : ∀ x a, a₀ ≤ a → part x a = part' x a) {a : Assignment} (ha : a₀ ≤ a) (xs : List α) :
    each part xs a = each part' xs a := by
  induction xs generalizing a with
  | nil => rfl
  | cons x xs ih =>
    have hx := hle x a
    rw [each_cons, each_cons, heq x a ha]
    split
    · next a' hpart =>
      rw [hpart] at hx
      exact ih (Assignment.le_trans ha hx)
    · rfl

theorem first_congr {check check' : Check} {a₀ : Assignment}
    (hle : ∀ id kind a, a ≤ (check' id kind a).2)
    (heq : ∀ id kind a, a₀ ≤ a → check id kind a = check' id kind a) {a : Assignment} (ha : a₀ ≤ a)
    (id : EntityId) (kinds : List String) :
    check.first id kinds a = check'.first id kinds a := by
  induction kinds generalizing a with
  | nil => rfl
  | cons kind kinds ih =>
    have hkind := hle id kind a
    rw [first, first, heq id kind a ha]
    split
    · rfl
    · next a' hcheck =>
      rw [hcheck] at hkind
      exact ih (Assignment.le_trans ha hkind)

end Check

namespace Validator

variable {v : Validator}

/-! ## Matching With the Check of the Search -/

/-- A part of a match does what has been collected from it: it meets the goals, or it fails. -/
def Meets (v : Validator) : Option (List RefGoal) → (Assignment → Bool × Assignment) → Prop
  | some goals, part => ∀ a, part a = v.meet goals a
  | none, part => ∀ a, (part a).1 = false

theorem meets_test (ok : Bool) : v.Meets (if ok then some [] else none) fun a => (ok, a) := by
  cases ok
  · exact fun a => rfl
  · exact fun a => rfl

/-- The parts of a list meet all their goals one after the other. If some part does not match by
itself then one of the parts fails, this one or an earlier one whose goals cannot be met. -/
theorem meets_each {α : Type} {part : α → Assignment → Bool × Assignment}
    {f : α → Option (List RefGoal)} (h : ∀ x, v.Meets (f x) (part x)) (l : List α) :
    v.Meets ((l.mapM f).map List.flatten) (Check.each part l) := by
  induction l with
  | nil => exact fun a => rfl
  | cons x l ih =>
    have hx := h x
    rw [List.mapM_cons]
    -- An element that collects no goals refuses under every assignment, and a later one that does
    -- so refuses the whole walk, whatever the goals before it have bound by then.
    cases hf : f x with
    | none =>
      rw [hf] at hx
      intro a
      rw [Check.each_cons]
      split
      · next a' hpart =>
        have hfalse := hx a
        rw [hpart] at hfalse
        cases hfalse
      · rfl
    | some goals =>
      rw [hf] at hx
      cases hl : l.mapM f with
      | none =>
        rw [hl] at ih
        intro a
        rw [Check.each_cons]
        split
        · next a' hpart => exact ih a'
        · rfl
      | some rest =>
        rw [hl] at ih
        intro a
        show Check.each part (x :: l) a = v.meet (goals ++ rest.flatten) a
        rw [meet, Check.each_append, ← meet, Check.each_cons, hx a]
        split
        · next a' hmeet => exact ih a'
        · rfl

/-- Matching a value one reference after the other does what is collected from it. The induction is
on the descriptor. -/
theorem meets_matchBy (v : Validator) (d : Descriptor) (value : Option Json) :
    v.Meets (v.collect d value) (v.matchBy v.check d value) := by
  induction d generalizing value with
  | primitive p =>
    cases value with
    | none => exact fun a => rfl
    | some x => exact meets_test (p.accepts x)
  | union literals =>
    cases value with
    | none => exact fun a => rfl
    | some x => exact meets_test (x.str?.any literals.contains)
  | optional d ih =>
    cases value with
    | none => exact fun a => rfl
    | some x => exact ih (some x)
  | arrayOf d ih =>
    cases value with
    | none => exact fun a => rfl
    | some x =>
      cases x with
      | arr items =>
        rw [collect_arr]
        exact meets_each (fun item => ih (some item)) items
      | _ => exact fun a => rfl
  | ref kinds =>
    cases value with
    | none => exact fun a => rfl
    | some x =>
      rw [collect_ref]
      cases htarget : v.target? x with
      | none =>
        intro a
        simp only [matchBy, htarget]
      | some id =>
        intro a
        simp only [matchBy, htarget, meet_cons, meet_nil]
        -- there is a single goal, after which nothing is left to be met
        obtain ⟨ok, b⟩ := Check.first v.check id kinds a
        cases ok <;> rfl

theorem meets_matchFieldsBy (v : Validator) (s : Structure) (entity : Json) :
    v.Meets (v.collectFields s entity) (v.matchFieldsBy v.check s entity) := by
  cases entity with
  | obj members =>
    by_cases hdecl : ∀ m ∈ members, s.contains m.1
    · have hall : (members.all fun m => s.contains m.1) = true := List.all_eq_true.2 hdecl
      have hfields : v.matchFieldsBy v.check s (.obj members) =
          Check.each (fun f => v.matchBy v.check f.2 (Json.lookup members f.1))
            s.fields.entries := by
        funext a
        simp only [matchFieldsBy, Json.members?, hall, if_true]
      rw [collectFields_obj hdecl, hfields]
      exact meets_each (fun f => meets_matchBy v _ _) _
    · have hall : ¬ (members.all fun m => s.contains m.1) = true := fun hall =>
        hdecl (List.all_eq_true.1 hall)
      rw [collectFields_of_undeclared hdecl]
      intro a
      simp only [matchFieldsBy, Json.members?, if_neg hall]
  | _ => exact fun a => rfl

/-- With all taken back on failure, it makes no difference when a failure is found. -/
theorem Meets.orUndo {goals? : Option (List RefGoal)} {part : Assignment → Bool × Assignment}
    (h : v.Meets goals? part) (a₀ a : Assignment) :
    Check.orUndo a₀ (part a) =
      goals?.elim (false, a₀) fun goals => Check.orUndo a₀ (v.meet goals a) := by
  cases goals? with
  | some goals => rw [h a, Option.elim_some]
  | none =>
    have hfalse := h a
    cases hpart : part a with
    | mk ok b =>
      rw [hpart] at hfalse
      cases hfalse
      rfl

/-! ## One Level of the Recursion -/

/-- Asks that an entity gets a kind, with a given check for the entities that it refers to. -/
def checkOnce (v : Validator) (check : Check) : Check := fun id kind a =>
  match a.kind? id with
  | some bound => (bound == kind, a)
  | none =>
    match v.schema.kind? kind, v.entity? id with
    | some s, some entity =>
      Check.orUndo a (v.matchFieldsBy check s entity (a.bind id kind))
    | _, _ => (false, a)

theorem checkWithin_succ (levels : Nat) :
    v.checkWithin (levels + 1) = v.checkOnce (v.checkWithin levels) := rfl

/-- The check of the search answers by recursion to itself. -/
theorem check_eq_checkOnce (id : EntityId) (kind : String) (a : Assignment) :
    v.check id kind a = v.checkOnce v.check id kind a := by
  unfold checkOnce
  split
  · next bound hid => exact check_of_known hid kind
  · next hid =>
    split
    · next s entity hs he =>
      rw [v.entity?_eq] at he
      have hgoalsOf : v.goalsOf id kind = v.collectFields s entity := by
        simp [goalsOf, hs, he]
      rw [(meets_matchFieldsBy v s entity).orUndo]
      cases hgoals : v.collectFields s entity with
      | some goals => exact check_of_unknown hid (hgoalsOf.trans hgoals)
      | none => exact check_of_goalsOf_eq_none hid (hgoalsOf.trans hgoals)
    · next hunknown =>
      refine check_of_goalsOf_eq_none hid ?_
      rw [Option.eq_none_iff_forall_ne_some]
      intro goals hgoals
      obtain ⟨s, entity, hs, he, -⟩ := goalsOf_eq_some_iff.1 hgoals
      exact hunknown s entity hs ((v.entity?_eq id).trans he)

theorem le_matchBy (v : Validator) (d : Descriptor) (value : Option Json) (a : Assignment) :
    a ≤ (v.matchBy v.check d value a).2 := by
  induction d generalizing value a with
  | primitive p => cases value <;> exact Assignment.le_refl a
  | union literals => cases value <;> exact Assignment.le_refl a
  | optional d ih =>
    cases value with
    | none => exact Assignment.le_refl a
    | some x => exact ih (some x) a
  | arrayOf d ih =>
    cases value with
    | none => exact Assignment.le_refl a
    | some x =>
      rw [matchBy]
      split
      · exact Check.le_each (fun item a => ih (some item) a) _ a
      · exact Assignment.le_refl a
  | ref kinds =>
    cases value with
    | none => exact Assignment.le_refl a
    | some x =>
      rw [matchBy]
      split
      · exact le_first v _ kinds a
      · exact Assignment.le_refl a

section

variable {check : Check} {a₀ : Assignment}

/-- A check that agrees with that of the search from some assignment on matches values like it from
there. -/
theorem matchBy_congr (heq : ∀ id kind a, a₀ ≤ a → check id kind a = v.check id kind a)
    {a : Assignment} (ha : a₀ ≤ a) (d : Descriptor) (value : Option Json) :
    v.matchBy check d value a = v.matchBy v.check d value a := by
  induction d generalizing value a with
  | primitive p => cases value <;> rfl
  | union literals => cases value <;> rfl
  | optional d ih =>
    cases value with
    | none => rfl
    | some x => exact ih ha (some x)
  | arrayOf d ih =>
    cases value with
    | none => rfl
    | some x =>
      rw [matchBy, matchBy]
      split
      · refine Check.each_congr (fun item a => le_matchBy v d (some item) a) ?_ ha _
        exact fun item a ha => ih ha (some item)
      · rfl
  | ref kinds =>
    cases value with
    | none => rfl
    | some x =>
      rw [matchBy, matchBy]
      split
      · exact Check.first_congr (le_check v) heq ha _ kinds
      · rfl

theorem matchFieldsBy_congr (heq : ∀ id kind a, a₀ ≤ a → check id kind a = v.check id kind a)
    (s : Structure) (entity : Json) :
    v.matchFieldsBy check s entity a₀ = v.matchFieldsBy v.check s entity a₀ := by
  unfold matchFieldsBy
  split
  · rfl
  · next members hmembers =>
    split
    · refine Check.each_congr (fun f a => le_matchBy v _ _ a) ?_ (Assignment.le_refl a₀) _
      exact fun f a ha => matchBy_congr heq ha f.2 (Json.lookup members f.1)
    · rfl

/-- A level of the recursion only asks for kinds when fewer entities are without, so it answers like
the search if the check below it does so there. -/
theorem checkOnce_congr {a : Assignment}
    (heq : ∀ id kind b, v.unbound b < v.unbound a → check id kind b = v.check id kind b)
    (id : EntityId) (kind : String) : v.checkOnce check id kind a = v.check id kind a := by
  rw [check_eq_checkOnce]
  unfold checkOnce
  split
  · rfl
  · next hid =>
    split
    · next s entity hs he =>
      have hmem : id ∈ v.graph.keys :=
        OrderedMap.mem_keys_iff.2 ⟨entity, (v.entity?_eq id).symm.trans he⟩
      rw [matchFieldsBy_congr]
      intro j k b hb
      exact heq j k b (Nat.lt_of_le_of_lt (unbound_le_of_le hb) (unbound_bind_lt hmem hid))
    · rfl

end

/-! ## All Levels -/

/-- With more levels than there are entities without kind, the recursion answers like the search. -/
theorem checkWithin_eq_check {levels : Nat} {a : Assignment} (h : v.unbound a < levels)
    (id : EntityId) (kind : String) : v.checkWithin levels id kind a = v.check id kind a := by
  induction levels generalizing a id kind with
  | zero => exact absurd h (Nat.not_lt_zero _)
  | succ levels ih =>
    rw [checkWithin_succ]
    refine checkOnce_congr (fun j k b hb => ?_) id kind
    exact ih (Nat.lt_of_lt_of_le hb (Nat.le_of_lt_succ h)) j k

theorem checkByRecursion_eq_check (v : Validator) : v.checkByRecursion = v.check := by
  funext id kind a
  exact checkWithin_eq_check (Nat.lt_succ_self _) id kind

/-- Whatever answers by recursion to itself answers like the search. The induction is on the number
of entities without kind. -/
theorem eq_check_of_eq_checkOnce {check : Check} (h : check = v.checkOnce check) :
    check = v.check := by
  funext id kind a
  induction hn : v.unbound a using Nat.strongRecOn generalizing id kind a with
  | ind n ih =>
    subst hn
    rw [h]
    exact checkOnce_congr (fun j k b hb => ih _ hb j k b rfl) id kind

/-- The search gives the same answers as the recursion and leaves the same bindings, on top of any
assignment: for an entity that is to get a kind, for a value, and for an entity of its own. The
number of levels plays no part in it: the recursion is the only check that answers by recursion to
itself. -/
theorem search_eq_recursion (v : Validator) :
    (∀ id kind a, v.check id kind a = v.checkByRecursion id kind a) ∧
    (∀ d value a, v.matchValue d value a = v.matchValueByRecursion d value a) ∧
    (∀ kind entity a, v.matchStructure kind entity a = v.matchStructureByRecursion kind entity a) ∧
    ∀ check : Check, check = v.checkOnce check ↔ check = v.checkByRecursion := by
  rw [checkByRecursion_eq_check]
  refine ⟨fun id kind a => rfl, fun d value a => ?_, fun kind entity a => ?_, fun check => ?_⟩
  · rw [matchValue, matchValueByRecursion, checkByRecursion_eq_check]
    rw [(meets_matchBy v d value).orUndo]
    cases v.collect d value with
    | some goals => exact resolve_eq a goals
    | none => rfl
  · rw [matchStructure, matchStructureByRecursion, checkByRecursion_eq_check]
    cases v.schema.kind? kind with
    | none => rfl
    | some s =>
      simp only [Option.bind_some, (meets_matchFieldsBy v s entity).orUndo]
      cases v.collectFields s entity with
      | some goals => exact resolve_eq a goals
      | none => rfl
  · constructor
    · exact eq_check_of_eq_checkOnce
    · rintro rfl
      funext id kind a
      exact check_eq_checkOnce id kind a

/-! ## Calls in Place -/

namespace InPlace

/-- The recursion answers a call. -/
def answerByRecursion (v : Validator) : Call → Assignment → Bool × Assignment
  | .check id kind => v.checkByRecursion id kind
  | .matchValue d value => v.matchValueByRecursion d value
  | .matchStructure kind entity => v.matchStructureByRecursion kind entity

theorem answer_eq_answerByRecursion (v : Validator) (call : Call) (a : Assignment) :
    answer v call a = answerByRecursion v call a := by
  obtain ⟨hcheck, hvalue, hstructure, -⟩ := v.search_eq_recursion
  cases call with
  | check id kind => exact hcheck id kind a
  | matchValue d value => exact hvalue d value a
  | matchStructure kind entity => exact hstructure kind entity a

/-- The loop on a frame meets its goals one after the other, each with the first kind that the
recursion accepts, and goes back to the assignment before if there is none. -/
theorem resolve_eq_each (v : Validator) (goals : List RefGoal) (b : Bindings) :
    ((resolve v (.start b.mark goals) b).1,
      (resolve v (.start b.mark goals) b).2.toAssignment) =
      Check.orUndo b.toAssignment
        (Check.each (fun g => v.checkByRecursion.first g.id g.kinds) goals b.toAssignment) := by
  rw [← resolve_eq, Validator.resolve_eq, checkByRecursion_eq_check]
  rfl

/-- A call on any assignment that changes in place has the answer of the recursion and leaves the
bindings of the recursion, and so does the loop of `resolve` on any goals, whose frames settle one
kind after the other and roll back what has failed. So does the search as well; and the recursion is
the only check that answers by recursion to itself. -/
theorem perform_eq_recursion (v : Validator) :
    (∀ call b, ((perform v call b).1, (perform v call b).2.toAssignment) =
      answerByRecursion v call b.toAssignment) ∧
    (∀ goals b, ((resolve v (.start b.mark goals) b).1,
      (resolve v (.start b.mark goals) b).2.toAssignment) =
      Check.orUndo b.toAssignment
        (Check.each (fun g => v.checkByRecursion.first g.id g.kinds) goals b.toAssignment)) ∧
    (∀ call a, answer v call a = answerByRecursion v call a) ∧
    ∀ check : Check, check = v.checkOnce check ↔ check = v.checkByRecursion := by
  refine ⟨fun call b => ?_, resolve_eq_each v, answer_eq_answerByRecursion v,
    v.search_eq_recursion.2.2.2⟩
  rw [← answer_eq, answer_eq_answerByRecursion]

end InPlace

end Validator

end TypedGraph
