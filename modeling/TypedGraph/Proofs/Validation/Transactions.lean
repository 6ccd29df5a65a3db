import TypedGraph.Proofs.Validation.InPlace
import TypedGraph.Proofs.Validation.Soundness

/-!
# Calls Are Transactions

A call on an assignment either fails and leaves it as it was, or it commits: then it has only added
bindings, all of them justified by the kinds that the assignment gives in the end, and what was
asked holds of it. This is so for every assignment, however it has come about.

## Main definitions

* `Call.Satisfied`: what was asked holds of an assignment;
* `Committed`: what a call that succeeds has done to an assignment.

## Main results

* `committed_of_perform`: every call commits or leaves no trace.
-/

namespace TypedGraph.Validator.InPlace

variable {v : Validator}

/-- What a call asks for holds of an assignment. -/
def Call.Satisfied (v : Validator) (a : Assignment) : Call → Prop
  | .check id kind => a.kind? id = some kind
  | .matchValue d value => Conforms v.graph a.typing d value
  | .matchStructure kind entity =>
    ∃ s members, v.schema.kind? kind = some s ∧ entity = .obj members ∧
      ConformsTo v.graph a.typing s members

/-- A call that succeeds has taken an assignment to another one. -/
structure Committed (v : Validator) (call : Call) (before after : Bindings) : Prop where
  /-- Every kind that was given is given still. -/
  kept : ∀ id kind, before.kind? id = some kind → after.kind? id = some kind
  /-- Every kind that is new is a declared one, given to an entity of the graph. -/
  declared : ∀ id kind, before.kind? id = none → after.kind? id = some kind →
    id ∈ v.graph.ids ∧ kind ∈ v.schema.kindNames
  /-- An entity with a new kind conforms to it under the kinds that are given now. -/
  conforms : ∀ id kind, before.kind? id = none → after.kind? id = some kind →
    EntityConforms v.schema v.graph after.typing id kind
  /-- What was asked holds. -/
  satisfied : call.Satisfied v after.toAssignment
  /-- The trail goes on with the entities that have got kinds, each once. -/
  trail : before.Grown after

/-- Goals that are collected from a value let the assignment grow to one that meets them. -/
theorem grows_of_resolve {a a' : Assignment} {goals : List RefGoal}
    (h : v.resolve a goals = (true, a')) : v.Grows a a' ∧ ∀ g ∈ goals, g.Met a'.typing := by
  rw [Validator.resolve_eq, orUndo_eq_true_iff] at h
  exact grows_of_meet h

/-- A call that succeeds lets the assignment grow to one of which holds what was asked. -/
theorem grows_of_answer {call : Call} {a a' : Assignment} (h : answer v call a = (true, a')) :
    v.Grows a a' ∧ call.Satisfied v a' := by
  cases call with
  | check id kind => exact ⟨grows_of_check h, kind?_of_check h⟩
  | matchValue d value =>
    replace h : v.matchValue d value a = (true, a') := h
    rw [matchValue] at h
    split at h
    · next goals hgoals =>
      obtain ⟨hgrows, hmet⟩ := grows_of_resolve h
      exact ⟨hgrows, conforms_iff.2 ⟨goals, hgoals, hmet⟩⟩
    · cases h
  | matchStructure kind entity =>
    replace h : v.matchStructure kind entity a = (true, a') := h
    rw [matchStructure] at h
    split at h
    · next goals hgoals =>
      obtain ⟨hgrows, hmet⟩ := grows_of_resolve h
      obtain ⟨s, hs, hgoals⟩ := Option.bind_eq_some_iff.1 hgoals
      obtain ⟨members, hentity, hto⟩ := conformsTo_iff.2 ⟨goals, hgoals, hmet⟩
      exact ⟨hgrows, s, members, hs, hentity, hto⟩
    · cases h

/-- Every call on every assignment commits, or fails and leaves bindings and trail as they were. -/
theorem committed_of_perform (v : Validator) (call : Call) (b : Bindings) :
    match perform v call b with
    | (true, b') => Committed v call b b'
    | (false, b') => b' = b := by
  have hkept := kept_perform v call b
  have hanswer := answer_eq v call b
  generalize perform v call b = out at hkept hanswer
  obtain ⟨ok, b'⟩ := out
  cases ok with
  | false => exact hkept
  | true =>
    obtain ⟨hgrows, hsatisfied⟩ := grows_of_answer hanswer
    -- an entity with a new kind had none that could have been justified before
    have hconforms (id : EntityId) (kind : String) (hnone : b.kind? id = none)
        (hkind : b'.kind? id = some kind) :
        EntityConforms v.schema v.graph b'.typing id kind := by
      apply (hgrows.conforms id kind hkind).resolve_left
      rw [hnone]
      nofun
    refine ⟨hgrows.le, fun id kind hnone hkind => ?_, hconforms, hsatisfied, hkept⟩
    have hid := contains_of_entityConforms (hconforms id kind hnone hkind)
    obtain ⟨s, members, hs, -, -⟩ := hconforms id kind hnone hkind
    exact ⟨OrderedMap.contains_iff.1 hid, OrderedMap.mem_keys_iff.2 ⟨s, hs⟩⟩

/-- Checking the holder commits, with a kind for the wrapper that comes after one tried in vain.
Checking the wrapper for the kind tried in vain then leaves no trace. -/
theorem committed_wrapper :
    ∃ b, perform (.of wrapperSchema wrapperGraph) (.check ⟨"h"⟩ "Holder") .new = (true, b) ∧
      Committed (.of wrapperSchema wrapperGraph) (.check ⟨"h"⟩ "Holder") .new b ∧
      b.trail.toList = [⟨"h"⟩, ⟨"w"⟩, ⟨"l"⟩, ⟨"t"⟩] ∧
      perform (.of wrapperSchema wrapperGraph) (.check ⟨"w"⟩ "Wrap1") b = (false, b) := by
  have hcheck := committed_of_perform (.of wrapperSchema wrapperGraph) (.check ⟨"h"⟩ "Holder") .new
  have hrun : ((perform (.of wrapperSchema wrapperGraph) (.check ⟨"h"⟩ "Holder") .new).1,
      (perform (.of wrapperSchema wrapperGraph) (.check ⟨"h"⟩ "Holder") .new).2.trail.toList,
      (perform (.of wrapperSchema wrapperGraph) (.check ⟨"w"⟩ "Wrap1")
        (perform (.of wrapperSchema wrapperGraph) (.check ⟨"h"⟩ "Holder") .new).2).1) =
      (true, [⟨"h"⟩, ⟨"w"⟩, ⟨"l"⟩, ⟨"t"⟩], false) := by decide +kernel
  obtain ⟨hok, hrest⟩ := Prod.mk.inj hrun
  obtain ⟨htrail, hfailed⟩ := Prod.mk.inj hrest
  generalize perform (.of wrapperSchema wrapperGraph) (.check ⟨"h"⟩ "Holder") .new = out at *
  obtain ⟨ok, b⟩ := out
  cases hok
  refine ⟨b, rfl, hcheck, htrail, ?_⟩
  have hwrap := committed_of_perform (.of wrapperSchema wrapperGraph) (.check ⟨"w"⟩ "Wrap1") b
  generalize perform (.of wrapperSchema wrapperGraph) (.check ⟨"w"⟩ "Wrap1") b = out at *
  obtain ⟨ok, b'⟩ := out
  cases hfailed
  rw [hwrap]

end TypedGraph.Validator.InPlace
