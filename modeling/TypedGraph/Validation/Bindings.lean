import TypedGraph.Validation.Assignment

/-!
# Assignments That Change in Place

An assignment together with a *trail*: the entities in the order in which they have been bound. The
length of the trail is a *mark*; going back to a mark takes back every binding made since, and costs
no more than these bindings did. Bindings from the start are not on the trail and are never taken
back.

## Main results

* `Bindings.rollback_bind`: going back to the mark before a new binding undoes it;
* `Bindings.rollback_rollback`: going back in two steps is going back at once.
-/

namespace TypedGraph

/-- An assignment with its trail. -/
structure Bindings extends Assignment where
  /-- The entities that have been bound since the start, the last one at the end. -/
  trail : Array EntityId

namespace Bindings

/-- No entity has a kind. -/
def new : Bindings := ⟨∅, #[]⟩

/-- The kinds of an index, which are never taken back. -/
def seeded (index : KindIndex) : Bindings := ⟨.ofIndex index, #[]⟩

/-- Gives a kind to an entity. -/
def bind (b : Bindings) (id : EntityId) (kind : String) : Bindings :=
  ⟨b.toAssignment.bind id kind, b.trail.push id⟩

/-- The length of the trail. -/
def mark (b : Bindings) : Nat := b.trail.size

/-- Takes back every binding made since a mark. -/
def rollback (b : Bindings) (mark : Nat) : Bindings where
  kinds := (b.trail.extract mark).foldl (·.erase ·) b.kinds
  trail := b.trail.shrink mark

@[ext]
theorem ext {b c : Bindings} (hkinds : b.toAssignment = c.toAssignment)
    (htrail : b.trail.toList = c.trail.toList) : b = c := by
  cases b; cases c
  cases hkinds
  cases Array.toList_inj.1 htrail
  rfl

/-! ## Trails -/

@[simp]
theorem toList_trail_bind (b : Bindings) (id : EntityId) (kind : String) :
    (b.bind id kind).trail.toList = b.trail.toList ++ [id] := by simp [bind]

@[simp]
theorem toAssignment_bind (b : Bindings) (id : EntityId) (kind : String) :
    (b.bind id kind).toAssignment = b.toAssignment.bind id kind := rfl

@[simp]
theorem toList_trail_rollback (b : Bindings) (mark : Nat) :
    (b.rollback mark).trail.toList = b.trail.toList.take mark := by
  simp [rollback]

theorem length_toList_trail (b : Bindings) : b.trail.toList.length = b.mark := rfl

@[simp]
theorem mark_bind (b : Bindings) (id : EntityId) (kind : String) :
    (b.bind id kind).mark = b.mark + 1 := by
  simp [mark, bind]

theorem mark_rollback_of_le {b : Bindings} {mark : Nat} (h : mark ≤ b.mark) :
    (b.rollback mark).mark = mark := by
  rw [← length_toList_trail, toList_trail_rollback, List.length_take, length_toList_trail]
  exact Nat.min_eq_left h

/-! ## Going Back -/

theorem getElem?_foldl_erase (ids : List EntityId) (kinds : Std.ExtTreeMap EntityId String)
    (id : EntityId) :
    (ids.foldl (·.erase ·) kinds)[id]? = if id ∈ ids then none else kinds[id]? := by
  induction ids generalizing kinds with
  | nil => simp
  | cons j ids ih =>
    rw [List.foldl_cons, ih, Std.ExtTreeMap.getElem?_erase]
    by_cases hid : id ∈ ids
    · simp [hid]
    · by_cases hj : id = j
      · simp [hj]
      · simp [hid, hj, Ne.symm hj]

/-- Going back takes the kinds of the entities after the mark. -/
theorem kind?_rollback (b : Bindings) (mark : Nat) (id : EntityId) :
    (b.rollback mark).kind? id = if id ∈ b.trail.toList.drop mark then none else b.kind? id := by
  have hextract : (b.trail.extract mark).toList = b.trail.toList.drop mark := by
    simp [List.take_of_length_le]
  rw [Assignment.kind?, rollback, ← Array.foldl_toList, hextract, getElem?_foldl_erase]
  rfl

/-- Going back to the mark before a new binding undoes it. -/
theorem rollback_bind {b : Bindings} {id : EntityId} (kind : String) (h : b.kind? id = none) :
    (b.bind id kind).rollback b.mark = b := by
  have hmark := b.length_toList_trail
  apply ext
  · ext j : 1
    simp only [kind?_rollback, toList_trail_bind, List.drop_left' hmark, List.mem_singleton]
    by_cases hj : j = id
    · rw [if_pos hj, hj, h]
    · rw [if_neg hj, toAssignment_bind, Assignment.kind?_bind, if_neg (Ne.symm hj)]
  · rw [toList_trail_rollback, toList_trail_bind, List.take_left' hmark]

/-- Going back in two steps is going back at once. -/
theorem rollback_rollback (b : Bindings) {mark mark' : Nat} (h : mark ≤ mark') :
    (b.rollback mark').rollback mark = b.rollback mark := by
  apply ext
  · ext j : 1
    -- the trail since the first mark is the part up to the second one and the part after it
    have hmem : j ∈ b.trail.toList.drop mark ↔
        j ∈ (b.trail.toList.take mark').drop mark ∨ j ∈ b.trail.toList.drop mark' := by
      have hlate : b.trail.toList.drop mark' = (b.trail.toList.drop mark).drop (mark' - mark) := by
        rw [List.drop_drop, Nat.add_sub_cancel' h]
      rw [hlate, List.drop_take, ← List.mem_append, List.take_append_drop]
    rw [kind?_rollback, kind?_rollback, kind?_rollback, toList_trail_rollback]
    by_cases hearly : j ∈ (b.trail.toList.take mark').drop mark <;>
      by_cases hlate : j ∈ b.trail.toList.drop mark' <;> simp [hmem, hearly, hlate]
  · rw [toList_trail_rollback, toList_trail_rollback, toList_trail_rollback, List.take_take,
      Nat.min_eq_left h]

/-- A new binding makes no difference to going back behind it. -/
theorem rollback_bind_of_le {b : Bindings} {id : EntityId} {kind : String} {mark : Nat}
    (h : b.kind? id = none) (hmark : mark ≤ b.mark) :
    (b.bind id kind).rollback mark = b.rollback mark := by
  rw [← rollback_rollback _ hmark, rollback_bind kind h]

end Bindings

end TypedGraph
