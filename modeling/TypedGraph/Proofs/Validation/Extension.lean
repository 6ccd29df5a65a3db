import TypedGraph.Validation.Conformance
import TypedGraph.Validation.Search

/-!
# Extension of Assignments

An assignment extends another one when it keeps all kinds that the other gives. The search only ever
moves between extensions of the assignment it starts from: it binds entities without kind, and what
it takes back was bound by itself.

## Main results

* `unbound_le_of_le`: an extension leaves no more entities without kind;
* `le_run`: the assignment at the end of a search extends the one at its beginning;
* `get?_toIndex` and `keys_toIndex`: the index of an assignment gives the kinds of the entities of
  the graph, and has all ids in order if all of them have kinds.
-/

namespace TypedGraph

namespace Assignment

/-- An assignment extends another one if it gives the same kinds and possibly more. -/
instance : LE Assignment where
  le a b := ∀ id kind, a.kind? id = some kind → b.kind? id = some kind

theorem le_refl (a : Assignment) : a ≤ a := fun _ _ h => h

theorem le_trans {a b c : Assignment} (hab : a ≤ b) (hbc : b ≤ c) : a ≤ c :=
  fun id kind h => hbc id kind (hab id kind h)

theorem le_bind {a : Assignment} {id : EntityId} (kind : String) (h : a.kind? id = none) :
    a ≤ a.bind id kind := by
  intro j k hj
  rw [kind?_bind, if_neg]
  · exact hj
  · rintro rfl
    rw [h] at hj
    cases hj

/-- A kind given after a binding is that of the binding or was given before. -/
theorem kind?_bind_cases {a : Assignment} {id j : EntityId} {kind k : String}
    (h : (a.bind id kind).kind? j = some k) : j = id ∧ k = kind ∨ a.kind? j = some k := by
  rw [kind?_bind] at h
  split at h
  · next hid =>
    cases h
    exact .inl ⟨hid.symm, rfl⟩
  · exact .inr h

/-- Which kinds an assignment gives, as a relation. -/
def typing (a : Assignment) : Typing := fun id kind => a.kind? id = some kind

private theorem lookup_filterMap_kind? (a : Assignment) (l : List (EntityId × Json))
    (id : EntityId) :
    (l.filterMap fun e => (a.kind? e.1).map (e.1, ·)).lookup id =
      if (l.lookup id).isSome then a.kind? id else none := by
  induction l with
  | nil => rfl
  | cons e l ih =>
    rw [List.filterMap_cons, List.lookup_cons]
    by_cases he : id = e.1
    · subst he
      cases hk : a.kind? e.1 with
      | none =>
        -- the entry is left out, and the rest has no kind for its key either
        rw [hk] at ih
        simpa using ih
      | some kind => simp
    · have hne : (id == e.1) = false := beq_eq_false_iff_ne.2 he
      rw [hne, ← ih]
      cases a.kind? e.1 with
      | none => rfl
      | some kind => rw [Option.map_some, List.lookup_cons, hne]

/-- The index of an assignment gives the kinds of the entities of the graph. -/
theorem get?_toIndex (a : Assignment) (graph : EntityGraph) (id : EntityId) :
    (a.toIndex graph).get? id = if graph.contains id then a.kind? id else none :=
  lookup_filterMap_kind? a graph.entries id

/-- If all entities of a graph have kinds, their index has the ids of the graph in order. -/
theorem keys_toIndex {a : Assignment} {graph : EntityGraph}
    (h : ∀ id ∈ graph.ids, ∃ kind, a.kind? id = some kind) :
    (a.toIndex graph).keys = graph.ids := by
  simp only [toIndex, OrderedMap.filterMap, EntityGraph.ids, OrderedMap.keys] at h ⊢
  generalize graph.entries = l at h
  induction l with
  | nil => rfl
  | cons e l ih =>
    rw [List.map_cons, List.forall_mem_cons] at h
    obtain ⟨⟨kind, hk⟩, hl⟩ := h
    rw [List.filterMap_cons, hk, Option.map_some, List.map_cons, List.map_cons, ih hl]

end Assignment

namespace Validator

variable {v : Validator}

/-- An extension leaves no more entities without kind. -/
theorem unbound_le_of_le {a b : Assignment} (h : a ≤ b) : v.unbound b ≤ v.unbound a := by
  unfold unbound
  rw [← List.countP_eq_length_filter, ← List.countP_eq_length_filter]
  refine List.countP_mono_left fun id _ hid => ?_
  rw [Option.isNone_iff_eq_none] at hid ⊢
  cases ha : a.kind? id with
  | none => rfl
  | some kind =>
    rw [h id kind ha] at hid
    cases hid

/-- Asking for a kind binds, if it opens goals, an entity that had no kind. -/
theorem le_of_opened {id : EntityId} {kind : String} {a bound : Assignment}
    {goals : List RefGoal} (h : v.enter id kind a = .opened bound goals) : a ≤ bound := by
  obtain ⟨hnone, rfl, -⟩ := enter_opened h
  exact Assignment.le_bind kind hnone

/-! ## The Search Extends Its First Assignment -/

/-- All assignments that a search has reached or can go back to extend a given one. -/
def Progress.Extends (a₀ : Assignment) : Progress → Prop
  | .done _ a => a₀ ≤ a
  | .next a stack => a₀ ≤ a ∧ ∀ f ∈ stack, a₀ ≤ f.before

theorem extends_cons {a₀ a : Assignment} {f : Frame} {rest : List Frame} :
    (Progress.next a (f :: rest)).Extends a₀ ↔
      a₀ ≤ a ∧ a₀ ≤ f.before ∧ ∀ g ∈ rest, a₀ ≤ g.before := by
  rw [Progress.Extends, List.forall_mem_cons]

/-- A step keeps to extensions: it binds an entity without kind or goes back to where a frame was
opened. -/
theorem extends_advance {a₀ a : Assignment} {stack : List Frame}
    (h : (Progress.next a stack).Extends a₀) : (v.advance a stack).Extends a₀ := by
  cases stack with
  | nil => exact h.1
  | cons f rest =>
    obtain ⟨ha, hf, hrest⟩ := extends_cons.1 h
    simp only [advance]
    split
    · -- the frame is closed and its bindings stay
      cases rest with
      | nil => exact ha
      | cons g rest => exact extends_cons.2 ⟨ha, List.forall_mem_cons.1 hrest⟩
    · -- the frame fails, and the search goes back to where it was opened
      cases rest with
      | nil => exact hf
      | cons g rest => exact ⟨hf, hrest⟩
    · split
      · exact extends_cons.2 ⟨ha, hf, hrest⟩
      · exact extends_cons.2 ⟨ha, hf, hrest⟩
      · next bound inner henter =>
        -- the new frame can go back to the present assignment
        have hbound := Assignment.le_trans ha (le_of_opened henter)
        exact extends_cons.2 ⟨hbound, ha, List.forall_mem_cons.2 ⟨hf, hrest⟩⟩

/-- The assignment at the end of a search extends every one that the search starts from. -/
theorem le_run {a₀ a : Assignment} {stack : List Frame} (hn : v.Nested a stack)
    (h : (Progress.next a stack).Extends a₀) : a₀ ≤ (v.run a stack hn).2 := by
  fun_induction v.run a stack hn with
  | case1 a stack hn ok a' hs =>
    have hend := extends_advance (v := v) h
    rwa [hs] at hend
  | case2 a stack hn a' stack' hs ih =>
    refine ih ?_
    have hstep := extends_advance (v := v) h
    rwa [hs] at hstep

theorem le_check (v : Validator) (id : EntityId) (kind : String) (a : Assignment) :
    a ≤ (v.check id kind a).2 := by
  unfold check
  split
  · exact Assignment.le_refl a
  · next bound goals henter =>
    exact le_run _ (extends_cons.2 ⟨le_of_opened henter, Assignment.le_refl a, by simp⟩)

end Validator

end TypedGraph
