import TypedGraph.Entity.Graph

/-!
# Assignments

The kinds given to entities in the course of one validation. Two assignments that give the same
kinds are equal.
-/

namespace TypedGraph

/-- Kinds given to entities. -/
structure Assignment where
  /-- The kind of each entity that has one. -/
  kinds : Std.ExtTreeMap EntityId String

namespace Assignment

/-- The assignment that gives no kinds. -/
def empty : Assignment := ⟨∅⟩

instance : EmptyCollection Assignment := ⟨empty⟩

instance : Inhabited Assignment := ⟨empty⟩

/-- The kind given to an entity. -/
def kind? (a : Assignment) (id : EntityId) : Option String := a.kinds[id]?

/-- The number of entities with a kind. -/
def size (a : Assignment) : Nat := a.kinds.size

/-- No entity has a kind. -/
def isEmpty (a : Assignment) : Bool := a.kinds.isEmpty

/-- Gives a kind to an entity. -/
def bind (a : Assignment) (id : EntityId) (kind : String) : Assignment := ⟨a.kinds.insert id kind⟩

/-- The assignment that gives the kinds of an index. -/
def ofIndex (index : KindIndex) : Assignment :=
  index.entries.foldl (fun a e => a.bind e.1 e.2) ∅

/-- The kinds of the entities of a graph, in its order. -/
def toIndex (a : Assignment) (graph : EntityGraph) : KindIndex :=
  graph.filterMap fun id _ => a.kind? id

@[ext]
theorem ext {a b : Assignment} (h : ∀ id, a.kind? id = b.kind? id) : a = b := by
  cases a; cases b
  congr 1
  exact Std.ExtTreeMap.ext_getElem? h

@[simp]
theorem kind?_empty (id : EntityId) : (∅ : Assignment).kind? id = none :=
  Std.ExtTreeMap.getElem?_empty

theorem kind?_bind (a : Assignment) (id j : EntityId) (kind : String) :
    (a.bind id kind).kind? j = if id = j then some kind else a.kind? j := by
  simp only [kind?, bind, Std.ExtTreeMap.getElem?_insert, Std.LawfulEqOrd.compare_eq_iff_eq]

@[simp]
theorem kind?_bind_self (a : Assignment) (id : EntityId) (kind : String) :
    (a.bind id kind).kind? id = some kind := by simp [kind?_bind]

/-- An index gives its kinds and no others. -/
theorem kind?_ofIndex (index : KindIndex) (id : EntityId) :
    (ofIndex index).kind? id = index.get? id := by
  obtain ⟨l, hl⟩ := index
  have hfold (l : List (EntityId × String)) (hl : (l.map Prod.fst).Nodup) (a : Assignment) :
      (l.foldl (fun a e => a.bind e.1 e.2) a).kind? id = (l.lookup id).or (a.kind? id) := by
    induction l generalizing a with
    | nil => simp
    | cons e l ih =>
      rw [List.map_cons, List.nodup_cons] at hl
      rw [List.foldl_cons, ih hl.2, kind?_bind, List.lookup_cons]
      by_cases he : id = e.1
      · subst he
        have hnone : l.lookup e.1 = none := by
          rw [← Option.not_isSome_iff_eq_none, OrderedMap.lookup_isSome_iff]
          exact hl.1
        simp [hnone]
      · simp [beq_eq_false_iff_ne.2 he, Ne.symm he]
  simp [ofIndex, OrderedMap.get?, hfold l hl]

end Assignment

end TypedGraph
