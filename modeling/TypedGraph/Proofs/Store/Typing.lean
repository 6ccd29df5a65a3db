import TypedGraph.Proofs.Store.Coherence

/-!
# Edits Keep Stores Well-Typed

A store that has taken over a graph has a kind for each entity, and every entity conforms to its
kind. Changes of fields keep this: a new value is matched with the kinds that the entities have, and
a field is only removed if its kind declares it as optional.

## Main definitions

* `DataModel.Consistent`: the entities of a store are those that have kinds, and conform to them;
* `DataModel.Revised`: what a change of a field can do to a store.

## Main results

* `ConformsTo.revise`: an edit with a conforming content keeps an object in line with its structure;
* `DataModel.consistent_of_tryInit`: a store that has taken over a graph is consistent;
* `DataModel.revised_edit` and `DataModel.consistent_after`: edits revise a store, and so keep it
  consistent.
-/

namespace TypedGraph

/-- An object in line with its structure stays so if a field gets a content that conforms, which may
be none. -/
theorem ConformsTo.revise {graph : EntityGraph} {typing : Typing} {s : Structure}
    {members : List (String × Json)} {e : DataModel.Edit} {d : Descriptor}
    (h : ConformsTo graph typing s members) (hd : s.get? e.field = some d)
    (hcontent : Conforms graph typing d e.content) :
    ConformsTo graph typing s (e.revise members) := by
  constructor
  · intro m hm
    rcases DataModel.Edit.mem_revise hm with hold | ⟨hnew, -⟩
    · exact h.declared m hold
    · rw [hnew]
      exact Option.isSome_iff_exists.2 ⟨d, hd⟩
  · rintro ⟨name, d'⟩ hf
    rw [DataModel.Edit.lookup_revise]
    by_cases hname : name = e.field
    · subst hname
      rw [if_pos rfl]
      have hd' : s.get? e.field = some d' := OrderedMap.get?_eq_some_iff.2 hf
      cases hd.symm.trans hd'
      exact hcontent
    · rw [if_neg hname]
      exact h.fields _ hf

namespace DataModel

variable {m : DataModel} {id : EntityId}

/-- The entities of a store are those that have kinds, and every one conforms to its kind. -/
structure Consistent (m : DataModel) : Prop where
  /-- The entities are those that have kinds, in the same order. -/
  keys : m.kinds.keys = m.entities.ids
  /-- Every entity conforms to its kind. -/
  typed : m.WellTyped

/-- A store that has taken over a graph is consistent. -/
theorem consistent_of_tryInit {graph : EntityGraph} {index : KindIndex}
    (h : (m.tryInit graph).1 = .ok index) :
    (m.tryInit graph).2.Consistent ∧ (m.tryInit graph).2.schema = m.schema ∧
      (m.tryInit graph).2.kinds = index := by
  rw [fst_tryInit] at h
  rw [tryInit_of_ok h]
  refine ⟨⟨Validator.keys_of_assign h, fun id hid => ?_⟩, rfl, rfl⟩
  exact Validator.entityConforms_of_assign h hid

/-! ## Changes of Fields -/

/-- A store is as it was, or an object that is in line with the kind of an entity has been put in
the place of the entity. -/
inductive Revised (m : DataModel) : DataModel → Prop where
  | same : Revised m m
  | replaced {id : EntityId} {kind : String} {s : Structure} {members : List (String × Json)}
    (hcontains : m.entities.contains id) (hkind : m.kinds.get? id = some kind)
    (hs : m.schema.kind? kind = some s)
    (hto : ConformsTo m.entities (KindIndex.typing m.kinds) s members) :
    Revised m (m.replaceMembers id members)

/-- Putting an object that is in line with its kind in the place of an entity keeps a store
consistent. -/
theorem consistent_replaceMembers {kind : String} {s : Structure}
    {members : List (String × Json)} (h : m.Consistent) (hcontains : m.entities.contains id)
    (hkind : m.kinds.get? id = some kind) (hs : m.schema.kind? kind = some s)
    (hto : ConformsTo m.entities (KindIndex.typing m.kinds) s members) :
    (m.replaceMembers id members).Consistent := by
  have hids : (m.entities.insert id (.obj members)).keys = m.entities.keys := by
    rw [OrderedMap.keys_insert, if_pos hcontains]
  have hmono (j : EntityId) (hj : m.entities.contains j) :
      (m.entities.insert id (.obj members)).contains j := by
    rwa [OrderedMap.contains_iff, hids, ← OrderedMap.contains_iff]
  constructor
  · exact h.keys.trans hids.symm
  · intro j hj
    by_cases hji : j = id
    · subst hji
      exact ⟨kind, hkind, s, members, hs, OrderedMap.get?_insert_self _ _ _,
        hto.mono hmono fun _ _ _ hty => hty⟩
    · -- the other entities still point at entities that are there and have the same kinds
      have hold : j ∈ m.entities.ids := by
        rw [EntityGraph.ids, ← hids]
        exact hj
      obtain ⟨kind', hkind', s', members', hs', hm', hto'⟩ := h.typed j hold
      refine ⟨kind', hkind', s', members', hs', ?_, hto'.mono hmono fun _ _ _ hty => hty⟩
      exact (OrderedMap.get?_insert_of_ne _ _ hji).trans hm'

/-- An edit revises a consistent store: what it puts in the place of an entity is still in line with
the kind of the entity. -/
theorem revised_edit {c : Change} (h : m.Consistent) (hc : c.isEdit) :
    m.Revised (m.change c).2 := by
  obtain ⟨e, rfl⟩ := Edit.exists_of_isEdit hc
  show m.Revised (m.edit e).2
  rcases edit_cases m e with ⟨d, members, hd, hsuits, hget, hedit⟩ | ⟨-, hedit⟩
  · obtain ⟨kind, hkind, hfield⟩ := Option.bind_eq_some_iff.1 hd
    obtain ⟨s, hs, hdeclared⟩ := Option.bind_eq_some_iff.1 hfield
    have hcontains : m.entities.contains e.id := Option.isSome_iff_exists.2 ⟨_, hget⟩
    obtain ⟨kind', hkind', s', members', hs', hget', hto⟩ :=
      h.typed e.id (OrderedMap.contains_iff.1 hcontains)
    cases hkind.symm.trans hkind'
    cases hs.symm.trans hs'
    cases hget.symm.trans hget'
    have hcontent := (suits_iff_conforms h.keys).1 hsuits
    rw [hedit]
    exact .replaced hcontains hkind hs (hto.revise hdeclared hcontent)
  · rw [hedit]
    exact .same

/-- A revised store is consistent as well, with the same kinds. -/
theorem Revised.consistent {m' : DataModel} (hrevised : m.Revised m') (h : m.Consistent) :
    m'.Consistent ∧ m'.schema = m.schema ∧ m'.kinds = m.kinds := by
  cases hrevised with
  | same => exact ⟨h, rfl, rfl⟩
  | replaced hcontains hkind hs hto =>
    exact ⟨consistent_replaceMembers h hcontains hkind hs hto, rfl, rfl⟩

/-- Changes of fields keep a store consistent, with the same kinds. -/
theorem consistent_after {changes : List Change} (h : m.Consistent)
    (hchanges : ∀ c ∈ changes, c.isEdit) :
    (m.after changes).Consistent ∧ (m.after changes).schema = m.schema ∧
      (m.after changes).kinds = m.kinds := by
  induction changes generalizing m with
  | nil => exact ⟨h, rfl, rfl⟩
  | cons c changes ih =>
    obtain ⟨hc, hrest⟩ := List.forall_mem_cons.1 hchanges
    obtain ⟨hstep, hschema, hkinds⟩ := (revised_edit h hc).consistent h
    obtain ⟨hafter, hschema', hkinds'⟩ := ih hstep hrest
    exact ⟨hafter, hschema'.trans hschema, hkinds'.trans hkinds⟩

end DataModel

end TypedGraph
