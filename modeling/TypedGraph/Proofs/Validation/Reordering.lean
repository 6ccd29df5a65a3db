import TypedGraph.Proofs.Validation.Matching

/-!
# Reordering Schemas and Graphs

The order of the kinds of a schema, of the kinds that a reference names and of the entities of a
graph directs the search, but what entities can be does not depend on it.

## Main definitions

* `Descriptor.Reorders`, `Structure.Reorders` and `Schema.Reorders`: the same declarations in some
  other order.

## Main results

* `canBe_iff_of_reorders`: reordering keeps the kinds that entities can be.
-/

namespace TypedGraph

/-- Two descriptors differ at most in the order in which references name kinds. -/
inductive Descriptor.Reorders : Descriptor → Descriptor → Prop where
  | primitive (p : Primitive) : Reorders (.primitive p) (.primitive p)
  | union (literals : StringSet) : Reorders (.union literals) (.union literals)
  | optional {d d' : Descriptor} (h : Reorders d d') : Reorders (.optional d) (.optional d')
  | arrayOf {d d' : Descriptor} (h : Reorders d d') : Reorders (.arrayOf d) (.arrayOf d')
  | ref {kinds kinds' : List String} (h : kinds.Perm kinds') : Reorders (.ref kinds) (.ref kinds')

/-- Two structures declare the same fields, in any order and with reordered descriptors. -/
def Structure.Reorders (s s' : Structure) : Prop :=
  ∀ name, Option.Rel Descriptor.Reorders (s.get? name) (s'.get? name)

/-- Two schemas declare the same kinds, in any order and with reordered structures. -/
def Schema.Reorders (schema schema' : Schema) : Prop :=
  ∀ name, Option.Rel Structure.Reorders (schema.kind? name) (schema'.kind? name)

/-! ## Reflexivity and Symmetry -/

/-- What is related to a value that is there, is there too. -/
theorem exists_of_rel {α : Type} {r : α → α → Prop} {x y : Option α} {a : α}
    (h : Option.Rel r x y) (hx : x = some a) : ∃ b, y = some b ∧ r a b := by
  cases h with
  | none => cases hx
  | some h =>
    cases hx
    exact ⟨_, rfl, h⟩

private theorem rel_refl {α : Type} {r : α → α → Prop} (hr : ∀ a, r a a) (x : Option α) :
    Option.Rel r x x := by
  cases x with
  | none => exact .none
  | some a => exact .some (hr a)

private theorem rel_symm {α : Type} {r : α → α → Prop} (hr : ∀ {a b}, r a b → r b a)
    {x y : Option α} (h : Option.Rel r x y) : Option.Rel r y x := by
  cases h with
  | none => exact .none
  | some h => exact .some (hr h)

theorem Descriptor.Reorders.refl (d : Descriptor) : d.Reorders d := by
  induction d with
  | primitive p => exact .primitive p
  | union literals => exact .union literals
  | optional d ih => exact .optional ih
  | arrayOf d ih => exact .arrayOf ih
  | ref kinds => exact .ref (.refl kinds)

theorem Structure.Reorders.refl (s : Structure) : s.Reorders s :=
  fun _ => rel_refl Descriptor.Reorders.refl _

theorem Schema.Reorders.refl (schema : Schema) : schema.Reorders schema :=
  fun _ => rel_refl Structure.Reorders.refl _

theorem Descriptor.Reorders.symm {d d' : Descriptor} (h : d.Reorders d') : d'.Reorders d := by
  induction h with
  | primitive p => exact .primitive p
  | union literals => exact .union literals
  | optional _ ih => exact .optional ih
  | arrayOf _ ih => exact .arrayOf ih
  | ref h => exact .ref h.symm

theorem Structure.Reorders.symm {s s' : Structure} (h : s.Reorders s') : s'.Reorders s :=
  fun name => rel_symm Descriptor.Reorders.symm (h name)

theorem Schema.Reorders.symm {schema schema' : Schema} (h : schema.Reorders schema') :
    schema'.Reorders schema :=
  fun name => rel_symm Structure.Reorders.symm (h name)

/-! ## Conformance -/

section

variable {graph graph' : EntityGraph} {typing : Typing}

/-- The same entries in another order are found under the same keys. -/
theorem get?_of_perm {κ : Type u} {β : Type v} [DecidableEq κ] {m n : OrderedMap κ β}
    (h : m.entries.Perm n.entries) (k : κ) : m.get? k = n.get? k := by
  ext value
  rw [OrderedMap.get?_eq_some_iff, OrderedMap.get?_eq_some_iff, h.mem_iff]

/-- A value that conforms to a descriptor conforms to a reordered one. -/
theorem Conforms.of_reorders {d d' : Descriptor} {value : Option Json} (hd : d.Reorders d')
    (hids : ∀ id, graph.contains id → graph'.contains id) (h : Conforms graph typing d value) :
    Conforms graph' typing d' value := by
  induction hd generalizing value with
  | primitive p =>
    obtain ⟨x, rfl, hx⟩ := Conforms.primitive_iff.1 h
    exact .primitive hx
  | union literals =>
    obtain ⟨s, rfl, hs⟩ := Conforms.union_iff.1 h
    exact .union hs
  | optional _ ih =>
    rw [Conforms.optional_iff] at h ⊢
    exact fun x hx => ih (h x hx)
  | arrayOf _ ih =>
    obtain ⟨items, rfl, hitems⟩ := Conforms.arrayOf_iff.1 h
    exact .arrayOf fun item hitem => ih (hitems item hitem)
  | ref hkinds =>
    -- the same kinds are named, whatever comes first
    obtain ⟨id, hid, rfl, kind, hkind, hty⟩ := Conforms.ref_iff.1 h
    exact .ref (hids id hid) (hkinds.mem_iff.1 hkind) hty

/-- An object in line with a structure is in line with a reordered one. -/
theorem ConformsTo.of_reorders {s s' : Structure} {members : List (String × Json)}
    (hs : s.Reorders s') (hids : ∀ id, graph.contains id → graph'.contains id)
    (h : ConformsTo graph typing s members) : ConformsTo graph' typing s' members := by
  constructor
  · intro m hm
    obtain ⟨d, hd⟩ := Option.isSome_iff_exists.1 (h.declared m hm)
    obtain ⟨d', hd', -⟩ := exists_of_rel (hs m.1) hd
    exact Option.isSome_iff_exists.2 ⟨d', hd'⟩
  · rintro ⟨name, d'⟩ hf
    obtain ⟨d, hd, hdd⟩ := exists_of_rel (hs.symm name) (OrderedMap.get?_eq_some_iff.2 hf)
    exact (h.fields _ (OrderedMap.get?_eq_some_iff.1 hd)).of_reorders hdd.symm hids

variable {schema schema' : Schema} {id : EntityId} {kind : String}

/-- An entity that conforms to a kind conforms to it under a reordered schema. -/
theorem EntityConforms.of_reorders (hschema : schema.Reorders schema')
    (hgraph : graph.entries.Perm graph'.entries)
    (h : EntityConforms schema graph typing id kind) :
    EntityConforms schema' graph' typing id kind := by
  obtain ⟨s, members, hs, hm, hto⟩ := h
  have hids (j : EntityId) (hj : graph.contains j) : graph'.contains j := by
    rwa [OrderedMap.contains, ← get?_of_perm hgraph]
  obtain ⟨s', hs', hss⟩ := exists_of_rel (hschema kind) hs
  exact ⟨s', members, hs', (get?_of_perm hgraph id).symm.trans hm, hto.of_reorders hss hids⟩

theorem CanBe.of_reorders (hschema : schema.Reorders schema')
    (hgraph : graph.entries.Perm graph'.entries) (h : CanBe schema graph id kind) :
    CanBe schema' graph' id kind := by
  obtain ⟨typing, hloose, hty⟩ := h
  exact ⟨typing, fun j k hjk => (hloose j k hjk).of_reorders hschema hgraph, hty⟩

/-- Reordering keeps the kinds that entities can be. -/
theorem canBe_iff_of_reorders (hschema : schema.Reorders schema')
    (hgraph : graph.entries.Perm graph'.entries) :
    CanBe schema graph id kind ↔ CanBe schema' graph' id kind :=
  ⟨fun h => h.of_reorders hschema hgraph, fun h => h.of_reorders hschema.symm hgraph.symm⟩

end

end TypedGraph
