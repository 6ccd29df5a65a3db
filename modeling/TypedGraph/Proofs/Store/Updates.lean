import TypedGraph.Proofs.Store.Coherence
import TypedGraph.Sync.Action

/-!
# Updates of Single Fields

A store that takes an update has a new value in one field of one entity, and is otherwise the same.
A store that does not take it stays as it was, whatever the reason. As stores are coherent, an
update is taken exactly if the value conforms under the kinds that the entities have; what the
entities that it points at contain is of no account.

## Main definitions

* `DataModel.Takes`: the field is declared, the value matches, and the entity is an object;
* `DataModel.Updated`: one field of one entity has got a new value.

## Main results

* `DataModel.setField_exact`: when a field is set, and what that changes;
* `ActionHandler.setField_cases`: what the built-in action can do.
-/

namespace TypedGraph

/-- The update as an edit that gives the field a value. -/
def FieldUpdate.toEdit (u : FieldUpdate) : DataModel.Edit := ⟨u.target.id, u.field, some u.value⟩

namespace DataModel

/-- The store takes the update: the kind of the entity declares the field, the value matches, and
the entity is an object. -/
def Takes (m : DataModel) (u : FieldUpdate) : Prop :=
  ∃ d members, m.fieldDescriptor? u.target.id u.field = some d ∧ m.accepts d u.value ∧
    m.membersOf? u.target.id = some members

/-- The second store is the first one with a new value in one field of one entity. -/
structure Updated (u : FieldUpdate) (m m' : DataModel) : Prop where
  schema : m'.schema = m.schema
  kinds : m'.kinds = m.kinds
  mint : m'.mint = m.mint
  /-- The entities are the same, in the same order. -/
  ids : m'.entities.ids = m.entities.ids
  /-- The other entities have not changed. -/
  others : ∀ id, id ≠ u.target.id → m'.entities.get? id = m.entities.get? id
  /-- The field has the value, and the other fields of the entity have not changed. -/
  target : ∃ members members', m.entities.get? u.target.id = some (.obj members) ∧
    m'.entities.get? u.target.id = some (.obj members') ∧
    (Json.Increasing members → Json.Increasing members') ∧
    ∀ name, Json.lookup members' name =
      if name = u.field then some u.value else Json.lookup members name

variable {schema : Schema} {m : DataModel} {u : FieldUpdate}

/-- An update that is taken is carried out. -/
theorem updated_of_takes (h : m.Takes u) :
    (m.setField u.target.id u.field u.value).1 = true ∧
      Updated u m (m.setField u.target.id u.field u.value).2 := by
  have halike := alike_edit m u.toEdit
  have hdone : (m.edit u.toEdit).1 = true := fst_edit_iff.2 h
  obtain ⟨d, members, -, -, hmembers⟩ := h
  rw [membersOf?_eq_some_iff] at hmembers
  refine ⟨hdone, halike.schema, halike.kinds, halike.mint, halike.ids, fun id hid => ?_, members,
    u.toEdit.revise members, hmembers, ?_, u.toEdit.increasing_revise,
    u.toEdit.lookup_revise members⟩
  · exact (get?_edit m u.toEdit id).trans (if_neg fun h => hid h.2)
  · refine (get?_edit m u.toEdit _).trans ?_
    rw [if_pos ⟨hdone, rfl⟩, hmembers]
    rfl

/-- An update that is not taken changes nothing. -/
theorem setField_of_not_takes (h : ¬ m.Takes u) :
    m.setField u.target.id u.field u.value = (false, m) :=
  edit_of_not_permits (e := u.toEdit) h

/-- A store sets a field exactly if the kind of the entity declares it, the entity is an object, and
the value conforms under the kinds of the store: its references are tokens of entities of the store
with one of the kinds, whatever these entities contain. The field then has the value and nothing
else has changed; otherwise nothing has changed at all. -/
theorem setField_exact (h : Arises schema m) (id : EntityId) (field : String) (value : Json) :
    ((m.setField id field value).1 = true ↔
      ∃ kind d members, m.kindOf? id = some kind ∧ schema.field? kind field = some d ∧
        m.entities.get? id = some (.obj members) ∧
        Conforms m.entities (KindIndex.typing m.kinds) d (some value)) ∧
    ((m.setField id field value).1 = true →
      Updated ⟨⟨id⟩, field, value⟩ m (m.setField id field value).2) ∧
    ((m.setField id field value).1 = false → (m.setField id field value).2 = m) := by
  obtain ⟨hcoherent, -, rfl⟩ := coherent_of_arises h
  rw [← permits_iff_conforms (e := ⟨id, field, some value⟩) hcoherent]
  by_cases htakes : m.Takes ⟨⟨id⟩, field, value⟩
  · obtain ⟨hdone, hupdated⟩ := updated_of_takes htakes
    exact ⟨iff_of_true hdone htakes, fun _ => hupdated,
      fun hnot => absurd (hdone.symm.trans hnot) Bool.noConfusion⟩
  · have hset : m.setField id field value = (false, m) := setField_of_not_takes htakes
    rw [hset]
    exact ⟨iff_of_false Bool.noConfusion htakes, nofun, fun _ => rfl⟩

/-- The best book of the shelf can be another book of the store, and then only this changes. The
shelf itself is no book, and nothing changes. -/
theorem setField_shelfStore :
    Arises shelfSchema shelfStore ∧
      shelfStore.Updated ⟨⟨⟨"s"⟩⟩, "best", RefToken.toJson ⟨⟨"b"⟩⟩⟩
        (shelfStore.setField ⟨"s"⟩ "best" (RefToken.toJson ⟨⟨"b"⟩⟩)).2 ∧
      (shelfStore.setField ⟨"s"⟩ "best" (RefToken.toJson ⟨⟨"s"⟩⟩)).2 = shelfStore := by
  refine ⟨arises_shelfStore, (setField_exact arises_shelfStore _ _ _).2.1 ?_,
    (setField_exact arises_shelfStore _ _ _).2.2 ?_⟩
  · refine (setField_exact arises_shelfStore _ _ _).1.2 ⟨"Shelf", .optional (.ref ["Book"]),
      [("best", RefToken.toJson ⟨⟨"$1"⟩⟩), ("rest", .arr [])], ?_, ?_, ?_, .present ?_⟩
    · decide +kernel
    · decide +kernel
    · decide +kernel
    · have hkind : KindIndex.typing shelfStore.kinds ⟨"b"⟩ "Book" := by
        unfold KindIndex.typing
        decide +kernel
      exact .ref (by decide +kernel) (List.mem_singleton_self _) hkind
  · decide +kernel

end DataModel

/-- The update that a request for the built-in action asks for. -/
def ActionRequest.update? (request : ActionRequest) : Option FieldUpdate :=
  if request.op = FieldUpdate.op then FieldUpdate.decode? request.value else none

namespace ActionHandler

variable {request : ActionRequest} {u : FieldUpdate}

theorem setField_of_update?_eq_some (h : request.update? = some u) (self : RefToken)
    (m : DataModel) :
    ActionHandler.setField request self m =
      (!(m.setField u.target.id u.field u.value).1,
        (m.setField u.target.id u.field u.value).2) := by
  unfold ActionRequest.update? at h
  split at h
  · next hop => simp only [setField, if_pos hop, h]
  · cases h

theorem setField_of_update?_eq_none (h : request.update? = none) (self : RefToken) (m : DataModel) :
    ActionHandler.setField request self m = (true, m) := by
  unfold ActionRequest.update? at h
  split at h
  · next hop => simp only [setField, if_pos hop, h]
  · next hop => rw [setField, if_neg hop]

/-- The built-in action carries out an update that is asked for and taken. It refuses everything
else, and then leaves the store as it is. -/
theorem setField_cases (request : ActionRequest) (self : RefToken) (m : DataModel) :
    (∃ u m', request.update? = some u ∧ m.Takes u ∧
      ActionHandler.setField request self m = (false, m') ∧ m.Updated u m') ∨
    ((∀ u, request.update? = some u → ¬ m.Takes u) ∧
      ActionHandler.setField request self m = (true, m)) := by
  cases hu : request.update? with
  | none => exact .inr ⟨nofun, setField_of_update?_eq_none hu self m⟩
  | some u =>
    have hset := setField_of_update?_eq_some hu self m
    by_cases htakes : m.Takes u
    · obtain ⟨hdone, hupdated⟩ := DataModel.updated_of_takes htakes
      rw [hdone, Bool.not_true] at hset
      exact .inl ⟨u, _, rfl, htakes, hset, hupdated⟩
    · rw [DataModel.setField_of_not_takes htakes, Bool.not_false] at hset
      refine .inr ⟨fun u' hu' => ?_, hset⟩
      cases hu'
      exact htakes

end ActionHandler

end TypedGraph
