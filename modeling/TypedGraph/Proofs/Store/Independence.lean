import TypedGraph.Proofs.Store.Coherence

/-!
# Independence of Edits

Whether a store permits an edit depends on what its schema declares, on the kinds of its entities
and on which of them are objects, and edits change none of these. So an edit is permitted after
other edits exactly if it was before them, edits of different fields can be made in any order, and
in the end a field holds what the last permitted edit of it has left there.

## Main definitions

* `DataModel.made`: the edits of a sequence that are made;
* `DataModel.Edit.isAbout`: the edit is one of this field.

## Main results

* `DataModel.permits_iff_of_alike`: stores that are alike permit the same edits;
* `DataModel.edit_comm`: edits of different fields commute;
* `DataModel.fieldValue?_editAll`: what a field holds after a sequence of edits;
* `DataModel.edits_independent`: all of this for every store that arises.
-/

namespace TypedGraph.DataModel

variable {schema : Schema} {m m' : DataModel} {e e' : Edit}

/-! ## Stores That Are Alike -/

/-- Two stores with the same schema, the same kinds and the same entities are the same. -/
theorem eq_of_get?_eq {m₁ m₂ : DataModel} (h₁ : m.Alike m₁) (h₂ : m.Alike m₂)
    (hget : ∀ id, m₁.entities.get? id = m₂.entities.get? id) : m₁ = m₂ := by
  have hentities : m₁.entities = m₂.entities :=
    OrderedMap.ext_get? (h₁.ids.trans h₂.ids.symm) hget
  have hschema : m₁.schema = m₂.schema := h₁.schema.trans h₂.schema.symm
  have hkinds : m₁.kinds = m₂.kinds := h₁.kinds.trans h₂.kinds.symm
  have hmint : m₁.mint = m₂.mint := h₁.mint.trans h₂.mint.symm
  obtain ⟨schema₁, entities₁, kinds₁, mint₁⟩ := m₁
  obtain ⟨schema₂, entities₂, kinds₂, mint₂⟩ := m₂
  obtain rfl : entities₁ = entities₂ := hentities
  obtain rfl : schema₁ = schema₂ := hschema
  obtain rfl : kinds₁ = kinds₂ := hkinds
  obtain rfl : mint₁ = mint₂ := hmint
  rfl

theorem Alike.contains_iff (h : m.Alike m') {id : EntityId} :
    m'.entities.contains id ↔ m.entities.contains id := by
  rw [OrderedMap.contains_iff, OrderedMap.contains_iff, ← EntityGraph.ids, ← EntityGraph.ids, h.ids]

/-- Stores that are alike have the same objects among their entities, though the objects may hold
different fields. -/
theorem Alike.isSome_membersOf? (h : m.Alike m') (id : EntityId) :
    (m'.membersOf? id).isSome = (m.membersOf? id).isSome := by
  cases hmembers : m.membersOf? id with
  | none => rw [h.membersOf?_eq_none hmembers]
  | some members =>
    rw [h.objects id (by rw [hmembers]; rfl)]
    rfl

/-- The fields of coherent stores that are alike may hold the same: what the references in a value
point at has the same kinds in both. -/
theorem Alike.suits_eq (h : m.Alike m') (hcoherent : m.Coherent) (d : Descriptor)
    (content : Option Json) : m'.suits d content = m.suits d content := by
  rw [Bool.eq_iff_iff, suits_iff_conforms (h.coherent hcoherent), suits_iff_conforms hcoherent,
    h.kinds]
  constructor
  · exact Conforms.mono (fun _ hid => h.contains_iff.1 hid) fun _ _ _ hty => hty
  · exact Conforms.mono (fun _ hid => h.contains_iff.2 hid) fun _ _ _ hty => hty

/-- Coherent stores that are alike permit the same edits. -/
theorem permits_iff_of_alike (h : m.Alike m') (hcoherent : m.Coherent) :
    m'.Permits e ↔ m.Permits e := by
  -- the three conditions are about the kind, the content and the entity, in this order
  unfold Permits fieldDescriptor?
  rw [h.kinds, h.schema]
  simp only [h.suits_eq hcoherent, exists_and_left, ← Option.isSome_iff_exists,
    h.isSome_membersOf?]

/-- An edit gets the same answer from coherent stores that are alike. -/
theorem fst_edit_of_alike (h : m.Alike m') (hcoherent : m.Coherent) (e : Edit) :
    (m'.edit e).1 = (m.edit e).1 := by
  rw [Bool.eq_iff_iff, fst_edit_iff, fst_edit_iff]
  exact permits_iff_of_alike h hcoherent

/-! ## Edits of Different Fields -/

/-- The edit is one of this field of this entity. -/
def Edit.isAbout (e : Edit) (id : EntityId) (field : String) : Bool := e.id = id ∧ e.field = field

/-- Edits of different fields of an entity commute. -/
theorem Edit.on_comm {entity : Json} (h : entity.Canonical) (hne : e.field ≠ e'.field) :
    e'.on (e.on entity) = e.on (e'.on entity) := by
  cases entity with
  | obj members => exact congrArg Json.obj (revise_comm h.1 hne)
  | _ => rfl

/-- Edits of different fields can be made in any order. -/
theorem edit_comm (hcoherent : m.Coherent) (hcanonical : m.entities.Canonical)
    (hne : (e.id, e.field) ≠ (e'.id, e'.field)) :
    ((m.edit e).2.edit e').2 = ((m.edit e').2.edit e).2 := by
  have halike := alike_edit m e
  have halike' := alike_edit m e'
  refine eq_of_get?_eq (halike.trans (alike_edit _ e')) (halike'.trans (alike_edit _ e))
    fun id => ?_
  rw [get?_edit, get?_edit, get?_edit, get?_edit, fst_edit_of_alike halike hcoherent,
    fst_edit_of_alike halike' hcoherent]
  by_cases h : (m.edit e).1 ∧ id = e.id
  · by_cases h' : (m.edit e').1 ∧ id = e'.id
    · -- both edits are made in the same entity, and so in different fields
      have hfield : e.field ≠ e'.field := fun heq =>
        hne (Prod.ext (h.2.symm.trans h'.2) heq)
      rw [if_pos h', if_pos h, if_pos h, if_pos h', Option.map_map, Option.map_map]
      cases hget : m.entities.get? id with
      | none => rfl
      | some entity => exact congrArg some (Edit.on_comm (hcanonical id entity hget) hfield)
    · rw [if_neg h', if_pos h, if_pos h, if_neg h']
  · rw [if_neg h, if_neg h]

/-! ## Sequences of Edits -/

/-- The edits that are made when a store is asked for some of them, one after the other. -/
def made (m : DataModel) : List Edit → List Edit
  | [] => []
  | e :: edits => if (m.edit e).1 then e :: made (m.edit e).2 edits else made (m.edit e).2 edits

/-- The edits that are made are those that the store permits from the start. -/
theorem made_eq_filter (hcoherent : m.Coherent) (edits : List Edit) :
    m.made edits = edits.filter fun e => (m.edit e).1 := by
  -- the store changes along the sequence, but stays alike to the one at the start
  have hrest (edits : List Edit) : ∀ m', m.Alike m' →
      m'.made edits = edits.filter fun e => (m.edit e).1 := by
    induction edits with
    | nil => exact fun _ _ => rfl
    | cons e edits ih =>
      intro m' halike
      rw [made, List.filter_cons, fst_edit_of_alike halike hcoherent,
        ih _ (halike.trans (alike_edit m' e))]
  exact hrest edits m (.refl m)

/-- After a sequence of edits a field holds what the last edit of it that was made has left there,
or what it held before if there is none. -/
theorem fieldValue?_editAll (m : DataModel) (edits : List Edit) (id : EntityId) (field : String) :
    (m.editAll edits).fieldValue? id field =
      (((m.made edits).filter (·.isAbout id field)).getLast?.map Edit.content).getD
        (m.fieldValue? id field) := by
  induction edits generalizing m with
  | nil => rfl
  | cons e edits ih =>
    rw [editAll_cons, ih, fieldValue?_edit, made]
    by_cases hmade : (m.edit e).1
    · rw [if_pos hmade, List.filter_cons]
      by_cases habout : e.isAbout id field
      · have hat : id = e.id ∧ field = e.field := by
          obtain ⟨hid, hfield⟩ := of_decide_eq_true habout
          exact ⟨hid.symm, hfield.symm⟩
        -- this edit counts if no later one of the field is made
        rw [if_pos habout, if_pos ⟨hmade, hat⟩, List.getLast?_cons]
        cases (List.filter (·.isAbout id field) ((m.edit e).2.made edits)).getLast? <;> rfl
      · have hnot : ¬ ((m.edit e).1 ∧ id = e.id ∧ field = e.field) := fun h =>
          habout (decide_eq_true ⟨h.2.1.symm, h.2.2.symm⟩)
        rw [if_neg habout, if_neg hnot]
    · rw [if_neg hmade, if_neg fun h => hmade h.1]

/-- Edits do not depend on each other. An edit is made exactly if its content conforms under the
kinds of the store, and so it gets the same answer after any other edits as before them; two edits
of different fields can change places; and a sequence of edits leaves the entities and their kinds
as they are, but for the fields, which hold what the last edit that the store permits has left
there. -/
theorem edits_independent (h : Arises schema m) :
    (∀ e : Edit, (m.edit e).1 = true ↔ ∃ kind d members, m.kindOf? e.id = some kind ∧
      schema.field? kind e.field = some d ∧ m.entities.get? e.id = some (.obj members) ∧
      Conforms m.entities (KindIndex.typing m.kinds) d e.content) ∧
    (∀ edits e, ((m.editAll edits).edit e).1 = (m.edit e).1) ∧
    (∀ e e' : Edit, (e.id, e.field) ≠ (e'.id, e'.field) →
      ((m.edit e').2.edit e).1 = (m.edit e).1 ∧ ((m.edit e).2.edit e').1 = (m.edit e').1 ∧
        ((m.edit e).2.edit e').2 = ((m.edit e').2.edit e).2) ∧
    ∀ edits, m.Alike (m.editAll edits) ∧
      m.made edits = (edits.filter fun e => (m.edit e).1) ∧
      ∀ id field, (m.editAll edits).fieldValue? id field =
        (((m.made edits).filter (·.isAbout id field)).getLast?.map Edit.content).getD
          (m.fieldValue? id field) := by
  obtain ⟨hcoherent, hcanonical, rfl⟩ := coherent_of_arises h
  refine ⟨fun e => fst_edit_iff.trans (permits_iff_conforms hcoherent),
    fun edits e => fst_edit_of_alike (alike_editAll m edits) hcoherent e,
    fun e e' hne => ⟨fst_edit_of_alike (alike_edit m e') hcoherent e,
      fst_edit_of_alike (alike_edit m e) hcoherent e', edit_comm hcoherent hcanonical hne⟩,
    fun edits => ⟨alike_editAll m edits, made_eq_filter hcoherent edits,
      fieldValue?_editAll m edits⟩⟩

/-- A new title of a book. -/
def retitleBook : Edit := ⟨⟨"b"⟩, "title", some (.str "New Atlas")⟩

/-- No best book any more. -/
def clearBest : Edit := ⟨⟨"s"⟩, "best", none⟩

/-- The shelf itself as the best book, which is refused; another best book; a new title of it; and
no best book in the end. -/
def shelfEdits : List Edit := [
  ⟨⟨"s"⟩, "best", some (RefToken.toJson ⟨⟨"s"⟩⟩)⟩,
  ⟨⟨"s"⟩, "best", some (RefToken.toJson ⟨⟨"b"⟩⟩)⟩,
  retitleBook,
  clearBest]

/-- The title is new and the best book gone, in whichever order these two edits are made; the list
of the other books is what it was. -/
theorem independent_shelfEdits :
    Arises shelfSchema shelfStore ∧
      shelfStore.made shelfEdits = shelfEdits.tail ∧
      (shelfStore.editAll shelfEdits).fieldValue? ⟨"s"⟩ "best" = none ∧
      (shelfStore.editAll shelfEdits).fieldValue? ⟨"b"⟩ "title" = some (.str "New Atlas") ∧
      (shelfStore.editAll shelfEdits).fieldValue? ⟨"s"⟩ "rest" = some (.arr []) ∧
      ((shelfStore.edit retitleBook).2.edit clearBest).2 =
        ((shelfStore.edit clearBest).2.edit retitleBook).2 := by
  obtain ⟨-, -, hcomm, hruns⟩ := edits_independent arises_shelfStore
  obtain ⟨-, hmade, hfields⟩ := hruns shelfEdits
  have htail : shelfStore.made shelfEdits = shelfEdits.tail := by
    rw [hmade]
    decide +kernel
  simp only [htail] at hfields
  refine ⟨arises_shelfStore, htail, hfields _ _, hfields _ _, (hfields _ _).trans ?_,
    (hcomm _ _ (by decide)).2.2⟩
  decide +kernel

end TypedGraph.DataModel
