import TypedGraph.Proofs.Json.Canonical
import TypedGraph.Store.History

/-!
# Edits of Fields

An edit gives a field of an entity a new value or removes the field. A store that permits it changes
this field and nothing else, and a store that does not permit it stays as it was. The two kinds of
edits differ only in what they ask of the field: a new value has to match its descriptor, and a
field that is removed has to be optional.

## Main definitions

* `DataModel.Edit`: a new content of one field, which may be none;
* `DataModel.Permits`: the content suits the field, and the entity is an object;
* `DataModel.Alike`: two stores have the same entities and kinds, and objects in the same places.

## Main results

* `DataModel.edit_of_permits` and `DataModel.edit_of_not_permits`: what comes of an edit;
* `DataModel.alike_edit`: all that an edit leaves as it is;
* `DataModel.fieldValue?_edit`: what the fields of the entities hold afterwards.
-/

namespace TypedGraph.DataModel

/-- A new content of one field of one entity. -/
structure Edit where
  /-- The entity to change. -/
  id : EntityId
  /-- The field to change. -/
  field : String
  /-- What the field is to hold: a value, or nothing if it is to be removed. -/
  content : Option Json
deriving DecidableEq

namespace Edit

/-- The edit as a change that a store is asked for. -/
def toChange : Edit → Change
  | ⟨id, field, some value⟩ => .setField id field value
  | ⟨id, field, none⟩ => .clearField id field

/-- The members of an object once the edit has been made. -/
def revise (e : Edit) (members : List (String × Json)) : List (String × Json) :=
  match e.content with
  | some value => Json.insertMember e.field value members
  | none => Json.eraseMember e.field members

/-- An entity once the edit has been made. -/
def on (e : Edit) : Json → Json
  | .obj members => .obj (e.revise members)
  | value => value

theorem exists_of_isEdit {c : Change} (h : c.isEdit) : ∃ e : Edit, c = e.toChange := by
  cases c with
  | setField id field value => exact ⟨⟨id, field, some value⟩, rfl⟩
  | clearField id field => exact ⟨⟨id, field, none⟩, rfl⟩
  | _ => cases h

variable {members : List (String × Json)}

/-- An edit changes what is found under its field only. -/
theorem lookup_revise (e : Edit) (members : List (String × Json)) (name : String) :
    Json.lookup (e.revise members) name =
      if name = e.field then e.content else Json.lookup members name := by
  unfold revise
  cases e.content with
  | some value => exact Json.lookup_insertMember _ _ _ _
  | none => exact Json.lookup_eraseMember _ _ _

theorem increasing_revise (e : Edit) (h : Json.Increasing members) :
    Json.Increasing (e.revise members) := by
  unfold revise
  cases e.content with
  | some value => exact Json.increasing_insertMember h
  | none => exact Json.increasing_eraseMember h

/-- A member of a revised object is an old one, or the new one. -/
theorem mem_revise {e : Edit} {member : String × Json} (h : member ∈ e.revise members) :
    member ∈ members ∨ member.1 = e.field ∧ e.content = some member.2 := by
  unfold revise at h
  cases hcontent : e.content with
  | some value =>
    rw [hcontent] at h
    rcases Json.mem_insertMember h with rfl | hold
    · exact .inr ⟨rfl, rfl⟩
    · exact .inl hold
  | none =>
    rw [hcontent] at h
    exact .inl (List.mem_filter.1 h).1

/-- Edits of different fields commute. -/
theorem revise_comm {e e' : Edit} (h : Json.Increasing members) (hne : e.field ≠ e'.field) :
    e'.revise (e.revise members) = e.revise (e'.revise members) := by
  refine Json.ext_lookup (e'.increasing_revise (e.increasing_revise h))
    (e.increasing_revise (e'.increasing_revise h)) fun name => ?_
  rw [lookup_revise, lookup_revise, lookup_revise, lookup_revise]
  by_cases hname : name = e.field
  · rw [if_pos hname, if_pos hname, if_neg fun heq => hne (hname.symm.trans heq)]
  · rw [if_neg hname, if_neg hname]

end Edit

variable {m m' : DataModel} {e : Edit} {id : EntityId}

/-- Asks for an edit: whether it is made, and the store then. -/
def edit (m : DataModel) (e : Edit) : Bool × DataModel := m.change e.toChange

/-- The store after some edits. -/
def editAll (m : DataModel) (edits : List Edit) : DataModel := m.after (edits.map Edit.toChange)

@[simp]
theorem editAll_nil (m : DataModel) : m.editAll [] = m := rfl

@[simp]
theorem editAll_cons (m : DataModel) (e : Edit) (edits : List Edit) :
    m.editAll (e :: edits) = (m.edit e).2.editAll edits := rfl

/-! ## What Comes of an Edit -/

/-- A field may hold a content: a value that matches its descriptor, or nothing if it is
optional. -/
def suits (m : DataModel) (d : Descriptor) : Option Json → Bool
  | some value => m.accepts d value
  | none => d.isOptional

/-- The kind of the entity declares the field, which may hold the content, and the entity is an
object. -/
def Permits (m : DataModel) (e : Edit) : Prop :=
  ∃ d members, m.fieldDescriptor? e.id e.field = some d ∧ m.suits d e.content ∧
    m.membersOf? e.id = some members

theorem membersOf?_eq_some_iff {members : List (String × Json)} :
    m.membersOf? id = some members ↔ m.entities.get? id = some (.obj members) := by
  rw [membersOf?, Option.bind_eq_bind, Option.bind_eq_some_iff]
  constructor
  · rintro ⟨entity, hentity, hobj⟩
    cases entity <;> cases hobj
    exact hentity
  · intro h
    exact ⟨_, h, rfl⟩

/-- Both kinds of edits are made in the same way. -/
theorem edit_eq (m : DataModel) (e : Edit) :
    m.edit e =
      match m.fieldDescriptor? e.id e.field with
      | none => (false, m)
      | some d =>
        if m.suits d e.content then
          match m.membersOf? e.id with
          | some members => (true, m.replaceMembers e.id (e.revise members))
          | none => (false, m)
        else (false, m) := by
  obtain ⟨id, field, content⟩ := e
  -- a new value and a removal differ only in the test and in what becomes of the members
  cases content <;> rfl

/-- An edit that is permitted puts the revised object in the place of the entity. -/
theorem edit_of_permits {d : Descriptor} {members : List (String × Json)}
    (hd : m.fieldDescriptor? e.id e.field = some d) (hsuits : m.suits d e.content)
    (hmembers : m.membersOf? e.id = some members) :
    m.edit e = (true, m.replaceMembers e.id (e.revise members)) := by
  rw [edit_eq, hd]
  dsimp only
  rw [if_pos hsuits, hmembers]

/-- An edit that is not permitted changes nothing. -/
theorem edit_of_not_permits (h : ¬ m.Permits e) : m.edit e = (false, m) := by
  rw [edit_eq]
  split
  · rfl
  · next d hd =>
    split
    · next hsuits =>
      split
      · next members hmembers => exact absurd ⟨d, members, hd, hsuits, hmembers⟩ h
      · rfl
    · rfl

/-- An edit is permitted and made, or it leaves no trace. -/
theorem edit_cases (m : DataModel) (e : Edit) :
    (∃ d members, m.fieldDescriptor? e.id e.field = some d ∧ m.suits d e.content ∧
      m.entities.get? e.id = some (.obj members) ∧
      m.edit e = (true, m.replaceMembers e.id (e.revise members))) ∨
    ¬ m.Permits e ∧ m.edit e = (false, m) := by
  by_cases h : m.Permits e
  · obtain ⟨d, members, hd, hsuits, hmembers⟩ := h
    exact .inl ⟨d, members, hd, hsuits, membersOf?_eq_some_iff.1 hmembers,
      edit_of_permits hd hsuits hmembers⟩
  · exact .inr ⟨h, edit_of_not_permits h⟩

theorem fst_edit_iff : (m.edit e).1 = true ↔ m.Permits e := by
  constructor
  · intro h
    by_contra hnot
    rw [edit_of_not_permits hnot] at h
    cases h
  · rintro ⟨d, members, hd, hsuits, hmembers⟩
    rw [edit_of_permits hd hsuits hmembers]

/-! ## What an Edit Leaves as It Is -/

/-- Two stores have the same kinds, the same source of ids and the same entities in the same order,
but for what the objects among them hold. -/
structure Alike (m m' : DataModel) : Prop where
  schema : m'.schema = m.schema
  kinds : m'.kinds = m.kinds
  mint : m'.mint = m.mint
  /-- The entities are the same, in the same order. -/
  ids : m'.entities.ids = m.entities.ids
  /-- Entities that are no objects have not changed. -/
  others : ∀ id, m.membersOf? id = none → m'.entities.get? id = m.entities.get? id
  /-- Objects are objects still. -/
  objects : ∀ id, (m.membersOf? id).isSome → (m'.membersOf? id).isSome

theorem Alike.refl (m : DataModel) : m.Alike m :=
  ⟨rfl, rfl, rfl, rfl, fun _ _ => rfl, fun _ h => h⟩

/-- An entity that is no object is none in a store that is alike. -/
theorem Alike.membersOf?_eq_none (h : m.Alike m') (hid : m.membersOf? id = none) :
    m'.membersOf? id = none := by
  rw [membersOf?] at hid ⊢
  rwa [h.others id hid]

theorem Alike.trans {m'' : DataModel} (h : m.Alike m') (h' : m'.Alike m'') : m.Alike m'' where
  schema := h'.schema.trans h.schema
  kinds := h'.kinds.trans h.kinds
  mint := h'.mint.trans h.mint
  ids := h'.ids.trans h.ids
  others id hid := (h'.others id (h.membersOf?_eq_none hid)).trans (h.others id hid)
  objects id hid := h'.objects id (h.objects id hid)

/-- The entities after an edit. -/
theorem get?_edit (m : DataModel) (e : Edit) (id : EntityId) :
    (m.edit e).2.entities.get? id =
      if (m.edit e).1 ∧ id = e.id then (m.entities.get? id).map e.on else m.entities.get? id := by
  rcases edit_cases m e with ⟨d, members, -, -, hget, hedit⟩ | ⟨-, hedit⟩
  · rw [hedit]
    show (m.entities.insert e.id (.obj (e.revise members))).get? id = _
    by_cases hid : id = e.id
    · rw [if_pos ⟨rfl, hid⟩, hid, OrderedMap.get?_insert_self, hget]
      rfl
    · rw [if_neg fun h => hid h.2, OrderedMap.get?_insert_of_ne _ _ hid]
  · rw [hedit, if_neg]
    rintro ⟨⟨⟩, -⟩

/-- An edit changes no more than what an object holds. -/
theorem alike_edit (m : DataModel) (e : Edit) : m.Alike (m.edit e).2 := by
  rcases edit_cases m e with ⟨d, members, -, -, hget, hedit⟩ | ⟨-, hedit⟩
  · have hcontains : m.entities.contains e.id := Option.isSome_iff_exists.2 ⟨_, hget⟩
    have hmembers : m.membersOf? e.id = some members := membersOf?_eq_some_iff.2 hget
    have hother {id : EntityId} (hid : id ≠ e.id) :
        (m.edit e).2.entities.get? id = m.entities.get? id := by
      rw [get?_edit, if_neg fun h => hid h.2]
    refine ⟨?_, ?_, ?_, ?_, fun id hid => hother ?_, fun id hid => ?_⟩
    · rw [hedit]; rfl
    · rw [hedit]; rfl
    · rw [hedit]; rfl
    · -- the entity is there already, so that it keeps its place
      rw [hedit]
      exact (OrderedMap.keys_insert _ _ _).trans (if_pos hcontains)
    · -- the entity that is edited is an object
      rintro rfl
      rw [hmembers] at hid
      cases hid
    · by_cases heq : id = e.id
      · have hnew : (m.edit e).2.membersOf? id = some (e.revise members) := by
          rw [membersOf?_eq_some_iff, get?_edit, hedit, if_pos ⟨rfl, heq⟩, heq, hget]
          rfl
        rw [hnew]
        rfl
      · rwa [membersOf?, hother heq]
  · rw [hedit]
    exact .refl m

theorem alike_editAll (m : DataModel) (edits : List Edit) : m.Alike (m.editAll edits) := by
  induction edits generalizing m with
  | nil => exact .refl m
  | cons e edits ih => exact (alike_edit m e).trans (ih _)

/-! ## What the Fields Hold -/

/-- What a field of an entity holds. -/
def fieldValue? (m : DataModel) (id : EntityId) (field : String) : Option Json := do
  (← m.entities.get? id).member? field

/-- An edit that is made changes what its field holds and nothing else. -/
theorem fieldValue?_edit (m : DataModel) (e : Edit) (id : EntityId) (field : String) :
    (m.edit e).2.fieldValue? id field =
      if (m.edit e).1 ∧ id = e.id ∧ field = e.field then e.content
      else m.fieldValue? id field := by
  rw [fieldValue?, get?_edit]
  rcases edit_cases m e with ⟨d, members, -, -, hget, hedit⟩ | ⟨-, hedit⟩
  · rw [hedit]
    by_cases hid : id = e.id
    · subst hid
      rw [if_pos ⟨rfl, rfl⟩, fieldValue?, hget]
      show Json.lookup (e.revise members) field = _
      rw [Edit.lookup_revise]
      by_cases hfield : field = e.field
      · rw [if_pos hfield, if_pos ⟨rfl, rfl, hfield⟩]
      · rw [if_neg hfield, if_neg fun h => hfield h.2.2]
        rfl
    · rw [if_neg fun h => hid h.2, if_neg fun h => hid h.2.1]
      rfl
  · rw [hedit, if_neg (fun h => Bool.false_ne_true h.1), if_neg (fun h => Bool.false_ne_true h.1)]
    rfl

end TypedGraph.DataModel
