import TypedGraph.Proofs.Store.Typing

/-!
# References in Well-Typed Stores

Three readers look at the form of a reference. Matching insists on a token and nothing else, the
reader of a field tolerates further members, and the reader of a list leaves out what it cannot
read. Where the entities of a store conform to their kinds, the three agree: whatever a field is
declared to refer to can be read from it, token by token, and every token leads to an entity of a
kind that the field declares.

## Main definitions

* `Descriptor.Demands`: a descriptor asks for another one of the content of a field;
* `DataModel.Leads`: a token leads to an entity of one of some kinds;
* `DataModel.Legible`: the references in a field can be read, and lead to entities;
* `DataModel.Navigable`: this holds of all fields of all entities.

## Main results

* `EntityView.ref?_eq_some` and `EntityView.refs_eq`: what the readers make of tokens;
* `DataModel.WellTyped.exists_view`: an entity is viewed with fields that conform;
* `DataModel.navigable_of_wellTyped`: a well-typed store is navigable, and stays so while fields
  change.
-/

namespace TypedGraph

/-! ## Readers of Tokens -/

namespace EntityView

variable {view : EntityView} {field : String}

/-- A field that holds a token is read as this token. -/
theorem ref?_eq_some {token : RefToken} (h : view.get? field = some token.toJson) :
    view.ref? field = some token := by
  unfold ref?
  rw [h]
  exact token.toOption_ofJson_toJson

/-- A field that holds a list of tokens is read as these tokens, without a gap. -/
theorem refs_eq {tokens : List RefToken}
    (h : view.get? field = some (.arr (tokens.map RefToken.toJson))) :
    view.refs field = tokens := by
  unfold refs
  rw [h]
  show (tokens.map RefToken.toJson).filterMap (fun item => (RefToken.ofJson item).toOption) = tokens
  rw [List.filterMap_map]
  exact (List.filterMap_congr fun token _ => token.toOption_ofJson_toJson).trans List.filterMap_some

end EntityView

/-! ## Contents of Reference Fields -/

/-- A descriptor asks that the content of a field conforms to the inner descriptor: it is the inner
one, or the inner one is optional and there is a content. -/
def Descriptor.Demands (d inner : Descriptor) (content : Option Json) : Prop :=
  d = inner ∨ d = .optional inner ∧ content.isSome

namespace Conforms

variable {graph : EntityGraph} {typing : Typing}

/-- What conforms to a descriptor also conforms to what it demands. -/
theorem of_demands {d inner : Descriptor} {content : Option Json}
    (h : Conforms graph typing d content) (hdemands : d.Demands inner content) :
    Conforms graph typing inner content := by
  obtain rfl | ⟨rfl, hsome⟩ := hdemands
  · exact h
  · obtain ⟨value, rfl⟩ := Option.isSome_iff_exists.1 hsome
    exact optional_iff.1 h value rfl

/-- Items that conform to a reference are the values of tokens, each of which points at an entity
with one of the kinds. -/
theorem exists_tokens {kinds : List String} {items : List Json}
    (h : ∀ item ∈ items, Conforms graph typing (.ref kinds) (some item)) :
    ∃ tokens : List RefToken, items = tokens.map RefToken.toJson ∧
      ∀ token ∈ tokens, graph.contains token.id ∧ ∃ kind ∈ kinds, typing token.id kind := by
  induction items with
  | nil => exact ⟨[], rfl, fun _ htoken => absurd htoken List.not_mem_nil⟩
  | cons item items ih =>
    obtain ⟨hitem, hitems⟩ := List.forall_mem_cons.1 h
    obtain ⟨id, hid, hvalue, hkind⟩ := ref_iff.1 hitem
    obtain ⟨tokens, rfl, htokens⟩ := ih hitems
    refine ⟨⟨id⟩ :: tokens, ?_, ?_⟩
    · rw [Option.some.inj hvalue]
      rfl
    · exact List.forall_mem_cons.2 ⟨⟨hid, hkind⟩, htokens⟩

end Conforms

/-! ## Where Tokens Lead -/

namespace DataModel

variable {m : DataModel} {id : EntityId}

/-- A token leads to an entity of the store, which has one of the kinds, and which is also what the
token leads to as an entity of this kind. -/
def Leads (m : DataModel) (kinds : List String) (token : RefToken) : Prop :=
  ∃ entity, m.resolve? token = some entity ∧ ∃ kind ∈ kinds, m.kindOf? token.id = some kind ∧
    m.resolveAs? token kind = some ⟨token.id, kind, entity⟩

/-- A token leads to an entity of the store of which the kind is known. -/
theorem leads_of_contains {kinds : List String} {token : RefToken}
    (hid : m.entities.contains token.id)
    (hkind : ∃ kind ∈ kinds, KindIndex.typing m.kinds token.id kind) : m.Leads kinds token := by
  obtain ⟨entity, hentity⟩ := Option.isSome_iff_exists.1 hid
  obtain ⟨kind, hmem, hget⟩ := hkind
  have hget : m.kinds.get? token.id = some kind := hget
  have hview : m.view? token.id = some ⟨token.id, kind, entity⟩ := by
    simp only [view?, hget, hentity, Option.pure_def, Option.bind_eq_bind, Option.bind_some]
  refine ⟨entity, hentity, kind, hmem, hget, ?_⟩
  rw [resolveAs?, isOfKind, kindOf?, hget, decide_eq_true rfl, if_pos rfl, hview]

/-- The references in a field of a view can be read, and lead to entities. A content that has to be
a reference is the value of the token that is read; one that has to be a list of references consists
of the values of the tokens that are read, in order. -/
structure Legible (m : DataModel) (view : EntityView) (field : String) (d : Descriptor) : Prop where
  /-- A single reference. -/
  ref : ∀ kinds, d.Demands (.ref kinds) (view.get? field) →
    ∃ token, view.get? field = some token.toJson ∧ view.ref? field = some token ∧
      m.Leads kinds token
  /-- A list of references. -/
  refs : ∀ kinds, d.Demands (.arrayOf (.ref kinds)) (view.get? field) →
    view.get? field = some (.arr ((view.refs field).map RefToken.toJson)) ∧
      ∀ token ∈ view.refs field, m.Leads kinds token

/-- A content that conforms is legible. -/
theorem legible_of_conforms {view : EntityView} {field : String} {d : Descriptor}
    (h : Conforms m.entities (KindIndex.typing m.kinds) d (view.get? field)) :
    m.Legible view field d := by
  constructor
  · intro kinds hdemands
    -- what conforms to a reference is exactly the value of a token, which every reader reads alike
    obtain ⟨id, hid, hvalue, hkind⟩ := Conforms.ref_iff.1 (h.of_demands hdemands)
    have hvalue : view.get? field = some (RefToken.toJson ⟨id⟩) := hvalue
    exact ⟨⟨id⟩, hvalue, EntityView.ref?_eq_some hvalue, leads_of_contains hid hkind⟩
  · intro kinds hdemands
    obtain ⟨items, hvalue, hitems⟩ := Conforms.arrayOf_iff.1 (h.of_demands hdemands)
    obtain ⟨tokens, rfl, htokens⟩ := Conforms.exists_tokens hitems
    rw [EntityView.refs_eq hvalue]
    refine ⟨hvalue, fun token htoken => ?_⟩
    obtain ⟨hid, hkind⟩ := htokens token htoken
    exact leads_of_contains hid hkind

/-- An entity of a well-typed store is viewed with its kind, and the content of every field that the
kind declares conforms. -/
theorem WellTyped.exists_view (h : m.WellTyped) (hid : id ∈ m.entities.ids) :
    ∃ view, m.view? id = some view ∧ ∀ field d, m.schema.field? view.kind field = some d →
      Conforms m.entities (KindIndex.typing m.kinds) d (view.get? field) := by
  obtain ⟨kind, hkind, s, members, hs, hget, hto⟩ := h id hid
  have hkind : m.kinds.get? id = some kind := hkind
  refine ⟨⟨id, kind, .obj members⟩, ?_, fun field d hd => ?_⟩
  · simp only [view?, hkind, hget, Option.pure_def, Option.bind_eq_bind, Option.bind_some]
  · obtain ⟨s', hs', hd⟩ := Option.bind_eq_some_iff.1 hd
    cases hs.symm.trans hs'
    exact hto.fields ⟨field, d⟩ (OrderedMap.get?_eq_some_iff.1 hd)

/-- Every entity of the store can be viewed, and the references in all fields that its kind declares
are legible. -/
def Navigable (m : DataModel) : Prop :=
  ∀ id ∈ m.entities.ids, ∃ view, m.view? id = some view ∧
    ∀ field d, m.schema.field? view.kind field = some d → m.Legible view field d

theorem WellTyped.navigable (h : m.WellTyped) : m.Navigable := by
  intro id hid
  obtain ⟨view, hview, hfields⟩ := h.exists_view hid
  exact ⟨view, hview, fun field d hd => legible_of_conforms (hfields field d hd)⟩

/-- A well-typed store is navigable. In particular, this is a store that has taken over a graph, and
it stays so while fields change. -/
theorem navigable_of_wellTyped (m : DataModel) :
    (m.WellTyped → m.Navigable) ∧
      ∀ graph index changes, (m.tryInit graph).1 = .ok index → (∀ c ∈ changes, c.isEdit) →
        ((m.tryInit graph).2.after changes).WellTyped ∧
          ((m.tryInit graph).2.after changes).Navigable := by
  refine ⟨fun h => h.navigable, fun graph index changes htaken hedits => ?_⟩
  have hconsistent := (consistent_of_tryInit htaken).1
  have htyped := (consistent_after hconsistent hedits).1.typed
  exact ⟨htyped, htyped.navigable⟩

/-- A schema with references of all forms. -/
def teamSchema : Schema := .ofKinds [
  ("Person", .ofFields [("name", .string)]),
  ("Team", .ofFields [("lead", .ref ["Person", "Team"]), ("parent", .optional (.ref ["Team"])),
    ("members", .arrayOf (.ref ["Person"])), ("guests", .optional (.arrayOf (.ref ["Person"])))])]

/-- Two members, one of them twice in the list. -/
def teamMembers : Json :=
  .arr [RefToken.toJson ⟨⟨"bob"⟩⟩, RefToken.toJson ⟨⟨"ada"⟩⟩, RefToken.toJson ⟨⟨"bob"⟩⟩]

/-- A team with its members. -/
def teamGraph : EntityGraph := .ofMembers [
  ("core", .obj [("lead", RefToken.toJson ⟨⟨"ada"⟩⟩), ("members", teamMembers)]),
  ("ada", .obj [("name", .str "Ada")]),
  ("bob", .obj [("name", .str "Bob")])]

/-- The team becomes its own parent and its own lead, and gets guests for a while. -/
def teamChanges : List Change := [
  .setField ⟨"core"⟩ "parent" (RefToken.toJson ⟨⟨"core"⟩⟩),
  .setField ⟨"core"⟩ "guests" (.arr [RefToken.toJson ⟨⟨"ada"⟩⟩]),
  .setField ⟨"core"⟩ "lead" (RefToken.toJson ⟨⟨"core"⟩⟩),
  .clearField ⟨"core"⟩ "guests"]

/-- The store with the team after all changes. -/
def teamStore : DataModel :=
  ((empty teamSchema (.ofStem IdMint.defaultStem)).tryInit teamGraph).2.after teamChanges

/-- The team leads itself, and all its members are found in order. -/
theorem navigable_teamStore :
    teamStore.WellTyped ∧ ∃ view, teamStore.view? ⟨"core"⟩ = some view ∧
      view.ref? "lead" = some ⟨⟨"core"⟩⟩ ∧ teamStore.Leads ["Person", "Team"] ⟨⟨"core"⟩⟩ ∧
      view.refs "members" = [⟨⟨"bob"⟩⟩, ⟨⟨"ada"⟩⟩, ⟨⟨"bob"⟩⟩] ∧
      (∀ token ∈ view.refs "members", teamStore.Leads ["Person"] token) ∧
      view.refs "guests" = [] := by
  obtain ⟨-, hafter⟩ := navigable_of_wellTyped (empty teamSchema (.ofStem IdMint.defaultStem))
  obtain ⟨htyped, -⟩ := hafter teamGraph (.ofList [(⟨"core"⟩, "Team"), (⟨"ada"⟩, "Person"),
    (⟨"bob"⟩, "Person")]) teamChanges (by decide +kernel) (by decide)
  have hteam := (navigable_of_wellTyped teamStore).1 htyped
  obtain ⟨view, hview, hfields⟩ := hteam ⟨"core"⟩ (by decide +kernel)
  obtain rfl : ⟨⟨"core"⟩, "Team", .obj [("lead", RefToken.toJson ⟨⟨"core"⟩⟩),
      ("members", teamMembers), ("parent", RefToken.toJson ⟨⟨"core"⟩⟩)]⟩ = view :=
    Option.some.inj (Eq.trans (by decide +kernel) hview)
  obtain ⟨token, -, htoken, hleads⟩ :=
    (hfields "lead" (.ref ["Person", "Team"]) (by decide +kernel)).ref _ (.inl rfl)
  obtain ⟨-, hmembers⟩ :=
    (hfields "members" (.arrayOf (.ref ["Person"])) (by decide +kernel)).refs _ (.inl rfl)
  have hlead : (⟨⟨"core"⟩⟩ : RefToken) = token :=
    Option.some.inj (Eq.trans (by decide +kernel) htoken)
  exact ⟨htyped, _, hview, htoken.trans (congrArg some hlead.symm), hlead ▸ hleads,
    by decide +kernel, hmembers, by decide +kernel⟩

end DataModel

end TypedGraph
