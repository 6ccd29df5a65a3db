import TypedGraph.Proofs.Json.Texts
import TypedGraph.Proofs.Store.RoundTrip
import TypedGraph.Sync.Message

/-!
# Messages Come Back as They Were

A message is read back from its text, and from its untyped form. The kind of a message is the string
under `type` of the object itself; members of the same name further down, such as in the argument of
an action, do not matter. In the untyped form members are sorted, so that the kind is found among
the fields, and a snapshot comes back with its ids sorted.

There is no loss on the way but where a text cannot be read back: the numbers are assumed to be
integers, and the arrays and objects to be nested no deeper than a text may have them. Untyped
values are canonical, as all of them are.

## Main definitions

* `Message.Canonical`: the untyped values in a message are canonical;
* `Message.sorted`: the message with the ids of a snapshot sorted.

## Main results

* `decode_encode`: a message is read back from its text;
* `ofJson_eq_ok_iff`: an untyped object and its text stand for the same message, if for any;
* `ofJson_toJson`: a message is read back from its untyped form, with the ids of a snapshot sorted.
-/

namespace TypedGraph.Message

open Json (Reading)

/-- The untyped values in a message are canonical. -/
def Canonical : Message → Prop
  | doAction request => request.value.Canonical
  | snapshot graph _ => ∀ e ∈ graph.entries, e.2.Canonical
  | _ => True

/-- The message with the ids of a snapshot sorted. -/
def sorted : Message → Message
  | snapshot graph error => .snapshot graph.sorted error
  | m => m

/-! ## Reading Tagged Objects -/

variable {kind : Kind} {members before after : List (String × Json)}

theorem readMembers_type (parts : List (String × Json)) (r : Reading)
    (rest : List (String × Reading)) :
    readMembers none parts (("type", r) :: rest) =
      match readKind r with
      | .ok kind => readMembers (some kind) parts rest
      | .error e => .error e := by
  rw [readMembers.eq_def]
  dsimp only
  rw [if_pos rfl]
  cases readKind r <;> rfl

theorem readMembers_field {key : String} (h : key ≠ "type") (kind : Option Kind)
    (parts : List (String × Json)) (value : Json) (rest : List (String × Reading)) :
    readMembers kind parts ((key, .ofJson value) :: rest) =
      readMembers kind ((key, value) :: parts) rest := by
  rw [readMembers.eq_def]
  dsimp only
  rw [if_neg h, Reading.content_ofJson]

theorem readKind_name (kind : Kind) : readKind (.str kind.name) = .ok kind := by
  simp only [readKind, Reading.string, Kind.ofName?_name]

/-- Members other than the kind are the fields. -/
theorem readMembers_of_untagged (h : ∀ m ∈ members, m.1 ≠ "type") (kind : Option Kind)
    (parts : List (String × Json)) :
    readMembers kind parts (Reading.ofMembers members) = .ok (kind, parts.reverse ++ members) := by
  induction members generalizing parts with
  | nil =>
    rw [List.append_nil]
    rfl
  | cons m members ih =>
    obtain ⟨k, v⟩ := m
    obtain ⟨hk, hmembers⟩ := List.forall_mem_cons.1 h
    rw [Reading.ofMembers, readMembers_field hk, ih hmembers, List.reverse_cons, List.append_assoc,
      List.singleton_append]

/-- The kind may stand anywhere among the fields. -/
theorem readMembers_of_tagged (hbefore : ∀ m ∈ before, m.1 ≠ "type")
    (hafter : ∀ m ∈ after, m.1 ≠ "type") (parts : List (String × Json)) :
    readMembers none parts (Reading.ofMembers (before ++ ("type", .str kind.name) :: after)) =
      .ok (some kind, parts.reverse ++ (before ++ after)) := by
  induction before generalizing parts with
  | nil =>
    rw [List.nil_append, Reading.ofMembers, Reading.ofJson.eq_def, readMembers_type, readKind_name]
    exact readMembers_of_untagged hafter (some kind) parts
  | cons m before ih =>
    obtain ⟨k, v⟩ := m
    obtain ⟨hk, hbefore⟩ := List.forall_mem_cons.1 hbefore
    rw [List.cons_append, Reading.ofMembers, readMembers_field hk, ih hbefore, List.reverse_cons,
      List.append_assoc, List.singleton_append, List.cons_append]

/-- An object with a kind stands for the message with the other members as fields. -/
theorem read_of_tagged (hbefore : ∀ m ∈ before, m.1 ≠ "type") (hafter : ∀ m ∈ after, m.1 ≠ "type") :
    read (.ofJson (.obj (before ++ ("type", .str kind.name) :: after))) =
      ofParts kind (before ++ after) := by
  rw [Reading.ofJson, read, readMembers_of_tagged hbefore hafter []]
  rfl

/-- An object that stands for a message has its kind under `type`. -/
theorem exists_tag_of_readMembers {parts parts' : List (String × Json)}
    (h : readMembers none parts (Reading.ofMembers members) = .ok (some kind, parts')) :
    ∃ tag, Json.lookup members "type" = some (.str tag) := by
  induction members generalizing parts with
  | nil => cases h
  | cons m members ih =>
    obtain ⟨k, v⟩ := m
    rw [Reading.ofMembers] at h
    rw [Json.lookup_cons]
    by_cases hk : k = "type"
    · subst hk
      rw [if_pos rfl]
      rw [readMembers_type] at h
      -- nothing but a string is the name of a kind
      cases v with
      | str tag => exact ⟨tag, rfl⟩
      | _ => cases h
    · rw [readMembers_field hk] at h
      rw [if_neg (Ne.symm hk)]
      exact ih h

theorem exists_tag_of_read {m : Message} (h : read (.ofJson (.obj members)) = .ok m) :
    ∃ tag, ((Json.obj members).member? "type").bind Json.str? = some tag := by
  rw [Reading.ofJson, read] at h
  cases hmembers : readMembers none [] (Reading.ofMembers members) with
  | error e =>
    rw [hmembers] at h
    cases h
  | ok result =>
    obtain ⟨_ | kind, parts⟩ := result
    · rw [hmembers] at h
      cases h
    · obtain ⟨tag, htag⟩ := exists_tag_of_readMembers hmembers
      refine ⟨tag, ?_⟩
      show (Json.lookup members "type").bind Json.str? = _
      rw [htag]
      rfl

/-! ## Fields -/

/-- A field with a graph, whose entities are canonical, gives the graph of its members. -/
theorem graphField_obj {parts members : List (String × Json)} {name : String}
    (h : Json.CanonicalMembers members) (hlookup : Json.lookup parts name = some (.obj members)) :
    graphField parts name = .ok (.ofMembers members) := by
  rw [graphField, hlookup]
  show Except.ok (EntityGraph.ofMembers (Json.canonicalMembers members)) = _
  rw [Json.canonicalMembers_of_canonical members h]

theorem canonicalMembers_iff_entries {graph : EntityGraph} :
    Json.CanonicalMembers graph.members ↔ ∀ e ∈ graph.entries, e.2.Canonical := by
  rw [Json.canonicalMembers_iff, EntityGraph.members, List.forall_mem_map]

/-- A snapshot is made up of its two fields, in any order. -/
theorem ofParts_snapshot {parts : List (String × Json)} {graph : EntityGraph} {error : Bool}
    (hrepeated : repeated? .snapshot parts = none) (herror : flagField parts "error" = .ok error)
    (hgraph : graphField parts "value" = .ok graph) :
    ofParts .snapshot parts = .ok (.snapshot graph error) := by
  rw [ofParts, hrepeated]
  dsimp only
  rw [herror, hgraph]
  rfl

/-- The fields of a message make up the message. -/
theorem ofParts_parts {m : Message} (h : m.Canonical) : ofParts m.kind m.parts = .ok m := by
  cases m with
  | getObservation => rfl
  | getSelf => rfl
  | doAction request =>
    have hvalue : request.value.canonical = request.value := Json.canonical_of_canonical _ h
    simp [ofParts, repeated?, kind, parts, Kind.fields, textField, Json.lookup_cons, hvalue]
  | snapshot graph error =>
    have hgraph : graphField (parts (.snapshot graph error)) "value" =
        .ok (.ofMembers graph.members) :=
      graphField_obj (canonicalMembers_iff_entries.2 h) rfl
    rw [EntityGraph.ofMembers_members] at hgraph
    exact ofParts_snapshot (by simp [repeated?, parts, Kind.fields]) rfl hgraph
  | selfRef id =>
    simp [ofParts, repeated?, kind, parts, Kind.fields, textField, Json.lookup_cons]

/-- The members of the untyped form are the kind, and fields that make up the message. -/
theorem exists_toJson_eq {m : Message} (h : m.Canonical) :
    ∃ before after, m.toJson = .obj (before ++ ("type", .str m.kind.name) :: after) ∧
      (∀ e ∈ before, e.1 ≠ "type") ∧ (∀ e ∈ after, e.1 ≠ "type") ∧
      ofParts m.kind (before ++ after) = .ok m.sorted := by
  cases m with
  | getObservation => exact ⟨[], [], rfl, nofun, nofun, rfl⟩
  | getSelf => exact ⟨[], [], rfl, nofun, nofun, rfl⟩
  | doAction request =>
    have hvalue : request.value.canonical = request.value := Json.canonical_of_canonical _ h
    refine ⟨[("op", .str request.op)], [("value", request.value)], ?_, by simp, by simp,
      ofParts_parts h⟩
    have hop : "op" < "type" := by decide
    have hlast : ¬ "value" < "op" ∧ ¬ "value" < "type" := by decide
    -- Sorted by key, the tag falls between the two fields of an action.
    simp only [toJson, written, parts, Json.canonical, Json.canonicalMembers, hvalue,
      Json.sortMembers, List.foldl, Json.insertMember, hop, hlast, if_true, if_false,
      String.reduceEq]
    rfl
  | snapshot graph error =>
    have hmembers := canonicalMembers_iff_entries.2 h
    have hgraph : graph.written.canonical = graph.toJson := by
      rw [EntityGraph.written, Json.canonical, Json.canonicalMembers_of_canonical _ hmembers]
      rfl
    refine ⟨[("error", .bool error)], [("value", graph.toJson)], ?_, by simp, by simp, ?_⟩
    · have herror : "error" < "type" := by decide
      have hlast : ¬ "value" < "type" := by decide
      simp only [toJson, written, parts, Json.canonical, Json.canonicalMembers, hgraph,
        Json.sortMembers, List.foldl, Json.insertMember, herror, hlast, if_true, if_false,
        String.reduceEq]
      rfl
    · have hsorted : Json.CanonicalMembers (Json.sortMembers graph.members) := by
        rw [Json.canonicalMembers_iff] at hmembers ⊢
        exact fun e he => hmembers e (Json.mem_of_mem_sortMembers he)
      exact ofParts_snapshot (by simp [repeated?, Kind.fields]) rfl (graphField_obj hsorted rfl)
  | selfRef id =>
    refine ⟨[("ref", .str id.text)], [], ?_, by simp, nofun, ofParts_parts h⟩
    have href : "ref" < "type" := by decide
    simp only [toJson, written, parts, Json.canonical, Json.canonicalMembers, Json.sortMembers,
      List.foldl, Json.insertMember, href, if_true]
    rfl

/-! ## Round Trips -/

theorem mapError_eq_ok_iff {ε ε' α : Type} {f : ε → ε'} {x : Except ε α} {a : α} :
    x.mapError f = .ok a ↔ x = .ok a := by
  cases x <;> simp [Except.mapError]

/-- What the text of a value stands for is what the value stands for. -/
theorem decode_text_eq_ok_iff {value : Json} {m : Message} (hexact : value.Exact)
    (hdepth : value.depth ≤ Json.depthLimit) :
    decode value.text = .ok m ↔ read (.ofJson value) = .ok m := by
  rw [decode, Json.readText_text _ hexact hdepth, mapError_eq_ok_iff]

theorem parts_untagged (m : Message) : ∀ e ∈ m.parts, e.1 ≠ "type" := by
  cases m <;> simp [parts]

/-- A message is read back from its text. -/
theorem decode_encode {m : Message} (hcanonical : m.Canonical) (hexact : m.written.Exact)
    (hdepth : m.written.depth ≤ Json.depthLimit) : decode m.encode = .ok m := by
  have hread : read (.ofJson (.obj ([] ++ ("type", .str m.kind.name) :: m.parts))) =
      ofParts m.kind ([] ++ m.parts) := read_of_tagged nofun m.parts_untagged
  rw [List.nil_append, List.nil_append, ofParts_parts hcanonical] at hread
  rw [encode, decode_text_eq_ok_iff hexact hdepth]
  exact hread

/-- An untyped object stands for a message exactly if it is read as one. -/
theorem ofJson_obj_eq_ok_iff {m : Message} :
    ofJson (.obj members) = .ok m ↔ read (.ofJson (.obj members)) = .ok m := by
  unfold ofJson
  split
  · next hnone =>
    constructor
    · nofun
    · intro h
      obtain ⟨tag, htag⟩ := exists_tag_of_read h
      rw [hnone] at htag
      cases htag
  · exact mapError_eq_ok_iff

/-- An untyped object and its text stand for the same message, if for any. -/
theorem ofJson_eq_ok_iff {m : Message} (hexact : (Json.obj members).Exact)
    (hdepth : (Json.obj members).depth ≤ Json.depthLimit) :
    ofJson (.obj members) = .ok m ↔ decode (Json.obj members).text = .ok m := by
  rw [ofJson_obj_eq_ok_iff, decode_text_eq_ok_iff hexact hdepth]

/-- A message is read back from its untyped form, with the ids of a snapshot sorted. -/
theorem ofJson_toJson {m : Message} (h : m.Canonical) : ofJson m.toJson = .ok m.sorted := by
  obtain ⟨before, after, hjson, hbefore, hafter, hparts⟩ := exists_toJson_eq h
  rw [hjson, ofJson_obj_eq_ok_iff, read_of_tagged hbefore hafter, hparts]

/-- A message whose numbers are integers and whose arrays and objects are not nested too deep is
read back from its text. An untyped object within these bounds stands for the message that its text
stands for, if for any. So a message is read back from its untyped form, but for the order of ids in
a snapshot. -/
theorem codec_roundTrip :
    (∀ m : Message, m.Canonical → m.written.Exact → m.written.depth ≤ Json.depthLimit →
      decode m.encode = .ok m) ∧
    (∀ members, (Json.obj members).Exact → (Json.obj members).depth ≤ Json.depthLimit →
      ∀ m, ofJson (.obj members) = .ok m ↔ decode (Json.obj members).text = .ok m) ∧
    ∀ m : Message, m.Canonical → ofJson m.toJson = .ok m.sorted :=
  ⟨fun _ => decode_encode, fun _ hexact hdepth _ => ofJson_eq_ok_iff hexact hdepth,
    fun _ => ofJson_toJson⟩

/-- An action whose argument has members that are named like those of a message. -/
def nestedAction : Message :=
  .doAction ⟨"say \"hi\"\n", .obj [("op", .num (.int (-7))), ("type", .str "getSelf"),
    ("value", .arr [.null, .bool true])]⟩

/-- A snapshot whose ids are not sorted. -/
def unsortedSnapshot : Message :=
  .snapshot (.ofMembers [("b", .obj [("n", .num (.int 18446744073709551615))]), ("a", .null)]) true

/-- The action comes back from its text, and so does the snapshot; through an untyped object the
snapshot comes back sorted. -/
theorem codec_roundTrip_samples :
    decode nestedAction.encode = .ok nestedAction ∧
      decode unsortedSnapshot.encode = .ok unsortedSnapshot ∧
      ofJson unsortedSnapshot.toJson = .ok unsortedSnapshot.sorted ∧
      unsortedSnapshot.sorted =
        .snapshot (.ofMembers [("a", .null), ("b", .obj [("n", .num (.int 18446744073709551615))])])
          true := by
  have haction : nestedAction.Canonical :=
    ⟨by decide, trivial, trivial, ⟨trivial, trivial, trivial⟩, trivial⟩
  have hsnapshot : unsortedSnapshot.Canonical := by
    apply canonicalMembers_iff_entries.1
    rw [EntityGraph.members_ofMembers (by decide)]
    exact ⟨⟨by decide, trivial, trivial⟩, trivial, trivial⟩
  have hexact : nestedAction.written.Exact ∧ unsortedSnapshot.written.Exact := by
    constructor
    · exact ⟨trivial, trivial, ⟨rfl, trivial, ⟨trivial, trivial, trivial⟩, trivial⟩, trivial⟩
    · refine ⟨trivial, ?_, trivial, trivial⟩
      show Json.ExactMembers (EntityGraph.ofMembers _).members
      rw [EntityGraph.members_ofMembers (by decide)]
      exact ⟨⟨rfl, trivial⟩, trivial, trivial⟩
  exact ⟨codec_roundTrip.1 _ haction hexact.1 (by decide),
    codec_roundTrip.1 _ hsnapshot hexact.2 (by decide), codec_roundTrip.2.2 _ hsnapshot, by decide⟩

end TypedGraph.Message
