import Mathlib.Data.List.Forall2
import TypedGraph.Proofs.Json.Texts
import TypedGraph.Schema.Basic

/-!
# The Grammar of Schemas

A descriptor is spelled as a keyword, or as an object with a keyword for its only member. Some
descriptors have several spellings: scalars have a short and a long one, and the strings of a union
may stand in any order and more than once. Reading accepts the spellings and no other value. Writing
picks one of the spellings, so that what is written is read back, and writing what has been read
changes a value at most once. Schemas are read back from their texts, unless these are nested too
deep to be read at all.

## Main definitions

* `Descriptor.Spells`: a value is a spelling of a descriptor;
* `Descriptor.normal`: a spelling brought into the form that is written.

## Main results

* `Descriptor.read_eq_ok_iff`: the values that are read as descriptors are their spellings;
* `Descriptor.toJson_eq_normal`: a descriptor is written as the normal form of any of its spellings;
* `Schema.read_toJson` and `Schema.ofText_text`: a schema is read back from its written form and its
  text;
* `Schema.codec_exact`: all of this.
-/

namespace TypedGraph

open Json (Reading ReadError Stop)

/-- The set of the strings of a set is the set. -/
theorem StringSet.ofList_toList (s : StringSet) : ofList s.toList = s := by
  have hnodup (t : StringSet) : t.toList.Nodup := t.increasing.imp fun h => String.ne_of_lt h
  have hperm : (ofList s.toList).toList.Perm s.toList :=
    (List.perm_ext_iff_of_nodup (hnodup _) (hnodup _)).2 fun _ => mem_ofList
  apply ext
  exact hperm.eq_of_pairwise (fun a b _ _ hab hba => absurd hba (String.lt_asymm hab))
    (ofList s.toList).increasing s.increasing

/-! ## Results of Readers -/

theorem bind_eq_ok_iff {ε α β : Type} {x : Except ε α} {f : α → Except ε β} {b : β} :
    x.bind f = .ok b ↔ ∃ a, x = .ok a ∧ f a = .ok b := by
  constructor
  · intro h
    cases x with
    | error e => cases h
    | ok a => exact ⟨a, rfl, h⟩
  · rintro ⟨a, rfl, h⟩
    exact h

theorem map_eq_ok_iff {ε α β : Type} {x : Except ε α} {f : α → β} {b : β} :
    x.map f = .ok b ↔ ∃ a, x = .ok a ∧ f a = b := by
  constructor
  · intro h
    cases x with
    | error e => cases h
    | ok a => exact ⟨a, rfl, Except.ok.inj h⟩
  · rintro ⟨a, rfl, rfl⟩
    rfl

/-- The parts of a list are read as other parts exactly if they are one by one. -/
theorem mapM_eq_ok_iff {ε α β : Type} {f : α → Except ε β} {parts : List α} {values : List β} :
    parts.mapM f = .ok values ↔
      List.Forall₂ (fun part value => f part = .ok value) parts values := by
  induction parts generalizing values with
  | nil =>
    rw [List.mapM_nil, List.forall₂_nil_left_iff]
    exact ⟨fun h => (Except.ok.inj h).symm, fun h => congrArg Except.ok h.symm⟩
  | cons part parts ih =>
    have hbind : (part :: parts).mapM f =
        (f part).bind fun value => (parts.mapM f).bind fun rest => .ok (value :: rest) :=
      List.mapM_cons
    rw [hbind, bind_eq_ok_iff, List.forall₂_cons_left_iff]
    constructor
    · rintro ⟨value, hvalue, hrest⟩
      obtain ⟨rest, hparts, hcons⟩ := bind_eq_ok_iff.1 hrest
      exact ⟨value, rest, hvalue, ih.1 hparts, (Except.ok.inj hcons).symm⟩
    · rintro ⟨value, rest, hvalue, hparts, rfl⟩
      exact ⟨value, hvalue, bind_eq_ok_iff.2 ⟨rest, ih.2 hparts, rfl⟩⟩

namespace Json.Reading

theorem ofItems_eq_map (items : List Json) : ofItems items = items.map ofJson := by
  induction items with
  | nil => rfl
  | cons v items ih => rw [ofItems, ih, List.map_cons]

theorem ofMembers_eq_map (members : List (String × Json)) :
    ofMembers members = members.map fun m => (m.1, ofJson m.2) := by
  induction members with
  | nil => rfl
  | cons m members ih => rw [ofMembers, ih, List.map_cons]

theorem unit_ofJson_eq_ok_iff {v : Json} : (ofJson v).unit = .ok () ↔ v = .null := by
  cases v <;> simp [ofJson, unit, mismatch]

theorem string_ofJson_eq_ok_iff {v : Json} {s : String} :
    (ofJson v).string = .ok s ↔ v = .str s := by
  cases v <;> simp [ofJson, string, mismatch]

/-- A value is read as a list of strings exactly if it is the array of these strings. -/
theorem list_string_ofJson_eq_ok_iff {v : Json} {names : List String} :
    (ofJson v).list string = .ok names ↔ v = .arr (names.map .str) := by
  cases v with
  | arr items =>
    -- the array is closed, so that only its items can be at fault
    have hlist : (ofJson (.arr items)).list string = (ofItems items).mapM string := by
      rw [ofJson, list]
      cases (ofItems items).mapM string <;> rfl
    rw [hlist, ofItems_eq_map, mapM_eq_ok_iff, List.forall₂_map_left_iff, Json.arr.injEq,
      ← List.forall₂_eq_eq_eq, List.forall₂_map_right_iff]
    simp only [string_ofJson_eq_ok_iff]
  | _ => simp [ofJson, list, mismatch]

/-- An object of written values is read part by part. -/
theorem members_ofJson {α : Type} {read : Reading → Except ReadError α} {write : α → Json}
    {entries : List (String × α)} (h : ∀ e ∈ entries, read (ofJson (write e.2)) = .ok e.2) :
    (ofJson (.obj (entries.map fun e => (e.1, write e.2)))).members read = .ok entries := by
  have hparts : (ofMembers (entries.map fun e => (e.1, write e.2))).mapM
      (fun m => (read m.2).map (m.1, ·)) = .ok entries := by
    rw [ofMembers_eq_map, List.map_map, mapM_eq_ok_iff, List.forall₂_map_left_iff,
      List.forall₂_same]
    intro e he
    exact map_eq_ok_iff.2 ⟨e.2, h e he, rfl⟩
  rw [ofJson, members, hparts]
  rfl

end Json.Reading

/-! ## Descriptors -/

theorem Primitive.ofKeyword?_eq_some_iff {name : String} {p : Primitive} :
    ofKeyword? name = some p ↔ name = p.keyword := by
  constructor
  · intro h
    unfold ofKeyword? at h
    split at h
    · next heq => cases h; exact heq
    · split at h
      · next heq => cases h; exact heq
      · split at h
        · next heq => cases h; exact heq
        · cases h
  · rintro rfl
    exact ofKeyword?_keyword p

namespace Keyword

/-- The name of a keyword. -/
def name : Keyword → String
  | scalar p => p.keyword
  | union => "union"
  | optional => "optional"
  | arrayOf => "arrayOf"
  | ref => "ref"

theorem ofName?_name (keyword : Keyword) : ofName? keyword.name = some keyword := by
  cases keyword with
  | scalar p => rw [ofName?, name, Primitive.ofKeyword?_keyword]
  | union | optional | arrayOf | ref => rfl

theorem name_of_ofName? {name : String} {keyword : Keyword} (h : ofName? name = some keyword) :
    name = keyword.name := by
  unfold ofName? at h
  cases hp : Primitive.ofKeyword? name with
  | some p =>
    rw [hp] at h
    cases h
    exact Primitive.ofKeyword?_eq_some_iff.1 hp
  | none =>
    rw [hp] at h
    dsimp only at h
    split at h
    · next heq => cases h; exact heq
    · split at h
      · next heq => cases h; exact heq
      · split at h
        · next heq => cases h; exact heq
        · split at h
          · next heq => cases h; exact heq
          · cases h

end Keyword

namespace Descriptor

/-- A value is a spelling of a descriptor. This is the grammar of descriptors, with what is
meant. -/
inductive Spells : Json → Descriptor → Prop
  | keyword (p : Primitive) : Spells (.str p.keyword) (.primitive p)
  | scalar (p : Primitive) : Spells (.obj [(p.keyword, .null)]) (.primitive p)
  | union (names : List String) :
    Spells (.obj [("union", .arr (names.map .str))]) (.union (.ofList names))
  | ref (names : List String) : Spells (.obj [("ref", .arr (names.map .str))]) (.ref names)
  | arrayOf {v : Json} {d : Descriptor} (h : Spells v d) :
    Spells (.obj [("arrayOf", v)]) (.arrayOf d)
  | optional {v : Json} {d : Descriptor} (h : Spells v d) :
    Spells (.obj [("optional", v)]) (.optional d)

/-- Reads what stands under a keyword. -/
def readPayload (payload : Reading) : Keyword → Except ReadError Descriptor
  | .scalar p => payload.unit.map fun _ => primitive p
  | .union => (payload.list Reading.string).map fun names => union (.ofList names)
  | .optional => (read payload).map optional
  | .arrayOf => (read payload).map arrayOf
  | .ref => (payload.list Reading.string).map ref

theorem read_obj_of_ofName? {name : String} {payload : Reading} {rest : List (String × Reading)}
    {stop : Stop} {keyword : Keyword} (h : Keyword.ofName? name = some keyword) :
    read (.obj ((name, payload) :: rest) stop) =
      (readPayload payload keyword).bind fun d => (checkSingle rest stop).bind fun _ => .ok d := by
  rw [read, h]
  cases keyword <;> rfl

/-- An object is read by the keyword of its first member, which has to be its only one. -/
theorem read_obj_eq_ok_iff {name : String} {payload : Reading} {rest : List (String × Reading)}
    {d : Descriptor} :
    read (.obj ((name, payload) :: rest) .closed) = .ok d ↔
      ∃ keyword : Keyword,
        name = keyword.name ∧ readPayload payload keyword = .ok d ∧ rest = [] := by
  constructor
  · intro h
    cases hkeyword : Keyword.ofName? name with
    | none =>
      rw [read, hkeyword] at h
      cases h
    | some keyword =>
      rw [read_obj_of_ofName? hkeyword] at h
      obtain ⟨d', hpayload, hrest⟩ := bind_eq_ok_iff.1 h
      obtain ⟨_, hsingle, hd⟩ := bind_eq_ok_iff.1 hrest
      cases hd
      cases rest with
      | nil => exact ⟨keyword, Keyword.name_of_ofName? hkeyword, hpayload, rfl⟩
      -- a second member stands where the closing brace is due
      | cons m rest => cases hsingle
  · rintro ⟨keyword, rfl, hpayload, rfl⟩
    rw [read_obj_of_ofName? keyword.ofName?_name, hpayload]
    rfl

/-- A spelling is read as the descriptor. The induction is on the spelling. -/
theorem read_of_spells {v : Json} {d : Descriptor} (h : Spells v d) : read (.ofJson v) = .ok d := by
  have hobj {v : Json} {d : Descriptor} (keyword : Keyword)
      (h : readPayload (.ofJson v) keyword = .ok d) :
      read (.ofJson (.obj [(keyword.name, v)])) = .ok d :=
    read_obj_eq_ok_iff.2 ⟨keyword, rfl, h, rfl⟩
  induction h with
  | keyword p =>
    rw [Reading.ofJson, read, Primitive.ofKeyword?_keyword]
  | scalar p => exact hobj (.scalar p) rfl
  | union names =>
    exact hobj .union (map_eq_ok_iff.2 ⟨names, Reading.list_string_ofJson_eq_ok_iff.2 rfl, rfl⟩)
  | ref names =>
    exact hobj .ref (map_eq_ok_iff.2 ⟨names, Reading.list_string_ofJson_eq_ok_iff.2 rfl, rfl⟩)
  | arrayOf _ ih => exact hobj .arrayOf (map_eq_ok_iff.2 ⟨_, ih, rfl⟩)
  | optional _ ih => exact hobj .optional (map_eq_ok_iff.2 ⟨_, ih, rfl⟩)

/-- What stands under a keyword spells a descriptor with it, if what stands there in turn is
spelled. -/
theorem spells_of_readPayload {v : Json} {d : Descriptor} {keyword : Keyword}
    (h : readPayload (.ofJson v) keyword = .ok d)
    (hinner : ∀ d, read (.ofJson v) = .ok d → Spells v d) :
    Spells (.obj [(keyword.name, v)]) d := by
  cases keyword with
  | scalar p =>
    obtain ⟨_, hunit, rfl⟩ := map_eq_ok_iff.1 h
    rw [Reading.unit_ofJson_eq_ok_iff.1 hunit]
    exact .scalar p
  | union =>
    obtain ⟨names, hnames, rfl⟩ := map_eq_ok_iff.1 h
    rw [Reading.list_string_ofJson_eq_ok_iff.1 hnames]
    exact .union names
  | ref =>
    obtain ⟨names, hnames, rfl⟩ := map_eq_ok_iff.1 h
    rw [Reading.list_string_ofJson_eq_ok_iff.1 hnames]
    exact .ref names
  | optional =>
    obtain ⟨d', hd', rfl⟩ := map_eq_ok_iff.1 h
    exact .optional (hinner d' hd')
  | arrayOf =>
    obtain ⟨d', hd', rfl⟩ := map_eq_ok_iff.1 h
    exact .arrayOf (hinner d' hd')

/-- What is read as a descriptor is a spelling of it. -/
theorem spells_of_read : (v : Json) → (d : Descriptor) → read (.ofJson v) = .ok d → Spells v d
  | .str name, d, h => by
    rw [Reading.ofJson, read] at h
    cases hkeyword : Primitive.ofKeyword? name with
    | none =>
      rw [hkeyword] at h
      cases h
    | some p =>
      rw [hkeyword] at h
      cases h
      rw [Primitive.ofKeyword?_eq_some_iff.1 hkeyword]
      exact .keyword p
  | .obj [], d, h => by cases h
  | .obj ((name, v) :: rest), d, h => by
    obtain ⟨keyword, rfl, hpayload, hrest⟩ := read_obj_eq_ok_iff.1 h
    obtain rfl : rest = [] := by
      cases rest with
      | nil => rfl
      | cons m rest => cases hrest
    exact spells_of_readPayload hpayload (spells_of_read v)
  | .null, d, h => by cases h
  | .bool _, d, h => by cases h
  | .num _, d, h => by cases h
  | .arr _, d, h => by cases h

/-- The values that are read as a descriptor are its spellings. -/
theorem read_eq_ok_iff {v : Json} {d : Descriptor} : read (.ofJson v) = .ok d ↔ Spells v d :=
  ⟨spells_of_read v d, read_of_spells⟩

theorem ofJson?_eq_some_iff {v : Json} {d : Descriptor} : ofJson? v = some d ↔ Spells v d := by
  rw [← read_eq_ok_iff, ofJson?]
  cases read (.ofJson v) <;> simp [Except.toOption]

/-- The written form is a spelling. -/
theorem spells_toJson (d : Descriptor) : Spells d.toJson d := by
  induction d with
  | primitive p => exact .keyword p
  | union literals =>
    have h := Spells.union literals.toList
    rwa [StringSet.ofList_toList] at h
  | optional _ ih => exact .optional ih
  | arrayOf _ ih => exact .arrayOf ih
  | ref kinds => exact .ref kinds

/-! ### Normal Forms -/

/-- A spelling brought into the form that is written: scalars become keywords, and the strings of a
union are sorted, each of them once. The kinds of a reference stay as they stand. -/
def normal : Json → Json
  | .obj [("union", .arr items)] =>
    .obj [("union", .arr ((StringSet.ofList (items.filterMap Json.str?)).toList.map .str))]
  | .obj [("arrayOf", v)] => .obj [("arrayOf", normal v)]
  | .obj [("optional", v)] => .obj [("optional", normal v)]
  | .obj [(name, .null)] => .str name
  | v => v

/-- A descriptor is written as the normal form of any of its spellings. -/
theorem toJson_eq_normal {v : Json} {d : Descriptor} (h : Spells v d) : d.toJson = normal v := by
  induction h with
  | keyword p => rfl
  | scalar p => cases p <;> rfl
  | union names =>
    -- all items are strings, so that none is left out
    have hnames : (names.map Json.str).filterMap Json.str? = names := by
      rw [List.filterMap_map]
      exact List.filterMap_some
    rw [normal, hnames]
    rfl
  | ref names => rfl
  | arrayOf _ ih =>
    rw [normal, ← ih]
    rfl
  | optional _ ih =>
    rw [normal, ← ih]
    rfl

/-- The normal form of a spelling is a spelling of the same descriptor, and is its own normal
form. -/
theorem normal_of_spells {v : Json} {d : Descriptor} (h : Spells v d) :
    Spells (normal v) d ∧ normal (normal v) = normal v := by
  rw [← toJson_eq_normal h]
  exact ⟨spells_toJson d, (toJson_eq_normal (spells_toJson d)).symm⟩

end Descriptor

/-! ## Schemas -/

namespace Json

/-- The members of an object of exact values are exact. -/
theorem exactMembers_map {α : Type} {write : α → Json} {entries : List (String × α)}
    (h : ∀ e ∈ entries, (write e.2).Exact) :
    ExactMembers (entries.map fun e => (e.1, write e.2)) := by
  induction entries with
  | nil => trivial
  | cons e entries ih =>
    obtain ⟨he, hrest⟩ := List.forall_mem_cons.1 h
    exact ⟨he, ih hrest⟩

theorem exactItems_map_str (names : List String) : ExactItems (names.map .str) := by
  induction names with
  | nil => trivial
  | cons name names ih => exact ⟨trivial, ih⟩

end Json

/-- There are no numbers in the written form of a descriptor. -/
theorem Descriptor.exact_toJson (d : Descriptor) : d.toJson.Exact := by
  induction d with
  | primitive p => trivial
  | union literals => exact ⟨Json.exactItems_map_str _, trivial⟩
  | optional _ ih => exact ⟨ih, trivial⟩
  | arrayOf _ ih => exact ⟨ih, trivial⟩
  | ref kinds => exact ⟨Json.exactItems_map_str _, trivial⟩

namespace Structure

theorem exact_toJson (s : Structure) : s.toJson.Exact :=
  Json.exactMembers_map fun f _ => f.2.exact_toJson

/-- A structure is read back from its written form, with its fields in order. -/
theorem read_toJson (s : Structure) : read (.ofJson s.toJson) = .ok s := by
  have hfields : (Reading.ofJson s.toJson).members Descriptor.read = .ok s.fields.entries :=
    Reading.members_ofJson fun f _ => Descriptor.read_of_spells (Descriptor.spells_toJson f.2)
  rw [read, hfields]
  exact congrArg (fun fields => Except.ok (Structure.mk fields)) s.fields.ofList_entries

end Structure

namespace Schema

theorem exact_toJson (schema : Schema) : schema.toJson.Exact :=
  Json.exactMembers_map fun k _ => k.2.exact_toJson

/-- A schema is read back from its written form, with its kinds in order. -/
theorem read_toJson (schema : Schema) : read (.ofJson schema.toJson) = .ok schema := by
  have hkinds : (Reading.ofJson schema.toJson).members Structure.read = .ok schema.kinds.entries :=
    Reading.members_ofJson fun k _ => k.2.read_toJson
  rw [read, hkinds]
  exact congrArg (fun kinds => Except.ok (Schema.mk kinds)) schema.kinds.ofList_entries

/-- A schema is read back from its text, if this is not nested too deep. -/
theorem ofText_text {schema : Schema} (hdepth : schema.toJson.depth ≤ Json.depthLimit) :
    ofText schema.text = .ok schema := by
  rw [ofText, text, Json.readText_text _ schema.exact_toJson hdepth, read_toJson]

/-- The values that are read as descriptors are the spellings in the grammar, each as what it
spells. Descriptors are read back from what is written, which is the normal form of whatever has
been read: the strings of a union sorted and without repetitions. Schemas are read back from their
texts, unless these are nested too deep. -/
theorem codec_exact :
    (∀ v d, Descriptor.ofJson? v = some d ↔ Descriptor.Spells v d) ∧
    (∀ d : Descriptor, Descriptor.ofJson? d.toJson = some d) ∧
    (∀ v d, Descriptor.ofJson? v = some d → d.toJson = Descriptor.normal v ∧
      Descriptor.normal (Descriptor.normal v) = Descriptor.normal v) ∧
    (∀ names, (StringSet.ofList names).toList.Pairwise (· < ·) ∧
      ∀ name, name ∈ (StringSet.ofList names).toList ↔ name ∈ names) ∧
    ∀ schema : Schema, schema.toJson.depth ≤ 127 → ofText schema.text = .ok schema := by
  refine ⟨fun v d => Descriptor.ofJson?_eq_some_iff,
    fun d => Descriptor.ofJson?_eq_some_iff.2 d.spells_toJson, fun v d h => ?_, fun names => ?_,
    fun schema hdepth => ofText_text hdepth⟩
  · have hspells := Descriptor.ofJson?_eq_some_iff.1 h
    exact ⟨Descriptor.toJson_eq_normal hspells, (Descriptor.normal_of_spells hspells).2⟩
  · exact ⟨(StringSet.ofList names).increasing, fun _ => StringSet.mem_ofList⟩

/-- A spelling with the long form of a scalar, and one with a string that stands twice. -/
def drinkFields : List Json := [
  .obj [("arrayOf", .obj [("number", .null)])],
  .obj [("optional", .obj [("union", .arr [.str "tea", .str "coffee", .str "tea"])])]]

/-- A schema with a reference that names a kind twice. -/
def drinkSchema : Schema := .ofKinds [
  ("Order", .ofFields [("prices", .arrayOf .number),
    ("drink", .optional (.union (.ofList ["tea", "coffee"]))),
    ("by", .ref ["Guest", "Staff", "Guest"])]),
  ("Guest", .ofFields [])]

/-- Both spellings are read, and become normal when written; the schema is read back from its
text. -/
theorem codec_drinkSchema :
    drinkFields.map Descriptor.ofJson? =
      [some (.arrayOf .number), some (.optional (.union (.ofList ["tea", "coffee", "tea"])))] ∧
    (Descriptor.optional (.union (.ofList ["tea", "coffee", "tea"]))).toJson =
      .obj [("optional", .obj [("union", .arr [.str "coffee", .str "tea"])])] ∧
    drinkSchema.toJson.depth ≤ 127 ∧ ofText drinkSchema.text = .ok drinkSchema := by
  obtain ⟨hspelled, -, hwritten, -, hread⟩ := codec_exact
  have hprices := (hspelled _ _).2 (.arrayOf (.scalar .number))
  have hdrink := (hspelled _ _).2 (.optional (.union ["tea", "coffee", "tea"]))
  have hdepth : drinkSchema.toJson.depth ≤ 127 := by decide +kernel
  refine ⟨congrArg₂ (fun a b => [a, b]) hprices hdrink, ?_, hdepth, hread _ hdepth⟩
  exact (hwritten _ _ hdrink).1.trans (by decide +kernel)

end Schema

end TypedGraph
