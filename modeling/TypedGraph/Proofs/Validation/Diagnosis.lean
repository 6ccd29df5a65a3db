import Mathlib.Data.List.Basic
import TypedGraph.Proofs.Validation.Completeness
import TypedGraph.Report

/-!
# Diagnosis of Entities That Are Accepted

A kind accepts an entity by itself if checking the entity succeeds before any entity has a kind. The
check has given the entity its kind when it comes to the fields, and what it gives to others for one
field is settled for the next ones. The diagnosis instead matches every field by itself, before any
entity has a kind. As the search is greedy, a field can fail there that has passed the check, and
then the diagnosis names this field although nothing is wrong with it.

So an entity that a kind accepts is reported as a conflict exactly if its fields also match one by
one. They do if no entity can be two kinds, as then nothing can be settled in a wrong way.

## Main definitions

* `Validator.MatchesFieldwise`: every field of an object matches by itself.

## Main results

* `Validator.diagnose_eq_none_iff` and `Validator.exists_of_diagnose`: the diagnosis of an object
  that conforms to a kind under some typing;
* `ValidateReport.mem_unmatched_iff`: which entities a report lists;
* `explained_of_check`: what is said about an entity that a kind accepts.
-/

namespace TypedGraph

namespace Validator

variable {v : Validator} {typing : Typing} {s : Structure} {members : List (String × Json)}
  {kind name : String} {d : Descriptor} {reason : Mismatch}

/-- Every field that the object has matches its descriptor by itself, before any entity has a
kind. -/
def MatchesFieldwise (v : Validator) (s : Structure) (members : List (String × Json)) : Prop :=
  ∀ f ∈ s.fields.entries, ∀ value ∈ Json.lookup members f.1, (v.matchValue f.2 (some value) ∅).1

instance (v : Validator) (s : Structure) (members : List (String × Json)) :
    Decidable (v.MatchesFieldwise s members) :=
  inferInstanceAs (Decidable (∀ f ∈ s.fields.entries, ∀ value ∈ Json.lookup members f.1, _))

/-! ## One Field -/

/-- A field that conforms under some typing is in order exactly if it also matches by itself. -/
theorem diagnoseField_eq_none_iff (h : Conforms v.graph typing d (Json.lookup members name)) :
    v.diagnoseField members name d = none ↔
      ∀ value ∈ Json.lookup members name, (v.matchValue d (some value) ∅).1 := by
  unfold diagnoseField
  cases hvalue : Json.lookup members name with
  | none =>
    -- a field that may be absent is optional
    rw [hvalue] at h
    cases h with
    | absent => exact iff_of_true rfl nofun
  | some value => simp

/-- Otherwise the reason is that it does not match by itself. -/
theorem exists_of_diagnoseField (h : Conforms v.graph typing d (Json.lookup members name))
    (hreason : v.diagnoseField members name d = some reason) :
    ∃ value, Json.lookup members name = some value ∧ reason = .fieldType name d value ∧
      (v.matchValue d (some value) ∅).1 = false := by
  unfold diagnoseField at hreason
  cases hvalue : Json.lookup members name with
  | none =>
    rw [hvalue] at h hreason
    cases h with
    | absent => cases hreason
  | some value =>
    rw [hvalue] at hreason
    dsimp only at hreason
    split at hreason
    · cases hreason
    · next hmatch => exact ⟨value, rfl, (Option.some.inj hreason).symm, Bool.not_eq_true _ ▸ hmatch⟩

/-! ## One Kind -/

/-- The diagnosis of an object whose fields are declared is that of its fields, in order. -/
theorem diagnose_eq_findSome? (hs : v.schema.kind? kind = some s)
    (hdeclared : ∀ m ∈ members, s.contains m.1) :
    v.diagnose kind (.obj members) =
      s.fields.entries.findSome? fun f => v.diagnoseField members f.1 f.2 := by
  have hfind : (members.find? fun m => !s.contains m.1) = none := by
    rw [List.find?_eq_none]
    intro m hm
    simp [hdeclared m hm]
  simp only [diagnose, hs, Json.members?, hfind]

/-- An object that conforms to the structure of a kind under some typing has nothing wrong with it
for the diagnosis exactly if its fields match one by one. -/
theorem diagnose_eq_none_iff (hs : v.schema.kind? kind = some s)
    (h : ConformsTo v.graph typing s members) :
    v.diagnose kind (.obj members) = none ↔ v.MatchesFieldwise s members := by
  rw [diagnose_eq_findSome? hs h.declared, List.findSome?_eq_none_iff]
  exact forall₂_congr fun f hf => diagnoseField_eq_none_iff (h.fields f hf)

/-- Otherwise the diagnosis is about a field with a value that conforms, but does not match by
itself. -/
theorem exists_of_diagnose (hs : v.schema.kind? kind = some s)
    (h : ConformsTo v.graph typing s members)
    (hreason : v.diagnose kind (.obj members) = some reason) :
    ∃ field d value, s.get? field = some d ∧ Json.lookup members field = some value ∧
      reason = .fieldType field d value ∧ Conforms v.graph typing d (some value) ∧
      (v.matchValue d (some value) ∅).1 = false := by
  rw [diagnose_eq_findSome? hs h.declared] at hreason
  obtain ⟨⟨field, d⟩, hf, hfield⟩ := List.exists_of_findSome?_eq_some hreason
  have hconforms := h.fields _ hf
  obtain ⟨value, hvalue, hreason, hmatch⟩ := exists_of_diagnoseField hconforms hfield
  rw [hvalue] at hconforms
  exact ⟨field, d, value, OrderedMap.get?_eq_some_iff.2 hf, hvalue, hreason, hconforms, hmatch⟩

/-- What is said about an object that conforms to the structure of a kind: that it is in conflict if
its fields match one by one, and that one of them does not match otherwise. -/
theorem reason_cases (hs : v.schema.kind? kind = some s) (h : ConformsTo v.graph typing s members)
    (hreason : (v.diagnose kind (.obj members)).getD .conflict = reason) :
    reason = .conflict ∧ v.MatchesFieldwise s members ∨
    ¬ v.MatchesFieldwise s members ∧ ∃ field d value, s.get? field = some d ∧
      Json.lookup members field = some value ∧ reason = .fieldType field d value ∧
      Conforms v.graph typing d (some value) ∧ (v.matchValue d (some value) ∅).1 = false := by
  subst hreason
  rw [← diagnose_eq_none_iff hs h]
  cases hdiagnose : v.diagnose kind (.obj members) with
  | none => exact .inl ⟨rfl, rfl⟩
  | some reason => exact .inr ⟨nofun, exists_of_diagnose hs h hdiagnose⟩

theorem explain_of_get? {id : EntityId} {entity : Json} (h : v.graph.get? id = some entity) :
    v.explain id = some (v.schema.kindNames.map fun kind =>
      (kind, (v.diagnose kind entity).getD .conflict)) := by
  rw [explain, v.entity?_eq, h]
  rfl

/-! ## Fields One by One -/

/-- If no entity can be two kinds, a value matches by itself once its references point at entities
that can be what is asked of them. -/
theorem fst_matchValue_of_canBe (hu : Unambiguous v.schema v.graph) {value : Json}
    (h : Conforms v.graph (CanBe v.schema v.graph) d (some value)) :
    (v.matchValue d (some value) ∅).1 = true := by
  obtain ⟨goals, hgoals, hmet⟩ := conforms_iff.1 h
  obtain ⟨a, hmeet⟩ := exists_meet_of_canBe_of (fun _ hb hcan => exists_check_of_canBe hu hb hcan)
    (Assignment.le_refl ∅) (possible_empty v) hmet
  exact fst_matchValue_iff.2 ⟨goals, hgoals, by rw [hmeet]⟩

/-- If no entity can be two kinds, the fields of an entity that can be of a kind match one by
one. -/
theorem matchesFieldwise_of_canBe (hu : Unambiguous v.schema v.graph)
    (h : ConformsTo v.graph (CanBe v.schema v.graph) s members) : v.MatchesFieldwise s members := by
  intro f hf value hvalue
  have hconforms := h.fields f hf
  rw [Option.mem_def.1 hvalue] at hconforms
  exact fst_matchValue_of_canBe hu hconforms

end Validator

/-! ## Reports -/

/-- A report lists an entity other than the failed one exactly if something is wrong with it for
every kind. -/
theorem ValidateReport.mem_unmatched_iff {v : Validator} {failed id : EntityId}
    {reasons : Explanation} (hid : id ≠ failed) :
    (id, reasons) ∈ unmatched v failed ↔
      id ∈ v.graph.ids ∧ v.explain id = some reasons ∧ ∀ r ∈ reasons, r.2 ≠ .conflict := by
  unfold unmatched
  dsimp only
  -- the failed entity may stand before the others, but is none of them
  generalize hothers : List.filterMap _ _ = others
  have hmem : (id, reasons) ∈ others ↔
      id ∈ v.graph.ids ∧ v.explain id = some reasons ∧ ∀ r ∈ reasons, r.2 ≠ .conflict := by
    rw [← hothers, List.mem_filterMap]
    constructor
    · rintro ⟨j, hj, hsome⟩
      cases hexplain : v.explain j with
      | none =>
        rw [hexplain] at hsome
        cases hsome
      | some reasons' =>
        rw [hexplain] at hsome
        dsimp only at hsome
        split at hsome
        · next hall =>
          cases hsome
          exact ⟨(List.mem_filter.1 hj).1, hexplain, by simpa using hall⟩
        · cases hsome
    · rintro ⟨hmem, hexplain, hall⟩
      refine ⟨id, List.mem_filter.2 ⟨hmem, by simpa using hid⟩, ?_⟩
      rw [hexplain]
      exact if_pos (by simpa using hall)
  cases v.explain failed with
  | none => exact hmem
  | some failedReasons =>
    rw [List.mem_cons, Prod.mk.injEq, or_iff_right fun h => hid h.1]
    exact hmem

theorem ValidateReport.unmatched_of_invalid {schema : Schema} {graph : EntityGraph}
    {failed : EntityId} {unmatched : List (EntityId × Explanation)}
    (h : ValidateReport.of schema graph = .invalid failed unmatched) :
    unmatched = ValidateReport.unmatched (.of schema graph) failed := by
  unfold ValidateReport.of at h
  dsimp only at h
  split at h <;> cases h
  rfl

/-- What is said about an entity that a kind accepts by itself. The explanation for the kind is a
conflict exactly if the fields match one by one; otherwise it accuses a field whose value conforms
under the kinds that the check has given. If no entity can be two kinds, the fields match one by
one. An entity whose fields do so is not listed by a report unless it is the one that has failed. -/
theorem explained_of_check {schema : Schema} {graph : EntityGraph} {id : EntityId} {kind : String}
    {a : Assignment} (h : (Validator.of schema graph).check id kind ∅ = (true, a)) :
    ∃ s members reasons reason, schema.kind? kind = some s ∧ graph.get? id = some (.obj members) ∧
      (Validator.of schema graph).explain id = some reasons ∧ reasons.lookup kind = some reason ∧
      (reason = .conflict ↔ (Validator.of schema graph).MatchesFieldwise s members) ∧
      (reason ≠ .conflict → ∃ field d value, s.get? field = some d ∧
        Json.lookup members field = some value ∧ reason = .fieldType field d value ∧
        Conforms graph a.typing d (some value) ∧
        ((Validator.of schema graph).matchValue d (some value) ∅).1 = false) ∧
      (Unambiguous schema graph → (Validator.of schema graph).MatchesFieldwise s members) ∧
      ((Validator.of schema graph).MatchesFieldwise s members →
        ∀ failed unmatched, ValidateReport.of schema graph = .invalid failed unmatched →
          id ≠ failed → ∀ reasons, (id, reasons) ∉ unmatched) := by
  obtain ⟨s, members, hs, hget, hto⟩ :=
    (Validator.grows_of_check h).looseTyping id kind (Validator.kind?_of_check h)
  have hkind : kind ∈ schema.kindNames := OrderedMap.mem_keys_iff.2 ⟨s, hs⟩
  have hexplain := Validator.explain_of_get? (v := .of schema graph) hget
  refine ⟨s, members, _, _, hs, hget, hexplain, List.lookup_graph _ hkind, ?_, ?_, fun hu => ?_, ?_⟩
  · rcases Validator.reason_cases hs hto rfl with ⟨hconflict, hmatches⟩ | ⟨hnot, haccused⟩
    · exact iff_of_true hconflict hmatches
    · obtain ⟨field, d, value, -, -, heq, -⟩ := haccused
      rw [heq]
      exact iff_of_false nofun hnot
  · intro hne
    rcases Validator.reason_cases hs hto rfl with ⟨hconflict, -⟩ | ⟨-, haccused⟩
    · exact absurd hconflict hne
    · exact haccused
  · -- the entity also conforms to the kind under all that entities can be
    obtain ⟨s', members', hs', hget', hto'⟩ := looseTyping_canBe schema graph id kind
      (Validator.canBe_of_check (Validator.possible_empty _) h)
    cases hs.symm.trans hs'
    cases hget.symm.trans hget'
    exact Validator.matchesFieldwise_of_canBe hu hto'
  · intro hmatches failed unmatched hreport hid reasons' hmem
    rw [ValidateReport.unmatched_of_invalid hreport, ValidateReport.mem_unmatched_iff hid] at hmem
    obtain ⟨-, hexplain', hall⟩ := hmem
    cases hexplain.symm.trans hexplain'
    rcases Validator.reason_cases hs hto rfl with ⟨hconflict, -⟩ | ⟨hnot, -⟩
    · exact hall _ (List.mem_map_of_mem hkind) hconflict
    · exact hnot hmatches

/-- A peer is accepted as the kind that it can be, and the explanation says that it is in
conflict. -/
theorem explained_peerGraph :
    ((Validator.of peerSchema peerGraph).check ⟨"x"⟩ "PeerB" ∅).1 = true ∧
      ∃ reasons, (Validator.of peerSchema peerGraph).explain ⟨"x"⟩ = some reasons ∧
        reasons.lookup "PeerB" = some .conflict := by
  have hcheck : ((Validator.of peerSchema peerGraph).check ⟨"x"⟩ "PeerB" ∅).1 = true := by
    decide +kernel
  have haccepted : (Validator.of peerSchema peerGraph).check ⟨"x"⟩ "PeerB" ∅ =
      (true, ((Validator.of peerSchema peerGraph).check ⟨"x"⟩ "PeerB" ∅).2) := Prod.ext hcheck rfl
  obtain ⟨s, members, reasons, reason, -, -, hexplain, hlookup, hconflict, -, hmatches, -⟩ :=
    explained_of_check haccepted
  rw [hconflict.2 (hmatches unambiguous_peerGraph)] at hlookup
  exact ⟨hcheck, reasons, hexplain, hlookup⟩

/-- A schema in which an entity without fields fits the first two kinds, and the fields of the other
two ask for one or both of these. -/
def hastySchema : Schema := .ofKinds [
  ("A", .ofFields []),
  ("B", .ofFields []),
  ("Y", .ofFields [("u", .ref ["A", "B"]), ("w", .ref ["B"])]),
  ("K", .ofFields [("p", .ref ["B"]), ("q", .ref ["Y"])])]

/-- An entity without fields, one that points at it twice, and one that points at both. -/
def hastyGraph : EntityGraph := .ofMembers [
  ("x", .obj []),
  ("y", .obj [("u", RefToken.toJson ⟨⟨"x"⟩⟩), ("w", RefToken.toJson ⟨⟨"x"⟩⟩)]),
  ("k", .obj [("p", RefToken.toJson ⟨⟨"x"⟩⟩), ("q", RefToken.toJson ⟨⟨"y"⟩⟩)])]

/-- The last entity is accepted as a `K`, since its first field asks for the second kind of `x`
before the other field comes to `y`. By itself the other field lets `y` take `x` for the first kind.
So the explanation accuses this field, and the report on the graph lists the entity after the failed
one. -/
theorem accused_hastyGraph :
    ((Validator.of hastySchema hastyGraph).check ⟨"k"⟩ "K" ∅).1 = true ∧
      (Validator.of hastySchema hastyGraph).explain ⟨"k"⟩ = some [
        ("A", .undeclaredField "p"), ("B", .undeclaredField "p"), ("Y", .undeclaredField "p"),
        ("K", .fieldType "q" (.ref ["Y"]) (RefToken.toJson ⟨⟨"y"⟩⟩))] ∧
      ∃ unmatched, ValidateReport.of hastySchema hastyGraph = .invalid ⟨"y"⟩ unmatched ∧
        ⟨"k"⟩ ∈ unmatched.map Prod.fst := by
  refine ⟨by decide +kernel, by decide +kernel, ?_⟩
  have hreport : (match ValidateReport.of hastySchema hastyGraph with
      | .invalid failed unmatched => decide (failed = ⟨"y"⟩ ∧ ⟨"k"⟩ ∈ unmatched.map Prod.fst)
      | .valid _ => false) = true := by decide +kernel
  revert hreport
  cases ValidateReport.of hastySchema hastyGraph with
  | valid index => exact nofun
  | invalid failed unmatched =>
    intro h
    obtain ⟨rfl, hlisted⟩ := of_decide_eq_true h
    exact ⟨unmatched, rfl, hlisted⟩

end TypedGraph
