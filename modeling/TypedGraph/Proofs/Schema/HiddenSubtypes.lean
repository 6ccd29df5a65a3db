import TypedGraph.Proofs.Schema.Separation
import TypedGraph.Schema.Builder

/-!
# Hidden Subtypes

A kind is included in another one if all its entities can be the other kind, in every graph.
Implications are inclusions, but the analysis looks for them from below, and asks of each kind that
a reference names for one kind on the other side that takes it. So it does not see inclusions that
only justify each other, nor those that several kinds share. It sees all others between kinds of
which the first reaches plain shapes only.

## Main definitions

* `Schema.Included`: all entities of a kind can be another kind;
* `Schema.Compared`: the pairs of kinds that the comparison of two kinds leads to;
* `Schema.CoversSingly`: where references take all entities of a kind, one of their kinds does;
* `Schema.Circular`: pairs of kinds that are not found, and would follow if all of them held;
* `Schema.Hides`: an inclusion that is not found, in a schema that is accepted.

## Main results

* `Schema.included_of_known`: implications and circular pairs are inclusions;
* `Schema.included_iff`: there are no other inclusions of a kind that reaches plain shapes only;
* `Schema.reported_of_included`: the inclusions that are not circular are reported;
* `hidden_inclusions`: each of the conditions is needed.
-/

namespace TypedGraph

namespace Schema

variable {schema : Schema}

/-! ## Inclusions -/

/-- Every entity that can be the first kind, in whatever graph, can be the second kind. -/
def Included (schema : Schema) (a b : String) : Prop :=
  ∀ graph : EntityGraph, graph.Canonical → ∀ id, CanBe schema graph id a → CanBe schema graph id b

/-- Some graph has an entity that can be the kind. -/
def Occurs (schema : Schema) (a : String) : Prop :=
  ∃ graph : EntityGraph, graph.Canonical ∧ ∃ id, CanBe schema graph id a

/-- The pairs of kinds that the comparison of two kinds leads to: the two themselves, and the kinds
that the references of fields of one name take on either side. -/
inductive Compared (schema : Schema) (a b : String) : String → String → Prop
  | self : Compared schema a b a b
  | step {x y k j name : String} {d e : Descriptor} : Compared schema a b x y →
      schema.field? x name = some d → schema.field? y name = some e →
      k ∈ d.referencedKinds → j ∈ e.referencedKinds → Compared schema a b k j

theorem Compared.reaches {a b x y : String} (h : schema.Compared a b x y) : schema.Reaches a x := by
  induction h with
  | self => exact .refl
  | step _ hd _ hk _ ih => exact ih.referenced hd hk

/-- If every entity of a kind that a reference of the first kind names can be one of the kinds that
the same field of the second kind refers to, then one of these takes them all. -/
def CoversSingly (schema : Schema) (a b : String) : Prop :=
  ∀ name d e, schema.field? a name = some d → schema.field? b name = some e →
    ∀ k ∈ d.referencedKinds,
      (∀ graph : EntityGraph, graph.Canonical → ∀ id, CanBe schema graph id k →
        ∃ j ∈ e.referencedKinds, CanBe schema graph id j) →
      ∃ j ∈ e.referencedKinds, schema.Included k j

/-- Pairs of kinds that the analysis does not find, although the structures of each pair allow it
given the implications that are found and all these pairs. -/
def Circular (schema : Schema) (r : String → String → Bool) : Prop :=
  ∀ a b, r a b → ¬ schema.analyze.implies a b ∧
    schema.impliesStructure (fun x y => schema.analyze.implies x y || r x y) a b

/-- Implications and circular pairs are inclusions. -/
theorem included_of_known {r : String → String → Bool} (hr : schema.Circular r) {a b : String}
    (h : schema.analyze.implies a b || r a b) : schema.Included a b := by
  rintro graph - id ⟨typing, hloose, hty⟩
  let known x y := schema.analyze.implies x y || r x y
  have hknown (x y : String) (hxy : known x y) :
      x = y ∨ schema.impliesStructure known x y := by
    by_cases heq : x = y
    · exact .inl heq
    rcases Bool.or_eq_true_iff.1 hxy with himplies | hcircular
    · refine .inr (impliesStructure_mono (fun p q hpq => ?_)
        (impliesStructure_of_implies heq himplies))
      exact Bool.or_eq_true_iff.2 (.inl hpq)
    · exact .inr (hr x y hcircular).2
  exact ⟨typing.implied known, hloose.implied hknown, .inr ⟨a, hty, h⟩⟩

theorem included_of_implies {a b : String} (h : schema.analyze.implies a b) :
    schema.Included a b :=
  included_of_known (r := fun _ _ => false) (fun _ _ h => nomatch h)
    (Bool.or_eq_true_iff.2 (.inl h))

section

variable {a b : String}

theorem occurs_of_plainFrom (hplain : schema.PlainFrom a) (hdangling : schema.danglingRefs = [])
    (ha : a ∈ schema.kindNames) : schema.Occurs a := by
  obtain ⟨g, -, point, hpoint⟩ :=
    (default : LooseGraph schema).exists_populated hplain hdangling ha
  exact ⟨g.graph, g.canonical, point a, LooseGraph.canBe (hpoint a .refl)⟩

/-- The inclusions that the comparison of two kinds leads to, and that the analysis does not
find. -/
noncomputable def hidden (schema : Schema) (a b x y : String) : Bool :=
  open Classical in
  decide (schema.Compared a b x y ∧ schema.Included x y ∧ ¬ schema.analyze.implies x y)

theorem hidden_iff {x y : String} : schema.hidden a b x y ↔
    schema.Compared a b x y ∧ schema.Included x y ∧ ¬ schema.analyze.implies x y := by
  classical
  exact decide_eq_true_iff

theorem known_iff {x y : String} (h : schema.Compared a b x y) :
    (schema.analyze.implies x y || schema.hidden a b x y) ↔ schema.Included x y := by
  rw [Bool.or_eq_true, hidden_iff]
  constructor
  · rintro (himplies | hhidden)
    · exact included_of_implies himplies
    · exact hhidden.2.1
  · intro hincluded
    by_cases himplies : schema.analyze.implies x y
    · exact .inl himplies
    · exact .inr ⟨h, hincluded, himplies⟩

variable (hplain : schema.PlainFrom a) (hdangling : schema.danglingRefs = [])
  (ha : a ∈ schema.kindNames)
include hplain hdangling ha

theorem separatesRefs_hidden {x y : String} (h : schema.Compared a b x y)
    (hsingle : schema.CoversSingly x y) :
    schema.SeparatesRefs (fun k j => schema.analyze.implies k j || schema.hidden a b k j) x y := by
  intro name d e hd he k hk hothers
  -- no kind on the other side takes all entities, and so they do not either together
  have hnot : ¬ ∀ graph : EntityGraph, graph.Canonical → ∀ id, CanBe schema graph id k →
      ∃ j ∈ e.referencedKinds, CanBe schema graph id j := by
    intro hall
    obtain ⟨j, hj, hincluded⟩ := hsingle name d e hd he k hk hall
    exact hothers j hj ((known_iff (h.step hd he hk hj)).2 hincluded)
  push Not at hnot
  obtain ⟨graph, hcanonical, id, ⟨typing, hloose, hty⟩, hnone⟩ := hnot
  obtain ⟨g, hle, hg⟩ := LooseGraph.exists_populated (hplain.of_reaches h.reaches) hdangling
    (mem_kindNames_of_reaches hdangling ha h.reaches) ⟨graph, hcanonical, typing, hloose⟩
  refine ⟨g, hg, id, hle.2 id k hty, fun j hj hcan => hnone j hj ?_⟩
  exact LooseGraph.canBe_of_within (g := ⟨graph, hcanonical, typing, hloose⟩) hle.1 hty hcan

variable (hsingle : ∀ x y, schema.Compared a b x y → schema.CoversSingly x y)
include hsingle

theorem circular_hidden : schema.Circular (schema.hidden a b) := by
  intro x y h
  obtain ⟨hcompared, hincluded, hnot⟩ := hidden_iff.1 h
  refine ⟨hnot, ?_⟩
  by_contra hstructure
  obtain ⟨g, id, hty, hy⟩ := exists_apart (hplain.of_reaches hcompared.reaches) hdangling
    (mem_kindNames_of_reaches hdangling ha hcompared.reaches)
    (separatesRefs_hidden hplain hdangling ha hcompared (hsingle x y hcompared)) hstructure
  exact hy y (List.mem_singleton_self y)
    (hincluded g.graph g.canonical id (LooseGraph.canBe hty))

/-- Inclusions are the implications that are found, and those that only justify each other. -/
theorem included_iff :
    schema.Included a b ↔ schema.analyze.implies a b ∨ ∃ r, schema.Circular r ∧ r a b := by
  constructor
  · intro hincluded
    rcases Bool.or_eq_true_iff.1 ((known_iff .self).2 hincluded) with himplies | hhidden
    · exact .inl himplies
    · exact .inr ⟨schema.hidden a b, circular_hidden hplain hdangling ha hsingle, hhidden⟩
  · rintro (himplies | ⟨r, hr, hab⟩)
    · exact included_of_implies himplies
    · exact included_of_known hr (Bool.or_eq_true_iff.2 (.inr hab))

end

/-- Schemas with an implication between different kinds are rejected with it. -/
theorem rejected_of_implies {a b : String} (hne : a ≠ b) (h : schema.analyze.implies a b) :
    schema.analyze.isCoherent = false ∧ ∃ problems,
      schema.assertCoherent = .error (.incoherent problems) ∧ ⟨a, b⟩ ∈ problems := by
  have hincoherent : ¬ schema.analyze.isCoherent := fun hcoherent =>
    hne (isCoherent_iff.1 hcoherent a b h)
  refine ⟨Bool.eq_false_iff.2 hincoherent, schema.analyze.problems, ?_, mem_problems_iff.2 ⟨hne, h⟩⟩
  rw [assertCoherent, if_neg hincoherent]

/-- Without dangling references, a kind whose entities can all be another kind is reported to imply
it, and the schema is rejected, unless the two are a circular pair; and circular pairs are such
kinds. The kinds that the first one reaches have to be plain, and the references that the comparison
of the two comes by have to cover kinds singly; nothing is asked of other kinds. -/
theorem reported_of_included {a b : String} (hdangling : schema.danglingRefs = [])
    (hplain : schema.PlainFrom a)
    (hsingle : ∀ x y, schema.Compared a b x y → schema.CoversSingly x y) (hne : a ≠ b)
    (hinhabited : ∃ graph id, CanBe schema graph id a) :
    (schema.Included a b ↔ schema.analyze.implies a b ∨ ∃ r, schema.Circular r ∧ r a b) ∧
    (schema.Included a b → (¬ ∃ r, schema.Circular r ∧ r a b) →
      schema.analyze.implies a b ∧ schema.analyze.isCoherent = false ∧ ∃ problems,
        schema.assertCoherent = .error (.incoherent problems) ∧ ⟨a, b⟩ ∈ problems) := by
  obtain ⟨graph, id, hcan⟩ := hinhabited
  have hiff := included_iff hplain hdangling hcan.mem_kindNames hsingle
  refine ⟨hiff, fun hincluded hcircular => ?_⟩
  have himplies := (hiff.1 hincluded).resolve_right hcircular
  exact ⟨himplies, rejected_of_implies hne himplies⟩

/-- The listed pairs lead to no other ones, and a field of the second kind that takes references
names every kind that the same field of the first one names, or one kind alone. -/
def comparesSingly (schema : Schema) (pairs : List (String × String)) : Bool :=
  pairs.all fun p => (schema.kind? p.1).all fun s => (schema.kind? p.2).all fun t =>
    s.fields.entries.all fun f => (t.get? f.1).all fun e => f.2.referencedKinds.all fun k =>
      e.referencedKinds.all (fun j => pairs.contains (k, j)) &&
        (e.referencedKinds.contains k || e.referencedKinds.length == 1)

theorem comparesSingly_field {pairs : List (String × String)} (h : schema.comparesSingly pairs)
    {p : String × String} (hp : p ∈ pairs) {name : String} {d e : Descriptor}
    (hd : schema.field? p.1 name = some d) (he : schema.field? p.2 name = some e) {k : String}
    (hk : k ∈ d.referencedKinds) : (∀ j ∈ e.referencedKinds, (k, j) ∈ pairs) ∧
      (k ∈ e.referencedKinds ∨ e.referencedKinds.length = 1) := by
  obtain ⟨s, hs, hsd⟩ := Option.bind_eq_some_iff.1 hd
  obtain ⟨t, ht, hte⟩ := Option.bind_eq_some_iff.1 he
  have hpair := List.all_eq_true.1 h p hp
  rw [hs, Option.all_some, ht, Option.all_some] at hpair
  have hfield := List.all_eq_true.1 hpair _ (OrderedMap.get?_eq_some_iff.1 hsd)
  rw [hte, Option.all_some] at hfield
  simpa using List.all_eq_true.1 hfield k hk

theorem coversSingly_of_comparesSingly {pairs : List (String × String)}
    (h : schema.comparesSingly pairs) {a b : String} (hab : (a, b) ∈ pairs) {x y : String}
    (hcompared : schema.Compared a b x y) : schema.CoversSingly x y := by
  have hmem : (x, y) ∈ pairs := by
    induction hcompared with
    | self => exact hab
    | step _ hd he hk hj ih => exact (comparesSingly_field h ih hd he hk).1 _ hj
  intro name d e hd he k hk hall
  rcases (comparesSingly_field h hmem hd he hk).2 with hsame | hone
  · exact ⟨k, hsame, fun _ _ _ => id⟩
  · obtain ⟨j, hj⟩ := List.length_eq_one_iff.1 hone
    refine ⟨j, hj ▸ List.mem_singleton_self j, fun graph hcanonical id hcan => ?_⟩
    obtain ⟨j', hj', hcan'⟩ := hall graph hcanonical id hcan
    rw [hj, List.mem_singleton] at hj'
    exact hj' ▸ hcan'

/-- A pair of kinds is not circular if no knowledge about kinds would make their structures allow
it. -/
theorem not_circular_of_apart {a b : String}
    (h : ¬ schema.impliesStructure (fun _ _ => true) a b) : ¬ ∃ r, schema.Circular r ∧ r a b := by
  rintro ⟨r, hr, hab⟩
  exact h (impliesStructure_mono (fun _ _ _ => rfl) (hr a b hab).2)

end Schema

/-- Boxes are crates without a size whose links are all narrow, while narrow links are not wide. No
parcel has to do with voids, whose note has no value. -/
def parcelSchema : Schema := .ofKinds [
  ("Box", .ofFields [("links", .arrayOf (.ref ["Narrow"]))]),
  ("Crate", .ofFields [("links", .arrayOf (.ref ["Narrow", "Wide"])), ("size", .optional .number)]),
  ("Narrow", .ofFields [("next", .optional (.ref ["Box"])), ("tag", .union (.ofList ["p", "q"]))]),
  ("Wide", .ofFields [("next", .optional (.ref ["Box"])), ("width", .number)]),
  ("Void", .ofFields [("note", .optional (.union ∅))])]

/-- Boxes are reported to be crates, and the schema is rejected; crates are no boxes. -/
theorem reported_parcelSchema : parcelSchema.analyze.isCoherent = false ∧
    parcelSchema.Included "Box" "Crate" ∧ ¬ parcelSchema.Included "Crate" "Box" := by
  have hdangling : parcelSchema.danglingRefs = [] := by decide +kernel
  have hplain (root : String) (hroot : root ∈ ["Box", "Crate", "Narrow", "Wide"]) :
      parcelSchema.PlainFrom root :=
    Schema.plainFrom_of_closesPlainly _ (by decide +kernel) hroot
  have hsingle {a b : String} (hab : (a, b) ∈ [("Box", "Crate"), ("Crate", "Box"),
      ("Narrow", "Narrow"), ("Narrow", "Wide"), ("Wide", "Narrow"), ("Box", "Box")]) :
      ∀ x y, parcelSchema.Compared a b x y → parcelSchema.CoversSingly x y :=
    fun x y => Schema.coversSingly_of_comparesSingly (by decide +kernel) hab
  obtain ⟨boxes, -, box, hbox⟩ := Schema.occurs_of_plainFrom (hplain "Box" (by decide)) hdangling
    (by decide +kernel)
  obtain ⟨crates, -, crate, hcrate⟩ :=
    Schema.occurs_of_plainFrom (hplain "Crate" (by decide)) hdangling (by decide +kernel)
  have himplies : parcelSchema.analyze.implies "Box" "Crate" := by decide +kernel
  obtain ⟨hboxIff, hreported⟩ := Schema.reported_of_included hdangling (hplain "Box" (by decide))
    (hsingle (by decide)) (show "Box" ≠ "Crate" by decide) ⟨boxes, box, hbox⟩
  obtain ⟨hcrateIff, -⟩ := Schema.reported_of_included hdangling (hplain "Crate" (by decide))
    (hsingle (by decide)) (show "Crate" ≠ "Box" by decide) ⟨crates, crate, hcrate⟩
  have hincluded := hboxIff.2 (.inl himplies)
  refine ⟨(hreported hincluded ?_).2.1, hincluded, fun h => ?_⟩
  · rintro ⟨r, hr, hr'⟩
    exact (hr _ _ hr').1 himplies
  · rcases hcrateIff.1 h with himplies' | hcircular
    · exact absurd himplies' (by decide +kernel)
    · exact Schema.not_circular_of_apart (by decide +kernel) hcircular

/-! ## Inclusions That Are Not Found -/

/-- The analysis finds nothing, although a kind with entities is included in another one. -/
structure Schema.Hides (schema : Schema) (a b : String) : Prop where
  /-- There are no dangling references. -/
  closed : schema.danglingRefs = []
  /-- The kinds are different. -/
  ne : a ≠ b
  /-- The first kind has an entity. -/
  occurs : schema.Occurs a
  /-- All its entities can be the second kind. -/
  included : schema.Included a b
  /-- The analysis does not find the implication. -/
  missed : ¬ schema.analyze.implies a b
  /-- The verdict is that no kind implies another one. -/
  coherent : schema.assertCoherent = .ok ()

section

variable {schema : Schema} {a b : String} {s t : Structure}

/-- A kind is included in another one if its objects are in line with the other structure as
well. -/
theorem Schema.included_of_conformsTo (hs : schema.kind? a = some s) (ht : schema.kind? b = some t)
    (h : ∀ graph typing members, ConformsTo graph typing s members →
      ConformsTo graph typing t members) : schema.Included a b := by
  rintro graph - id ⟨typing, hloose, hty⟩
  refine ⟨_, hloose.or (fun j k => typing j a ∧ k = b) ?_, .inr ⟨hty, rfl⟩⟩
  rintro j k ⟨hj, rfl⟩
  obtain ⟨s', members, hs', hmembers, hto⟩ := hloose j a hj
  cases hs.symm.trans hs'
  exact ⟨t, members, ht, hmembers, h _ _ _ (hto.mono (fun _ hid => hid) fun _ _ _ => .inl)⟩

/-- A kind whose fields may all be absent has an entity. -/
theorem Schema.occurs_of_optional (hs : schema.kind? a = some s)
    (h : ∀ f ∈ s.fields.entries, f.2.isOptional) : schema.Occurs a := by
  have hcanonical : (Json.obj []).Canonical := ⟨List.Pairwise.nil, trivial⟩
  have hto (g : LooseGraph schema) : ConformsTo g.graph g.typing s [] :=
    ⟨fun m hm => (nomatch hm), fun f hf => Conforms.of_isOptional (h f hf) fun x hx => (nomatch hx)⟩
  obtain ⟨g, -, id, -, hty⟩ := LooseGraph.exists_insert default hs hcanonical (hto default)
  exact ⟨g.graph, g.canonical, id, LooseGraph.canBe hty⟩

variable {graph : EntityGraph} {typing typing' : Typing} {members : List (String × Json)}

/-- An object of one structure is in line with another one that declares the fields that are there,
if the other one's fields conform. -/
theorem ConformsTo.of_fields (h : ConformsTo graph typing s members)
    (hdeclared : ∀ name x, s.contains name → Json.lookup members name = some x → t.contains name)
    (hfields : ∀ f ∈ t.fields.entries, Conforms graph typing' f.2 (Json.lookup members f.1)) :
    ConformsTo graph typing' t members := by
  refine ⟨fun m hm => ?_, hfields⟩
  obtain ⟨x, hx⟩ := Option.isSome_iff_exists.1
    (OrderedMap.lookup_isSome_iff.2 (List.mem_map_of_mem hm) : (Json.lookup members m.1).isSome)
  exact hdeclared m.1 x (h.declared m hm) hx

theorem ConformsTo.lookup_eq_none (h : ConformsTo graph typing s members) {name : String}
    (hname : ¬ s.contains name) : Json.lookup members name = none :=
  Option.eq_none_iff_forall_ne_some.2 fun _ hx => hname (h.contains_of_lookup hx)

end

/-- Two kinds whose entities each point at an entity of their own kind. -/
def ringSchema : Schema := .ofKinds [
  ("A", .ofFields [("next", .ref ["A"])]),
  ("B", .ofFields [("next", .ref ["B"])])]

/-- The two kinds are circular: each justifies itself. -/
theorem hides_ringSchema : ringSchema.Hides "A" "B" where
  closed := by decide +kernel
  ne := by decide
  occurs := Schema.occurs_of_plainFrom
    (Schema.plainFrom_of_closesPlainly ["A"] (by decide +kernel) (by decide))
    (by decide +kernel) (by decide +kernel)
  included := by
    have hcircular : ringSchema.Circular fun x y => x == "A" && y == "B" := by
      intro x y hxy
      rw [Bool.and_eq_true, beq_iff_eq, beq_iff_eq] at hxy
      obtain ⟨rfl, rfl⟩ := hxy
      exact ⟨by decide +kernel, by decide +kernel⟩
    exact Schema.included_of_known hcircular (by decide +kernel)
  missed := by decide +kernel
  coherent := by decide +kernel

/-- An optional value that is optional itself. -/
def nestedSchema : Schema := .ofKinds [
  ("A", .ofFields [("x", .optional (.optional .number))]),
  ("B", .ofFields [("x", .optional .number), ("y", .optional .string)])]

/-- The inner `optional` says nothing of a value that is there. -/
theorem hides_nestedSchema : nestedSchema.Hides "A" "B" where
  closed := by decide +kernel
  ne := by decide
  occurs := Schema.occurs_of_optional
    (s := .ofFields [("x", .optional (.optional .number))]) (by decide +kernel) (by decide +kernel)
  included := by
    have ha : nestedSchema.kind? "A" =
        some (.ofFields [("x", .optional (.optional .number))]) := by decide +kernel
    have hb : nestedSchema.kind? "B" =
        some (.ofFields [("x", .optional .number), ("y", .optional .string)]) := by decide +kernel
    refine Schema.included_of_conformsTo ha hb fun graph typing members h =>
      h.of_fields (fun name x hname _ => ?_)
        (List.forall_mem_cons.2 ⟨?_, List.forall_mem_singleton.2 ?_⟩)
    · rw [List.mem_singleton.1 (OrderedMap.contains_iff.1 hname)]
      decide +kernel
    · have hvalue := h.fields _ (List.mem_singleton_self _)
      rw [Conforms.optional_iff] at hvalue ⊢
      exact fun x hx => Conforms.optional_iff.1 (hvalue x hx) x rfl
    · rw [h.lookup_eq_none (by decide +kernel)]
      exact .absent
  missed := by decide +kernel
  coherent := by decide +kernel

/-- A choice among no strings. -/
def voidSchema : Schema := .ofKinds [
  ("A", .ofFields [("x", .optional (.union ∅))]),
  ("B", .ofFields [("y", .optional .string)])]

/-- A field without values is never there, and need not be declared. -/
theorem hides_voidSchema : voidSchema.Hides "A" "B" where
  closed := by decide +kernel
  ne := by decide
  occurs := Schema.occurs_of_optional
    (s := .ofFields [("x", .optional (.union ∅))]) (by decide +kernel) (by decide +kernel)
  included := by
    have ha : voidSchema.kind? "A" = some (.ofFields [("x", .optional (.union ∅))]) := by
      decide +kernel
    have hb : voidSchema.kind? "B" = some (.ofFields [("y", .optional .string)]) := by
      decide +kernel
    refine Schema.included_of_conformsTo ha hb fun graph typing members h =>
      h.of_fields (fun name x hname hx => ?_) (List.forall_mem_singleton.2 ?_)
    · -- no string is one of no literals
      have hvalue := h.fields _ (List.mem_singleton_self _)
      rw [List.mem_singleton.1 (OrderedMap.contains_iff.1 hname)] at hx
      obtain ⟨literal, -, hmem⟩ := Conforms.union_iff.1 (Conforms.optional_iff.1 hvalue x hx)
      cases hmem
    · rw [h.lookup_eq_none (by decide +kernel)]
      exact .absent
  missed := by decide +kernel
  coherent := by decide +kernel

/-- An object with a tag. -/
def tagStructure (tag : String) : Structure :=
  .ofFields [("tag", .union (.ofList [tag])), ("y", .optional .string)]

/-- Two kinds that share the objects with one tag or the other, and take none without more. -/
def sharedSchema : Schema := .ofKinds [
  ("A", .ofFields [("next", .ref ["X"])]),
  ("B", .ofFields [("next", .ref ["p", "q"])]),
  ("X", .ofFields [("tag", .union (.ofList ["p", "q"]))]),
  ("p", tagStructure "p"),
  ("q", tagStructure "q")]

/-- The kinds that the entities of `A` and `X` also are in `sharedSchema`. -/
def sharedKinds (graph : EntityGraph) (typing : Typing) : Typing := fun id kind =>
  typing id "A" ∧ kind = "B" ∨ typing id "X" ∧ ∃ members,
    graph.get? id = some (.obj members) ∧ Json.lookup members "tag" = some (.str kind)

/-- An object with either tag is in line with the structure of its tag. -/
theorem conformsTo_tagStructure {graph : EntityGraph} {typing typing' : Typing} {tag : String}
    {members : List (String × Json)}
    (h : ConformsTo graph typing (.ofFields [("tag", .union (.ofList ["p", "q"]))]) members)
    (htag : Json.lookup members "tag" = some (.str tag)) :
    ConformsTo graph typing' (tagStructure tag) members := by
  have hentries : (tagStructure tag).fields.entries =
      [("tag", .union (.ofList [tag])), ("y", .optional .string)] :=
    OrderedMap.entries_ofList_of_nodup (show ["tag", "y"].Nodup by decide)
  refine h.of_fields (fun name x hname _ => ?_) ?_
  · rw [List.mem_singleton.1 (OrderedMap.contains_iff.1 hname)]
    refine OrderedMap.contains_iff.2 ?_
    rw [OrderedMap.keys, hentries]
    exact List.mem_cons_self
  · rw [hentries]
    refine List.forall_mem_cons.2 ⟨?_, List.forall_mem_singleton.2 ?_⟩
    · rw [htag]
      exact .union (StringSet.mem_ofList.2 (List.mem_singleton_self tag))
    · rw [h.lookup_eq_none (by decide +kernel)]
      exact .absent

theorem looseTyping_sharedKinds {graph : EntityGraph} {typing : Typing}
    (hloose : LooseTyping sharedSchema graph typing) : LooseTyping sharedSchema graph fun id kind =>
      typing id kind ∨ sharedKinds graph typing id kind := by
  have hx : sharedSchema.kind? "X" = some (.ofFields [("tag", .union (.ofList ["p", "q"]))]) := by
    decide +kernel
  -- the tag of an entity of the shared kind is one of the two
  have htagged (id : EntityId) (hty : typing id "X") : ∃ members tag, tag ∈ ["p", "q"] ∧
      graph.get? id = some (.obj members) ∧ Json.lookup members "tag" = some (.str tag) ∧
        ConformsTo graph typing (.ofFields [("tag", .union (.ofList ["p", "q"]))]) members := by
    obtain ⟨s, members, hs, hmembers, hto⟩ := hloose id "X" hty
    cases hx.symm.trans hs
    obtain ⟨tag, htag, hmem⟩ := Conforms.union_iff.1 (hto.fields _ (List.mem_singleton_self _))
    exact ⟨members, tag, StringSet.mem_ofList.1 hmem, hmembers, htag, hto⟩
  refine hloose.or _ ?_
  rintro id kind (⟨hty, rfl⟩ | ⟨hty, members, hmembers, htag⟩)
  · have ha : sharedSchema.kind? "A" = some (.ofFields [("next", .ref ["X"])]) := by decide +kernel
    obtain ⟨s, members, hs, hmembers, hto⟩ := hloose id "A" hty
    cases ha.symm.trans hs
    refine ⟨.ofFields [("next", .ref ["p", "q"])], members, by decide +kernel, hmembers,
      hto.of_fields (fun name _ hname _ => ?_) (List.forall_mem_singleton.2 ?_)⟩
    · rw [List.mem_singleton.1 (OrderedMap.contains_iff.1 hname)]
      decide +kernel
    · obtain ⟨target, hin, hvalue, kind, hkind, htarget⟩ :=
        Conforms.ref_iff.1 (hto.fields _ (List.mem_singleton_self _))
      cases List.mem_singleton.1 hkind
      obtain ⟨members', tag, htag, hmembers', hlookup, -⟩ := htagged target htarget
      rw [hvalue]
      exact .ref hin htag (.inr (.inr ⟨htarget, members', hmembers', hlookup⟩))
  · obtain ⟨members', tag, hmem, hmembers', hlookup, hto⟩ := htagged id hty
    cases hmembers.symm.trans hmembers'
    cases htag.symm.trans hlookup
    have hkind : sharedSchema.kind? kind = some (tagStructure kind) := by
      rcases List.mem_pair.1 hmem with rfl | rfl <;> decide +kernel
    exact ⟨tagStructure kind, members, hkind, hmembers, conformsTo_tagStructure hto htag⟩

/-- What one kind alone does not take, two kinds take together. -/
theorem hides_sharedSchema : sharedSchema.Hides "A" "B" where
  closed := by decide +kernel
  ne := by decide
  occurs := Schema.occurs_of_plainFrom
    (Schema.plainFrom_of_closesPlainly ["A", "X"] (by decide +kernel) (by decide))
    (by decide +kernel) (by decide +kernel)
  included := by
    rintro graph - id ⟨typing, hloose, hty⟩
    exact ⟨_, looseTyping_sharedKinds hloose, .inr (.inl ⟨hty, rfl⟩)⟩
  missed := by decide +kernel
  coherent := by decide +kernel

/-- Circular pairs, shared entities, optional values inside optional ones and shapes without values:
each hides an inclusion from the analysis. -/
theorem hidden_inclusions : ringSchema.Hides "A" "B" ∧ sharedSchema.Hides "A" "B" ∧
    nestedSchema.Hides "A" "B" ∧ voidSchema.Hides "A" "B" :=
  ⟨hides_ringSchema, hides_sharedSchema, hides_nestedSchema, hides_voidSchema⟩

end TypedGraph
