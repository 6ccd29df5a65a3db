import Mathlib.Tactic.ByContra
import TypedGraph.Proofs.Schema.LeastFixpoint
import TypedGraph.Proofs.Schema.Samples

/-!
# Telling Kinds Apart

If all kinds that a kind reaches have plain shapes, whatever it does not imply can be told apart
from it: by a value for descriptors, by an object for structures, by an entity for kinds. What
references take cannot be judged from a value alone, so that entities are assumed there which tell
the kinds apart that references name.

## Main definitions

* `LooseGraph.Separates`: a value conforms to one descriptor, and in no larger graph to another one;
* `LooseGraph.SeparatesKinds`: an entity has a kind and can be none of some others;
* `Schema.SeparatesRefs`: the assumption on references.

## Main results

* `LooseGraph.exists_separates`: a value that tells two descriptors apart;
* `Schema.exists_members_apart`: an object that tells two structures apart;
* `Schema.exists_apart`: an entity that tells two kinds apart.
-/

namespace TypedGraph

/-! ## Values That Tell Descriptors Apart -/

section

variable {graph : EntityGraph} {typing : Typing}

/-- A value has the shape that a descriptor asks for, as far as the value shows by itself. -/
def Descriptor.fits : Descriptor → Json → Bool
  | primitive p, x => p.accepts x
  | union literals, .str s => literals.contains s
  | optional d, x => d.fits x
  | arrayOf _, .arr _ => true
  | ref _, .obj _ => true
  | _, _ => false

theorem Conforms.fits {d : Descriptor} {value : Option Json} (h : Conforms graph typing d value)
    {x : Json} (hvalue : value = some x) : d.fits x := by
  induction h with
  | absent => cases hvalue
  | present _ ih => exact ih hvalue
  | primitive hp =>
    cases hvalue
    exact hp
  | union hs =>
    cases hvalue
    exact StringSet.contains_iff.2 hs
  | arrayOf =>
    cases hvalue
    rfl
  | ref =>
    cases hvalue
    rfl

/-- A sample of a solid shape fits a shape that is not optional only if the two are compared, or if
a string happens to be a literal. -/
theorem Descriptor.of_fits_sample {point : String → EntityId} {d e : Descriptor} (hd : d.solid)
    (he : ∀ inner, e ≠ .optional inner) (h : e.fits (d.sample point)) :
    (d = .string ∧ ∃ literals, e = .union literals) ∨
      (∃ p q, d = .primitive p ∧ e = .primitive q) ∨
      (∃ literals, d = .union literals ∧ (e = .string ∨ ∃ t, e = .union t)) ∨
      (∃ a b, d = .arrayOf a ∧ e = .arrayOf b) ∨ ∃ ks js, d = .ref ks ∧ e = .ref js := by
  cases d with
  | optional d => cases hd
  | primitive p =>
    cases e with
    | optional e => exact absurd rfl (he e)
    | _ => cases p <;> simp_all [fits, sample]
  | union literals =>
    cases e with
    | optional e => exact absurd rfl (he e)
    | primitive q => cases q <;> simp_all [fits, sample, Primitive.accepts]
    | _ => simp_all [fits, sample]
  | _ =>
    cases e with
    | optional e => exact absurd rfl (he e)
    | primitive q => cases q <;> simp_all [fits, sample, Primitive.accepts, RefToken.toJson]
    | _ => simp_all [fits, sample, RefToken.toJson]

theorem Conforms.isOptional_of_none {d : Descriptor} (h : Conforms graph typing d none) :
    d.isOptional := by
  cases h
  rfl

theorem StringSet.exists_not_mem (literals : StringSet) : ∃ s, ¬ s ∈ literals := by
  obtain ⟨long, hlong⟩ := exists_longer literals.toList
  exact ⟨long, fun hmem => Nat.lt_irrefl _ (hlong long hmem)⟩

end

namespace LooseGraph

variable {schema : Schema} {root : String} {known : String → String → Bool}

/-- A value conforms to the first descriptor, but in no larger graph to the second. -/
def Separates (g : LooseGraph schema) (d e : Descriptor) (x : Json) : Prop :=
  Conforms g.graph g.typing d (some x) ∧
    ∀ g' : LooseGraph schema, g.graph.Within g'.graph → ¬ Conforms g'.graph g'.typing e (some x)

/-- An entity has a kind, and can be none of some others. -/
def SeparatesKinds (g : LooseGraph schema) (kind : String) (others : List String) (id : EntityId) :
    Prop := g.typing id kind ∧ ∀ other ∈ others, ¬ CanBe schema g.graph id other

theorem separates_of_not_fits {g : LooseGraph schema} {d e : Descriptor} {x : Json}
    (hconforms : Conforms g.graph g.typing d (some x)) (hfits : ¬ e.fits x) :
    g.Separates d e x := ⟨hconforms, fun _ _ h => hfits (h.fits rfl)⟩

/-- Tokens for an entity tell references apart, if the entity can be of no kind that the second one
names. -/
theorem separates_ref {g : LooseGraph schema} {kinds others : List String} {kind : String}
    {id : EntityId} (hkind : kind ∈ kinds) (hid : g.SeparatesKinds kind others id) :
    g.Separates (.ref kinds) (.ref others) (RefToken.toJson ⟨id⟩) := by
  refine ⟨.ref (contains_of_typing hid.1) hkind hid.1, fun g' hwithin h => ?_⟩
  obtain ⟨⟨text⟩, -, htoken, other, hother, hty⟩ := Conforms.ref_iff.1 h
  cases htoken
  exact hid.2 other hother (canBe_of_within hwithin hid.1 (canBe hty))

theorem separates_singleton {g : LooseGraph schema} {d e : Descriptor} {x : Json}
    (h : g.Separates d e x) : g.Separates (.arrayOf d) (.arrayOf e) (.arr [x]) := by
  refine ⟨.arrayOf fun item hitem => List.mem_singleton.1 hitem ▸ h.1, fun g' hwithin harray => ?_⟩
  obtain ⟨items, hitems, hall⟩ := Conforms.arrayOf_iff.1 harray
  cases hitems
  exact h.2 g' hwithin (hall x List.mem_cons_self)

/-- A value that is there tells apart from an optional descriptor what it tells apart from the inner
one. -/
theorem separates_optional {g : LooseGraph schema} {d e : Descriptor} {x : Json}
    (h : g.Separates d e x) : g.Separates d (.optional e) x :=
  ⟨h.1, fun g' hwithin hoptional => h.2 g' hwithin (Conforms.optional_iff.1 hoptional x rfl)⟩

/-- Where a solid descriptor does not imply another one, a value tells them apart, if entities do so
for the kinds that references name. The induction follows the comparison of the two descriptors. -/
theorem exists_separates (hpopulated : ∃ g : LooseGraph schema, g.Populated root)
    {d e : Descriptor} (hd : d.solid) (hreached : ∀ k ∈ d.referencedKinds, schema.Reaches root k)
    (hrefs : ∀ k ∈ d.referencedKinds, (∀ j ∈ e.referencedKinds, ¬ known k j) →
      ∃ g : LooseGraph schema, g.Populated root ∧ ∃ id, g.SeparatesKinds k e.referencedKinds id)
    (hnot : ¬ d.implies known e) :
    ∃ g : LooseGraph schema, g.Populated root ∧ ∃ x, x.Canonical ∧ g.Separates d e x := by
  fun_induction Descriptor.implies known d e with
  | case1 a b ih => cases hd
  | case2 a e hne => cases hd
  | case3 a b hne ih =>
    obtain ⟨g, hg, x, hx, hseparates⟩ := ih hd hreached hrefs hnot
    exact ⟨g, hg, x, hx, separates_optional hseparates⟩
  | case4 p q =>
    obtain ⟨g, hg⟩ := hpopulated
    have hsample : Conforms g.graph g.typing (.primitive p)
        (some ((Descriptor.primitive p).sample fun kind => ⟨kind⟩)) :=
      Descriptor.conforms_sample rfl fun k hk => absurd hk List.not_mem_nil
    refine ⟨g, hg, _, Descriptor.canonical_sample _ rfl,
      separates_of_not_fits hsample fun hfits => ?_⟩
    cases p <;> cases q <;> first | exact hnot rfl | cases hfits
  | case5 s => exact absurd rfl hnot
  | case6 s t =>
    rw [StringSet.subset_iff] at hnot
    push Not at hnot
    obtain ⟨literal, hs, ht⟩ := hnot
    obtain ⟨g, hg⟩ := hpopulated
    exact ⟨g, hg, .str literal, trivial, separates_of_not_fits (.union hs) fun hfits =>
      ht (StringSet.contains_iff.1 hfits)⟩
  | case7 a b ih =>
    obtain ⟨g, hg, x, hx, hseparates⟩ := ih hd hreached hrefs hnot
    exact ⟨g, hg, .arr [x], ⟨hx, trivial⟩, separates_singleton hseparates⟩
  | case8 ks js =>
    simp only [List.all_eq_true, List.any_eq_true] at hnot
    push Not at hnot
    obtain ⟨k, hk, hjs⟩ := hnot
    obtain ⟨g, hg, id, hid⟩ := hrefs k hk hjs
    refine ⟨g, hg, RefToken.toJson ⟨id⟩, ?_, separates_ref hk hid⟩
    exact Descriptor.canonical_sample (fun _ => id) (d := .ref [k]) rfl
  | case9 e d hoptional _ hrequired hprimitive hliteral hunion harray href =>
    -- the shapes differ, so that a sample will do, but for strings and the literals of a union
    obtain ⟨g, hg⟩ := hpopulated
    obtain ⟨point, hpoint⟩ := hg
    have hsample : Conforms g.graph g.typing d (some (d.sample point)) :=
      Descriptor.conforms_sample hd fun k hk =>
        ⟨contains_of_typing (hpoint k (hreached k hk)), hpoint k (hreached k hk)⟩
    by_cases hfits : e.fits (d.sample point)
    · rcases Descriptor.of_fits_sample hd hrequired hfits with ⟨rfl, literals, rfl⟩ |
        ⟨p, q, rfl, rfl⟩ | ⟨s, rfl, rfl | ⟨t, rfl⟩⟩ | ⟨a, b, rfl, rfl⟩ | ⟨ks, js, rfl, rfl⟩
      · obtain ⟨s, hs⟩ := literals.exists_not_mem
        exact ⟨g, ⟨point, hpoint⟩, .str s, trivial, separates_of_not_fits (.primitive rfl)
          fun hfits => hs (StringSet.contains_iff.1 hfits)⟩
      · exact (hprimitive p q rfl rfl).elim
      · exact (hliteral s rfl rfl).elim
      · exact (hunion s t rfl rfl).elim
      · exact (harray a b rfl rfl).elim
      · exact (href ks js rfl rfl).elim
    · exact ⟨g, ⟨point, hpoint⟩, d.sample point, d.canonical_sample point hd,
        separates_of_not_fits hsample hfits⟩

/-! ## Entities That Tell Kinds Apart -/

/-- An object of a populated graph, with samples for all fields but one. -/
theorem Populated.exists_members (hplain : schema.PlainFrom root) {g : LooseGraph schema}
    (hg : g.Populated root) {s : Structure} (hs : schema.kind? root = some s) (name : String)
    (value : Option Json)
    (hvalue : ∀ d, s.get? name = some d → Conforms g.graph g.typing d value)
    (hcanonical : ∀ x, value = some x → x.Canonical) :
    ∃ members, (Json.obj members).Canonical ∧ ConformsTo g.graph g.typing s members ∧
      Json.lookup members name = (s.get? name).bind fun _ => value := by
  obtain ⟨sample, hsample⟩ := hg.exists_sample hplain
  have hfield {n : String} {d : Descriptor} (hd : s.get? n = some d) :=
    hsample root n d .refl ((schema.field?_eq hs).trans hd)
  refine ⟨s.objectMembers fun n d => if n = name then value else some (sample d), ?_, ?_, ?_⟩
  · refine Structure.canonical_objectMembers fun n d x hd hx => ?_
    split at hx
    · exact hcanonical x hx
    · cases hx
      exact (hfield hd).1
  · refine Structure.conformsTo_objectMembers fun n d hd => ?_
    split
    · next heq => exact hvalue d (heq ▸ hd)
    · exact (hfield hd).2
  · simp [Structure.lookup_objectMembers]

end LooseGraph

/-- A field does not fit the first structure only if it is missed there and required, or optional
there and required, or declared with a descriptor that does not imply its own. -/
theorem Structure.of_not_impliesField {known : String → String → Bool} {s : Structure}
    {name : String} {e : Descriptor} (h : ¬ s.impliesField known name e) :
    ¬ e.isOptional ∧ (∀ d, s.get? name = some d → d.isOptional) ∨
      ∃ d, s.get? name = some d ∧ ¬ d.unwrapOptional.implies known e.unwrapOptional := by
  rw [impliesField_iff] at h
  by_cases hfits : ∀ d, s.get? name = some d → d.unwrapOptional.implies known e.unwrapOptional
  · refine .inl ⟨fun he => h ⟨fun _ => he, fun d hd => ⟨fun _ => he, hfits d hd⟩⟩, fun d hd => ?_⟩
    by_contra hrequired
    refine h ⟨fun hnone => ?_, fun d' hd' => ⟨fun hoptional => ?_, hfits d' hd'⟩⟩
    · cases hnone.symm.trans hd
    · cases hd.symm.trans hd'
      exact absurd hoptional hrequired
  · simp only [not_forall] at hfits
    obtain ⟨d, hd, hmisfit⟩ := hfits
    exact .inr ⟨d, hd, hmisfit⟩

namespace Schema

variable {schema : Schema} {known : String → String → Bool}

/-- The kinds that references of two kinds' fields of one name take are told apart by entities,
unless one of the second field's kinds is known to be implied. -/
def SeparatesRefs (schema : Schema) (known : String → String → Bool) (a b : String) : Prop :=
  ∀ name d e, schema.field? a name = some d → schema.field? b name = some e →
    ∀ k ∈ d.referencedKinds, (∀ j ∈ e.referencedKinds, ¬ known k j) →
      ∃ g : LooseGraph schema, g.Populated a ∧ ∃ id, g.SeparatesKinds k e.referencedKinds id

/-- Where the structure of a kind does not imply that of another one, an object tells them apart. -/
theorem exists_members_apart {a b : String} (hplain : schema.PlainFrom a)
    (hpopulated : ∃ g : LooseGraph schema, g.Populated a) (hrefs : schema.SeparatesRefs known a b)
    {s t : Structure} (hs : schema.kind? a = some s) (ht : schema.kind? b = some t)
    (hnot : ¬ s.implies known t) :
    ∃ g : LooseGraph schema, ∃ members, (Json.obj members).Canonical ∧
      ConformsTo g.graph g.typing s members ∧ ∀ g' : LooseGraph schema,
        g.graph.Within g'.graph → ¬ ConformsTo g'.graph g'.typing t members := by
  obtain ⟨g, hg⟩ := hpopulated
  -- the structures differ in one field, and all other fields can be filled with samples
  rw [Structure.implies_iff, not_and_or] at hnot
  push Not at hnot
  rcases hnot with ⟨name, d, hd, hmissing⟩ | ⟨name, e, he, hfield⟩
  · -- a field that only the first structure declares is there
    obtain ⟨sample, hsample⟩ := hg.exists_sample hplain
    obtain ⟨hcanonical, hconforms⟩ := hsample a name d .refl ((field?_eq hs).trans hd)
    obtain ⟨members, hmembers, hto, hlookup⟩ := hg.exists_members hplain hs name (some (sample d))
      (fun d' hd' => by
        cases hd.symm.trans hd'
        exact hconforms)
      (fun x hx => by
        cases hx
        exact hcanonical)
    rw [hd] at hlookup
    exact ⟨g, members, hmembers, hto, fun g' _ h => hmissing (h.contains_of_lookup hlookup)⟩
  rcases Structure.of_not_impliesField hfield with ⟨hrequired, hoptional⟩ | ⟨d, hd, himplies⟩
  · -- a field that only the second structure requires is not there
    obtain ⟨members, hmembers, hto, hlookup⟩ := hg.exists_members hplain hs name none
      (fun d hd => .of_isOptional (hoptional d hd) fun x hx => nomatch hx)
      (fun x hx => nomatch hx)
    refine ⟨g, members, hmembers, hto, fun g' _ h => hrequired ?_⟩
    have hvalue := h.fields (name, e) (OrderedMap.get?_eq_some_iff.1 he)
    rw [hlookup, Option.bind_fun_none] at hvalue
    exact hvalue.isOptional_of_none
  · -- a field of both structures has a value that conforms to the first descriptor only
    have hfieldA := (field?_eq hs).trans hd
    obtain ⟨g', hg', x, hx, hconforms, hseparates⟩ := LooseGraph.exists_separates ⟨g, hg⟩
      (hplain.solid .refl hfieldA)
      (fun k hk => Reaches.referenced .refl hfieldA (d.referencedKinds_unwrapOptional ▸ hk))
      (by
        rw [Descriptor.referencedKinds_unwrapOptional, Descriptor.referencedKinds_unwrapOptional]
        exact hrefs name d e hfieldA ((field?_eq ht).trans he))
      himplies
    obtain ⟨members, hmembers, hto, hlookup⟩ := hg'.exists_members hplain hs name (some x)
      (fun d' hd' => by
        cases hd.symm.trans hd'
        exact .of_unwrapOptional hconforms)
      (fun y hy => by
        cases hy
        exact hx)
    refine ⟨g', members, hmembers, hto, fun g'' hwithin h => hseparates g'' hwithin ?_⟩
    have hvalue := h.fields (name, e) (OrderedMap.get?_eq_some_iff.1 he)
    rw [hlookup, hd, Option.bind_some] at hvalue
    exact hvalue.unwrapOptional

/-- Where the structures of two kinds do not allow an implication, an entity tells the kinds
apart. -/
theorem exists_apart {a b : String} (hplain : schema.PlainFrom a)
    (hdangling : schema.danglingRefs = []) (ha : a ∈ schema.kindNames)
    (hrefs : schema.SeparatesRefs known a b) (hnot : ¬ schema.impliesStructure known a b) :
    ∃ g : LooseGraph schema, ∃ id, g.SeparatesKinds a [b] id := by
  obtain ⟨g, -, hg⟩ := (default : LooseGraph schema).exists_populated hplain hdangling ha
  obtain ⟨s, hs⟩ := OrderedMap.mem_keys_iff.1 ha
  cases ht : schema.kind? b with
  | none =>
    -- no entity can be a kind that is not declared
    obtain ⟨point, hpoint⟩ := hg
    refine ⟨g, point a, hpoint a .refl, List.forall_mem_singleton.2 fun hcan => ?_⟩
    exact OrderedMap.get?_eq_none_iff.1 ht hcan.mem_kindNames
  | some t =>
    have himplies : ¬ s.implies known t := fun h => hnot (impliesStructure_iff.2 ⟨s, t, hs, ht, h⟩)
    obtain ⟨g, members, hcanonical, hto, hapart⟩ :=
      exists_members_apart hplain ⟨g, hg⟩ hrefs hs ht himplies
    obtain ⟨g', hle, id, hid, hty⟩ := g.exists_insert hs hcanonical hto
    refine ⟨g', id, hty, List.forall_mem_singleton.2 ?_⟩
    -- any typing by which the object is the second kind makes a graph in which it is in line with
    -- it
    rintro ⟨typing, hloose, htyb⟩
    obtain ⟨t', members', ht', hmembers', hto'⟩ := hloose id b htyb
    cases ht.symm.trans ht'
    cases hid.symm.trans hmembers'
    exact hapart ⟨g'.graph, g'.canonical, typing, hloose⟩ hle.1 hto'

end Schema

end TypedGraph
