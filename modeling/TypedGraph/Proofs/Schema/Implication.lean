import TypedGraph.Proofs.Schema.Passes
import TypedGraph.Proofs.Validation.Completeness

/-!
# Implications Are Sound

Implications are found from below, starting with nothing but the identity, while entities that point
at each other in a cycle conform from above, by any loose typing that holds together. The two meet
in a single step: a loose typing that gives some kinds still holds together when it also gives all
kinds that these imply, as each implied kind is justified by the kinds that it is implied by.

## Main results

* `Conforms.of_implies`: what conforms to a descriptor conforms to those that it implies;
* `ConformsTo.of_implies`: the same for objects and structures;
* `LooseTyping.implied`: a loose typing can be closed under a relation that the structures allow
  given the relation itself;
* `canBe_of_implies`: an entity that can be a kind can be every kind that this one implies.
-/

namespace TypedGraph

section

variable {graph : EntityGraph} {typing : Typing} {known : String → String → Bool}

/-- The kinds of a typing together with all kinds that they imply. -/
def Typing.implied (known : String → String → Bool) (typing : Typing) : Typing :=
  fun id kind => typing id kind ∨ ∃ source, typing id source ∧ known source kind

/-- A value, or its absence, that conforms to a descriptor conforms to every descriptor that this
one implies, once entities also have the kinds that theirs imply. -/
theorem Conforms.of_implies {d e : Descriptor} {value : Option Json} (h : d.implies known e)
    (hconforms : Conforms graph typing d value) :
    Conforms graph (typing.implied known) e value := by
  fun_induction Descriptor.implies known d e generalizing value with
  | case1 a b ih =>
    rw [Conforms.optional_iff] at hconforms ⊢
    exact fun x hx => ih h (hconforms x hx)
  | case2 a e hne => cases h
  | case3 a b hne ih =>
    -- the value is there, as it conforms to a descriptor that is not optional
    refine Conforms.optional_iff.2 fun x hx => ?_
    subst hx
    exact ih h hconforms
  | case4 p q =>
    obtain ⟨x, rfl, hx⟩ := Conforms.primitive_iff.1 hconforms
    rw [beq_iff_eq] at h
    subst h
    exact .primitive hx
  | case5 literals =>
    obtain ⟨s, rfl, -⟩ := Conforms.union_iff.1 hconforms
    exact .primitive rfl
  | case6 literals literals' =>
    obtain ⟨s, rfl, hs⟩ := Conforms.union_iff.1 hconforms
    exact .union (StringSet.subset_iff.1 h s hs)
  | case7 a b ih =>
    obtain ⟨items, rfl, hitems⟩ := Conforms.arrayOf_iff.1 hconforms
    exact .arrayOf fun item hitem => ih h (hitems item hitem)
  | case8 ks js =>
    obtain ⟨id, hid, rfl, k, hk, hty⟩ := Conforms.ref_iff.1 hconforms
    obtain ⟨j, hj, hkj⟩ := List.any_eq_true.1 (List.all_eq_true.1 h k hk)
    exact .ref hid hj (.inr ⟨k, hty, hkj⟩)
  | case9 => cases h

/-- A value that is there and conforms to an optional descriptor conforms to the one under it. -/
theorem Conforms.unwrapOptional {d : Descriptor} {x : Json}
    (h : Conforms graph typing d (some x)) : Conforms graph typing d.unwrapOptional (some x) := by
  cases h with
  | present h => exact h
  | primitive hp => exact .primitive hp
  | union hs => exact .union hs
  | arrayOf hitems => exact .arrayOf hitems
  | ref hid hkind hty => exact .ref hid hkind hty

theorem Conforms.of_isOptional {d : Descriptor} {value : Option Json} (hd : d.isOptional)
    (h : ∀ x, value = some x → Conforms graph typing d.unwrapOptional (some x)) :
    Conforms graph typing d value := by
  cases d with
  | optional d => exact Conforms.optional_iff.2 h
  | _ => cases hd

theorem Descriptor.unwrapOptional_of_required {d : Descriptor} (h : ¬ d.isOptional) :
    d.unwrapOptional = d := by
  cases d with
  | optional d => exact absurd rfl h
  | _ => rfl

/-- An object in line with a structure is in line with every structure that this one implies. -/
theorem ConformsTo.of_implies {s t : Structure} {members : List (String × Json)}
    (h : s.implies known t) (hto : ConformsTo graph typing s members) :
    ConformsTo graph (typing.implied known) t members := by
  obtain ⟨hkeys, hfields⟩ := Structure.implies_iff.1 h
  constructor
  · intro m hm
    obtain ⟨d, hd⟩ := Option.isSome_iff_exists.1 (hto.declared m hm)
    exact hkeys m.1 d hd
  · rintro ⟨name, e⟩ hf
    obtain ⟨hnone, hsome⟩ :=
      Structure.impliesField_iff.1 (hfields name e (OrderedMap.get?_eq_some_iff.2 hf))
    cases hget : s.get? name with
    | none =>
      -- a field that the first structure does not declare is not there
      refine Conforms.of_isOptional (hnone hget) fun x hx => ?_
      obtain ⟨before, after, rfl, -⟩ := List.lookup_eq_some_iff.1 hx
      have hdeclared := hto.declared (name, x) (by simp)
      rw [Structure.contains, OrderedMap.contains, ← Structure.get?, hget] at hdeclared
      cases hdeclared
    | some d =>
      have hvalue := hto.fields (name, d) (OrderedMap.get?_eq_some_iff.1 hget)
      obtain ⟨hoptional, himplies⟩ := hsome d hget
      by_cases he : e.isOptional
      · refine Conforms.of_isOptional he fun x hx => ?_
        rw [hx] at hvalue
        exact hvalue.unwrapOptional.of_implies himplies
      · -- both fields are required, and there is nothing to unwrap
        rw [Descriptor.unwrapOptional_of_required he,
          Descriptor.unwrapOptional_of_required fun hd => he (hoptional hd)] at himplies
        exact hvalue.of_implies himplies

/-- A loose typing still holds together with more kinds, if entities conform to these by all kinds
together. -/
theorem LooseTyping.or {schema : Schema} (hloose : LooseTyping schema graph typing) (extra : Typing)
    (hextra : ∀ id kind, extra id kind →
      EntityConforms schema graph (fun j k => typing j k ∨ extra j k) id kind) :
    LooseTyping schema graph fun j k => typing j k ∨ extra j k := by
  rintro id kind (hty | hty)
  · exact (hloose id kind hty).mono fun _ _ => .inl
  · exact hextra id kind hty

/-- A loose typing still holds together when entities also get all kinds that theirs are related to,
if the structures allow these pairs given the relation itself. -/
theorem LooseTyping.implied {schema : Schema}
    (hknown : ∀ a b, known a b → a = b ∨ schema.impliesStructure known a b)
    (hloose : LooseTyping schema graph typing) :
    LooseTyping schema graph (typing.implied known) := by
  refine hloose.or _ ?_
  rintro id kind ⟨source, hty, hsource⟩
  rcases hknown source kind hsource with rfl | hstructure
  · exact (hloose id source hty).mono fun _ _ => .inl
  · -- the object is in line with the source's structure, and so with the one that this implies
    obtain ⟨s, t, hs, ht, himplies⟩ := Schema.impliesStructure_iff.1 hstructure
    obtain ⟨s', members, hs', hmembers, hto⟩ := hloose id source hty
    cases hs.symm.trans hs'
    exact ⟨t, members, ht, hmembers, hto.of_implies himplies⟩

/-- A loose typing still holds together when entities also get all kinds that theirs imply. -/
theorem looseTyping_implied {schema : Schema} {m : ImplicationMatrix} (hm : m.Justified schema)
    (hloose : LooseTyping schema graph typing) :
    LooseTyping schema graph (typing.implied m.holds) :=
  hloose.implied fun a b h => (hm a b h).imp_left And.left

end

/-- An entity that can be a kind can be every kind that this one implies, whatever the graph. -/
theorem canBe_of_implies {schema : Schema} {source target : String}
    (h : schema.analyze.implies source target) {graph : EntityGraph} {id : EntityId}
    (hcan : CanBe schema graph id source) : CanBe schema graph id target := by
  obtain ⟨typing, hloose, hty⟩ := hcan
  refine ⟨typing.implied schema.analyze.matrix.holds, ?_, .inr ⟨source, hty, h⟩⟩
  exact looseTyping_implied schema.justified_analyze hloose

/-- A schema in which narrow links imply wide ones, and boxes of the first imply crates of the
second; one reference also names a kind that is not declared. -/
def linkSchema : Schema := .ofKinds [
  ("Box", .ofFields [("links", .arrayOf (.ref ["Narrow"]))]),
  ("Crate", .ofFields [("links", .arrayOf (.ref ["Wide"])), ("size", .optional .number)]),
  ("Narrow", .ofFields [("next", .ref ["Narrow"]), ("tag", .union (.ofList ["p", "q"]))]),
  ("Wide", .ofFields [("next", .optional (.ref ["Missing", "Narrow", "Wide"])), ("tag", .string)])]

/-- A box of two links that point at each other. -/
def linkGraph : EntityGraph := .ofMembers [
  ("a", .obj [("next", RefToken.toJson ⟨⟨"b"⟩⟩), ("tag", .str "p")]),
  ("b", .obj [("next", RefToken.toJson ⟨⟨"a"⟩⟩), ("tag", .str "q")]),
  ("box", .obj [("links", .arr [RefToken.toJson ⟨⟨"a"⟩⟩, RefToken.toJson ⟨⟨"b"⟩⟩])])]

/-- Boxes imply crates only because narrow links imply wide ones, and so the box can be a crate. -/
theorem canBe_crate :
    linkSchema.analyze.implies "Box" "Crate" ∧ CanBe linkSchema linkGraph ⟨"box"⟩ "Box" ∧
      CanBe linkSchema linkGraph ⟨"box"⟩ "Crate" := by
  have himplies : linkSchema.analyze.implies "Box" "Crate" := by decide +kernel
  have hcheck : ((Validator.of linkSchema linkGraph).check ⟨"box"⟩ "Box" ∅).1 = true := by
    decide +kernel
  have hcan : CanBe linkSchema linkGraph ⟨"box"⟩ "Box" :=
    Validator.canBe_of_check (v := .of linkSchema linkGraph) (Validator.possible_empty _)
      (Prod.ext hcheck rfl)
  exact ⟨himplies, hcan, canBe_of_implies himplies hcan⟩

end TypedGraph
