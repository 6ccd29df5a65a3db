import TypedGraph.Proofs.Schema.LeastFixpoint

/-!
# Implications Are a Preorder

No pass closes the matrix under transitivity. It comes out transitive all the same: comparing
descriptors composes, so that two comparisons in a row, each with its own knowledge of the kinds,
make one comparison with the composed knowledge. Hence an implication can be followed by any other
one as soon as it is found, by induction on the pairs in the order in which they are related.

A kind implies itself as the passes start from the identity, also when its structure refers to kinds
that are not declared. Descriptors need not imply themselves then, and only transitivity is stated
for them.

## Main definitions

* `Composes`: two relations in a row are within a third one.

## Main results

* `Descriptor.implies_trans`, `Structure.implies_trans` and `Schema.impliesStructure_trans`:
  comparisons compose;
* `Schema.implies_trans`: the implications that are found are transitive;
* `Schema.preorder_analyze`: they are a preorder on the declared kinds, and transitive on
  descriptors.
-/

namespace TypedGraph

/-! ## Comparisons Compose

The knowledge of the kinds enters a comparison through references only. It is kept apart for the
first and the second comparison, as the induction over the passes follows a pair that has just been
related by one that is related in the end. -/

/-- Two relations in a row are within a third one. -/
def Composes (first second both : String → String → Bool) : Prop :=
  ∀ a b c, first a b → second b c → both a c

section

variable {first second both : String → String → Bool}

/-- Being optional is nothing to be implied: what counts is the value if it is there. -/
theorem Descriptor.implies_optional (known : String → String → Bool) (d e : Descriptor) :
    d.implies known (.optional e) = d.unwrapOptional.implies known e := by
  cases d <;> simp [Descriptor.implies, Descriptor.unwrapOptional]

/-- What implies a descriptor of values that have to be there is such a descriptor itself. -/
theorem Descriptor.unwrapOptional_of_implies {known : String → String → Bool} {d e : Descriptor}
    (h : d.implies known e) (he : ∀ inner, e ≠ .optional inner) : d.unwrapOptional = d := by
  cases d with
  | optional d =>
    rw [Descriptor.implies] at h
    · cases h
    · exact fun inner heq => he inner heq
  | _ => rfl

/-- Comparisons of descriptors compose. The induction follows the second comparison, and the shape
of the middle descriptor tells that of the first one. -/
theorem Descriptor.implies_trans (hcomp : Composes first second both) {d e f : Descriptor}
    (hde : d.implies first e) (hef : e.implies second f) : d.implies both f := by
  fun_induction Descriptor.implies second e f generalizing d with
  | case1 e f ih =>
    rw [Descriptor.implies_optional] at hde ⊢
    exact ih hde hef
  | case2 e f hne => cases hef
  | case3 e f hne ih =>
    -- the first value has to be there as well, and there is nothing to unwrap
    rw [Descriptor.implies_optional, Descriptor.unwrapOptional_of_implies hde hne]
    exact ih hde hef
  | case4 p q =>
    rw [beq_iff_eq] at hef
    subst hef
    cases d with
    | primitive p' => exact hde
    | union literals =>
      cases p with
      | string => rfl
      | _ => simp [Descriptor.implies] at hde
    | _ => simp [Descriptor.implies] at hde
  | case5 literals =>
    cases d with
    | union literals' => rfl
    | _ => simp [Descriptor.implies] at hde
  | case6 literals literals' =>
    cases d with
    | union literals₀ =>
      have hsub : ∀ s ∈ literals₀, s ∈ literals := StringSet.subset_iff.1 hde
      have hsub' : ∀ s ∈ literals, s ∈ literals' := StringSet.subset_iff.1 hef
      exact StringSet.subset_iff.2 fun s hs => hsub' s (hsub s hs)
    | _ => simp [Descriptor.implies] at hde
  | case7 e f ih =>
    cases d with
    | arrayOf d => exact ih hde hef
    | _ => simp [Descriptor.implies] at hde
  | case8 ks js =>
    cases d with
    | ref is =>
      simp only [Descriptor.implies, List.all_eq_true, List.any_eq_true] at hde hef ⊢
      intro i hi
      obtain ⟨k, hk, hik⟩ := hde i hi
      obtain ⟨j, hj, hkj⟩ := hef k hk
      exact ⟨j, hj, hcomp i k j hik hkj⟩
    | _ => simp [Descriptor.implies] at hde
  | case9 => cases hef

/-- Comparisons of structures compose: every field of the third one is looked up in the second one,
and then in the first one. -/
theorem Structure.implies_trans (hcomp : Composes first second both) {s t u : Structure}
    (hst : s.implies first t) (htu : t.implies second u) : s.implies both u := by
  rw [Structure.implies_iff] at hst htu ⊢
  constructor
  · intro name d hd
    obtain ⟨e, he⟩ := Option.isSome_iff_exists.1 (hst.1 name d hd)
    exact htu.1 name e he
  · intro name f hf
    have htuf := Structure.impliesField_iff.1 (htu.2 name f hf)
    refine Structure.impliesField_iff.2 ⟨fun hs => ?_, fun d hd => ?_⟩
    · -- the first structure lacks the field, so it may be absent under the second one, if it is
      -- there
      cases ht : t.get? name with
      | none => exact htuf.1 ht
      | some e => exact (htuf.2 e ht).1 ((Structure.impliesField_iff.1 (hst.2 name e ht)).1 hs)
    · obtain ⟨e, he⟩ := Option.isSome_iff_exists.1 (hst.1 name d hd)
      have hste := (Structure.impliesField_iff.1 (hst.2 name e he)).2 d hd
      have htue := htuf.2 e he
      exact ⟨fun hd => htue.1 (hste.1 hd), Descriptor.implies_trans hcomp hste.2 htue.2⟩

theorem Schema.impliesStructure_trans {schema : Schema} (hcomp : Composes first second both)
    {a b c : String} (hab : schema.impliesStructure first a b)
    (hbc : schema.impliesStructure second b c) : schema.impliesStructure both a c := by
  obtain ⟨s, t, hs, ht, hst⟩ := Schema.impliesStructure_iff.1 hab
  obtain ⟨t', u, ht', hu, htu⟩ := Schema.impliesStructure_iff.1 hbc
  cases ht.symm.trans ht'
  exact Schema.impliesStructure_iff.2 ⟨s, u, hs, hu, Structure.implies_trans hcomp hst htu⟩

end

/-! ## The Implications of a Schema -/

namespace Schema

variable {schema : Schema}

/-- Every pair of the matrix is implied in the end, and can be followed by every implication. -/
def Follows (schema : Schema) (m : ImplicationMatrix) : Prop :=
  ∀ a b, m.holds a b →
    schema.analyze.implies a b ∧
      ∀ c, schema.analyze.implies b c → schema.analyze.implies a c

theorem follows_identity (schema : Schema) : schema.Follows (.identity schema) := by
  intro a b h
  obtain ⟨rfl, ha⟩ := ImplicationMatrix.holds_identity.1 h
  exact ⟨schema.closed_analyze.refl a ha, fun c hac => hac⟩

/-- A pair that the structures allow can be followed by every implication, if this is so for the
pairs related before. -/
theorem Follows.relate {m : ImplicationMatrix} (hm : schema.Follows m) {a b : String} (hne : a ≠ b)
    (h : schema.impliesStructure m.holds a b) : schema.Follows (m.relate a b) := by
  have hclosed := schema.closed_analyze
  have hab : schema.analyze.implies a b :=
    hclosed.step a b hne (impliesStructure_mono (fun x y hxy => (hm x y hxy).1) h)
  intro x y hxy
  rcases ImplicationMatrix.holds_relate.1 hxy with ⟨rfl, rfl⟩ | hold
  · refine ⟨hab, fun c hbc => ?_⟩
    by_cases hxc : x = c
    · subst hxc
      exact hclosed.refl x (mem_kindNames_of_impliesStructure h).1
    by_cases hyc : y = c
    · subst hyc
      exact hab
    -- both pairs are of different kinds, so that the structures allow them, and hence their
    -- composition
    have hstructure : schema.impliesStructure schema.analyze.implies y c :=
      impliesStructure_of_implies hyc hbc
    have hcomp : Composes m.holds schema.analyze.implies schema.analyze.implies :=
      fun i j k hij hjk => (hm i j hij).2 k hjk
    exact hclosed.step x c hxc (impliesStructure_trans hcomp h hstructure)
  · exact hm x y hold

theorem follows_analyze (schema : Schema) : schema.Follows schema.analyze.matrix :=
  passes_induction 0 schema.follows_identity fun _ _ _ hm hne h => hm.relate hne h

/-- The implications that are found are transitive. -/
theorem implies_trans {a b c : String} (hab : schema.analyze.implies a b)
    (hbc : schema.analyze.implies b c) : schema.analyze.implies a c :=
  (schema.follows_analyze a b hab).2 c hbc

/-- The implications that are found are a preorder on the declared kinds, whatever kinds references
name, and with them the comparison of descriptors is transitive. -/
theorem preorder_analyze (schema : Schema) :
    (∀ a ∈ schema.kindNames, schema.analyze.implies a a) ∧
    (∀ a b c, schema.analyze.implies a b → schema.analyze.implies b c →
      schema.analyze.implies a c) ∧
    ∀ d e f : Descriptor, d.implies schema.analyze.implies e →
      e.implies schema.analyze.implies f → d.implies schema.analyze.implies f := by
  have hcomp : Composes schema.analyze.implies schema.analyze.implies schema.analyze.implies :=
    fun a b c => implies_trans
  exact ⟨schema.closed_analyze.refl, hcomp, fun d e f => Descriptor.implies_trans hcomp⟩

/-- Labels and links to them, the more general ones later. Links to texts may name an author, whose
kind is not declared. -/
def labelSchema : Schema := .ofKinds [
  ("Blank", .ofFields [("text", .union (.ofList [""]))]),
  ("Word", .ofFields [("text", .union (.ofList ["", "new"]))]),
  ("Text", .ofFields [("text", .string)]),
  ("BlankLink", .ofFields [("to", .ref ["Blank"])]),
  ("WordLink", .ofFields [("to", .ref ["Blank", "Word"])]),
  ("TextLink", .ofFields [("to", .ref ["Text"]), ("author", .optional (.ref ["Author"]))])]

/-- Links compose, since the labels do: that links to words are links to texts depends on both kinds
of words. -/
theorem implies_labelSchema :
    labelSchema.analyze.implies "BlankLink" "WordLink" ∧
      labelSchema.analyze.implies "WordLink" "TextLink" ∧
      labelSchema.analyze.implies "BlankLink" "TextLink" := by
  have hword : labelSchema.analyze.implies "BlankLink" "WordLink" := by decide +kernel
  have htext : labelSchema.analyze.implies "WordLink" "TextLink" := by decide +kernel
  exact ⟨hword, htext, labelSchema.preorder_analyze.2.1 _ _ _ hword htext⟩

/-- A reference to a kind that is not declared does not imply itself, as no entity has the kind. -/
example : (Descriptor.ref ["Missing"]).implies (ofKinds []).analyze.implies (.ref ["Missing"]) =
    false := by decide +kernel

end Schema

end TypedGraph
