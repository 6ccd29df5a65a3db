import TypedGraph.Schema.Implication

/-!
# Passes Over a Schema

The passes start from the identity and relate a pair of kinds when the structures allow it, given
what is related already. Nothing is ever taken back, and what the structures allow given few pairs
they allow given more, so that in the end every pair is allowed given all pairs.

## Main definitions

* `ImplicationMatrix.Justified`: the structures allow every pair, given the pairs of the matrix.

## Main results

* `Structure.implies_iff` and `Structure.impliesField_iff`: what one structure says of the fields of
  another one;
* `Schema.impliesStructure_mono`: more known implications allow more implications;
* `Schema.pass_induction` and `Schema.passes_induction`: what is kept when a pair is related that
  the structures allow, is kept by a pass and by all passes;
* `Schema.justified_analyze`: the implications that are found are justified.
-/

namespace TypedGraph

/-! ## Comparing Structures -/

section

variable {known : String → String → Bool}

/-- What a structure says of a field that it implies: nothing if the field may be absent, or else a
descriptor that implies the one of the field. The field is only required if it was required
before. -/
theorem Structure.impliesField_iff {s : Structure} {name : String} {e : Descriptor} :
    s.impliesField known name e ↔
      (s.get? name = none → e.isOptional) ∧
      ∀ d, s.get? name = some d → (d.isOptional → e.isOptional) ∧
        d.unwrapOptional.implies known e.unwrapOptional := by
  unfold Structure.impliesField
  cases s.get? name with
  | none => simp
  | some d => cases d <;> cases e <;> simp [Descriptor.isOptional, Descriptor.unwrapOptional]

/-- Every field that the second structure declares fits what the first one says of it. -/
theorem Structure.implies_iff {s t : Structure} : s.implies known t ↔
    (∀ name d, s.get? name = some d → t.contains name) ∧
      ∀ name e, t.get? name = some e → s.impliesField known name e := by
  rw [Structure.implies, Bool.and_eq_true, List.all_eq_true, List.all_eq_true]
  refine and_congr ⟨fun h name d hd => ?_, fun h name hname => ?_⟩
    ⟨fun h name e he => ?_, fun h f hf => ?_⟩
  · exact h name (OrderedMap.mem_keys_iff.2 ⟨d, hd⟩)
  · obtain ⟨d, hd⟩ := OrderedMap.mem_keys_iff.1 hname
    exact h name d hd
  · exact h (name, e) (OrderedMap.get?_eq_some_iff.1 he)
  · exact h f.1 f.2 (OrderedMap.get?_eq_some_iff.2 hf)

end

/-! ## More Is Implied When More Is Known -/

section

variable {known known' : String → String → Bool}

theorem Descriptor.implies_mono (hle : ∀ a b, known a b → known' a b) {d e : Descriptor}
    (h : d.implies known e) : d.implies known' e := by
  fun_induction Descriptor.implies known d e with
  | case1 a b ih => exact ih h
  | case2 a e hne => cases h
  | case3 a b hne ih =>
    rw [Descriptor.implies.eq_3 _ _ _ hne]
    exact ih h
  | case4 p q => exact h
  | case5 s => rfl
  | case6 s t => exact h
  | case7 a b ih => exact ih h
  | case8 ks js =>
    simp only [Descriptor.implies, List.all_eq_true, List.any_eq_true] at h ⊢
    intro k hk
    obtain ⟨j, hj, hkj⟩ := h k hk
    exact ⟨j, hj, hle k j hkj⟩
  | case9 => cases h

theorem Structure.impliesField_mono (hle : ∀ a b, known a b → known' a b) {s : Structure}
    {name : String} {target : Descriptor} (h : s.impliesField known name target) :
    s.impliesField known' name target := by
  rw [Structure.impliesField_iff] at h ⊢
  refine ⟨h.1, fun d hd => ?_⟩
  obtain ⟨hoptional, himplies⟩ := h.2 d hd
  exact ⟨hoptional, Descriptor.implies_mono hle himplies⟩

theorem Structure.implies_mono (hle : ∀ a b, known a b → known' a b) {s t : Structure}
    (h : s.implies known t) : s.implies known' t := by
  rw [Structure.implies_iff] at h ⊢
  exact ⟨h.1, fun name e he => Structure.impliesField_mono hle (h.2 name e he)⟩

theorem Schema.impliesStructure_mono {schema : Schema} (hle : ∀ a b, known a b → known' a b)
    {a b : String} (h : schema.impliesStructure known a b) :
    schema.impliesStructure known' a b := by
  unfold Schema.impliesStructure at h ⊢
  split
  · next s t hs ht =>
    rw [hs, ht] at h
    exact Structure.implies_mono hle h
  · next hunknown =>
    split at h
    · next s t hs ht => exact absurd ht (hunknown s t hs)
    · cases h

end

/-- The structures of two declared kinds are compared. -/
theorem Schema.impliesStructure_iff {schema : Schema} {known : String → String → Bool}
    {a b : String} :
    schema.impliesStructure known a b ↔
      ∃ s t, schema.kind? a = some s ∧ schema.kind? b = some t ∧ s.implies known t := by
  unfold Schema.impliesStructure
  split
  · next s t hs ht => simp [hs, ht]
  · next hunknown =>
    constructor
    · rintro ⟨⟩
    · rintro ⟨s, t, hs, ht, -⟩
      exact absurd ht (hunknown s t hs)

namespace ImplicationMatrix

theorem holds_relate_of_holds {m : ImplicationMatrix} (a b : String) {x y : String}
    (h : m.holds x y) : (m.relate a b).holds x y := holds_relate.2 (.inr h)

/-- The identity relates the declared kinds to themselves. -/
theorem holds_identity {schema : Schema} {a b : String} :
    (identity schema).holds a b ↔ a = b ∧ a ∈ schema.kindNames := by
  unfold identity
  have hfold (kinds : List String) (m : ImplicationMatrix) :
      (kinds.foldl (fun m k => m.relate k k) m).holds a b ↔
        (a = b ∧ a ∈ kinds) ∨ m.holds a b := by
    induction kinds generalizing m with
    | nil => simp
    | cons k kinds ih =>
      rw [List.foldl_cons, ih, holds_relate, List.mem_cons]
      grind
  rw [hfold]
  simp [holds]

/-- A pair of the matrix is that of a declared kind with itself, or the structures allow it given
all pairs of the matrix. -/
def Justified (schema : Schema) (m : ImplicationMatrix) : Prop :=
  ∀ a b, m.holds a b → (a = b ∧ a ∈ schema.kindNames) ∨ schema.impliesStructure m.holds a b

end ImplicationMatrix

namespace Schema

variable {schema : Schema}

/-- What holds of a matrix and is kept when a pair of different kinds is related that the structures
allow, holds of the matrix that a pass ends with. -/
theorem pass_induction {P : ImplicationMatrix → Prop} {m : ImplicationMatrix} (hstart : P m)
    (hrelate : ∀ m a b, P m → a ≠ b → schema.impliesStructure m.holds a b → P (m.relate a b)) :
    P (schema.implicationPass m).1 := by
  refine implicationPass_induction (P := fun found => P found.1) hstart
    fun found a ha b hb hfound hne _ himplies => ?_
  exact hrelate found.1 a.1 b.1 hfound hne (impliesStructure_iff.2
    ⟨a.2, b.2, OrderedMap.get?_eq_some_iff.2 ha, OrderedMap.get?_eq_some_iff.2 hb, himplies⟩)

/-- What holds of a matrix and is kept when a pair of different kinds is related that the structures
allow, holds of the matrix that the passes end with. -/
theorem passes_induction {P : ImplicationMatrix → Prop} {m : ImplicationMatrix} (done : Nat)
    (hstart : P m)
    (hrelate : ∀ m a b, P m → a ≠ b → schema.impliesStructure m.holds a b → P (m.relate a b)) :
    P (schema.implicationPasses m done).1 := by
  fun_induction implicationPasses schema m done with
  | case1 m done next hpass ih =>
    have hnext := pass_induction hstart hrelate
    rw [hpass] at hnext
    exact ih hnext
  | case2 m done next hpass =>
    have hnext := pass_induction hstart hrelate
    rwa [hpass] at hnext

/-- The implications that are found are justified by the structures, given all that are found. -/
theorem justified_analyze (schema : Schema) : schema.analyze.matrix.Justified schema := by
  refine passes_induction 0 ?_ fun m a b hm hne hstructure => ?_
  · exact fun a b h => .inl (ImplicationMatrix.holds_identity.1 h)
  · -- a pair that was justified before stays so, as more pairs allow more
    intro x y hxy
    have hmore {x y : String} (h : schema.impliesStructure m.holds x y) :
        schema.impliesStructure (m.relate a b).holds x y :=
      impliesStructure_mono (fun _ _ => ImplicationMatrix.holds_relate_of_holds a b) h
    rcases ImplicationMatrix.holds_relate.1 hxy with ⟨rfl, rfl⟩ | hold
    · exact .inr (hmore hstructure)
    · exact (hm x y hold).imp_right hmore

end Schema

end TypedGraph
