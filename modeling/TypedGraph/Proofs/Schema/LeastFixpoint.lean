import Mathlib.Data.List.Basic
import TypedGraph.Proofs.Schema.Passes
import TypedGraph.Proofs.Validation.Reordering

/-!
# Implications as a Least Fixed Point

The passes update one matrix in place, so that a pair sees what was found earlier in the same pass.
This changes how soon they end, not what they end with: every pass relates at least the pairs that
the structures allow given its start, and at most those that any closed relation holds.

## Main definitions

* `Schema.ClosedUnderImplication`: a relation that holds the identity and what the structures allow
  given the relation itself;
* `Schema.RowMajor`: the order of pairs by the positions of their kinds.

## Main results

* `Schema.closed_analyze` and `Schema.le_of_closed`: the implications found are closed, and hold in
  every closed relation;
* `Schema.passes_analyze_le`: the number of passes is bounded by the number of pairs;
* `Schema.implies_of_reorders`: what is implied in a schema is implied in every reordering of it;
* `Schema.leastFixpoint_analyze`: the analysis gives the least fixed point, in bounded time and
  whatever the order of the declarations.
-/

namespace TypedGraph

namespace ImplicationMatrix

/-! ## Growing Matrices -/

/-- A matrix is below another one over the same kinds that relates at least the same pairs. -/
instance : LE ImplicationMatrix :=
  ⟨fun m m' => m.kinds = m'.kinds ∧ ∀ a b, m.holds a b → m'.holds a b⟩

variable {m m' m'' : ImplicationMatrix}

theorem le_refl (m : ImplicationMatrix) : m ≤ m := ⟨rfl, fun _ _ => id⟩

theorem le_trans (h : m ≤ m') (h' : m' ≤ m'') : m ≤ m'' :=
  ⟨h.1.trans h'.1, fun a b hab => h'.2 a b (h.2 a b hab)⟩

theorem le_relate (m : ImplicationMatrix) (a b : String) : m ≤ m.relate a b :=
  ⟨rfl, fun _ _ => holds_relate_of_holds a b⟩

section

-- the matrix of a pass goes through its folds together with the flag
variable {α : Type} {f : ImplicationMatrix × Bool → α → ImplicationMatrix × Bool}

theorem le_foldl (hf : ∀ found x, found.1 ≤ (f found x).1) (l : List α)
    (found : ImplicationMatrix × Bool) : found.1 ≤ (l.foldl f found).1 :=
  List.foldlRecOn (motive := fun next => found.1 ≤ next.1) l f (le_refl found.1)
    fun _ hle x _ => le_trans hle (hf _ x)

/-- A fold that only grows comes by every element, with a matrix above the first one. -/
theorem exists_le_foldl (hf : ∀ found x, found.1 ≤ (f found x).1) {l : List α} {x : α}
    (hx : x ∈ l) (found : ImplicationMatrix × Bool) :
    ∃ seen, found.1 ≤ seen.1 ∧ (f seen x).1 ≤ (l.foldl f found).1 := by
  obtain ⟨before, after, rfl⟩ := List.append_of_mem hx
  refine ⟨before.foldl f found, le_foldl hf before found, ?_⟩
  rw [List.foldl_append, List.foldl_cons]
  exact le_foldl hf after _

end

/-! ## Counting Pairs -/

theorem kinds_identity (schema : Schema) : (identity schema).kinds = schema.kindNames :=
  List.foldlRecOn (motive := fun m => ImplicationMatrix.kinds m = schema.kindNames) _ _ rfl
    fun _ hm _ _ => hm

/-- The identity leaves every kind unrelated to all others. -/
theorem length_unrelated_identity (schema : Schema) :
    ((identity schema).unrelated schema.kindNames).length =
      schema.kinds.size * (schema.kinds.size - 1) := by
  have hnodup : schema.kindNames.Nodup := schema.kinds.keys_nodup
  have hrow (a : String) (ha : a ∈ schema.kindNames) :
      ((schema.kindNames.filter fun b => !(identity schema).holds a b).map
        (Implication.mk a)).length = schema.kinds.size - 1 := by
    -- a row lacks all kinds but its own
    have heq : (schema.kindNames.filter fun b => !(identity schema).holds a b) =
        schema.kindNames.erase a := by
      rw [hnodup.erase_eq_filter]
      refine List.filter_congr fun b _ => ?_
      rw [Bool.eq_iff_iff, Bool.not_eq_true', ← Bool.not_eq_true, holds_identity, bne_iff_ne]
      grind
    rw [List.length_map, heq, List.length_erase_of_mem ha]
    exact congrArg (· - 1) schema.kinds.length_keys
  rw [unrelated, List.length_flatMap, List.map_congr_left hrow, List.map_const',
    List.sum_replicate_nat]
  exact congrArg (· * _) schema.kinds.length_keys

end ImplicationMatrix

namespace Schema

variable {schema : Schema} {m : ImplicationMatrix}

/-! ## Bounded Passes -/

/-- Every pass but the last one relates a pair that was not related before. -/
theorem passes_le (schema : Schema) (m : ImplicationMatrix) (done : Nat) :
    (schema.implicationPasses m done).2 ≤ done + (m.unrelated schema.kindNames).length + 1 := by
  fun_induction implicationPasses schema m done with
  | case1 m done next hpass ih =>
    have hlt := length_unrelated_lt_of_pass hpass
    omega
  | case2 m done next hpass => exact Nat.succ_le_succ (Nat.le_add_right done _)

theorem passes_analyze_le (schema : Schema) :
    schema.analyze.passes ≤ schema.kinds.size * (schema.kinds.size - 1) + 1 := by
  have hle := schema.passes_le (.identity schema) 0
  rwa [ImplicationMatrix.length_unrelated_identity, Nat.zero_add] at hle

/-! ## Closed Relations -/

/-- A relation between the declared kinds of a schema. -/
def Covers (schema : Schema) (m : ImplicationMatrix) : Prop :=
  m.kinds = schema.kindNames ∧ ∀ a b, m.holds a b → a ∈ schema.kindNames ∧ b ∈ schema.kindNames

theorem mem_kindNames_of_impliesStructure {known : String → String → Bool} {a b : String}
    (h : schema.impliesStructure known a b) : a ∈ schema.kindNames ∧ b ∈ schema.kindNames := by
  obtain ⟨s, t, hs, ht, -⟩ := impliesStructure_iff.1 h
  exact ⟨OrderedMap.mem_keys_iff.2 ⟨s, hs⟩, OrderedMap.mem_keys_iff.2 ⟨t, ht⟩⟩

theorem Covers.relate (hm : schema.Covers m) {a b : String}
    (h : schema.impliesStructure m.holds a b) : schema.Covers (m.relate a b) := by
  refine ⟨hm.1, fun x y hxy => ?_⟩
  rcases ImplicationMatrix.holds_relate.1 hxy with ⟨rfl, rfl⟩ | hold
  · exact mem_kindNames_of_impliesStructure h
  · exact hm.2 x y hold

theorem covers_identity (schema : Schema) : schema.Covers (.identity schema) := by
  refine ⟨ImplicationMatrix.kinds_identity schema, fun a b h => ?_⟩
  obtain ⟨rfl, ha⟩ := ImplicationMatrix.holds_identity.1 h
  exact ⟨ha, ha⟩

theorem covers_analyze (schema : Schema) : schema.Covers schema.analyze.matrix :=
  passes_induction 0 schema.covers_identity fun _ _ _ hm _ h => hm.relate h

theorem le_relatePair (found : ImplicationMatrix × Bool) (a b : String × Structure) :
    found.1 ≤ (relatePair found a b).1 := by
  unfold relatePair
  split
  · exact found.1.le_relate a.1 b.1
  · exact found.1.le_refl

theorem le_row (schema : Schema) (found : ImplicationMatrix × Bool) (a : String × Structure) :
    found.1 ≤ (schema.kinds.entries.foldl (fun found b => relatePair found a b) found).1 :=
  ImplicationMatrix.le_foldl (fun found b => le_relatePair found a b) _ found

/-- A pass relates all pairs that the structures allow given the matrix that it starts with. -/
theorem holds_pass {a b : String} (hne : a ≠ b) (h : schema.impliesStructure m.holds a b) :
    (schema.implicationPass m).1.holds a b := by
  obtain ⟨s, t, hs, ht, -⟩ := impliesStructure_iff.1 h
  obtain ⟨found₁, hle₁, hrow⟩ := ImplicationMatrix.exists_le_foldl schema.le_row
    (OrderedMap.get?_eq_some_iff.1 hs) (m, false)
  obtain ⟨found₂, hle₂, hcell⟩ := ImplicationMatrix.exists_le_foldl
    (fun found b => le_relatePair found (a, s) b) (OrderedMap.get?_eq_some_iff.1 ht) found₁
  -- when the pair is visited, more is known than at the start
  have hmore : s.implies found₂.1.holds t := by
    have hle := ImplicationMatrix.le_trans hle₁ hle₂
    obtain ⟨s', t', hs', ht', himplies⟩ := impliesStructure_iff.1 (impliesStructure_mono hle.2 h)
    cases hs.symm.trans hs'
    cases ht.symm.trans ht'
    exact himplies
  have hpair : (relatePair found₂ (a, s) (b, t)).1.holds a b := by
    unfold relatePair
    split
    · exact ImplicationMatrix.holds_relate.2 (.inl ⟨rfl, rfl⟩)
    · next htest => simpa [hne, hmore] using htest
  exact hrow.2 a b (hcell.2 a b hpair)

/-- A relation contains the identity on the declared kinds, and all pairs of different kinds that
the structures allow given the relation itself. -/
structure ClosedUnderImplication (schema : Schema) (r : String → String → Bool) : Prop where
  /-- Every declared kind is related to itself. -/
  refl : ∀ a ∈ schema.kindNames, r a a
  /-- What the structures allow is related. -/
  step : ∀ a b, a ≠ b → schema.impliesStructure r a b → r a b

/-- The passes end with a matrix that lacks no pair that the structures allow. -/
theorem step_passes (m : ImplicationMatrix) (done : Nat) {a b : String} (hne : a ≠ b)
    (h : schema.impliesStructure (schema.implicationPasses m done).1.holds a b) :
    (schema.implicationPasses m done).1.holds a b := by
  fun_induction implicationPasses schema m done with
  | case1 m done next hpass ih => exact ih h
  | case2 m done next hpass =>
    -- the last pass left the flag down, so that its end is also its start
    cases eq_of_pass hpass
    have hholds := holds_pass hne h
    rwa [hpass] at hholds

/-- The implications that are found are closed. -/
theorem closed_analyze (schema : Schema) :
    schema.ClosedUnderImplication schema.analyze.implies := by
  constructor
  · intro a ha
    refine passes_induction (P := fun m => m.holds a a) 0 ?_ fun m x y hm _ _ => ?_
    · exact ImplicationMatrix.holds_identity.2 ⟨rfl, ha⟩
    · exact ImplicationMatrix.holds_relate_of_holds x y hm
  · intro a b hne h
    exact step_passes (.identity schema) 0 hne h

/-- The implications that are found hold in every closed relation. -/
theorem le_of_closed {r : String → String → Bool} (hr : schema.ClosedUnderImplication r)
    {a b : String} (h : schema.analyze.implies a b) : r a b := by
  revert a b
  refine passes_induction (P := fun m => ∀ {a b}, m.holds a b → r a b) 0 ?_ fun m x y hm hne h => ?_
  · intro a b h
    obtain ⟨rfl, ha⟩ := ImplicationMatrix.holds_identity.1 h
    exact hr.refl a ha
  · intro a b hab
    rcases ImplicationMatrix.holds_relate.1 hab with ⟨rfl, rfl⟩ | hold
    · exact hr.step a b hne (impliesStructure_mono (fun _ _ => hm) h)
    · exact hm hold

/-- Different kinds imply each other only as their structures allow, given all implications. -/
theorem impliesStructure_of_implies {a b : String} (hne : a ≠ b)
    (h : schema.analyze.implies a b) : schema.impliesStructure schema.analyze.implies a b :=
  (schema.justified_analyze a b h).resolve_left fun hrefl => hne hrefl.1

/-! ## Problems -/

/-- The order of pairs of kinds by the position of the source, then by that of the target. -/
def RowMajor (schema : Schema) (i j : Implication) : Prop :=
  schema.kindNames.idxOf i.source < schema.kindNames.idxOf j.source ∨
    i.source = j.source ∧ schema.kindNames.idxOf i.target < schema.kindNames.idxOf j.target

/-- The problems are the implications between different kinds. -/
theorem mem_problems_iff {i : Implication} :
    i ∈ schema.analyze.problems ↔
      i.source ≠ i.target ∧ schema.analyze.implies i.source i.target := by
  obtain ⟨a, b⟩ := i
  have hcovers := schema.covers_analyze
  have hproblems : schema.analyze.problems = schema.analyze.matrix.offDiagonal := rfl
  rw [hproblems, ImplicationMatrix.offDiagonal, hcovers.1]
  have hdeclared := hcovers.2 a b
  simp only [List.mem_flatMap, List.mem_map, List.mem_filter, Implication.mk.injEq,
    Bool.and_eq_true, bne_iff_ne, Analysis.implies]
  grind

/-- The names of the kinds stand at increasing positions. -/
theorem pairwise_idxOf_kindNames (schema : Schema) :
    schema.kindNames.Pairwise fun a b =>
      schema.kindNames.idxOf a < schema.kindNames.idxOf b := by
  rw [List.pairwise_iff_getElem]
  intro i j hi hj hij
  have hnodup : schema.kindNames.Nodup := schema.kinds.keys_nodup
  rwa [hnodup.idxOf_getElem, hnodup.idxOf_getElem]

/-- The problems are listed row by row. -/
theorem pairwise_problems (schema : Schema) :
    schema.analyze.problems.Pairwise schema.RowMajor := by
  have hproblems : schema.analyze.problems = schema.analyze.matrix.offDiagonal := rfl
  rw [hproblems, ImplicationMatrix.offDiagonal, schema.covers_analyze.1, List.pairwise_flatMap]
  constructor
  · intro a _
    rw [List.pairwise_map]
    have hrow := schema.pairwise_idxOf_kindNames.filter fun b =>
      a != b && schema.analyze.matrix.holds a b
    exact hrow.imp fun hlt => .inr ⟨rfl, hlt⟩
  · refine schema.pairwise_idxOf_kindNames.imp fun hlt i hi j hj => ?_
    obtain ⟨b, -, rfl⟩ := List.mem_map.1 hi
    obtain ⟨c, -, rfl⟩ := List.mem_map.1 hj
    exact .inl hlt

theorem nodup_problems (schema : Schema) : schema.analyze.problems.Nodup := by
  refine schema.pairwise_problems.imp fun {i j} hlt heq => ?_
  subst heq
  rcases hlt with hlt | ⟨-, hlt⟩
  · exact Nat.lt_irrefl _ hlt
  · exact Nat.lt_irrefl _ hlt

theorem isCoherent_iff : schema.analyze.isCoherent ↔
    ∀ a b, schema.analyze.implies a b → a = b := by
  rw [Analysis.isCoherent, List.isEmpty_iff, List.eq_nil_iff_forall_not_mem]
  simp only [mem_problems_iff, not_and', ne_eq, Decidable.not_not]
  exact ⟨fun h a b => h ⟨a, b⟩, fun h i => h i.source i.target⟩

end Schema

/-! ## Reordering -/

section

variable {known : String → String → Bool}

theorem Descriptor.Reorders.isOptional_eq {d d' : Descriptor} (h : d.Reorders d') :
    d.isOptional = d'.isOptional := by
  cases h <;> rfl

theorem Descriptor.Reorders.unwrapOptional {d d' : Descriptor} (h : d.Reorders d') :
    d.unwrapOptional.Reorders d'.unwrapOptional := by
  cases h with
  | primitive p => exact .primitive p
  | union literals => exact .union literals
  | optional h => exact h
  | arrayOf h => exact .arrayOf h
  | ref h => exact .ref h

/-- Implication does not depend on the order in which references name kinds. The induction follows
the comparison of the two descriptors. -/
theorem Descriptor.implies_of_reorders {d d' e e' : Descriptor} (hd : d.Reorders d')
    (he : e.Reorders e') (h : d.implies known e) : d'.implies known e' := by
  fun_induction Descriptor.implies known d e generalizing d' e' with
  | case1 a b ih =>
    cases hd with | optional hd =>
    cases he with | optional he =>
    rw [Descriptor.implies]
    exact ih hd he h
  | case2 a e hne => cases h
  | case3 a b hne ih =>
    -- a reordered descriptor is optional only if it was before
    cases he with | optional he =>
    have hne' : ∀ c, d' = .optional c → False := by
      rintro c rfl
      cases hd with | optional hd => exact hne _ rfl
    rw [Descriptor.implies.eq_3 _ _ _ hne']
    exact ih hd he h
  | case4 p q =>
    cases hd
    cases he
    exact h
  | case5 s =>
    cases hd
    cases he
    rfl
  | case6 s t =>
    cases hd
    cases he
    exact h
  | case7 a b ih =>
    cases hd with | arrayOf hd =>
    cases he with | arrayOf he =>
    rw [Descriptor.implies]
    exact ih hd he h
  | case8 ks js =>
    cases hd with | ref hks =>
    cases he with | ref hjs =>
    simp only [Descriptor.implies, List.all_eq_true, List.any_eq_true] at h ⊢
    intro k hk
    obtain ⟨j, hj, hkj⟩ := h k (hks.mem_iff.2 hk)
    exact ⟨j, hjs.mem_iff.1 hj, hkj⟩
  | case9 => cases h

theorem Structure.impliesField_of_reorders {s s' : Structure} {name : String} {e e' : Descriptor}
    (hs : s.Reorders s') (he : e.Reorders e') (h : s.impliesField known name e) :
    s'.impliesField known name e' := by
  rw [Structure.impliesField_iff, ← he.isOptional_eq]
  rw [Structure.impliesField_iff] at h
  refine ⟨fun hnone' => h.1 ?_, fun d' hd' => ?_⟩
  · cases hget : s.get? name with
    | none => rfl
    | some d =>
      obtain ⟨d', hd', -⟩ := exists_of_rel (hs name) hget
      cases hnone'.symm.trans hd'
  · obtain ⟨d, hd, hdd⟩ := exists_of_rel (hs.symm name) hd'
    obtain ⟨hoptional, himplies⟩ := h.2 d hd
    rw [hdd.isOptional_eq]
    exact ⟨hoptional,
      Descriptor.implies_of_reorders hdd.symm.unwrapOptional he.unwrapOptional himplies⟩

theorem Structure.implies_of_reorders {s s' t t' : Structure} (hs : s.Reorders s')
    (ht : t.Reorders t') (h : s.implies known t) : s'.implies known t' := by
  rw [Structure.implies_iff] at h ⊢
  constructor
  · intro name d' hd'
    obtain ⟨d, hd, -⟩ := exists_of_rel (hs.symm name) hd'
    obtain ⟨e, he⟩ := Option.isSome_iff_exists.1 (h.1 name d hd)
    obtain ⟨e', he', -⟩ := exists_of_rel (ht name) he
    exact Option.isSome_iff_exists.2 ⟨e', he'⟩
  · intro name e' he'
    obtain ⟨e, he, hee⟩ := exists_of_rel (ht.symm name) he'
    exact Structure.impliesField_of_reorders hs hee.symm (h.2 name e he)

end

namespace Schema

variable {schema schema' : Schema}

theorem Reorders.mem_kindNames {a : String} (h : schema.Reorders schema')
    (ha : a ∈ schema.kindNames) : a ∈ schema'.kindNames := by
  obtain ⟨s, hs⟩ := OrderedMap.mem_keys_iff.1 ha
  obtain ⟨s', hs', -⟩ := exists_of_rel (h a) hs
  exact OrderedMap.mem_keys_iff.2 ⟨s', hs'⟩

theorem impliesStructure_of_reorders {known : String → String → Bool} {a b : String}
    (hschema : schema.Reorders schema') (h : schema.impliesStructure known a b) :
    schema'.impliesStructure known a b := by
  obtain ⟨s, t, hs, ht, himplies⟩ := impliesStructure_iff.1 h
  obtain ⟨s', hs', hss⟩ := exists_of_rel (hschema a) hs
  obtain ⟨t', ht', htt⟩ := exists_of_rel (hschema b) ht
  exact impliesStructure_iff.2 ⟨s', t', hs', ht', Structure.implies_of_reorders hss htt himplies⟩

/-- A closed relation stays closed when the schema is reordered, and so no more is implied. -/
theorem implies_of_reorders {a b : String} (hschema : schema.Reorders schema')
    (h : schema.analyze.implies a b) : schema'.analyze.implies a b := by
  have hclosed := schema'.closed_analyze
  refine le_of_closed ⟨fun k hk => ?_, fun x y hne hxy => ?_⟩ h
  · exact hclosed.refl k (hschema.mem_kindNames hk)
  · exact hclosed.step x y hne (impliesStructure_of_reorders hschema hxy)

theorem implies_eq_of_reorders (hschema : schema.Reorders schema') :
    schema.analyze.implies = schema'.analyze.implies := by
  funext a b
  exact Bool.eq_iff_iff.2 ⟨implies_of_reorders hschema, implies_of_reorders hschema.symm⟩

/-- The analysis of a schema gives the least relation that the structures close, within a number of
passes that is bounded by the number of pairs of kinds; it lists the pairs of different kinds once
and row by row, and finds the same in every reordering of the schema. -/
theorem leastFixpoint_analyze (schema : Schema) :
    schema.analyze.passes ≤ schema.kinds.size * (schema.kinds.size - 1) + 1 ∧
    (∀ a b, schema.analyze.implies a b → a ∈ schema.kindNames ∧ b ∈ schema.kindNames) ∧
    schema.ClosedUnderImplication schema.analyze.implies ∧
    (∀ r, schema.ClosedUnderImplication r → ∀ a b, schema.analyze.implies a b → r a b) ∧
    (∀ a b, a ≠ b → schema.analyze.implies a b →
      schema.impliesStructure schema.analyze.implies a b) ∧
    (∀ i, i ∈ schema.analyze.problems ↔
      i.source ≠ i.target ∧ schema.analyze.implies i.source i.target) ∧
    schema.analyze.problems.Nodup ∧ schema.analyze.problems.Pairwise schema.RowMajor ∧
    ∀ schema', schema.Reorders schema' →
      schema'.analyze.implies = schema.analyze.implies ∧
        schema'.analyze.isCoherent = schema.analyze.isCoherent := by
  refine ⟨schema.passes_analyze_le, schema.covers_analyze.2, schema.closed_analyze,
    fun r hr a b => le_of_closed hr, fun a b => impliesStructure_of_implies,
    fun i => mem_problems_iff, schema.nodup_problems, schema.pairwise_problems,
    fun schema' hschema => ?_⟩
  have heq := implies_eq_of_reorders hschema.symm
  refine ⟨heq, Bool.eq_iff_iff.2 ?_⟩
  rw [isCoherent_iff, isCoherent_iff, heq]

end Schema

end TypedGraph
