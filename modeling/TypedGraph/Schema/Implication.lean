import TypedGraph.Schema.Basic

/-!
# Implication Between Kinds

One kind implies another when whatever conforms to the first also conforms to the second. As
entities do not name their kind, such a pair makes the kind of an entity depend on the order in
which kinds are tried. The implications of a schema are found by passes over all pairs of kinds
until a pass finds nothing new; each pass uses what is known so far about the kinds that references
name.

A pass raises a flag when it relates a pair, and the passes go on as long as the flag is raised.
They come to an end since such a pass leaves fewer pairs unrelated (`Schema.implicationPass_cases`).
-/

namespace TypedGraph

/-- The kind `source` implies the kind `target`. -/
structure Implication where
  source : String
  target : String
deriving DecidableEq

namespace Implication

/-- Implications are ordered by their sources, then by their targets. -/
instance : Ord Implication := ⟨compareLex (compareOn source) (compareOn target)⟩

instance : Std.TransOrd Implication :=
  inferInstanceAs (Std.TransCmp (compareLex (compareOn source) (compareOn target)))

instance : Std.LawfulEqOrd Implication where
  eq_of_compare {i j} h := by
    obtain ⟨hs, ht⟩ := Ordering.then_eq_eq.1 h
    cases i; cases j
    simpa using ⟨Std.LawfulEqCmp.eq_of_compare hs, Std.LawfulEqCmp.eq_of_compare ht⟩

/-- Implications as messages show them. -/
def display (i : Implication) : String := i.source ++ " => " ++ i.target

end Implication

/-- Whatever matches the first descriptor matches the second, given which kinds imply which. -/
def Descriptor.implies (known : String → String → Bool) : Descriptor → Descriptor → Bool
  | .optional a, .optional b => implies known a b
  -- what may be absent does not fit what has to be there
  | .optional _, _ => false
  | a, .optional b => implies known a b
  | .primitive p, .primitive q => p == q
  | .union _, .primitive .string => true
  | .union s, .union t => s.subset t
  | .arrayOf a, .arrayOf b => implies known a b
  | .ref ks, .ref js => ks.all fun k => js.any fun j => known k j
  | _, _ => false

/-- A field that an entity may have under the first structure also fits the second one. -/
def Structure.impliesField (known : String → String → Bool) (s : Structure) (name : String)
    (target : Descriptor) : Bool :=
  match s.get? name with
  -- no entity of the first kind has the field
  | none => target.isOptional
  | some d =>
    if target.isOptional then d.unwrapOptional.implies known target.unwrapOptional
    else !d.isOptional && d.implies known target

/-- Whatever matches the first structure matches the second: it has no field that the second one
does not declare, and every field of the second one fits. -/
def Structure.implies (known : String → String → Bool) (s t : Structure) : Bool :=
  s.fields.keys.all t.contains && t.fields.entries.all fun f => s.impliesField known f.1 f.2

/-- A relation between the kinds of a schema. -/
structure ImplicationMatrix where
  /-- The kinds in order. -/
  kinds : List String
  /-- The related pairs. -/
  pairs : Std.ExtTreeSet Implication

namespace ImplicationMatrix

/-- The matrix relates the first kind to the second. -/
def holds (m : ImplicationMatrix) (a b : String) : Bool := m.pairs.contains ⟨a, b⟩

/-- Relates the first kind to the second. -/
def relate (m : ImplicationMatrix) (a b : String) : ImplicationMatrix :=
  { m with pairs := m.pairs.insert ⟨a, b⟩ }

/-- Every kind is related to itself and nothing else. -/
def identity (schema : Schema) : ImplicationMatrix :=
  schema.kindNames.foldl (fun m k => m.relate k k) ⟨schema.kindNames, ∅⟩

/-- The related pairs of different kinds, row by row. -/
def offDiagonal (m : ImplicationMatrix) : List Implication :=
  m.kinds.flatMap fun a =>
    (m.kinds.filter fun b => a != b && m.holds a b).map (⟨a, ·⟩)

/-- The pairs of the given kinds that are not related. -/
def unrelated (m : ImplicationMatrix) (kinds : List String) : List Implication :=
  kinds.flatMap fun a => (kinds.filter fun b => !m.holds a b).map (⟨a, ·⟩)

variable {m : ImplicationMatrix} {kinds : List String} {a b : String}

theorem holds_relate {x y : String} :
    (m.relate a b).holds x y ↔ x = a ∧ y = b ∨ m.holds x y := by
  rw [holds, relate, Std.ExtTreeSet.contains_insert, Bool.or_eq_true, beq_iff_eq,
    Std.compare_eq_iff_eq, Implication.mk.injEq, eq_comm (a := a), eq_comm (a := b), ← holds]

theorem mem_unrelated_iff :
    ⟨a, b⟩ ∈ m.unrelated kinds ↔ a ∈ kinds ∧ b ∈ kinds ∧ ¬ m.holds a b := by
  simp [unrelated]

/-- Relating a pair takes it off the pairs that are not related. -/
theorem unrelated_relate :
    (m.relate a b).unrelated kinds = (m.unrelated kinds).filter (· != ⟨a, b⟩) := by
  rw [unrelated, unrelated, List.filter_flatMap]
  congr 1
  funext x
  rw [List.filter_map, List.filter_filter]
  refine congrArg (List.map _) (List.filter_congr fun y _ => ?_)
  rw [Bool.eq_iff_iff, Bool.not_eq_true', ← Bool.not_eq_true, holds_relate]
  simp [not_or]

theorem length_unrelated_relate_lt (ha : a ∈ kinds) (hb : b ∈ kinds) (h : ¬ m.holds a b) :
    ((m.relate a b).unrelated kinds).length < (m.unrelated kinds).length := by
  rw [unrelated_relate]
  exact List.length_filter_lt_length_iff_exists.2
    ⟨⟨a, b⟩, mem_unrelated_iff.2 ⟨ha, hb, h⟩, by simp⟩

end ImplicationMatrix

/-- What the passes over a schema find. -/
structure Analysis where
  /-- The implications between kinds. -/
  matrix : ImplicationMatrix
  /-- The implications between different kinds, row by row. -/
  problems : List Implication
  /-- The number of passes, with the last one that finds nothing. -/
  passes : Nat

namespace Analysis

/-- The first kind implies the second. -/
def implies (a : Analysis) (source target : String) : Bool := a.matrix.holds source target

/-- No kind implies a different one. -/
def isCoherent (a : Analysis) : Bool := a.problems.isEmpty

end Analysis

namespace Schema

/-- The structure of the first kind implies that of the second, given which kinds imply which. -/
def impliesStructure (schema : Schema) (known : String → String → Bool) (a b : String) : Bool :=
  match schema.kind? a, schema.kind? b with
  | some s, some t => s.implies known t
  | _, _ => false

/-- Relates a pair of different kinds if the structures allow it now, and then raises the flag that
something has changed. -/
def relatePair (found : ImplicationMatrix × Bool) (a b : String × Structure) :
    ImplicationMatrix × Bool :=
  if a.1 != b.1 && !found.1.holds a.1 b.1 && a.2.implies found.1.holds b.2 then
    (found.1.relate a.1 b.1, true)
  else found

/-- Goes over all pairs of kinds row by row; each pair sees what was found before it. The flag tells
whether a pair has been related. -/
def implicationPass (schema : Schema) (m : ImplicationMatrix) : ImplicationMatrix × Bool :=
  schema.kinds.entries.foldl (fun found a =>
    schema.kinds.entries.foldl (fun found b => relatePair found a b) found) (m, false)

section

variable {schema : Schema} {m : ImplicationMatrix}

/-- What holds of a matrix with the flag down, and is kept when a pair is related and the flag
raised, holds of what a pass ends with. -/
theorem implicationPass_induction {P : ImplicationMatrix × Bool → Prop} (hstart : P (m, false))
    (hrelate : ∀ found, ∀ a ∈ schema.kinds.entries, ∀ b ∈ schema.kinds.entries, P found →
      a.1 ≠ b.1 → ¬ found.1.holds a.1 b.1 → a.2.implies found.1.holds b.2 →
        P (found.1.relate a.1 b.1, true)) :
    P (schema.implicationPass m) := by
  refine List.foldlRecOn _ _ hstart fun found hfound a ha =>
    List.foldlRecOn _ _ hfound fun found hfound b hb => ?_
  unfold relatePair
  split
  · next htest =>
    simp only [Bool.and_eq_true, bne_iff_ne, Bool.not_eq_true', ← Bool.not_eq_true] at htest
    exact hrelate found a ha b hb hfound htest.1.1 htest.1.2 htest.2
  · exact hfound

/-- A pass keeps the matrix with the flag down, or raises the flag and leaves fewer pairs of the
schema's kinds unrelated. -/
theorem implicationPass_cases (schema : Schema) (m : ImplicationMatrix) :
    schema.implicationPass m = (m, false) ∨ (schema.implicationPass m).2 = true ∧
      ((schema.implicationPass m).1.unrelated schema.kindNames).length <
        (m.unrelated schema.kindNames).length := by
  refine implicationPass_induction (P := fun found => found = (m, false) ∨ found.2 = true ∧
    (found.1.unrelated schema.kindNames).length < (m.unrelated schema.kindNames).length)
    (.inl rfl) fun found a ha b hb hfound _ hnot _ => .inr ⟨rfl, ?_⟩
  have hlt := ImplicationMatrix.length_unrelated_relate_lt (List.mem_map_of_mem ha)
    (List.mem_map_of_mem hb) hnot
  rcases hfound with rfl | ⟨-, hle⟩
  · exact hlt
  · exact Nat.lt_trans hlt hle

theorem length_unrelated_lt_of_pass {next : ImplicationMatrix}
    (h : schema.implicationPass m = (next, true)) :
    (next.unrelated schema.kindNames).length < (m.unrelated schema.kindNames).length := by
  rcases schema.implicationPass_cases m with hsame | ⟨-, hlt⟩
  · cases h.symm.trans hsame
  · rwa [h] at hlt

theorem eq_of_pass {next : ImplicationMatrix} (h : schema.implicationPass m = (next, false)) :
    next = m := by
  rcases schema.implicationPass_cases m with hsame | ⟨hraised, -⟩
  · exact congrArg Prod.fst (h.symm.trans hsame)
  · rw [h] at hraised
    cases hraised

end

/-- Repeats the passes until one leaves the flag down; also gives their number. -/
def implicationPasses (schema : Schema) (m : ImplicationMatrix) (done : Nat) :
    ImplicationMatrix × Nat :=
  match h : schema.implicationPass m with
  | (next, true) => schema.implicationPasses next (done + 1)
  | (next, false) => (next, done + 1)
-- a pass that raises the flag has related a pair that was not related before
termination_by (m.unrelated schema.kindNames).length
decreasing_by exact length_unrelated_lt_of_pass h

/-- The implications between the kinds of a schema. -/
def analyze (schema : Schema) : Analysis :=
  let (matrix, passes) := schema.implicationPasses (.identity schema) 0
  { matrix, problems := matrix.offDiagonal, passes }

end Schema

end TypedGraph
