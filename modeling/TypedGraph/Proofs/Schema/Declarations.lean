import Mathlib.Data.List.Forall2
import Mathlib.Data.List.Induction
import Mathlib.Data.List.Nodup
import Mathlib.Data.Prod.Lex
import TypedGraph.Schema.Builder

/-!
# Declarations of Schemas

A builder takes declarations one after the other, and a name may come again. The schema has every
name where it came first, with the structure that came last; a structure that has been replaced
leaves no trace. So the references that lead nowhere are those of the last structures, wherever in a
descriptor they lie. They are listed by their places: the kind, the field, and the place within the
reference.

A checked build looks for names that come again before it looks at references. It accepts the
declarations of closed schemas and no others.

## Main definitions

* `Enumerates`: a list holds what stands at some places, in the order of the places;
* `Descriptor.Names`: a descriptor names a kind at a place of its reference;
* `Schema.DanglesAt`: at a place of the schema a kind is named that is not declared;
* `Declarations.Closed`: every kind that is named is declared;
* `Declarations.FirstRepeated`: the first name to be declared again.

## Main results

* `Schema.enumerates_danglingRefs`: the dangling references are listed by their places;
* `SchemaBuilder.kindNames_build` and `SchemaBuilder.kind?_build`: the schema of some declarations;
* `SchemaBuilder.head?_redeclared_iff`: the first redeclared name;
* `SchemaBuilder.buildChecked_exact`: what a checked build answers to any declarations.
-/

namespace TypedGraph

/-! ## Lists by Places -/

section

variable {α β π ρ : Type} {before : π → π → Prop} {R S : π → α → Prop} {l l' : List α}

/-- A list holds what stands at the places of a relation, in the order of the places and once for
each of them. -/
def Enumerates (before : π → π → Prop) (R : π → α → Prop) (l : List α) : Prop :=
  ∃ places : List π, places.Pairwise before ∧ (∀ p, p ∈ places ↔ ∃ a, R p a) ∧
    List.Forall₂ R places l

namespace Enumerates

theorem congr (h : Enumerates before R l) (hiff : ∀ p a, R p a ↔ S p a) :
    Enumerates before S l := by
  have heq : R = S := funext₂ fun p a => propext (hiff p a)
  rwa [← heq]

theorem nil (h : ∀ p a, ¬ R p a) : Enumerates before R [] :=
  ⟨[], .nil, fun p => by simp [h], .nil⟩

theorem singleton {p : π} {a : α} (h : ∀ q b, R q b ↔ q = p ∧ b = a) :
    Enumerates before R [a] :=
  ⟨[p], List.pairwise_singleton _ _, fun q => by simp [h], .cons ((h p a).2 ⟨rfl, rfl⟩) .nil⟩

/-- Lists follow each other as their places do. -/
theorem append (h : Enumerates before R l) (h' : Enumerates before S l')
    (hbefore : ∀ p a q b, R p a → S q b → before p q) :
    Enumerates before (fun p a => R p a ∨ S p a) (l ++ l') := by
  obtain ⟨places, hsorted, hmem, hall⟩ := h
  obtain ⟨places', hsorted', hmem', hall'⟩ := h'
  refine ⟨places ++ places', List.pairwise_append.2 ⟨hsorted, hsorted', fun p hp q hq => ?_⟩,
    fun p => ?_, List.rel_append (hall.imp fun _ _ => .inl) (hall'.imp fun _ _ => .inr)⟩
  · obtain ⟨a, ha⟩ := (hmem p).1 hp
    obtain ⟨b, hb⟩ := (hmem' q).1 hq
    exact hbefore p a q b ha hb
  · rw [List.mem_append, hmem, hmem', exists_or]

/-- Places can be named otherwise, in the same order. -/
theorem rename (h : Enumerates before R l) (before' : ρ → ρ → Prop) (f : π → ρ)
    (hf : ∀ p q, before p q → before' (f p) (f q)) :
    Enumerates before' (fun q a => ∃ p, f p = q ∧ R p a) l := by
  obtain ⟨places, hsorted, hmem, hall⟩ := h
  refine ⟨places.map f, hsorted.map f hf, fun q => ?_,
    List.forall₂_map_left_iff.2 (hall.imp fun p _ hp => ⟨p, rfl, hp⟩)⟩
  rw [List.mem_map]
  constructor
  · rintro ⟨p, hp, rfl⟩
    obtain ⟨a, ha⟩ := (hmem p).1 hp
    exact ⟨a, p, rfl, ha⟩
  · rintro ⟨a, p, rfl, ha⟩
    exact ⟨p, (hmem p).2 ⟨a, ha⟩, rfl⟩

/-- Lists of lists are listed by the position of the inner list, and then by the place in it. -/
theorem flatMap {T : β → π → α → Prop} {f : β → List α} (h : ∀ x, Enumerates before (T x) (f x))
    (xs : List β) :
    Enumerates (Prod.Lex (fun i j : Nat => i < j) before)
      (fun p a => ∃ x, xs[p.1]? = some x ∧ T x p.2 a) (xs.flatMap f) := by
  induction xs with
  | nil => exact nil (by simp)
  | cons x xs ih =>
    -- the inner list at the front comes first, and the others move up by one position
    refine (((h x).rename _ (fun p => (0, p)) ?front).append
      (ih.rename _ (fun p => (p.1 + 1, p.2)) ?others) ?order).congr ?places
    case front => exact fun p q hpq => .right 0 hpq
    case others =>
      rintro _ _ (⟨_, _, hlt⟩ | ⟨_, hlt⟩)
      · exact .left _ _ (Nat.succ_lt_succ hlt)
      · exact .right _ hlt
    case order =>
      rintro _ a _ b ⟨p, rfl, -⟩ ⟨q, rfl, -⟩
      exact .left _ _ (Nat.succ_pos _)
    case places => rintro ⟨_ | i, p⟩ a <;> simp

/-- The elements that pass a test are listed by their positions. -/
theorem filter_map (test : β → Bool) (g : β → α) (xs : List β) :
    Enumerates (fun i j : Nat => i < j) (fun i a => ∃ x, xs[i]? = some x ∧ test x ∧ a = g x)
      ((xs.filter test).map g) := by
  induction xs with
  | nil => exact nil (by simp)
  | cons x xs ih =>
    have hfirst : Enumerates (fun i j : Nat => i < j) (fun i a => i = 0 ∧ test x ∧ a = g x)
        (([x].filter test).map g) := by
      cases htest : test x with
      | true =>
        rw [List.filter_cons_of_pos htest]
        exact singleton (p := 0) (by simp)
      | false =>
        rw [List.filter_cons_of_neg (by simp [htest])]
        exact nil (by simp)
    have happend := hfirst.append (ih.rename _ Nat.succ fun p q => Nat.succ_lt_succ) <| by
      rintro _ a _ b ⟨rfl, -⟩ ⟨q, rfl, -⟩
      exact Nat.succ_pos q
    rw [← List.map_append, ← List.filter_append] at happend
    refine happend.congr fun i a => ?_
    cases i <;> simp

theorem eq_nil_iff (h : Enumerates before R l) : l = [] ↔ ∀ p a, ¬ R p a := by
  obtain ⟨places, -, hmem, hall⟩ := h
  constructor
  · rintro rfl p a ha
    cases hall
    exact absurd ((hmem p).2 ⟨a, ha⟩) List.not_mem_nil
  · intro hnone
    cases hall with
    | nil => rfl
    | cons ha _ => exact absurd ha (hnone _ _)

/-- The first element is what stands at the first place. -/
theorem head?_eq_some_iff {a : α} (h : Enumerates before R l)
    (hasymm : ∀ p q, before p q → ¬ before q p) (hunique : ∀ p a b, R p a → R p b → a = b) :
    l.head? = some a ↔ ∃ p, R p a ∧ ∀ q b, R q b → q = p ∨ before p q := by
  obtain ⟨places, hsorted, hmem, hall⟩ := h
  cases hall with
  | nil =>
    refine iff_of_false (by simp) ?_
    rintro ⟨p, ha, -⟩
    exact absurd ((hmem p).2 ⟨a, ha⟩) List.not_mem_nil
  | @cons p b places l hb hall =>
    have hfirst (q : π) (hq : ∃ c, R q c) : q = p ∨ before p q :=
      (List.mem_cons.1 ((hmem q).2 hq)).imp_right ((List.pairwise_cons.1 hsorted).1 q)
    rw [List.head?_cons, Option.some_inj]
    constructor
    · rintro rfl
      exact ⟨p, hb, fun q c hc => hfirst q ⟨c, hc⟩⟩
    · rintro ⟨q, ha, hq⟩
      -- both places are first, so that they are the same
      obtain rfl | hpq := hfirst q ⟨a, ha⟩
      · exact hunique q b a hb ha
      · obtain rfl | hqp := hq p b hb
        · exact absurd hpq (hasymm _ _ hpq)
        · exact absurd hqp (hasymm _ _ hpq)

end Enumerates

end

/-! ## Dangling References -/

/-- A descriptor names a kind at a place of its reference, however deep this lies. -/
inductive Descriptor.Names : Descriptor → Nat → String → Prop
  | ref {kinds : List String} {n : Nat} {kind : String} (h : kinds[n]? = some kind) :
    Names (.ref kinds) n kind
  | optional {inner : Descriptor} {n : Nat} {kind : String} (h : Names inner n kind) :
    Names (.optional inner) n kind
  | arrayOf {inner : Descriptor} {n : Nat} {kind : String} (h : Names inner n kind) :
    Names (.arrayOf inner) n kind

theorem Descriptor.names_iff {d : Descriptor} {n : Nat} {kind : String} :
    d.Names n kind ↔ d.referencedKinds[n]? = some kind := by
  constructor
  · intro h
    induction h with
    | ref h => exact h
    | optional _ ih => exact ih
    | arrayOf _ ih => exact ih
  · intro h
    induction d with
    | primitive p => cases h
    | union literals => cases h
    | optional inner ih => exact .optional (ih h)
    | arrayOf inner ih => exact .arrayOf (ih h)
    | ref kinds => exact .ref h

namespace Schema

/-- A place in a schema: the positions of a kind, of a field of the kind, and of a name in the
reference of the field. -/
abbrev Place := Nat × Nat × Nat

/-- Places come in the order of the kinds, then of the fields, then of the names. -/
def Place.Before : Place → Place → Prop := Prod.Lex (· < ·) (Prod.Lex (· < ·) (· < ·))

/-- At a place of a schema a kind is named that is not declared. -/
inductive DanglesAt (schema : Schema) : Place → DanglingRef → Prop
  | intro {i j n : Nat} {kind field missing : String} {s : Structure} {d : Descriptor}
    (hkind : schema.kindNames[i]? = some kind) (hstructure : schema.kind? kind = some s)
    (hfield : s.fields.entries[j]? = some (field, d)) (hname : d.Names n missing)
    (hmissing : missing ∉ schema.kindNames) : DanglesAt schema (i, j, n) ⟨kind, field, missing⟩

/-- The dangling reference with the first place. -/
def FirstDangling (schema : Schema) (r : DanglingRef) : Prop :=
  ∃ place, schema.DanglesAt place r ∧
    ∀ place' r', schema.DanglesAt place' r' → place' = place ∨ Place.Before place place'

variable {schema : Schema}

theorem Place.Before.asymm {p q : Place} (h : Place.Before p q) : ¬ Place.Before q p := by
  simp only [Before, Prod.lex_def] at h ⊢
  omega

theorem DanglesAt.unique {p : Place} {r r' : DanglingRef} (h : schema.DanglesAt p r)
    (h' : schema.DanglesAt p r') : r = r' := by
  obtain ⟨hkind, hstructure, hfield, hname, -⟩ := h
  obtain ⟨hkind', hstructure', hfield', hname', -⟩ := h'
  rw [hkind, Option.some_inj] at hkind'
  subst hkind'
  rw [hstructure, Option.some_inj] at hstructure'
  subst hstructure'
  rw [hfield, Option.some_inj] at hfield'
  cases hfield'
  rw [Descriptor.names_iff] at hname hname'
  rw [hname, Option.some_inj] at hname'
  rw [hname']

/-- The dangling references are listed by their places. -/
theorem enumerates_danglingRefs (schema : Schema) :
    Enumerates Place.Before schema.DanglesAt schema.danglingRefs := by
  -- the names of one field, then the fields of one kind, then the kinds
  have hfield (kind : String) (f : String × Descriptor) :=
    Enumerates.filter_map (fun missing => !schema.containsKind missing) (DanglingRef.mk kind f.1)
      f.2.referencedKinds
  have hkind (k : String × Structure) := Enumerates.flatMap (hfield k.1) k.2.fields.entries
  refine (Enumerates.flatMap hkind schema.kinds.entries).congr ?_
  rintro ⟨i, j, n⟩ r
  constructor
  · rintro ⟨⟨kind, s⟩, hkind, ⟨field, d⟩, hfield, missing, hname, hmissing, rfl⟩
    obtain ⟨hkey, hstructure⟩ := OrderedMap.getElem?_entries_iff.1 hkind
    refine .intro hkey hstructure hfield (Descriptor.names_iff.2 hname) fun hmem => ?_
    rw [containsKind, OrderedMap.contains_iff.2 hmem] at hmissing
    cases hmissing
  · rintro ⟨hkey, hstructure, hfield, hname, hmissing⟩
    refine ⟨_, OrderedMap.getElem?_entries_iff.2 ⟨hkey, hstructure⟩, _, hfield, _,
      Descriptor.names_iff.1 hname, ?_, rfl⟩
    have hnot : ¬ schema.containsKind _ := mt OrderedMap.contains_iff.1 hmissing
    simpa using hnot

theorem head?_danglingRefs_iff {r : DanglingRef} :
    schema.danglingRefs.head? = some r ↔ schema.FirstDangling r :=
  schema.enumerates_danglingRefs.head?_eq_some_iff (fun _ _ => Place.Before.asymm)
    fun _ _ _ => DanglesAt.unique

theorem danglingRefs_eq_nil_iff :
    schema.danglingRefs = [] ↔ ∀ place r, ¬ schema.DanglesAt place r :=
  schema.enumerates_danglingRefs.eq_nil_iff

end Schema

/-! ## Declarations -/

namespace SchemaBuilder

variable {b : SchemaBuilder} {l : List (String × Structure)} {kind name : String} {s : Structure}

/-- The names of some declarations, as often as they are declared. -/
def names (l : List (String × Structure)) : List String := l.map Prod.fst

/-- Every kind that a declared structure names, at any depth of any field, is declared: earlier,
later or by the same declaration. -/
def Closed (l : List (String × Structure)) : Prop :=
  ∀ kind s, (kind, s) ∈ l → ∀ f ∈ s.fields.entries, ∀ n k, f.2.Names n k → k ∈ names l

/-- The name is the first to be declared again: it has been declared before, and the names before
are different. -/
def FirstRepeated (l : List (String × Structure)) (name : String) : Prop :=
  ∃ before s rest, l = before ++ (name, s) :: rest ∧ (names before).Nodup ∧ name ∈ names before

theorem names_concat (l : List (String × Structure)) (d : String × Structure) :
    names (l ++ [d]) = names l ++ [d.1] := List.map_append

theorem nodup_names_concat {d : String × Structure} :
    (names (l ++ [d])).Nodup ↔ d.1 ∉ names l ∧ (names l).Nodup := by
  rw [names_concat, ← List.concat_eq_append, List.nodup_concat]

theorem declareAll_concat (b : SchemaBuilder) (l : List (String × Structure))
    (d : String × Structure) :
    b.declareAll (l ++ [d]) = (b.declareAll l).declare d.1 d.2 := List.foldl_concat _ _ _ _

/-! ### The Schema of the Declarations -/

/-- The kinds of the schema are the declared names, each where it came first. -/
theorem kindNames_build (l : List (String × Structure)) :
    (empty.declareAll l).build.kindNames = (names l).eraseDups := by
  induction l using List.reverseRecOn with
  | nil => rfl
  | append_singleton l d ih =>
    have hkeys : (empty.declareAll l).kinds.keys = (names l).eraseDups := ih
    rw [declareAll_concat, names_concat, List.eraseDups_append]
    show ((empty.declareAll l).kinds.insert d.1 d.2).keys = _
    have hcontains : (empty.declareAll l).kinds.contains d.1 ↔ d.1 ∈ names l := by
      rw [OrderedMap.contains_iff, hkeys, List.mem_eraseDups]
    rw [OrderedMap.keys_insert, hkeys]
    -- a name that comes again keeps its position, and any other one goes last
    by_cases h : d.1 ∈ names l
    · simp [hcontains.2 h, List.removeAll, h]
    · simp [mt hcontains.1 h, List.removeAll, List.eraseDups_cons, h]

theorem mem_kindNames_build : kind ∈ (empty.declareAll l).build.kindNames ↔ kind ∈ names l := by
  rw [kindNames_build, List.mem_eraseDups]

/-- The structure of a kind is the one that was declared last. -/
theorem kind?_build (l : List (String × Structure)) (kind : String) :
    (empty.declareAll l).build.kind? kind = l.reverse.lookup kind := by
  induction l using List.reverseRecOn with
  | nil => rfl
  | append_singleton l d ih =>
    have hget : (empty.declareAll l).kinds.get? kind = l.reverse.lookup kind := ih
    rw [declareAll_concat, List.reverse_append]
    show ((empty.declareAll l).kinds.insert d.1 d.2).get? kind = (d :: l.reverse).lookup kind
    rw [OrderedMap.get?_insert, hget, List.lookup_cons]
    by_cases h : kind = d.1
    · simp [h]
    · simp [h, beq_eq_false_iff_ne.2 h]

/-- With different names, every declaration is the last one of its name. -/
theorem kind?_build_eq_some_iff (h : (names l).Nodup) :
    (empty.declareAll l).build.kind? kind = some s ↔ (kind, s) ∈ l := by
  have hreverse : (l.reverse.map Prod.fst).Nodup := by
    rw [List.map_reverse, List.nodup_reverse]
    exact h
  rw [kind?_build, ← List.mem_reverse]
  exact OrderedMap.get?_eq_some_iff (m := ⟨l.reverse, hreverse⟩)

/-! ### Names that Come Again -/

/-- One more declaration is noted if it repeats a name. -/
theorem redeclared_concat (l : List (String × Structure)) (d : String × Structure) :
    (empty.declareAll (l ++ [d])).redeclared =
      (empty.declareAll l).redeclared ++ if d.1 ∈ names l then [d.1] else [] := by
  have hcontains : (empty.declareAll l).kinds.contains d.1 ↔ d.1 ∈ names l :=
    OrderedMap.contains_iff.trans mem_kindNames_build
  rw [declareAll_concat]
  show (if (empty.declareAll l).kinds.contains d.1 then _ else _) = _
  by_cases h : d.1 ∈ names l
  · rw [if_pos (hcontains.2 h), if_pos h]
  · rw [if_neg (mt hcontains.1 h), if_neg h, List.append_nil]

theorem redeclared_eq_nil_iff : (empty.declareAll l).redeclared = [] ↔ (names l).Nodup := by
  induction l using List.reverseRecOn with
  | nil => exact iff_of_true rfl List.nodup_nil
  | append_singleton l d ih =>
    rw [redeclared_concat, List.append_eq_nil_iff, ih, nodup_names_concat, and_comm]
    simp

/-- More declarations leave the first repeated name the first one. -/
theorem FirstRepeated.concat (h : FirstRepeated l name) (d : String × Structure) :
    FirstRepeated (l ++ [d]) name := by
  obtain ⟨before, s, rest, rfl, hnodup, hmem⟩ := h
  exact ⟨before, s, rest ++ [d], by simp, hnodup, hmem⟩

theorem head?_redeclared_of_firstRepeated (h : FirstRepeated l name) :
    (empty.declareAll l).redeclared.head? = some name := by
  obtain ⟨before, s, rest, rfl, hnodup, hmem⟩ := h
  induction rest using List.reverseRecOn with
  | nil => rw [redeclared_concat, if_pos hmem, redeclared_eq_nil_iff.2 hnodup]; rfl
  | append_singleton rest d ih =>
    rw [← List.cons_append, ← List.append_assoc, redeclared_concat, List.head?_append, ih]
    rfl

theorem exists_firstRepeated (h : ¬ (names l).Nodup) : ∃ name, FirstRepeated l name := by
  induction l using List.reverseRecOn with
  | nil => exact absurd List.nodup_nil h
  | append_singleton l d ih =>
    by_cases hnodup : (names l).Nodup
    · have hmem : d.1 ∈ names l := by
        by_contra hnot
        exact h (nodup_names_concat.2 ⟨hnot, hnodup⟩)
      exact ⟨d.1, l, d.2, [], rfl, hnodup, hmem⟩
    · obtain ⟨name, hname⟩ := ih hnodup
      exact ⟨name, hname.concat d⟩

/-- The first name that is noted is the first one to be declared again. -/
theorem head?_redeclared_iff :
    (empty.declareAll l).redeclared.head? = some name ↔ FirstRepeated l name := by
  refine ⟨fun h => ?_, head?_redeclared_of_firstRepeated⟩
  have hrepeated : ¬ (names l).Nodup := by
    intro hnodup
    rw [redeclared_eq_nil_iff.2 hnodup] at h
    cases h
  obtain ⟨first, hfirst⟩ := exists_firstRepeated hrepeated
  rw [head?_redeclared_of_firstRepeated hfirst, Option.some_inj] at h
  exact h ▸ hfirst

/-! ### Checked Builds -/

theorem buildChecked_eq_ok_iff {schema : Schema} :
    b.buildChecked = .ok schema ↔
      b.redeclared = [] ∧ b.build.danglingRefs = [] ∧ schema = b.build := by
  rw [buildChecked]
  cases b.redeclared <;> cases b.build.danglingRefs <;> simp [eq_comm]

theorem buildChecked_eq_duplicateKind_iff :
    b.buildChecked = .error (.duplicateKind name) ↔ b.redeclared.head? = some name := by
  rw [buildChecked]
  cases b.redeclared <;> cases b.build.danglingRefs <;> simp

theorem buildChecked_eq_unknownKind_iff {r : DanglingRef} :
    b.buildChecked = .error (.unknownKind r) ↔
      b.redeclared = [] ∧ b.build.danglingRefs.head? = some r := by
  rw [buildChecked]
  cases b.redeclared <;> cases b.build.danglingRefs <;> simp

theorem buildChecked_ne_incoherent (b : SchemaBuilder) (problems : List Implication) :
    b.buildChecked ≠ .error (.incoherent problems) := by
  rw [buildChecked]
  cases b.redeclared <;> cases b.build.danglingRefs <;> simp

/-- Declarations of different names are closed exactly if the schema has no dangling references. -/
theorem closed_iff (h : (names l).Nodup) :
    Closed l ↔ (empty.declareAll l).build.danglingRefs = [] := by
  rw [Schema.danglingRefs_eq_nil_iff]
  constructor
  · rintro hclosed place r ⟨-, hstructure, hfield, hname, hmissing⟩
    refine hmissing (mem_kindNames_build.2 ?_)
    exact hclosed _ _ ((kind?_build_eq_some_iff h).1 hstructure) _ (List.mem_of_getElem? hfield)
      _ _ hname
  · intro hnone kind s hs f hf n k hk
    have hkind : kind ∈ (empty.declareAll l).build.kindNames :=
      mem_kindNames_build.2 (List.mem_map_of_mem hs)
    obtain ⟨i, hi⟩ := List.getElem?_of_mem hkind
    obtain ⟨j, hj⟩ := List.getElem?_of_mem hf
    by_contra hmissing
    refine hnone (i, j, n) ⟨kind, f.1, k⟩ ?_
    exact .intro hi ((kind?_build_eq_some_iff h).2 hs) hj hk (mt mem_kindNames_build.1 hmissing)

/-- A checked build of any declarations. The schema has each name where it came first, with the
structure that came last, and its dangling references are listed by their places. The build accepts
exactly the closed declarations of different names, and then the schema is that of a build without
checks. It refuses the first name to be declared again, and without one the first dangling
reference. -/
theorem buildChecked_exact (l : List (String × Structure)) :
    let b := empty.declareAll l
    (b.build.kindNames = (names l).eraseDups ∧
      ∀ kind, b.build.kind? kind = l.reverse.lookup kind) ∧
    Enumerates Schema.Place.Before b.build.DanglesAt b.build.danglingRefs ∧
    (∀ schema, b.buildChecked = .ok schema ↔
      (names l).Nodup ∧ Closed l ∧ schema = b.build) ∧
    (∀ name, b.buildChecked = .error (.duplicateKind name) ↔ FirstRepeated l name) ∧
    (∀ r, b.buildChecked = .error (.unknownKind r) ↔
      (names l).Nodup ∧ b.build.FirstDangling r) ∧
    ∀ problems, b.buildChecked ≠ .error (.incoherent problems) := by
  intro b
  refine ⟨⟨kindNames_build l, kind?_build l⟩, b.build.enumerates_danglingRefs,
    fun schema => ?_, fun name => ?_, fun r => ?_, b.buildChecked_ne_incoherent⟩
  · rw [buildChecked_eq_ok_iff, redeclared_eq_nil_iff]
    exact and_congr_right fun h => and_congr_left' (closed_iff h).symm
  · rw [buildChecked_eq_duplicateKind_iff, head?_redeclared_iff]
  · rw [buildChecked_eq_unknownKind_iff, redeclared_eq_nil_iff, Schema.head?_danglingRefs_iff]

/-- Parts that are made of kits and parts, and kits, which are declared later. -/
def kitDeclarations : List (String × Structure) := [
  ("Part", .ofFields [("of", .optional (.arrayOf (.ref ["Kit", "Part"]))),
    ("by", .ref ["Part", "Maker", "Shop"])]),
  ("Kit", .ofFields [("parts", .arrayOf (.ref ["Part", "Crate"]))])]

/-- Parts without a maker. -/
def bareDeclarations : List (String × Structure) := [
  ("Part", .ofFields [("of", .arrayOf (.optional (.ref ["Part", "Kit"])))])]

/-- The kinds that are missing. -/
def missingDeclarations : List (String × Structure) := [
  ("Shop", .empty), ("Maker", .empty), ("Crate", .empty)]

/-- The maker is the first kind that is missing. When parts are declared again without one, this is
refused, and of the schema only the crate is missing. With the missing kinds all is well. -/
theorem checked_kitDeclarations :
    (empty.declareAll kitDeclarations).build.FirstDangling ⟨"Part", "by", "Maker"⟩ ∧
    FirstRepeated (kitDeclarations ++ bareDeclarations) "Part" ∧
    (empty.declareAll (kitDeclarations ++ bareDeclarations)).build.danglingRefs =
      [⟨"Kit", "parts", "Crate"⟩] ∧
    Closed (kitDeclarations ++ missingDeclarations) := by
  obtain ⟨-, -, -, -, hdangling, -⟩ := buildChecked_exact kitDeclarations
  obtain ⟨-, -, -, hrepeated, -⟩ := buildChecked_exact (kitDeclarations ++ bareDeclarations)
  obtain ⟨-, -, haccepted, -⟩ := buildChecked_exact (kitDeclarations ++ missingDeclarations)
  have hmaker := (hdangling ⟨"Part", "by", "Maker"⟩).1 (by decide +kernel)
  have hpart := (hrepeated "Part").1 (by decide +kernel)
  have hclosed := (haccepted (empty.declareAll (kitDeclarations ++ missingDeclarations)).build).1
    (by decide +kernel)
  exact ⟨hmaker.2, hpart, by decide +kernel, hclosed.2.1⟩

end SchemaBuilder

end TypedGraph
