import TypedGraph.Proofs.Validation.Composition

/-!
# Matching and Conformance

Conformance judges the references in a value by a relation between entities and kinds. Matching
collects the same references as goals. A value conforms exactly if it matches by itself and all
goals are met by the relation, and so does an entity.

## Main definitions

* `RefGoal.Met`: the relation gives the entity one of the kinds of the goal.

## Main results

* `conforms_iff` and `entityConforms_iff`: conformance is matching with all goals met;
* `meet_eq_true_iff_of_known` and `fst_matchValue_iff_of_known`: where all entities have kinds,
  goals are met and values matched without a search;
* `Conforms.mono` and `EntityConforms.mono`: a larger relation keeps conformance;
* `looseTyping_canBe`: the kinds that entities can be form a loose typing, the largest one.
-/

namespace TypedGraph

/-- The entity that a goal refers to has one of its kinds. -/
def RefGoal.Met (typing : Typing) (g : RefGoal) : Prop := ∃ kind ∈ g.kinds, typing g.id kind

theorem RefGoal.Met.mono {typing typing' : Typing} {g : RefGoal} (h : g.Met typing)
    (hle : ∀ id kind, typing id kind → typing' id kind) : g.Met typing' := by
  obtain ⟨kind, hkind, hty⟩ := h
  exact ⟨kind, hkind, hle _ _ hty⟩

namespace Conforms

variable {graph : EntityGraph} {typing : Typing} {value : Option Json}

theorem primitive_iff {p : Primitive} :
    Conforms graph typing (.primitive p) value ↔ ∃ x, value = some x ∧ p.accepts x := by
  constructor
  · rintro ⟨⟩
    next x hx => exact ⟨x, rfl, hx⟩
  · rintro ⟨x, rfl, hx⟩
    exact .primitive hx

theorem union_iff {literals : StringSet} :
    Conforms graph typing (.union literals) value ↔ ∃ s, value = some (.str s) ∧ s ∈ literals := by
  constructor
  · rintro ⟨⟩
    next s hs => exact ⟨s, rfl, hs⟩
  · rintro ⟨s, rfl, hs⟩
    exact .union hs

theorem optional_iff {d : Descriptor} :
    Conforms graph typing (.optional d) value ↔
      ∀ x, value = some x → Conforms graph typing d (some x) := by
  constructor
  · rintro (_ | h) x hx
    · cases hx
    · rwa [← hx]
  · intro h
    cases value with
    | none => exact .absent
    | some x => exact .present (h x rfl)

theorem arrayOf_iff {d : Descriptor} :
    Conforms graph typing (.arrayOf d) value ↔
      ∃ items, value = some (.arr items) ∧ ∀ item ∈ items, Conforms graph typing d (some item) := by
  constructor
  · rintro ⟨⟩
    next items h => exact ⟨items, rfl, h⟩
  · rintro ⟨items, rfl, h⟩
    exact .arrayOf h

theorem ref_iff {kinds : List String} :
    Conforms graph typing (.ref kinds) value ↔
      ∃ id : EntityId, graph.contains id ∧ value = some (.obj [("ref", .str id.text)]) ∧
        ∃ kind ∈ kinds, typing id kind := by
  constructor
  · rintro ⟨⟩
    next kind text hid h hkind => exact ⟨⟨text⟩, hid, rfl, kind, hkind, h⟩
  · rintro ⟨id, hid, rfl, kind, hkind, h⟩
    exact .ref hid hkind h

/-- More entities and a relation that is larger on the entities keep conformance. The induction is
on the derivation. -/
theorem mono {graph' : EntityGraph} {typing' : Typing} {d : Descriptor}
    (hids : ∀ id, graph.contains id → graph'.contains id)
    (hle : ∀ id kind, graph.contains id → typing id kind → typing' id kind)
    (h : Conforms graph typing d value) : Conforms graph' typing' d value := by
  induction h with
  | absent => exact .absent
  | present _ ih => exact .present ih
  | primitive hp => exact .primitive hp
  | union hs => exact .union hs
  | arrayOf _ ih => exact .arrayOf ih
  | ref hid hkind hty => exact .ref (hids _ hid) hkind (hle _ _ hid hty)

end Conforms

/-- More entities and a relation that is larger on the entities keep an object in line with its
structure. -/
theorem ConformsTo.mono {graph graph' : EntityGraph} {typing typing' : Typing} {s : Structure}
    {members : List (String × Json)} (hids : ∀ id, graph.contains id → graph'.contains id)
    (hle : ∀ id kind, graph.contains id → typing id kind → typing' id kind)
    (h : ConformsTo graph typing s members) : ConformsTo graph' typing' s members :=
  ⟨h.declared, fun f hf => (h.fields f hf).mono hids hle⟩

theorem EntityConforms.mono {schema : Schema} {graph : EntityGraph} {typing typing' : Typing}
    {id : EntityId} {kind : String} (hle : ∀ id kind, typing id kind → typing' id kind)
    (h : EntityConforms schema graph typing id kind) :
    EntityConforms schema graph typing' id kind := by
  obtain ⟨s, members, hs, hm, hto⟩ := h
  exact ⟨s, members, hs, hm, hto.mono (fun _ hid => hid) fun j k _ => hle j k⟩

/-- The kinds that entities can be form a loose typing themselves. -/
theorem looseTyping_canBe (schema : Schema) (graph : EntityGraph) :
    LooseTyping schema graph (CanBe schema graph) := by
  rintro id kind ⟨typing, hloose, hty⟩
  refine (hloose id kind hty).mono fun j k hjk => ?_
  exact ⟨typing, hloose, hjk⟩

namespace Validator

variable {v : Validator} {typing : Typing}

/-- Goals collected from the elements of a list are all met if those of each element are. -/
theorem exists_mapM_flatten_iff {α β : Type} {f : α → Option (List β)} {p : β → Prop}
    (l : List α) :
    (∃ all, (l.mapM f).map List.flatten = some all ∧ ∀ b ∈ all, p b) ↔
      ∀ x ∈ l, ∃ part, f x = some part ∧ ∀ b ∈ part, p b := by
  induction l with
  | nil => simp
  | cons x l ih =>
    rw [List.forall_mem_cons, ← ih, List.mapM_cons]
    cases f x with
    | none => simp
    | some part =>
      cases l.mapM f with
      | none => simp
      | some parts => simp [or_imp, forall_and]

/-- A value points at an entity exactly if it is a token of the form that conformance asks for. -/
theorem target?_eq_some_iff {value : Json} {id : EntityId} :
    v.target? value = some id ↔
      v.graph.contains id ∧ value = .obj [("ref", .str id.text)] := by
  have hin (j : EntityId) : (v.entity? j).isSome = v.graph.contains j := by
    rw [v.entity?_eq]
    rfl
  constructor
  · intro h
    unfold target? at h
    split at h
    · split at h
      · next hkey =>
        cases h
        exact ⟨(hin _).symm.trans hkey.2, by rw [hkey.1]⟩
      · cases h
    · cases h
  · rintro ⟨hid, rfl⟩
    simp [target?, hin, hid]

theorem collect_arr (d : Descriptor) (items : List Json) :
    v.collect (.arrayOf d) (some (.arr items)) =
      (items.mapM fun item => v.collect d (some item)).map List.flatten := by
  rw [collect, Option.map_eq_bind]
  rfl

theorem collect_ref (kinds : List String) (value : Json) :
    v.collect (.ref kinds) (some value) = (v.target? value).map fun id => [⟨id, kinds⟩] := by
  rw [collect, Option.map_eq_bind]
  rfl

theorem collectFields_obj {s : Structure} {members : List (String × Json)}
    (h : ∀ m ∈ members, s.contains m.1) :
    v.collectFields s (.obj members) =
      (s.fields.entries.mapM fun f => v.collect f.2 (Json.lookup members f.1)).map
        List.flatten := by
  have hall : (members.all fun m => s.contains m.1) = true := List.all_eq_true.2 h
  rw [Option.map_eq_bind]
  simp only [collectFields, Json.members?, Option.bind_eq_bind, Option.bind_some, hall, if_true]
  rfl

theorem collectFields_of_undeclared {s : Structure} {members : List (String × Json)}
    (h : ¬ ∀ m ∈ members, s.contains m.1) : v.collectFields s (.obj members) = none := by
  have hall : ¬ (members.all fun m => s.contains m.1) = true := fun hall =>
    h (List.all_eq_true.1 hall)
  simp only [collectFields, Json.members?, Option.bind_eq_bind, Option.bind_some, if_neg hall]

/-- A value conforms exactly if it matches by itself and its references have kinds that they name.
The induction is on the descriptor. -/
theorem conforms_iff {d : Descriptor} {value : Option Json} :
    Conforms v.graph typing d value ↔
      ∃ goals, v.collect d value = some goals ∧ ∀ g ∈ goals, g.Met typing := by
  induction d generalizing value with
  | primitive p =>
    rw [Conforms.primitive_iff]
    cases value with
    | none => simp [collect]
    | some x => by_cases hp : p.accepts x <;> simp [collect, hp]
  | union literals =>
    rw [Conforms.union_iff]
    cases value with
    | none => simp [collect]
    | some x =>
      cases x with
      | str s =>
        by_cases hs : s ∈ literals
        · simp [collect, Json.str?, StringSet.contains_iff, hs]
        · simp [collect, Json.str?, StringSet.contains_iff, hs]
      | _ => simp [collect, Json.str?]
  | optional d ih =>
    rw [Conforms.optional_iff]
    cases value with
    | none => simp [collect]
    | some x => simp [collect, ih]
  | arrayOf d ih =>
    rw [Conforms.arrayOf_iff]
    cases value with
    | none => simp [collect]
    | some x =>
      cases x with
      | arr items =>
        rw [collect_arr, exists_mapM_flatten_iff]
        simp [ih]
      | _ => simp [collect, Json.items?]
  | ref kinds =>
    rw [Conforms.ref_iff]
    cases value with
    | none => simp [collect]
    | some x =>
      -- a token opens a single goal, which is met if the entity has one of the kinds
      rw [collect_ref]
      constructor
      · rintro ⟨id, hid, hx, hmet⟩
        cases hx
        refine ⟨[⟨id, kinds⟩], by rw [target?_eq_some_iff.2 ⟨hid, rfl⟩]; rfl, ?_⟩
        rintro g (_ | ⟨_, ⟨⟩⟩)
        exact hmet
      · rintro ⟨goals, hgoals, hmet⟩
        obtain ⟨id, htarget, rfl⟩ := Option.map_eq_some_iff.1 hgoals
        obtain ⟨hid, rfl⟩ := target?_eq_some_iff.1 htarget
        exact ⟨id, hid, rfl, hmet ⟨id, kinds⟩ (by simp)⟩

/-- An entity conforms to a structure exactly if it matches by itself and its references have kinds
that they name. -/
theorem conformsTo_iff {s : Structure} {entity : Json} :
    (∃ members, entity = .obj members ∧ ConformsTo v.graph typing s members) ↔
      ∃ goals, v.collectFields s entity = some goals ∧ ∀ g ∈ goals, g.Met typing := by
  cases entity with
  | obj members =>
    -- an undeclared member is refused on both sides
    by_cases hdecl : ∀ m ∈ members, s.contains m.1
    · rw [collectFields_obj hdecl, exists_mapM_flatten_iff]
      simp only [← conforms_iff]
      constructor
      · rintro ⟨members', heq, h⟩
        cases heq
        exact h.fields
      · intro h
        exact ⟨members, rfl, hdecl, h⟩
    · constructor
      · rintro ⟨members', heq, h⟩
        cases heq
        exact absurd h.declared hdecl
      · rintro ⟨goals, hgoals, -⟩
        rw [collectFields_of_undeclared hdecl] at hgoals
        cases hgoals
  | _ => simp [collectFields, Json.members?]

/-- An entity conforms to a kind exactly if the goals that it opens are all met. -/
theorem entityConforms_iff {id : EntityId} {kind : String} :
    EntityConforms v.schema v.graph typing id kind ↔
      ∃ goals, v.goalsOf id kind = some goals ∧ ∀ g ∈ goals, g.Met typing := by
  constructor
  · rintro ⟨s, members, hs, hm, h⟩
    obtain ⟨goals, hg, hmet⟩ := conformsTo_iff.1 ⟨members, rfl, h⟩
    exact ⟨goals, goalsOf_eq_some_iff.2 ⟨s, _, hs, hm, hg⟩, hmet⟩
  · rintro ⟨goals, hg, hmet⟩
    obtain ⟨s, entity, hs, he, hg⟩ := goalsOf_eq_some_iff.1 hg
    obtain ⟨members, rfl, h⟩ := conformsTo_iff.2 ⟨goals, hg, hmet⟩
    exact ⟨s, members, hs, he, h⟩

/-! ## Goals Stay in the Graph -/

/-- Goals that are collected from the elements of a list have what those of each element have. -/
theorem forall_mem_of_mapM_flatten {α β : Type} {f : α → Option (List β)} {p : β → Prop}
    {l : List α} (h : ∀ x ∈ l, ∀ part, f x = some part → ∀ b ∈ part, p b) {all : List β}
    (hall : (l.mapM f).map List.flatten = some all) : ∀ b ∈ all, p b := by
  have hsome := (exists_mapM_flatten_iff (p := fun _ => True) l).1 ⟨all, hall, fun _ _ => trivial⟩
  obtain ⟨all', hall', hp⟩ := (exists_mapM_flatten_iff (p := p) l).2 fun x hx => by
    obtain ⟨part, hpart, -⟩ := hsome x hx
    exact ⟨part, hpart, h x hx part hpart⟩
  cases hall.symm.trans hall'
  exact hp

/-- A value has goals only for entities of the graph. The induction is on the descriptor. -/
theorem contains_of_collect {d : Descriptor} {value : Option Json} {goals : List RefGoal}
    (h : v.collect d value = some goals) : ∀ g ∈ goals, v.graph.contains g.id := by
  induction d generalizing value goals with
  | primitive p =>
    cases value with
    | none => cases h
    | some x =>
      rw [collect] at h
      split at h
      · cases h
        exact List.forall_mem_nil _
      · cases h
  | union literals =>
    cases value with
    | none => cases h
    | some x =>
      rw [collect] at h
      split at h
      · cases h
        exact List.forall_mem_nil _
      · cases h
  -- Only an absent optional value collects without being read.
  | optional d ih =>
    cases value with
    | none =>
      cases h
      exact List.forall_mem_nil _
    | some x => exact ih h
  | arrayOf d ih =>
    cases value with
    | none => cases h
    | some x =>
      cases x with
      | arr items =>
        rw [collect_arr] at h
        exact forall_mem_of_mapM_flatten (fun item _ part hpart => ih hpart) h
      | _ => cases h
  | ref kinds =>
    cases value with
    | none => cases h
    | some x =>
      rw [collect_ref] at h
      obtain ⟨id, htarget, rfl⟩ := Option.map_eq_some_iff.1 h
      intro g hg
      rw [List.mem_singleton.1 hg]
      exact (target?_eq_some_iff.1 htarget).1

/-- An entity opens goals only for entities of the graph. -/
theorem contains_of_goalsOf {id : EntityId} {kind : String} {goals : List RefGoal}
    (h : v.goalsOf id kind = some goals) : ∀ g ∈ goals, v.graph.contains g.id := by
  obtain ⟨s, entity, -, -, hgoals⟩ := goalsOf_eq_some_iff.1 h
  cases entity with
  | obj members =>
    by_cases hdecl : ∀ m ∈ members, s.contains m.1
    · rw [collectFields_obj hdecl] at hgoals
      exact forall_mem_of_mapM_flatten (fun f _ part hpart => contains_of_collect hpart) hgoals
    · rw [collectFields_of_undeclared hdecl] at hgoals
      cases hgoals
  | _ => cases hgoals

/-! ## Entities with Kinds -/

/-- Goals whose entities all have kinds are met if the kinds are the right ones; nothing is
searched. -/
theorem meet_eq_true_iff_of_known {goals : List RefGoal} {a a' : Assignment}
    (hknown : ∀ g ∈ goals, ∃ bound, a.kind? g.id = some bound) :
    v.meet goals a = (true, a') ↔ a' = a ∧ ∀ g ∈ goals, g.Met a.typing := by
  induction goals with
  | nil => simp [eq_comm]
  | cons g goals ih =>
    obtain ⟨⟨bound, hbound⟩, hknown⟩ := List.forall_mem_cons.1 hknown
    have hmet : g.Met a.typing ↔ bound ∈ g.kinds := by
      constructor
      · rintro ⟨kind, hkind, hty⟩
        cases hbound.symm.trans hty
        exact hkind
      · intro hmem
        exact ⟨bound, hmem, hbound⟩
    rw [meet_cons, List.forall_mem_cons, hmet]
    by_cases hmem : bound ∈ g.kinds
    · rw [first_of_known hbound hmem]
      simp only [hmem, true_and]
      exact ih hknown
    · have hfirst : Check.first v.check g.id g.kinds a = (false, a) := by
        refine first_eq_false_iff.2 ⟨rfl, fun k hk => ?_⟩
        have hne : bound ≠ k := fun heq => hmem (heq ▸ hk)
        rw [check_of_known hbound, beq_eq_false_iff_ne.2 hne]
      rw [hfirst]
      simp [hmem]

/-- A value matches if it matches by itself and its goals can be met. -/
theorem fst_matchValue_iff {d : Descriptor} {value : Option Json} {a : Assignment} :
    (v.matchValue d value a).1 = true ↔
      ∃ goals, v.collect d value = some goals ∧ (v.meet goals a).1 = true := by
  unfold matchValue
  cases v.collect d value with
  | none => simp
  | some goals => simp [resolve_eq, fst_orUndo]

/-- If all entities have kinds, a value matches exactly if it conforms under these kinds. -/
theorem fst_matchValue_iff_of_known {d : Descriptor} {value : Option Json} {a : Assignment}
    (hknown : ∀ id, v.graph.contains id → ∃ bound, a.kind? id = some bound) :
    (v.matchValue d value a).1 = true ↔ Conforms v.graph a.typing d value := by
  rw [fst_matchValue_iff, conforms_iff]
  refine exists_congr fun goals => and_congr_right fun hgoals => ?_
  have hknown' (g : RefGoal) (hg : g ∈ goals) : ∃ bound, a.kind? g.id = some bound :=
    hknown g.id (contains_of_collect hgoals g hg)
  constructor
  · intro hok
    have hmeet : v.meet goals a = (true, (v.meet goals a).2) := Prod.ext hok rfl
    exact ((meet_eq_true_iff_of_known hknown').1 hmeet).2
  · intro hmet
    rw [(meet_eq_true_iff_of_known hknown').2 ⟨rfl, hmet⟩]

end Validator

end TypedGraph
