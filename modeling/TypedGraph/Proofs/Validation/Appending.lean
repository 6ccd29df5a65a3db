import TypedGraph.Proofs.Validation.Completeness

/-!
# Appending an Entity

A graph that is valid stays valid when an entity is appended, with the kinds that its entities have,
and the new entity gets the first kind that it conforms to. This is not plain to see, as the search
looks over the whole graph again and a reference that pointed at nothing may now point at the new
entity. But in a valid graph every value conforms to some descriptor, so that every token in it
points at an entity of the graph, under whatever descriptor it is matched. So the two searches go in
lock step until the new entity is reached. By then all others have kinds, and what is left is to
compare these with the kinds that its references name.

## Main definitions

* `Validator.Widens`: the same schema, and a graph with the same entities and possibly more;
* `AppendsAs`: the entity conforms to a kind once it is appended with this kind;
* `Appended`: what comes of validating a valid graph with one more entity.

## Main results

* `Validator.collect_eq_of_conforms`: a value that conforms to some descriptor matches every
  descriptor over the wider graph as it did before;
* `Validator.check_eq_of_goalsOf_eq`: searches that open the same goals go in lock step;
* `assign_insert`: what comes of appending an entity to a valid graph.
-/

namespace TypedGraph

namespace Validator

variable {v v' : Validator} {typing : Typing}

/-! ## Matching Over a Wider Graph -/

/-- The second validator has the schema of the first, and its graph has the same entities and
possibly more. -/
structure Widens (v v' : Validator) : Prop where
  /-- The schema is the same. -/
  schema : v'.schema = v.schema
  /-- No entity is lost. -/
  entities : ∀ id entity, v.graph.get? id = some entity → v'.graph.get? id = some entity

theorem Widens.contains (hw : v.Widens v') {id : EntityId} (h : v.graph.contains id) :
    v'.graph.contains id := by
  obtain ⟨entity, hentity⟩ := Option.isSome_iff_exists.1 h
  exact Option.isSome_iff_exists.2 ⟨entity, hw.entities id entity hentity⟩

theorem mapM_congr {α β : Type} {f g : α → Option β} {l : List α} (h : ∀ x ∈ l, f x = g x) :
    l.mapM f = l.mapM g := by
  induction l with
  | nil => rfl
  | cons x l ih =>
    obtain ⟨hx, hl⟩ := List.forall_mem_cons.1 h
    rw [List.mapM_cons, List.mapM_cons, hx, ih hl]

/-- Matching a value depends on the graph through the tokens only: the value itself may be one, or
an item of it may hold one. The induction is on the descriptor. -/
theorem collect_congr (v v' : Validator) {value : Json}
    (htarget : v'.target? value = v.target? value)
    (hitems : ∀ items, value = .arr items → ∀ item ∈ items, ∀ d,
      v'.collect d (some item) = v.collect d (some item)) (d : Descriptor) :
    v'.collect d (some value) = v.collect d (some value) := by
  induction d with
  | primitive p => rfl
  | union literals => rfl
  | optional d ih => exact ih
  | arrayOf d _ =>
    cases value with
    | arr items =>
      rw [collect_arr, collect_arr]
      exact congrArg _ (mapM_congr fun item hitem => hitems items rfl item hitem d)
    | _ => rfl
  | ref kinds => rw [collect_ref, collect_ref, htarget]

/-- A value, or its absence, that conforms to some descriptor matches every descriptor over a wider
graph as it did before. The induction is on the derivation of conformance, which goes down to all
tokens. -/
theorem collect_eq_of_conforms (hw : v.Widens v') {d₀ : Descriptor} {value : Option Json}
    (h : Conforms v.graph typing d₀ value) (d : Descriptor) :
    v'.collect d value = v.collect d value := by
  induction h generalizing d with
  | absent => cases d <;> rfl
  | present _ ih => exact ih d
  | @primitive p value hp =>
    -- a scalar is no token and has no items
    cases value with
    | arr items => cases p <;> cases hp
    | obj members => cases p <;> cases hp
    | _ =>
      refine collect_congr v v' rfl ?_ d
      exact fun _ heq => nomatch heq
  | union hs =>
    refine collect_congr v v' rfl ?_ d
    exact fun _ heq => nomatch heq
  | @arrayOf d₀ items _ ih =>
    refine collect_congr v v' rfl (fun items' heq item hitem d => ?_) d
    cases heq
    exact ih item hitem d
  | @ref kinds kind text hid hkind hty =>
    -- the token points at an entity of the smaller graph, and hence of the wider one
    refine collect_congr v v' ?_ ?_ d
    · rw [target?_eq_some_iff.2 ⟨hid, rfl⟩, target?_eq_some_iff.2 ⟨hw.contains hid, rfl⟩]
    · exact fun _ heq => nomatch heq

/-- An object in line with some structure matches every structure over a wider graph as it did
before. -/
theorem collectFields_eq_of_conformsTo (hw : v.Widens v') {s₀ : Structure}
    {members : List (String × Json)} (h : ConformsTo v.graph typing s₀ members) (s : Structure) :
    v'.collectFields s (.obj members) = v.collectFields s (.obj members) := by
  by_cases hdecl : ∀ m ∈ members, s.contains m.1
  · rw [collectFields_obj hdecl, collectFields_obj hdecl]
    refine congrArg _ (mapM_congr fun f _ => ?_)
    cases hlookup : Json.lookup members f.1 with
    | none =>
      have habsent : Conforms v.graph typing (.optional f.2) none := .absent
      exact collect_eq_of_conforms hw habsent f.2
    | some value =>
      -- whatever structure is tried, the value is one that the object's own structure declares
      have hmem : f.1 ∈ members.map Prod.fst := by
        rw [← OrderedMap.lookup_isSome_iff, ← Json.lookup, hlookup]
        rfl
      obtain ⟨m, hm, hname⟩ := List.mem_map.1 hmem
      obtain ⟨d₀, hd₀⟩ := Option.isSome_iff_exists.1 (h.declared m hm)
      have hvalue := h.fields (m.1, d₀) (OrderedMap.get?_eq_some_iff.1 hd₀)
      rw [hname, hlookup] at hvalue
      exact collect_eq_of_conforms hw hvalue f.2
  · rw [collectFields_of_undeclared hdecl, collectFields_of_undeclared hdecl]

/-- An entity that conforms to some kind opens for every kind the goals over a wider graph that it
opened before. -/
theorem goalsOf_eq_of_entityConforms (hw : v.Widens v') {id : EntityId} {kind₀ : String}
    (h : EntityConforms v.schema v.graph typing id kind₀) (kind : String) :
    v'.goalsOf id kind = v.goalsOf id kind := by
  obtain ⟨s₀, members, -, hmembers, hto⟩ := h
  rw [goalsOf, goalsOf, hw.schema, hmembers, hw.entities id _ hmembers]
  cases v.schema.kind? kind with
  | none => rfl
  | some s => exact collectFields_eq_of_conformsTo hw hto s

/-! ## Searches in Lock Step -/

theorem first_congr {id : EntityId} {a : Assignment}
    (h : ∀ kind, v'.check id kind a = v.check id kind a) (kinds : List String) :
    Check.first v'.check id kinds a = Check.first v.check id kinds a := by
  induction kinds with
  | nil => rfl
  | cons kind kinds ih =>
    rw [Check.first, Check.first, h]
    split
    · rfl
    · next b hcheck =>
      -- a kind that is refused leaves the assignment as it was
      rw [check_false hcheck]
      exact ih

/-- Goals are met alike if from some assignment on all checks of their entities agree. -/
theorem meet_congr {p : EntityId → Prop} {a₀ : Assignment}
    (hcheck : ∀ {id b}, p id → a₀ ≤ b → ∀ kind, v'.check id kind b = v.check id kind b)
    {goals : List RefGoal} (hgoals : ∀ g ∈ goals, p g.id) {a : Assignment} (ha : a₀ ≤ a) :
    v'.meet goals a = v.meet goals a := by
  induction goals generalizing a with
  | nil => rfl
  | cons g goals ih =>
    obtain ⟨hg, hgoals⟩ := List.forall_mem_cons.1 hgoals
    rw [meet_cons, meet_cons, first_congr (hcheck hg ha)]
    split
    · next b hfirst =>
      have hle := le_first v g.id g.kinds a
      rw [hfirst] at hle
      exact ih hgoals (Assignment.le_trans ha hle)
    · rfl

/-- Two searches that open the same goals for some entities, and only goals for these, go in lock
step. The induction is on the entities without kind. -/
theorem check_eq_of_goalsOf_eq {p : EntityId → Prop}
    (heq : ∀ id kind, p id → v'.goalsOf id kind = v.goalsOf id kind)
    (hclosed : ∀ id kind goals, v.goalsOf id kind = some goals → ∀ g ∈ goals, p g.id)
    {id : EntityId} (hid : p id) (kind : String) (a : Assignment) :
    v'.check id kind a = v.check id kind a := by
  induction a using v.bind_induction generalizing id kind with
  | bind a ih =>
    cases hknown : a.kind? id with
    | some bound => rw [check_of_known hknown, check_of_known hknown]
    | none =>
      have hsame := heq id kind hid
      cases hgoals : v.goalsOf id kind with
      | none =>
        rw [hgoals] at hsame
        rw [check_of_goalsOf_eq_none hknown hgoals, check_of_goalsOf_eq_none hknown hsame]
      | some goals =>
        rw [hgoals] at hsame
        rw [check_of_unknown hknown hgoals, check_of_unknown hknown hsame]
        have hmeet : v'.meet goals (a.bind id kind) = v.meet goals (a.bind id kind) := by
          refine meet_congr (p := p) (fun hj hle k => ?_) (hclosed id kind goals hgoals)
            (Assignment.le_refl _)
          exact ih hknown hgoals hle hj k
        rw [hmeet]

/-! ## The Last Entity without Kind -/

/-- The last entity without kind gets a kind if it conforms to it once it has it. -/
theorem check_eq_true_iff_of_last {x : EntityId} {kind : String} {a a' : Assignment}
    (hx : a.kind? x = none)
    (hknown : ∀ id, v.graph.contains id → id ≠ x → ∃ bound, a.kind? id = some bound) :
    v.check x kind a = (true, a') ↔
      a' = a.bind x kind ∧ EntityConforms v.schema v.graph (a.bind x kind).typing x kind := by
  rw [check_eq_true_iff, entityConforms_iff]
  -- once it is bound itself, there is nothing left to search
  have hmeet (goals : List RefGoal) (hgoals : v.goalsOf x kind = some goals) :
      v.meet goals (a.bind x kind) = (true, a') ↔
        a' = a.bind x kind ∧ ∀ g ∈ goals, g.Met (a.bind x kind).typing := by
    refine meet_eq_true_iff_of_known fun g hg => ?_
    by_cases hgx : g.id = x
    · exact ⟨kind, by rw [hgx, Assignment.kind?_bind_self]⟩
    · obtain ⟨bound, hbound⟩ := hknown g.id (contains_of_goalsOf hgoals g hg) hgx
      exact ⟨bound, Assignment.le_bind kind hx g.id bound hbound⟩
  constructor
  · rintro (⟨hbound, -⟩ | ⟨-, goals, hgoals, hmet⟩)
    · rw [hx] at hbound
      cases hbound
    · obtain ⟨ha', hmet⟩ := (hmeet goals hgoals).1 hmet
      exact ⟨ha', goals, hgoals, hmet⟩
  · rintro ⟨ha', goals, hgoals, hmet⟩
    exact .inr ⟨hx, goals, hgoals, (hmeet goals hgoals).2 ⟨ha', hmet⟩⟩

/-- The last entity without kind gets the first kind of the schema that it conforms to once it has
it. -/
theorem assignAll_singleton_of_last {x : EntityId} {a : Assignment} (hx : a.kind? x = none)
    (hknown : ∀ id, v.graph.contains id → id ≠ x → ∃ bound, a.kind? id = some bound) :
    (∃ before kind after, v.schema.kindNames = before ++ kind :: after ∧
      (∀ k ∈ before, ¬ EntityConforms v.schema v.graph (a.bind x k).typing x k) ∧
      EntityConforms v.schema v.graph (a.bind x kind).typing x kind ∧
      v.assignAll [x] a = .ok (a.bind x kind)) ∨
    (∀ kind ∈ v.schema.kindNames,
      ¬ EntityConforms v.schema v.graph (a.bind x kind).typing x kind) ∧
      v.assignAll [x] a = .error x := by
  -- Every other entity is bound already, so a check of the last one opens nothing: it binds that
  -- one id or refuses, and its answer is that the entity conforms.
  have hcheck (kind : String) {b : Assignment} :
      v.check x kind a = (true, b) ↔
        b = a.bind x kind ∧ EntityConforms v.schema v.graph (a.bind x kind).typing x kind :=
    check_eq_true_iff_of_last hx hknown
  have hrefused {kind : String} (h : (v.check x kind a).1 = false) :
      ¬ EntityConforms v.schema v.graph (a.bind x kind).typing x kind := by
    intro hconforms
    rw [(hcheck kind).2 ⟨rfl, hconforms⟩] at h
    cases h
  rw [assignAll, checkAny_eq_first]
  cases hfirst : Check.first v.check x v.schema.kindNames a with
  | mk ok b =>
    cases ok with
    | true =>
      obtain ⟨before, kind, after, hkinds, hbefore, hb⟩ := first_eq_true_iff.1 hfirst
      obtain ⟨rfl, hconforms⟩ := (hcheck kind).1 hb
      exact .inl ⟨before, kind, after, hkinds, fun k hk => hrefused (hbefore k hk), hconforms, rfl⟩
    | false =>
      obtain ⟨-, hnone⟩ := first_eq_false_iff.1 hfirst
      exact .inr ⟨fun kind hkind => hrefused (hnone kind hkind), rfl⟩

end Validator

/-! ## Appending to a Valid Graph -/

section

variable {schema : Schema} {graph : EntityGraph} {index : KindIndex} {x : EntityId} {value : Json}

/-- The entity conforms to the kind once it is appended with this kind, so that it may also point at
itself. -/
def AppendsAs (schema : Schema) (graph : EntityGraph) (index : KindIndex) (x : EntityId)
    (value : Json) (kind : String) : Prop :=
  EntityConforms schema (graph.insert x value) (KindIndex.typing (index.insert x kind)) x kind

/-- What comes of validating a valid graph with one more entity: the index with the new entity under
the first kind of the schema that it fits, or the new entity as the one without kind if it fits
none. -/
inductive Appended (schema : Schema) (graph : EntityGraph) (index : KindIndex) (x : EntityId)
    (value : Json) : Except EntityId KindIndex → Prop where
  | kind {before after : List String} {kind : String}
    (hkinds : schema.kindNames = before ++ kind :: after)
    (hbefore : ∀ k ∈ before, ¬ AppendsAs schema graph index x value k)
    (hkind : AppendsAs schema graph index x value kind) :
    Appended schema graph index x value (.ok (index.insert x kind))
  | none (h : ∀ kind ∈ schema.kindNames, ¬ AppendsAs schema graph index x value kind) :
    Appended schema graph index x value (.error x)

theorem ids_insert (hx : ¬ graph.contains x) (value : Json) :
    EntityGraph.ids (graph.insert x value) = graph.ids ++ [x] := by
  rw [EntityGraph.ids, OrderedMap.keys_insert, if_neg hx]
  rfl

/-- A graph with one more entity is wider. -/
theorem widens_insert (hx : ¬ graph.contains x) (value : Json) :
    (Validator.of schema graph).Widens (.of schema (graph.insert x value)) where
  schema := rfl
  entities := by
    intro id entity hentity
    have hne : id ≠ x := by
      rintro rfl
      exact hx (Option.isSome_iff_exists.2 ⟨entity, hentity⟩)
    exact (graph.get?_insert_of_ne value hne).trans hentity

/-- The search over a valid graph with one more entity has the kinds of the others when it comes to
the new one. -/
theorem exists_assign_insert_eq (h : (Validator.of schema graph).assign = .ok index)
    (hx : ¬ graph.contains x) (value : Json) :
    ∃ a : Assignment, (∀ id, a.kind? id = index.get? id) ∧
      (Validator.of schema (graph.insert x value)).assign =
        ((Validator.of schema (graph.insert x value)).assignAll [x] a).map
          (·.toIndex (graph.insert x value)) := by
  have hw : (Validator.of schema graph).Widens (.of schema (graph.insert x value)) :=
    widens_insert hx value
  -- every entity of the valid graph opens the same goals as before, whatever kind is tried
  have hgoals (id : EntityId) (kind : String) (hid : graph.contains id) :
      (Validator.of schema (graph.insert x value)).goalsOf id kind =
        (Validator.of schema graph).goalsOf id kind := by
    obtain ⟨kind₀, -, hconforms⟩ :=
      Validator.entityConforms_of_assign h (OrderedMap.contains_iff.1 hid)
    exact Validator.goalsOf_eq_of_entityConforms hw hconforms kind
  obtain ⟨a, hmeet, rfl⟩ := Validator.assign_eq_ok_iff.1 h
  have hgrows := (Validator.grows_of_meet hmeet).1
  refine ⟨a, fun id => (hgrows.get?_toIndex id).symm, ?_⟩
  -- so the search gives the same kinds to them
  have hmeet' : (Validator.of schema (graph.insert x value)).meet
      ((Validator.of schema (graph.insert x value)).wholeGoals graph.ids) ∅ = (true, a) := by
    rw [← hmeet]
    refine Validator.meet_congr (p := fun id => graph.contains id) ?_ ?_ (Assignment.le_refl ∅)
    · intro id b hid _ kind
      exact Validator.check_eq_of_goalsOf_eq hgoals
        (fun _ _ _ hopened => Validator.contains_of_goalsOf hopened) hid kind b
    · intro g hg
      obtain ⟨id, hid, rfl⟩ := List.mem_map.1 hg
      exact OrderedMap.contains_iff.2 hid
  have hids : (Validator.of schema (graph.insert x value)).graph.ids = graph.ids ++ [x] :=
    ids_insert hx value
  rw [Validator.assign, hids, Validator.assignAll_append (Validator.assignAll_eq_ok_iff.2 hmeet')]
  rfl

section

variable {a : Assignment} (hget : ∀ id, a.kind? id = index.get? id)

include hget

/-- Binding the new entity gives the kinds of the index with the new entity. -/
theorem typing_bind_eq (kind : String) :
    (a.bind x kind).typing = KindIndex.typing (index.insert x kind) := by
  funext id k
  rw [Assignment.typing, KindIndex.typing, Assignment.kind?_bind, OrderedMap.get?_insert, hget]
  simp only [eq_comm (a := x)]

/-- The index of the longer graph is the old one with the new entity at its end. -/
theorem toIndex_bind_eq (hkeys : index.keys = graph.ids) (hx : ¬ graph.contains x) (value : Json)
    (kind : String) :
    (a.bind x kind).toIndex (graph.insert x value) = index.insert x kind := by
  have hindex : ¬ index.contains x := by
    rwa [OrderedMap.contains_iff, hkeys, EntityGraph.ids, ← OrderedMap.contains_iff]
  have hkinds (id : EntityId) : (a.bind x kind).kind? id = (index.insert x kind).get? id := by
    rw [Assignment.kind?_bind, OrderedMap.get?_insert, hget]
    simp only [eq_comm (a := x)]
  have hids : (index.insert x kind).keys = EntityGraph.ids (graph.insert x value) := by
    rw [OrderedMap.keys_insert, if_neg hindex, hkeys, ids_insert hx]
  have hkeys' : ((a.bind x kind).toIndex (graph.insert x value)).keys =
      EntityGraph.ids (graph.insert x value) := by
    refine Assignment.keys_toIndex fun id hid => ?_
    rw [hkinds]
    exact OrderedMap.mem_keys_iff.1 (hids ▸ hid)
  refine OrderedMap.ext_get? (hkeys'.trans hids.symm) fun id => ?_
  rw [Assignment.get?_toIndex, hkinds]
  split
  · rfl
  · next hid =>
    -- an id that is not in the graph has no kind in the index either
    rw [OrderedMap.contains_iff, ← EntityGraph.ids, ← hids] at hid
    exact (OrderedMap.get?_eq_none_iff.2 hid).symm

end

/-- What comes of appending an entity to a valid graph: the new entity gets the first kind of the
schema that it conforms to once it has it, or is named if there is none, and the other entities keep
their kinds. -/
theorem assign_insert (h : (Validator.of schema graph).assign = .ok index)
    (hx : ¬ graph.contains x) (value : Json) :
    Appended schema graph index x value (Validator.of schema (graph.insert x value)).assign ∧
    ∀ index', (Validator.of schema (graph.insert x value)).assign = .ok index' →
      index'.keys = graph.ids ++ [x] ∧ ∀ id ∈ graph.ids, index'.get? id = index.get? id := by
  obtain ⟨a, hget, hassign⟩ := exists_assign_insert_eq h hx value
  have hkeys : index.keys = graph.ids := Validator.keys_of_assign h
  have hunbound : a.kind? x = none := by
    rwa [hget, OrderedMap.get?_eq_none_iff, hkeys, EntityGraph.ids, ← OrderedMap.contains_iff]
  have hknown (id : EntityId) (hid : (graph.insert x value).contains id) (hne : id ≠ x) :
      ∃ bound, a.kind? id = some bound := by
    rw [OrderedMap.contains_iff, ← EntityGraph.ids, ids_insert hx] at hid
    rw [hget, ← OrderedMap.mem_keys_iff, hkeys]
    simpa [hne] using hid
  have hfits (kind : String) :
      EntityConforms schema (graph.insert x value) (a.bind x kind).typing x kind ↔
        AppendsAs schema graph index x value kind := by
    rw [typing_bind_eq hget, AppendsAs]
  have happended :
      Appended schema graph index x value (Validator.of schema (graph.insert x value)).assign := by
    rw [hassign]
    rcases (Validator.of schema (graph.insert x value)).assignAll_singleton_of_last hunbound hknown
      with ⟨before, kind, after, hkinds, hbefore, hkind, hok⟩ | ⟨hnone, herror⟩
    · rw [hok, Except.map, toIndex_bind_eq hget hkeys hx value kind]
      refine .kind hkinds (fun k hk hk' => ?_) ((hfits kind).1 hkind)
      exact hbefore k hk ((hfits k).2 hk')
    · rw [herror]
      exact .none fun kind hkind hk => hnone kind hkind ((hfits kind).2 hk)
  refine ⟨happended, fun index' hok => ?_⟩
  refine ⟨(Validator.keys_of_assign hok).trans (ids_insert hx value), fun id hid => ?_⟩
  rw [hok] at happended
  cases happended with
  | kind hkinds hbefore hkind =>
    -- the new entity is none of the old ones, so that their kinds are found as before
    apply OrderedMap.get?_insert_of_ne
    rintro rfl
    exact hx (OrderedMap.contains_iff.2 hid)

end

/-- A schema in which notes link to leaves, and loops to links and loops. -/
def noteSchema : Schema := .ofKinds [
  ("Tag", .ofFields [("name", .string)]),
  ("Leaf", .ofFields [("tags", .arrayOf (.ref ["Tag"]))]),
  ("Link", .ofFields [("next", .optional (.ref ["Leaf"])), ("tags", .arrayOf (.ref ["Tag"]))]),
  ("Loop", .ofFields [("next", .optional (.ref ["Link", "Loop"])),
    ("tags", .arrayOf (.ref ["Tag"]))])]

/-- A link to a leaf, and a tag. -/
def noteGraph : EntityGraph := .ofMembers [
  ("l", .obj [("next", RefToken.toJson ⟨⟨"m"⟩⟩), ("tags", .arr [RefToken.toJson ⟨⟨"t"⟩⟩])]),
  ("m", .obj [("tags", .arr [])]),
  ("t", .obj [("name", .str "new")])]

/-- The index of the link, the leaf and the tag. -/
def noteIndex : KindIndex := .ofList [(⟨"l"⟩, "Link"), (⟨"m"⟩, "Leaf"), (⟨"t"⟩, "Tag")]

/-- A note `x` that points at itself, so that it cannot be a link. -/
def loopNote : Json :=
  .obj [("next", RefToken.toJson ⟨⟨"x"⟩⟩), ("tags", .arr [RefToken.toJson ⟨⟨"t"⟩⟩])]

/-- The note is appended as the first kind that it may have as the target of its own reference. -/
theorem appended_loopNote :
    (Validator.of noteSchema noteGraph).assign = .ok noteIndex ∧ ¬ noteGraph.contains ⟨"x"⟩ ∧
      Appended noteSchema noteGraph noteIndex ⟨"x"⟩ loopNote (.ok (noteIndex.insert ⟨"x"⟩ "Loop")) ∧
      ∀ id ∈ noteGraph.ids, (noteIndex.insert ⟨"x"⟩ "Loop").get? id = noteIndex.get? id := by
  have hassign : (Validator.of noteSchema noteGraph).assign = .ok noteIndex :=
    eq_ok_of_toOption (by decide +kernel)
  have hx : ¬ noteGraph.contains ⟨"x"⟩ := by decide +kernel
  have hloop : (Validator.of noteSchema (noteGraph.insert ⟨"x"⟩ loopNote)).assign =
      .ok (noteIndex.insert ⟨"x"⟩ "Loop") := eq_ok_of_toOption (by decide +kernel)
  obtain ⟨happended, hkept⟩ := assign_insert hassign hx loopNote
  rw [hloop] at happended
  exact ⟨hassign, hx, happended, (hkept _ hloop).2⟩

end TypedGraph
