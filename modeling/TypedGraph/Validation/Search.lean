import TypedGraph.Validation.Validator

/-!
# Resolving References

References are resolved by a search with an explicit stack. Each entity that gets a kind for the
time being opens a frame with the goals of its own references; a frame in which a goal runs out of
kinds fails, takes back everything bound since it was opened, and its goal tries the next kind.
Entities that have a kind are not searched again, which also closes cycles.

A frame is opened only for an entity of the graph that had no kind, so along the stack ever fewer
entities are without kind (`Nested`). This bounds the stack and ends the search.
-/

namespace TypedGraph

/-- An entity, or a value, whose references are being resolved. -/
structure Frame where
  /-- The assignment before the frame was opened. -/
  before : Assignment
  /-- The goals that remain, the current one first. -/
  goals : List RefGoal

namespace Validator

/-- What one step of a search leads to. -/
inductive Progress where
  /-- The search ends. -/
  | done (ok : Bool) (a : Assignment)
  /-- The search goes on. -/
  | next (a : Assignment) (stack : List Frame)

/-- The first frame fails: everything bound since it was opened is taken back. -/
def failFrame (f : Frame) : List Frame → Progress
  | [] => .done false f.before
  | rest => .next f.before rest

/-- The first frame is finished: so is the current goal of the frame below it. -/
def closeFrame (a : Assignment) : List Frame → Progress
  | [] => .done true a
  | g :: rest => .next a (⟨g.before, g.goals.tail⟩ :: rest)

/-- One step of a search: looks at the current goal of the first frame. -/
def advance (v : Validator) (a : Assignment) : List Frame → Progress
  | [] => .done true a
  | f :: rest =>
    match f.goals with
    -- all goals are met
    | [] => closeFrame a rest
    -- no kind is left for the current goal
    | ⟨_, []⟩ :: _ => failFrame f rest
    | ⟨id, kind :: kinds⟩ :: goals =>
      match v.enter id kind a with
      | .settled true => .next a (⟨f.before, goals⟩ :: rest)
      | .settled false => .next a (⟨f.before, ⟨id, kinds⟩ :: goals⟩ :: rest)
      -- the kind is off the list of the goal, which tries the next one should the new frame fail
      | .opened bound inner =>
        .next bound (⟨a, inner⟩ :: ⟨f.before, ⟨id, kinds⟩ :: goals⟩ :: rest)

theorem advance_of_goals_eq_nil {v : Validator} {a : Assignment} {f : Frame} {rest : List Frame}
    (h : f.goals = []) : v.advance a (f :: rest) = closeFrame a rest := by
  rw [advance, h]

theorem advance_of_kinds_eq_nil {v : Validator} {a : Assignment} {f : Frame} {rest : List Frame}
    {id : EntityId} {goals : List RefGoal} (h : f.goals = ⟨id, []⟩ :: goals) :
    v.advance a (f :: rest) = failFrame f rest := by
  rw [advance, h]

theorem advance_of_kinds_eq_cons {v : Validator} {a : Assignment} {f : Frame} {rest : List Frame}
    {id : EntityId} {kind : String} {kinds : List String} {goals : List RefGoal}
    (h : f.goals = ⟨id, kind :: kinds⟩ :: goals) :
    v.advance a (f :: rest) =
      match v.enter id kind a with
      | .settled true => .next a (⟨f.before, goals⟩ :: rest)
      | .settled false => .next a (⟨f.before, ⟨id, kinds⟩ :: goals⟩ :: rest)
      | .opened bound inner =>
        .next bound (⟨a, inner⟩ :: ⟨f.before, ⟨id, kinds⟩ :: goals⟩ :: rest) := by
  rw [advance, h]

/-! ## The Search Ends -/

/-- The number of entities of the graph without a kind. -/
def unbound (v : Validator) (a : Assignment) : Nat :=
  (v.graph.keys.filter fun id => (a.kind? id).isNone).length

/-- Each frame but the last was opened by binding one more entity. -/
def Nested (v : Validator) (a : Assignment) : List Frame → Prop
  | [] => True
  | [f] => v.unbound a ≤ v.unbound f.before
  | f :: g :: rest => v.unbound a < v.unbound f.before ∧ v.Nested f.before (g :: rest)

/-- The total of some numbers. -/
def total (l : List Nat) : Nat := l.foldr (· + ·) 0

/-- The number of kinds that a list of goals can still try, with one more for each goal. -/
def goalWork (goals : List RefGoal) : Nat := total (goals.map fun g => g.kinds.length + 1)

/-- The goals that an entity of the graph opens when it gets a kind. -/
def openedBy (v : Validator) (kind : String × Structure) (entity : EntityId × Json) :
    List RefGoal :=
  (v.collectFields kind.2 entity.2).getD []

/-- More than the work of any frame that the search can open. -/
def base (v : Validator) : Nat :=
  total (v.schema.kinds.entries.map fun k =>
    total (v.graph.entries.map fun e => goalWork (v.openedBy k e))) + 3

/-- A bound for the steps that a search can still take. -/
def work (v : Validator) : List Frame → Nat
  | [] => 0
  | [f] => (goalWork f.goals + 1) * v.base.pow (v.unbound f.before + 1)
  | f :: g :: rest =>
    (goalWork f.goals + 1) * v.base.pow (v.unbound f.before) + v.work (g :: rest)

@[simp]
theorem total_cons (n : Nat) (l : List Nat) : total (n :: l) = n + total l := rfl

theorem le_total_of_mem {n : Nat} {l : List Nat} (h : n ∈ l) : n ≤ total l := by
  induction l with
  | nil => cases h
  | cons m l ih =>
    rw [total_cons]
    rcases List.mem_cons.1 h with rfl | h
    · omega
    · have := ih h
      omega

/-- Asking for a kind opens goals only for an entity of the graph that has no kind. -/
theorem enter_opened {v : Validator} {id : EntityId} {kind : String} {a bound : Assignment}
    {goals : List RefGoal} (h : v.enter id kind a = .opened bound goals) :
    a.kind? id = none ∧ bound = a.bind id kind ∧
      ∃ s entity, v.schema.kind? kind = some s ∧ v.graph.get? id = some entity ∧
        v.collectFields s entity = some goals := by
  unfold enter at h
  split at h
  · cases h
  · next hid =>
    split at h
    · next s entity hs he =>
      split at h
      · next hg =>
        cases h
        exact ⟨hid, rfl, s, entity, hs, (v.entity?_eq id).symm.trans he, hg⟩
      · cases h
    · cases h

/-- Binding an entity of the graph that has no kind leaves fewer without. -/
theorem unbound_bind_lt {v : Validator} {id : EntityId} {kind : String} {a : Assignment}
    (hid : id ∈ v.graph.keys) (ha : a.kind? id = none) :
    v.unbound (a.bind id kind) < v.unbound a := by
  unfold unbound
  -- the binding takes entities off the count and never adds any
  have hle (l : List EntityId) :
      (l.filter fun j => ((a.bind id kind).kind? j).isNone).length ≤
        (l.filter fun j => (a.kind? j).isNone).length := by
    induction l with
    | nil => simp
    | cons j l ih =>
      by_cases hj : id = j
      · subst hj
        simp [ha]
        omega
      · simp only [List.filter_cons, Assignment.kind?_bind, if_neg hj]
        split <;> simp_all [Assignment.kind?_bind]
  generalize v.graph.keys = l at hid
  induction l with
  | nil => cases hid
  | cons j l ih =>
    by_cases hj : id = j
    · subst hj
      have := hle l
      simp [ha]
      omega
    · have := ih ((List.mem_cons.1 hid).resolve_left hj)
      simp only [List.filter_cons, Assignment.kind?_bind, if_neg hj]
      split <;> simp_all [Assignment.kind?_bind]

/-- Asking for a kind leaves fewer entities without, if it opens goals. -/
theorem unbound_opened_lt {v : Validator} {id : EntityId} {kind : String}
    {a bound : Assignment} {goals : List RefGoal}
    (h : v.enter id kind a = .opened bound goals) : v.unbound bound < v.unbound a := by
  obtain ⟨hnone, rfl, _, _, _, he, _⟩ := enter_opened h
  refine unbound_bind_lt (OrderedMap.contains_iff.1 ?_) hnone
  simp [OrderedMap.contains, he]

/-- The goals that asking for a kind opens are less work than the base. -/
theorem goalWork_opened_lt {v : Validator} {id : EntityId} {kind : String}
    {a bound : Assignment} {goals : List RefGoal}
    (h : v.enter id kind a = .opened bound goals) : goalWork goals + 2 < v.base := by
  obtain ⟨_, _, s, entity, hs, he, hg⟩ := enter_opened h
  have hk : (kind, s) ∈ v.schema.kinds.entries := OrderedMap.get?_eq_some_iff.1 hs
  have hm : (id, entity) ∈ v.graph.entries := OrderedMap.get?_eq_some_iff.1 he
  have hinner : goalWork goals ≤
      total (v.graph.entries.map fun e => goalWork (v.openedBy (kind, s) e)) := by
    apply le_total_of_mem
    exact List.mem_map.2 ⟨_, hm, by simp [openedBy, hg]⟩
  have houter := le_total_of_mem (List.mem_map.2
    ⟨(kind, s), hk, rfl⟩ : total (v.graph.entries.map fun e => goalWork (v.openedBy (kind, s) e)) ∈
      v.schema.kinds.entries.map fun k =>
        total (v.graph.entries.map fun e => goalWork (v.openedBy k e)))
  unfold base
  omega

theorem base_pos (v : Validator) : 0 < v.base := by unfold base; omega

theorem work_cons_pos {v : Validator} (f : Frame) (rest : List Frame) : 0 < v.work (f :: rest) := by
  have hpow (n : Nat) : 0 < (goalWork f.goals + 1) * v.base.pow n :=
    Nat.mul_pos (Nat.succ_pos _) (Nat.pow_pos v.base_pos)
  cases rest with
  | nil => exact hpow _
  | cons g rest => exact Nat.add_pos_left (hpow _) _

/-- Goals may change in a frame without loss of nesting. -/
theorem nested_of_before_eq {v : Validator} {a : Assignment} {f g : Frame} {rest : List Frame}
    (hb : f.before = g.before) (h : v.Nested a (f :: rest)) : v.Nested a (g :: rest) := by
  cases rest with
  | nil => simpa [Nested, hb] using h
  | cons _ _ => simpa [Nested, hb] using h

theorem nested_of_failFrame {v : Validator} {a a' : Assignment} {f : Frame}
    {rest stack' : List Frame} (h : v.Nested a (f :: rest))
    (hs : failFrame f rest = .next a' stack') : v.Nested a' stack' := by
  cases rest with
  | nil => cases hs
  | cons g rest =>
    cases hs
    exact h.2

theorem nested_of_closeFrame {v : Validator} {a a' : Assignment} {f : Frame}
    {rest stack' : List Frame} (h : v.Nested a (f :: rest))
    (hs : closeFrame a rest = .next a' stack') : v.Nested a' stack' := by
  cases rest with
  | nil => cases hs
  | cons g rest =>
    cases hs
    refine nested_of_before_eq (f := g) rfl ?_
    obtain ⟨hlt, hrest⟩ := h
    -- the goals of the frame have bound entities for good, so that even fewer are without kind
    cases rest with
    | nil => exact Nat.le_trans (Nat.le_of_lt hlt) hrest
    | cons _ _ => exact ⟨Nat.lt_trans hlt hrest.1, hrest.2⟩

/-- A step keeps the nesting. -/
theorem nested_of_advance {v : Validator} {a a' : Assignment} {stack stack' : List Frame}
    (h : v.Nested a stack) (hs : v.advance a stack = .next a' stack') : v.Nested a' stack' := by
  cases stack with
  | nil => cases hs
  | cons f rest =>
    simp only [advance] at hs
    split at hs
    · exact nested_of_closeFrame h hs
    · exact nested_of_failFrame h hs
    · split at hs
      · cases hs; exact nested_of_before_eq (f := f) rfl h
      · cases hs; exact nested_of_before_eq (f := f) rfl h
      · next henter =>
        cases hs
        exact ⟨unbound_opened_lt henter, nested_of_before_eq (f := f) rfl h⟩

theorem work_cons_lt {v : Validator} {f g : Frame} {rest : List Frame}
    (hb : f.before = g.before) (hw : goalWork f.goals < goalWork g.goals) :
    v.work (f :: rest) < v.work (g :: rest) := by
  have hpow (n : Nat) : 0 < v.base.pow n := Nat.pow_pos v.base_pos
  cases rest with
  | nil =>
    simp only [work, hb]
    exact Nat.mul_lt_mul_of_pos_right (by omega) (hpow _)
  | cons _ _ =>
    simp only [work, hb]
    exact Nat.add_lt_add_right (Nat.mul_lt_mul_of_pos_right (by omega) (hpow _)) _

theorem goalWork_tail_le (goals : List RefGoal) : goalWork goals.tail ≤ goalWork goals := by
  cases goals with
  | nil => exact Nat.le_refl _
  | cons g goals => simp [goalWork]

theorem work_cons_le {v : Validator} {f g : Frame} {rest : List Frame}
    (hb : f.before = g.before) (hw : goalWork f.goals ≤ goalWork g.goals) :
    v.work (f :: rest) ≤ v.work (g :: rest) := by
  rcases Nat.lt_or_eq_of_le hw with hw | hw
  · exact Nat.le_of_lt (work_cons_lt hb hw)
  · cases rest <;> simp [work, hb, hw]

/-- Removing the first frame of several leaves less work. -/
theorem work_tail_lt {v : Validator} (f g : Frame) (rest : List Frame) :
    v.work (g :: rest) < v.work (f :: g :: rest) := by
  have : 0 < (goalWork f.goals + 1) * v.base.pow (v.unbound f.before) :=
    Nat.mul_pos (by omega) (Nat.pow_pos v.base_pos)
  simp only [work]
  omega

/-- Opening a frame for a kind is less work than trying the kind was. -/
theorem work_open_lt {v : Validator} {a : Assignment} {f g : Frame} {rest : List Frame}
    {inner : List RefGoal} (hb : f.before = g.before)
    (hw : goalWork f.goals + 1 = goalWork g.goals) (hinner : goalWork inner + 2 < v.base)
    (h : v.Nested a (g :: rest)) :
    v.work (⟨a, inner⟩ :: f :: rest) < v.work (g :: rest) := by
  -- a factor of the base is left over for the goals of the new frame, as it binds one entity more
  have hstep (n m : Nat) (hnm : n < m) :
      (goalWork inner + 1) * v.base.pow n < v.base.pow m := by
    calc (goalWork inner + 1) * v.base.pow n
        < v.base * v.base.pow n :=
          Nat.mul_lt_mul_of_pos_right (by omega) (Nat.pow_pos v.base_pos)
      _ = v.base.pow (n + 1) := Nat.mul_comm _ _
      _ ≤ v.base.pow m := Nat.pow_le_pow_right v.base_pos hnm
  cases rest with
  | nil =>
    have h' : v.unbound a ≤ v.unbound g.before := h
    have := hstep (v.unbound a) (v.unbound g.before + 1) (by omega)
    simp only [work, hb, ← hw]
    rw [Nat.add_mul (goalWork f.goals + 1) 1]
    omega
  | cons e rest =>
    have := hstep (v.unbound a) (v.unbound g.before) h.1
    simp only [work, hb, ← hw]
    rw [Nat.add_mul (goalWork f.goals + 1) 1]
    omega

theorem work_failFrame_lt {v : Validator} {f : Frame} {rest stack' : List Frame}
    {a' : Assignment} (hs : failFrame f rest = .next a' stack') :
    v.work stack' < v.work (f :: rest) := by
  cases rest with
  | nil => cases hs
  | cons g rest => cases hs; exact work_tail_lt f g rest

theorem work_closeFrame_lt {v : Validator} {f : Frame} {rest stack' : List Frame}
    {a a' : Assignment} (hs : closeFrame a rest = .next a' stack') :
    v.work stack' < v.work (f :: rest) := by
  cases rest with
  | nil => cases hs
  | cons g rest =>
    cases hs
    have hle : v.work (⟨g.before, g.goals.tail⟩ :: rest) ≤ v.work (g :: rest) :=
      work_cons_le rfl (goalWork_tail_le _)
    exact Nat.lt_of_le_of_lt hle (work_tail_lt f g rest)

/-- A step leaves less work. -/
theorem work_of_advance {v : Validator} {a a' : Assignment} {stack stack' : List Frame}
    (h : v.Nested a stack) (hs : v.advance a stack = .next a' stack') :
    v.work stack' < v.work stack := by
  cases stack with
  | nil => cases hs
  | cons f rest =>
    simp only [advance] at hs
    split at hs
    · exact work_closeFrame_lt hs
    · exact work_failFrame_lt hs
    · next id kind kinds goals hg =>
      split at hs
      · cases hs
        exact work_cons_lt rfl (by simp [hg, goalWork])
      · cases hs
        exact work_cons_lt rfl (by simp [hg, goalWork])
      · next henter =>
        cases hs
        exact work_open_lt rfl (by simp [hg, goalWork]; omega) (goalWork_opened_lt henter) h

/-- Runs a search to its end: whether the goals of all frames are met, and the assignment then. -/
def run (v : Validator) (a : Assignment) (stack : List Frame) (h : v.Nested a stack) :
    Bool × Assignment :=
  match hs : v.advance a stack with
  | .done ok a' => (ok, a')
  | .next a' stack' => v.run a' stack' (nested_of_advance h hs)
termination_by v.work stack
decreasing_by exact work_of_advance h hs

/-- Meets goals on top of an assignment; if this fails, the assignment is as before. -/
def resolve (v : Validator) (a : Assignment) (goals : List RefGoal) : Bool × Assignment :=
  v.run a [⟨a, goals⟩] (Nat.le_refl _)

/-- A value, or its absence, matches a descriptor. -/
def matchValue (v : Validator) (d : Descriptor) (value : Option Json) (a : Assignment) :
    Bool × Assignment :=
  match v.collect d value with
  | some goals => v.resolve a goals
  | none => (false, a)

/-- A value that need not be an entity of the graph matches the structure of a kind. -/
def matchStructure (v : Validator) (kind : String) (entity : Json) (a : Assignment) :
    Bool × Assignment :=
  match (v.schema.kind? kind).bind (v.collectFields · entity) with
  | some goals => v.resolve a goals
  | none => (false, a)

/-- An entity gets a kind, or has it already. -/
def check (v : Validator) (id : EntityId) (kind : String) (a : Assignment) : Bool × Assignment :=
  match h : v.enter id kind a with
  | .settled ok => (ok, a)
  | .opened bound goals =>
    v.run bound [⟨a, goals⟩] (Nat.le_of_lt (unbound_opened_lt h))

/-! ## Whole Graphs -/

/-- The first of some kinds that an entity can get on top of an assignment. -/
def checkAny (v : Validator) (id : EntityId) : List String → Assignment → Bool × Assignment
  | [], a => (false, a)
  | kind :: kinds, a =>
    match v.check id kind a with
    | (true, a') => (true, a')
    | (false, a') => v.checkAny id kinds a'

/-- Gives a kind to each of some entities in turn, trying kinds in the order of the schema. Fails
with the first entity that no kind accepts. -/
def assignAll (v : Validator) : List EntityId → Assignment → Except EntityId Assignment
  | [], a => .ok a
  | id :: ids, a =>
    match v.checkAny id v.schema.kindNames a with
    | (true, a') => v.assignAll ids a'
    | (false, _) => .error id

/-- Gives a kind to every entity of the graph. -/
def assign (v : Validator) : Except EntityId KindIndex :=
  (v.assignAll v.graph.ids ∅).map (·.toIndex v.graph)

end Validator

end TypedGraph
