import TypedGraph.Quiescence
import TypedGraph.Validation.Bindings
import TypedGraph.Validation.Diagnosis

/-!
# Resolving References in Place

The search on one assignment that changes in place. A frame stays on the stack while the entities
that it refers to are searched, with cursors to its current goal and to the kind that is tried for
it; what comes of this kind is settled when the frame is looked at again. A frame in which a goal
runs out of kinds goes back to the mark at which it was opened.

Marks only grow along the stack (`Marked`). With this each pass of the loop is one step of the
search (`advance_of_pass?`), so the loop ends like the search does.
-/

namespace TypedGraph

/-- An entity, or a value, whose references are being resolved in place. -/
structure Attempt where
  /-- The mark at which the frame was opened. -/
  mark : Nat
  /-- All goals of the frame. -/
  goals : List RefGoal
  /-- The place of the current goal. -/
  goal : Nat
  /-- The place of the kind that is tried for it. -/
  kind : Nat

namespace Attempt

/-- A frame that has yet to try its first goal. -/
def start (mark : Nat) (goals : List RefGoal) : Attempt := ⟨mark, goals, 0, 0⟩

/-- Notes what has come of the kind that is tried: the next goal comes, or the next kind. -/
def settle (f : Attempt) (ok : Bool) : Attempt :=
  if ok then { f with goal := f.goal + 1, kind := 0 } else { f with kind := f.kind + 1 }

/-- Notes what has come of the kind that is tried, if it is known. -/
def settle? (f : Attempt) : Option Bool → Attempt
  | some ok => f.settle ok
  | none => f

/-- The goals that remain, the current one with the kinds that are left to try. -/
def remaining (f : Attempt) : List RefGoal :=
  match f.goals.drop f.goal with
  | [] => []
  | g :: rest => ⟨g.id, g.kinds.drop f.kind⟩ :: rest

@[simp]
theorem mark_settle (f : Attempt) (ok : Bool) : (f.settle ok).mark = f.mark := by
  cases ok <;> rfl

@[simp]
theorem mark_settle? (f : Attempt) (ok : Option Bool) : (f.settle? ok).mark = f.mark := by
  cases ok with
  | none => rfl
  | some ok => exact f.mark_settle ok

@[simp]
theorem remaining_start (mark : Nat) (goals : List RefGoal) :
    (start mark goals).remaining = goals := by
  cases goals <;> rfl

/-- A goal that is met is off the list. -/
theorem remaining_settle_true (f : Attempt) : (f.settle true).remaining = f.remaining.tail := by
  have hdrop : f.goals.drop (f.goal + 1) = (f.goals.drop f.goal).tail := by rw [List.tail_drop]
  simp only [remaining, settle, if_true, hdrop]
  cases f.goals.drop f.goal with
  | nil => rfl
  | cons g rest => cases rest <;> rfl

/-- A kind that is refused makes no difference to the goals after the current one. -/
theorem tail_remaining_settle_false (f : Attempt) :
    (f.settle false).remaining.tail = f.remaining.tail := by
  simp only [remaining, settle, Bool.false_eq_true, if_false]
  cases f.goals.drop f.goal <;> rfl

/-- A kind that is refused is off the list of the current goal. -/
theorem remaining_settle_false {f : Attempt} {id : EntityId} {kind : String} {kinds : List String}
    {goals : List RefGoal} (h : f.remaining = ⟨id, kind :: kinds⟩ :: goals) :
    (f.settle false).remaining = ⟨id, kinds⟩ :: goals := by
  simp only [remaining, settle, Bool.false_eq_true, if_false] at h ⊢
  cases hdrop : f.goals.drop f.goal with
  | nil =>
    rw [hdrop] at h
    cases h
  | cons g rest =>
    rw [hdrop] at h
    injection h with hg hrest
    injection hg with hid hkinds
    show (⟨g.id, g.kinds.drop (f.kind + 1)⟩ : RefGoal) :: rest = _
    rw [← List.tail_drop, hkinds, hid, hrest, List.tail_cons]

theorem remaining_eq_nil {f : Attempt} (h : f.goals[f.goal]? = none) : f.remaining = [] := by
  rw [remaining, List.drop_eq_nil_of_le (List.getElem?_eq_none_iff.1 h)]

theorem remaining_eq_cons {f : Attempt} {g : RefGoal} (h : f.goals[f.goal]? = some g) :
    f.remaining = ⟨g.id, g.kinds.drop f.kind⟩ :: f.goals.drop (f.goal + 1) := by
  obtain ⟨hlt, rfl⟩ := List.getElem?_eq_some_iff.1 h
  rw [remaining, List.drop_eq_getElem_cons hlt]

end Attempt

namespace Validator.InPlace

/-! ## The Loop -/

/-- What comes of asking that an entity gets a kind. -/
inductive Opening where
  /-- The answer is known at once. -/
  | settled (ok : Bool)
  /-- The entity has got the kind for the time being, and the frame remains. -/
  | opened (frame : Attempt)

/-- Asks that an entity gets a kind. It is bound before its own fields are looked at, and the
binding is taken back if they do not match. -/
def enter (v : Validator) (id : EntityId) (kind : String) (b : Bindings) : Opening × Bindings :=
  match b.kind? id with
  | some bound => (.settled (bound == kind), b)
  | none =>
    match v.schema.kind? kind, v.entity? id with
    | some s, some entity =>
      let mark := b.mark
      let b := b.bind id kind
      match v.collectFields s entity with
      | some goals => (.opened (.start mark goals), b)
      | none => (.settled false, b.rollback mark)
    | _, _ => (.settled false, b)

/-- The loop between two passes. -/
structure Loop where
  /-- The assignment. -/
  bindings : Bindings
  /-- The open frames, the last one first. -/
  stack : List Attempt
  /-- What has come of the kind that the first frame tries, if it is known. -/
  settled : Option Bool

namespace Loop

/-- The loop before its first pass. -/
def start (root : Attempt) (b : Bindings) : Loop := ⟨b, [root], none⟩

/-- What the loop has come to once no frame is open. -/
def outcome (s : Loop) : Bool × Bindings := (s.settled == some true, s.bindings)

/-- One pass of the loop, as long as there is an open frame. -/
def pass? (v : Validator) (s : Loop) : Option Loop :=
  match s.stack with
  | [] => none
  | top :: rest =>
    let f := top.settle? s.settled
    match f.goals[f.goal]? with
    -- all goals are met
    | none => some { s with stack := rest, settled := some true }
    | some g =>
      match g.kinds[f.kind]? with
      -- no kind is left for the current goal
      | none => some ⟨s.bindings.rollback f.mark, rest, some false⟩
      | some kind =>
        match enter v g.id kind s.bindings with
        | (.settled ok, b) => some ⟨b, f :: rest, some ok⟩
        | (.opened child, b) => some ⟨b, child :: f :: rest, none⟩

/-- Some passes of the loop, one after the other. -/
def passes? (v : Validator) : Nat → Loop → Option Loop
  | 0, s => some s
  | n + 1, s => (s.pass? v).bind (passes? v n)

end Loop

/-- Entering in place is entering, with the binding on the trail. -/
theorem enter_eq (v : Validator) (id : EntityId) (kind : String) (b : Bindings) :
    enter v id kind b =
      match v.enter id kind b.toAssignment with
      | .settled ok => (.settled ok, b)
      | .opened _ goals => (.opened (.start b.mark goals), b.bind id kind) := by
  unfold enter Validator.enter
  cases hid : b.kind? id with
  | some bound => rfl
  | none =>
    dsimp only
    cases v.schema.kind? kind with
    | none => rfl
    | some s =>
      cases v.entity? id with
      | none => rfl
      | some entity =>
        dsimp only
        cases v.collectFields s entity with
        | some goals => rfl
        | none =>
          dsimp only
          rw [Bindings.rollback_bind kind hid]

namespace Loop

/-! ## What a Pass Does -/

/-- What a pass does that looks at a frame: it closes it, fails it, tries the next kind with an
answer at once, or opens a frame for it. -/
inductive Pass (v : Validator) (b : Bindings) (f : Attempt) (rest : List Attempt) : Loop → Prop
  | closed (h : f.remaining = []) : Pass v b f rest ⟨b, rest, some true⟩
  | failed {id : EntityId} {goals : List RefGoal} (h : f.remaining = ⟨id, []⟩ :: goals) :
    Pass v b f rest ⟨b.rollback f.mark, rest, some false⟩
  | settled {id : EntityId} {kind : String} {kinds : List String} {goals : List RefGoal} {ok : Bool}
    (h : f.remaining = ⟨id, kind :: kinds⟩ :: goals)
    (henter : v.enter id kind b.toAssignment = .settled ok) :
    Pass v b f rest ⟨b, f :: rest, some ok⟩
  | opened {id : EntityId} {kind : String} {kinds : List String} {goals inner : List RefGoal}
    (h : f.remaining = ⟨id, kind :: kinds⟩ :: goals)
    (henter : v.enter id kind b.toAssignment = .opened (b.toAssignment.bind id kind) inner) :
    Pass v b f rest ⟨b.bind id kind, .start b.mark inner :: f :: rest, none⟩

theorem pass_of_pass? {v : Validator} {s s' : Loop} (h : s.pass? v = some s') :
    ∃ top rest, s.stack = top :: rest ∧ Pass v s.bindings (top.settle? s.settled) rest s' := by
  obtain ⟨b, stack, settled⟩ := s
  cases stack with
  | nil => cases h
  | cons top rest =>
    refine ⟨top, rest, rfl, ?_⟩
    simp only [pass?] at h ⊢
    -- The pass reads the top attempt only after the outcome in the register is consumed.
    generalize top.settle? settled = f at h ⊢
    split at h
    · next hgoal =>
      cases h
      exact .closed (Attempt.remaining_eq_nil hgoal)
    · next g hgoal =>
      have hremaining := Attempt.remaining_eq_cons hgoal
      split at h
      · next hkind =>
        cases h
        rw [List.drop_eq_nil_of_le (List.getElem?_eq_none_iff.1 hkind)] at hremaining
        exact .failed hremaining
      · next kind hkind =>
        obtain ⟨hlt, rfl⟩ := List.getElem?_eq_some_iff.1 hkind
        rw [List.drop_eq_getElem_cons hlt] at hremaining
        rw [enter_eq] at h
        cases henter : v.enter g.id g.kinds[f.kind] b.toAssignment with
        | settled ok =>
          rw [henter] at h
          cases h
          exact .settled hremaining henter
        | opened bound inner =>
          rw [henter] at h
          cases h
          obtain ⟨-, rfl, -⟩ := enter_opened henter
          exact .opened hremaining henter

theorem stack_of_pass?_eq_none {v : Validator} {s : Loop} (h : s.pass? v = none) :
    s.stack = [] := by
  unfold pass? at h
  split at h
  · next hstack => exact hstack
  · -- a frame that is looked at is dealt with in some way
    exfalso
    dsimp only at h
    repeat' split at h
    all_goals cases h

/-! ## Each Pass Is a Step of the Search -/

/-- The frames as they wait: the first one for its next pass, the others for the frame above to
fail. -/
def waiting (s : Loop) : List Attempt :=
  match s.stack with
  | [] => []
  | top :: rest => top.settle? s.settled :: rest.map (·.settle false)

/-- The frames of the search that some frames stand for. The assignment before a frame is the one at
its mark; before the last one it is given. -/
def framesOf (bottom : Assignment) (b : Bindings) : List Attempt → List Frame
  | [] => []
  | f :: rest =>
    ⟨if rest.isEmpty then bottom else (b.rollback f.mark).toAssignment, f.remaining⟩ ::
      framesOf bottom b rest

/-- The stack of the search that the loop stands for. -/
def frames (bottom : Assignment) (s : Loop) : List Frame := framesOf bottom s.bindings s.waiting

/-- What the search has come to when the loop has. -/
def progress (bottom : Assignment) (s : Loop) : Progress :=
  match s.stack with
  | [] => if s.settled = some true then .done true s.bindings.toAssignment else .done false bottom
  | _ :: _ => .next s.bindings.toAssignment (s.frames bottom)

/-- No frame but the last one was opened at a mark beyond a bound, or beyond that of the frame
above. -/
def Marked : Nat → List Attempt → Prop
  | _, [] => True
  | bound, f :: rest => (rest ≠ [] → f.mark ≤ bound) ∧ Marked f.mark rest

theorem marked_mono {bound bound' : Nat} {l : List Attempt} (hle : bound ≤ bound')
    (h : Marked bound l) : Marked bound' l := by
  match l, h with
  | [], _ => trivial
  | _ :: _, h => exact ⟨fun hrest => Nat.le_trans (h.1 hrest) hle, h.2⟩

theorem marked_of_cons {bound : Nat} {f : Attempt} {l : List Attempt} (h : Marked bound (f :: l)) :
    Marked bound l := by
  by_cases hl : l = []
  · rw [hl]
    trivial
  · exact marked_mono (h.1 hl) h.2

/-- Only the marks count. -/
theorem marked_congr {bound : Nat} {l l' : List Attempt}
    (heq : l.map (·.mark) = l'.map (·.mark)) : Marked bound l ↔ Marked bound l' := by
  induction l generalizing bound l' with
  | nil =>
    rw [List.map_nil, eq_comm, List.map_eq_nil_iff] at heq
    rw [heq]
  | cons f l ih =>
    obtain ⟨f', l', rfl, hf, hl⟩ := List.map_eq_cons_iff.1 heq.symm
    have hempty : l = [] ↔ l' = [] := by
      rw [← List.length_eq_zero_iff, ← List.length_eq_zero_iff, ← List.length_map Attempt.mark,
        ← hl, List.length_map]
    rw [Marked, Marked, hf, ne_eq, ne_eq, hempty, ih hl.symm]

/-- Two assignments that go back alike up to a bound stand for the same frames. -/
theorem framesOf_congr {bottom : Assignment} {b c : Bindings} {bound : Nat} {l : List Attempt}
    (hback : ∀ mark ≤ bound, b.rollback mark = c.rollback mark) (h : Marked bound l) :
    framesOf bottom b l = framesOf bottom c l := by
  induction l generalizing bound with
  | nil => rfl
  | cons f l ih =>
    by_cases hl : l = []
    · rw [hl]
      rfl
    · have hf := h.1 hl
      rw [framesOf, framesOf, hback f.mark hf,
        ih (fun mark hmark => hback mark (Nat.le_trans hmark hf)) h.2]

theorem marked_waiting {bound : Nat} {s : Loop} :
    Marked bound s.waiting ↔ Marked bound s.stack := by
  apply marked_congr
  unfold waiting
  split
  · next h => rw [h]
  · next top rest h => simp [h]

/-- A frame that is closed takes the frame below to its next goal. -/
theorem closeFrame_framesOf (bottom : Assignment) (b : Bindings) (rest : List Attempt) :
    closeFrame b.toAssignment (framesOf bottom b (rest.map (·.settle false))) =
      progress bottom ⟨b, rest, some true⟩ := by
  cases rest with
  | nil => rfl
  | cons g rest =>
    rw [List.map_cons, framesOf, closeFrame, Attempt.tail_remaining_settle_false,
      ← Attempt.remaining_settle_true]
    rfl

/-- A frame that fails goes back to its mark, as the frames below do not go further back by it. -/
theorem failFrame_framesOf (bottom : Assignment) {b : Bindings} {f : Attempt} {rest : List Attempt}
    {goals : List RefGoal} (h : Marked f.mark (rest.map (·.settle false))) :
    failFrame ⟨if (rest.map (·.settle false)).isEmpty then bottom
        else (b.rollback f.mark).toAssignment, goals⟩
        (framesOf bottom b (rest.map (·.settle false))) =
      progress bottom ⟨b.rollback f.mark, rest, some false⟩ := by
  have hback (mark : Nat) (hmark : mark ≤ f.mark) :
      b.rollback mark = (b.rollback f.mark).rollback mark := (b.rollback_rollback hmark).symm
  rw [framesOf_congr hback h]
  cases rest <;> rfl

/-- A frame that is opened for an entity that gets a kind goes back to before the binding. -/
theorem progress_opened (bottom : Assignment) {b : Bindings} {id : EntityId} {kind : String}
    {stack : List Attempt} (inner : List RefGoal) (hnone : b.kind? id = none) (hstack : stack ≠ [])
    (h : Marked b.mark (stack.map (·.settle false))) :
    progress bottom ⟨b.bind id kind, .start b.mark inner :: stack, none⟩ =
      .next (b.toAssignment.bind id kind)
        (⟨b.toAssignment, inner⟩ :: framesOf bottom b (stack.map (·.settle false))) := by
  have hback (mark : Nat) (hmark : mark ≤ b.mark) :
      b.rollback mark = (b.bind id kind).rollback mark :=
    (Bindings.rollback_bind_of_le hnone hmark).symm
  have hempty : (stack.map (·.settle false)).isEmpty = false := by simpa using hstack
  show Progress.next _ (framesOf bottom (b.bind id kind)
    (.start b.mark inner :: stack.map (·.settle false))) = _
  rw [framesOf, hempty, if_neg Bool.false_ne_true, Attempt.remaining_start, framesOf_congr hback h]
  congr
  exact Bindings.rollback_bind kind hnone

/-- Each pass of the loop is one step of the search. -/
theorem advance_of_pass? {v : Validator} {s s' : Loop} (bottom : Assignment)
    (hmarked : Marked s.bindings.mark s.stack) (h : s.pass? v = some s') :
    v.advance s.bindings.toAssignment (s.frames bottom) = s'.progress bottom := by
  obtain ⟨top, rest, hstack, hpass⟩ := pass_of_pass? h
  rw [← marked_waiting] at hmarked
  simp only [frames, waiting, hstack] at hmarked ⊢
  generalize s.bindings = b at hpass hmarked ⊢
  generalize top.settle? s.settled = f at hpass hmarked ⊢
  rw [framesOf]
  cases hpass with
  | closed hgoals => rw [advance_of_goals_eq_nil hgoals, closeFrame_framesOf]
  | failed hgoals => rw [advance_of_kinds_eq_nil hgoals, failFrame_framesOf bottom hmarked.2]
  | @settled id kind kinds goals ok hgoals henter =>
    rw [advance_of_kinds_eq_cons hgoals, henter]
    cases ok with
    | true =>
      have htail : (f.settle true).remaining = goals := by
        rw [Attempt.remaining_settle_true, hgoals, List.tail_cons]
      rw [← htail, ← f.mark_settle true]
      rfl
    | false =>
      rw [← Attempt.remaining_settle_false hgoals, ← f.mark_settle false]
      rfl
  | opened hgoals henter =>
    have hwait : Marked b.mark ((f :: rest).map (·.settle false)) :=
      (marked_congr (by simp)).1 hmarked
    rw [advance_of_kinds_eq_cons hgoals, henter, ← Attempt.remaining_settle_false hgoals,
      ← f.mark_settle false]
    exact (progress_opened bottom _ (enter_opened henter).1 (List.cons_ne_nil f rest) hwait).symm

/-! ## The Loop Ends -/

/-- The loop stands for a search on top of some assignment. -/
structure Sound (v : Validator) (bottom : Assignment) (s : Loop) : Prop where
  /-- Marks only grow along the stack. -/
  marked : Marked s.bindings.mark s.stack
  /-- Along the stack ever fewer entities are without kind. -/
  nested : v.Nested s.bindings.toAssignment (s.frames bottom)

theorem sound_start (v : Validator) (root : Attempt) (b : Bindings) :
    (start root b).Sound v b.toAssignment :=
  ⟨⟨fun h => absurd rfl h, trivial⟩, Nat.le_refl _⟩

theorem marked_of_pass? {v : Validator} {s s' : Loop} (hmarked : Marked s.bindings.mark s.stack)
    (h : s.pass? v = some s') : Marked s'.bindings.mark s'.stack := by
  obtain ⟨top, rest, hstack, hpass⟩ := pass_of_pass? h
  have hstay : Marked s.bindings.mark (top.settle? s.settled :: rest) := by
    rw [hstack] at hmarked
    exact (marked_congr (by simp)).1 hmarked
  cases hpass with
  | closed => exact marked_of_cons hstay
  | failed =>
    by_cases hrest : rest = []
    · rw [hrest]
      trivial
    · rw [Bindings.mark_rollback_of_le (hstay.1 hrest)]
      exact hstay.2
  | settled => exact hstay
  | opened =>
    refine ⟨fun _ => ?_, hstay⟩
    rw [Bindings.mark_bind]
    exact Nat.le_succ _

/-- After a pass the loop has ended or its frames are those that the search goes on with. -/
theorem advance_eq_next_of_pass? {v : Validator} {bottom : Assignment} {s s' : Loop}
    (h : s.Sound v bottom) (hpass : s.pass? v = some s') (hstack : s'.stack ≠ []) :
    v.advance s.bindings.toAssignment (s.frames bottom) =
      .next s'.bindings.toAssignment (s'.frames bottom) := by
  rw [advance_of_pass? bottom h.marked hpass, progress]
  split
  · next hnil => exact absurd hnil hstack
  · rfl

theorem frames_of_stack_eq_nil {bottom : Assignment} {s : Loop} (h : s.stack = []) :
    s.frames bottom = [] := by
  rw [frames, waiting, h]
  rfl

theorem sound_of_pass? {v : Validator} {bottom : Assignment} {s s' : Loop} (h : s.Sound v bottom)
    (hpass : s.pass? v = some s') : s'.Sound v bottom := by
  refine ⟨marked_of_pass? h.marked hpass, ?_⟩
  by_cases hstack : s'.stack = []
  · rw [frames_of_stack_eq_nil hstack]
    trivial
  · exact nested_of_advance h.nested (advance_eq_next_of_pass? h hpass hstack)

/-- A bound for the passes that the loop can still make. -/
def work (v : Validator) (bottom : Assignment) (s : Loop) : Nat := v.work (s.frames bottom)

theorem work_of_pass? {v : Validator} {bottom : Assignment} {s s' : Loop} (h : s.Sound v bottom)
    (hpass : s.pass? v = some s') : s'.work v bottom < s.work v bottom := by
  by_cases hstack : s'.stack = []
  · obtain ⟨top, rest, hs, -⟩ := pass_of_pass? hpass
    rw [work, work, frames_of_stack_eq_nil hstack, frames, waiting, hs]
    exact work_cons_pos _ _
  · exact work_of_advance h.nested (advance_eq_next_of_pass? h hpass hstack)

/-- Runs the loop to its end. -/
def run (v : Validator) (bottom : Assignment) (s : Loop) (h : s.Sound v bottom) : Bool × Bindings :=
  match hpass : s.pass? v with
  | some s' => run v bottom s' (sound_of_pass? h hpass)
  | none => s.outcome
termination_by s.work v bottom
decreasing_by exact work_of_pass? h hpass

end Loop

/-- Meets the goals of a frame, and of all frames that it opens. -/
def resolve (v : Validator) (root : Attempt) (b : Bindings) : Bool × Bindings :=
  (Loop.start root b).run v b.toAssignment (Loop.sound_start v root b)

end Validator.InPlace

end TypedGraph
