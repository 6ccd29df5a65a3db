import TypedGraph.Proofs.Validation.InPlace
import TypedGraph.Proofs.Validation.Soundness

/-!
# The Loop Ends, With a Bounded Stack

Going back makes entities unbound again, and an entity may be entered many times under different
kinds. But each frame above another one has been opened by binding one entity more, and each pass
leaves less to try: a goal or a kind of the first frame, or the whole frame. So the loop ends on
every first frame and every assignment, within a number of passes that is known beforehand, and the
stack never holds more frames than there were entities without kind, and one.

## Main results

* `length_stack_le`: the bound for the stack;
* `exists_passes?_eq_some`: the bound for the passes;
* `perform?_eq`, `assign?_eq`, `diagnose?_eq`: cutting off at the bound cuts nothing off.
-/

namespace TypedGraph.Validator.InPlace

variable {v : Validator}

namespace Loop

/-! ## The Stack -/

/-- Frames that are nested are no more than the entities without kind before the last one, and
one. -/
theorem length_le_of_nested {bottom a : Assignment} {b : Bindings} {l : List Attempt}
    (h : v.Nested a (framesOf bottom b l)) (hl : l ≠ []) :
    l.length + v.unbound a ≤ v.unbound bottom + 1 := by
  induction l generalizing a with
  | nil => exact absurd rfl hl
  | cons f rest ih =>
    cases rest with
    | nil =>
      -- the last frame has been opened by no binding
      replace h : v.unbound a ≤ v.unbound bottom := h
      rw [List.length_singleton]
      omega
    | cons g rest =>
      obtain ⟨hlt, hrest⟩ := h
      have := ih hrest (List.cons_ne_nil g rest)
      rw [List.length_cons]
      omega

theorem length_waiting (s : Loop) : s.waiting.length = s.stack.length := by
  unfold waiting
  split
  · next h => rw [h]
  · next h => rw [h, List.length_cons, List.length_cons, List.length_map]

/-- The stack holds one frame at most for each entity that had no kind, and one. -/
theorem length_stack_le {bottom : Assignment} {s : Loop} (h : s.Sound v bottom) :
    s.stack.length ≤ v.unbound bottom + 1 := by
  rw [← length_waiting]
  by_cases hnil : s.waiting = []
  · rw [hnil]
    exact Nat.zero_le _
  · exact Nat.le_trans (Nat.le_add_right _ _) (length_le_of_nested h.nested hnil)

theorem sound_of_passes? {bottom : Assignment} {n : Nat} {s s' : Loop} (h : s.Sound v bottom)
    (hpasses : s.passes? v n = some s') : s'.Sound v bottom := by
  induction n generalizing s with
  | zero =>
    cases hpasses
    exact h
  | succ n ih =>
    obtain ⟨s₁, hpass, hrest⟩ := Option.bind_eq_some_iff.1 hpasses
    exact ih (sound_of_pass? h hpass) hrest

/-! ## The Passes -/

theorem run_eq_of_pass? {bottom : Assignment} {s s' : Loop} (h : s.Sound v bottom)
    (hpass : s.pass? v = some s') :
    s.run v bottom h = s'.run v bottom (sound_of_pass? h hpass) := by
  rw [run]
  split
  · next hs =>
    rw [hpass] at hs
    cases hs
    rfl
  · next hs =>
    rw [hpass] at hs
    cases hs

theorem run_eq_outcome {bottom : Assignment} {s : Loop} (h : s.Sound v bottom)
    (hpass : s.pass? v = none) : s.run v bottom h = s.outcome := by
  rw [run]
  split
  · next hs =>
    rw [hpass] at hs
    cases hs
  · rfl

/-- The loop ends after no more passes than its work. -/
theorem exists_passes?_of_sound {bottom : Assignment} {s : Loop} (h : s.Sound v bottom) :
    ∃ n ≤ s.work v bottom, ∃ s', s.passes? v n = some s' ∧ s'.pass? v = none ∧
      s'.outcome = s.run v bottom h := by
  fun_induction run v bottom s h with
  | case1 s h s' hpass ih =>
    obtain ⟨n, hn, last, hpasses, hlast⟩ := ih
    refine ⟨n + 1, Nat.le_trans (Nat.succ_le_succ hn) (work_of_pass? h hpass), last, ?_, hlast⟩
    rw [passes?, hpass]
    exact hpasses
  | case2 s h hpass => exact ⟨0, Nat.zero_le _, s, rfl, hpass, rfl⟩

/-- A loop that is cut off after as many passes as it has work is not cut off. -/
theorem outcome?_eq_run {bottom : Assignment} {n : Nat} {s : Loop} (h : s.Sound v bottom)
    (hn : s.work v bottom ≤ n) : s.outcome? v n = some (s.run v bottom h) := by
  induction n generalizing s with
  | zero =>
    -- without work there is no pass to make, as a pass leaves less
    cases hpass : s.pass? v with
    | some s' =>
      have := work_of_pass? h hpass
      omega
    | none =>
      rw [outcome?, stack_of_pass?_eq_none hpass, run_eq_outcome h hpass]
      rfl
  | succ n ih =>
    rw [outcome?]
    cases hpass : s.pass? v with
    | some s' =>
      rw [run_eq_of_pass? h hpass]
      apply ih
      have := work_of_pass? h hpass
      omega
    | none => rw [run_eq_outcome h hpass]

end Loop

/-! ## Calls -/

theorem resolve?_eq (v : Validator) (root : Attempt) (b : Bindings) :
    resolve? v root b = some (resolve v root b) :=
  Loop.outcome?_eq_run (Loop.sound_start v root b) (Nat.le_refl _)

theorem perform?_eq (v : Validator) (call : Call) (b : Bindings) :
    perform? v call b = some (perform v call b) := by
  have hmeet (goals : Option (List RefGoal)) :
      meetWith (resolve? v) goals b = some (meetWith (m := Id) (resolve v) goals b) := by
    cases goals with
    | none => rfl
    | some goals => exact resolve?_eq v _ b
  cases call with
  | check id kind =>
    rw [perform_check, perform?, performWith, enter_eq]
    cases v.enter id kind b.toAssignment with
    | settled ok => rfl
    | opened bound goals => exact resolve?_eq v _ _
  | matchValue d value => exact hmeet (v.collect d value)
  | matchStructure kind entity =>
    exact hmeet ((v.schema.kind? kind).bind (v.collectFields · entity))

theorem checkAny?_eq (v : Validator) (id : EntityId) (kinds : List String) (b : Bindings) :
    checkAnyWith v (resolve? v) id kinds b =
      some (checkAnyWith (m := Id) v (resolve v) id kinds b) := by
  induction kinds generalizing b with
  | nil => rfl
  | cons kind kinds ih =>
    have hcheck : performWith v (resolve? v) (.check id kind) b = _ :=
      perform?_eq v (.check id kind) b
    rw [checkAnyWith, hcheck, checkAny_cons]
    show (if (perform v (.check id kind) b).1 then some (true, (perform v (.check id kind) b).2)
      else checkAnyWith v (resolve? v) id kinds (perform v (.check id kind) b).2) = _
    split
    · rfl
    · exact ih _

theorem assignAll?_eq (v : Validator) (ids : List EntityId) (b : Bindings) :
    assignAllWith v (resolve? v) ids b = some (assignAllWith (m := Id) v (resolve v) ids b) := by
  induction ids generalizing b with
  | nil => rfl
  | cons id ids ih =>
    rw [assignAllWith, checkAny?_eq, assignAll_cons]
    generalize checkAnyWith (m := Id) v (resolve v) id v.schema.kindNames b = out
    show (if out.1 then assignAllWith v (resolve? v) ids out.2 else some (.error id)) = _
    split
    · exact ih _
    · rfl

theorem assign?_eq (v : Validator) : assign? v = some (assign v) := by
  rw [assign?, assignWith, assignAll?_eq]
  rfl

theorem diagnoseField?_eq (v : Validator) (members : List (String × Json)) (name : String)
    (d : Descriptor) :
    diagnoseFieldWith v (resolve? v) members name d =
      some (diagnoseFieldWith (m := Id) v (resolve v) members name d) := by
  rw [diagnoseFieldWith, diagnoseFieldWith]
  cases Json.lookup members name with
  | none => rfl
  | some value =>
    have hmatch : performWith v (resolve? v) (.matchValue d (some value)) .new = _ :=
      perform?_eq v (.matchValue d (some value)) .new
    dsimp only
    rw [hmatch]
    rfl

theorem diagnoseFields?_eq (v : Validator) (members : List (String × Json))
    (fields : List (String × Descriptor)) :
    diagnoseFieldsWith v (resolve? v) members fields =
      some (diagnoseFieldsWith (m := Id) v (resolve v) members fields) := by
  induction fields with
  | nil => rfl
  | cons f fields ih =>
    rw [diagnoseFieldsWith, diagnoseField?_eq, diagnoseFields_cons]
    generalize diagnoseFieldWith (m := Id) v (resolve v) members f.1 f.2 = found
    cases found with
    | some reason => rfl
    | none => exact ih

theorem diagnose?_eq (v : Validator) (kind : String) (entity : Json) :
    diagnose? v kind entity = some (diagnose v kind entity) := by
  rw [diagnose, diagnose?, diagnoseWith, diagnoseWith]
  cases v.schema.kind? kind with
  | none => rfl
  | some s =>
    cases entity.members? with
    | none => rfl
    | some members =>
      dsimp only
      cases members.find? fun m => !s.contains m.1 with
      | some m => rfl
      | none => exact diagnoseFields?_eq v members s.fields.entries

/-- On every first frame and every assignment the loop ends, within the passes that are enough for
it, and at no time does its stack hold more frames than entities of the graph had no kind when it
began, and one. So every call has an outcome, also when all loops that it needs are cut off after so
many passes. -/
theorem resolve_terminates (v : Validator) :
    (∀ root b, ∃ n ≤ passLimit v root b, ∃ s, (Loop.start root b).passes? v n = some s ∧
      s.pass? v = none ∧ s.outcome = resolve v root b) ∧
    (∀ root b n s, (Loop.start root b).passes? v n = some s →
      s.stack.length ≤ (v.graph.keys.filter fun id => (b.kind? id).isNone).length + 1) ∧
    (∀ call b, perform? v call b = some (perform v call b)) ∧
    assign? v = some v.assign ∧
    ∀ kind entity, diagnose? v kind entity = some (v.diagnose kind entity) := by
  rw [← assign_eq]
  simp only [← diagnose_eq]
  refine ⟨fun root b => ?_, fun root b n s hpasses => ?_, perform?_eq v, assign?_eq v,
    diagnose?_eq v⟩
  · exact Loop.exists_passes?_of_sound (Loop.sound_start v root b)
  · exact Loop.length_stack_le (Loop.sound_of_passes? (Loop.sound_start v root b) hpasses)

/-- Checking the holder has opened a frame for each of three entities after three passes. -/
theorem length_stack_wrapper :
    ∃ s, (Loop.start (.start 0 [⟨⟨"h"⟩, ["Holder"]⟩]) .new).passes?
        (.of wrapperSchema wrapperGraph) 3 = some s ∧
      s.stack.length = 4 ∧
      s.stack.length ≤
        (wrapperGraph.keys.filter fun id => (Bindings.new.kind? id).isNone).length + 1 := by
  have hlength : ((Loop.start (.start 0 [⟨⟨"h"⟩, ["Holder"]⟩]) .new).passes?
      (.of wrapperSchema wrapperGraph) 3).map (·.stack.length) = some 4 := by decide +kernel
  obtain ⟨s, hs, hlength⟩ := Option.map_eq_some_iff.1 hlength
  exact ⟨s, hs, hlength, (resolve_terminates _).2.1 _ _ _ _ hs⟩

end TypedGraph.Validator.InPlace
