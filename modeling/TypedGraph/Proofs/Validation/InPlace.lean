import TypedGraph.Proofs.Validation.Composition
import TypedGraph.Validation.Calls

/-!
# Searching in Place Is Searching

The loop on an assignment that changes in place has the outcome of the search, and its trail says
exactly what has been bound since a call started: each entity once, none that had a kind before. So
going back to the mark of the call takes back all of it and nothing else, whatever frames have
failed in between.

## Main definitions

* `Bindings.Grown`: an assignment has come from another one by binding entities without kind;
* `Loop.Held`: what the loop keeps of the assignment on which a call was made;
* `Kept`: what comes of a call on an assignment.

## Main results

* `kept_perform`: a call that fails leaves assignment and trail as they were, and one that succeeds
  only adds to them;
* `answer_eq`, `assign_eq` and `diagnose_eq`: calls in place have the outcome of the search;
* `trail_of_reached`: the trail of an assignment lists its kinds but for those that it was seeded
  with.
-/

namespace TypedGraph

namespace Bindings

variable {a b c : Bindings}

/-- An assignment has come from another one by binding some entities without kind, which are listed
at the end of the trail. -/
def Grown (a b : Bindings) : Prop :=
  ∃ new : List EntityId, b.trail.toList = a.trail.toList ++ new ∧ new.Nodup ∧
    (∀ id ∈ new, a.kind? id = none ∧ (b.kind? id).isSome) ∧
    ∀ id, id ∉ new → b.kind? id = a.kind? id

theorem Grown.refl (a : Bindings) : Grown a a := ⟨[], by simp⟩

theorem Grown.trans (hab : Grown a b) (hbc : Grown b c) : Grown a c := by
  obtain ⟨new, htrail, hnodup, hnew, hold⟩ := hab
  obtain ⟨new', htrail', hnodup', hnew', hold'⟩ := hbc
  have hdisjoint (id : EntityId) (hid : id ∈ new) : id ∉ new' := by
    intro hid'
    have hsome := (hnew id hid).2
    rw [(hnew' id hid').1] at hsome
    cases hsome
  -- what is new since the middle had no kind there, and what was new before has one there
  refine ⟨new ++ new', by rw [htrail', htrail, List.append_assoc], ?_, fun id hid => ?_,
    fun id hid => ?_⟩
  · exact List.nodup_append.2 ⟨hnodup, hnodup', fun x hx y hy hxy => hdisjoint x hx (hxy ▸ hy)⟩
  · rcases List.mem_append.1 hid with hid | hid
    · rw [hold' id (hdisjoint id hid)]
      exact hnew id hid
    · refine ⟨?_, (hnew' id hid).2⟩
      rw [← hold id fun h => hdisjoint id h hid]
      exact (hnew' id hid).1
  · rw [List.mem_append, not_or] at hid
    rw [hold' id hid.2, hold id hid.1]

theorem grown_bind {id : EntityId} (kind : String) (h : a.kind? id = none) :
    Grown a (a.bind id kind) := by
  refine ⟨[id], a.toList_trail_bind id kind, List.pairwise_singleton _ id, fun j hj => ?_,
    fun j hj => ?_⟩
  · cases List.mem_singleton.1 hj
    exact ⟨h, by simp⟩
  · rw [List.mem_singleton] at hj
    rw [toAssignment_bind, Assignment.kind?_bind, if_neg (Ne.symm hj)]

theorem Grown.mark_le (h : Grown a b) : a.mark ≤ b.mark := by
  obtain ⟨new, htrail, -⟩ := h
  rw [← length_toList_trail, ← length_toList_trail, htrail, List.length_append]
  exact Nat.le_add_right _ _

/-- What has grown from an assignment goes back to it. -/
theorem Grown.rollback_eq (h : Grown a b) : b.rollback a.mark = a := by
  obtain ⟨new, htrail, -, hnew, hold⟩ := h
  apply ext
  · ext id : 1
    rw [kind?_rollback, htrail, List.drop_left' a.length_toList_trail]
    split
    · next hid => exact (hnew id hid).1.symm
    · next hid => exact hold id hid
  · rw [toList_trail_rollback, htrail, List.take_left' a.length_toList_trail]

/-- What has grown from an assignment has still grown from it after going back a part of the way. -/
theorem Grown.rollback {mark : Nat} (h : Grown a b) (hmark : a.mark ≤ mark) :
    Grown a (b.rollback mark) := by
  obtain ⟨new, htrail, hnodup, hnew, hold⟩ := h
  have hsplit := List.take_append_drop (mark - a.mark) new
  have hdrop : b.trail.toList.drop mark = new.drop (mark - a.mark) := by
    rw [htrail, List.drop_append, a.length_toList_trail, List.drop_eq_nil_of_le, List.nil_append]
    exact hmark
  have hkind (id : EntityId) := kind?_rollback b mark id
  simp only [hdrop] at hkind
  rw [← hsplit, List.nodup_append] at hnodup
  refine ⟨new.take (mark - a.mark), ?_, hnodup.1, fun id hid => ?_, fun id hid => ?_⟩
  · rw [toList_trail_rollback, htrail, List.take_append, a.length_toList_trail,
      List.take_of_length_le]
    exact hmark
  · -- an entity that stays on the trail is not among those that are taken back
    have hstay : id ∉ new.drop (mark - a.mark) := fun h => hnodup.2.2 id hid id h rfl
    rw [hkind, if_neg hstay]
    exact hnew id (List.mem_of_mem_take hid)
  · rw [hkind]
    split
    · next hback => exact (hnew id (List.mem_of_mem_drop hback)).1.symm
    · next hback =>
      apply hold
      rw [← hsplit, List.mem_append]
      exact fun h => h.elim hid hback

theorem Grown.le (h : Grown a b) : a.toAssignment ≤ b.toAssignment := by
  obtain ⟨new, -, -, hnew, hold⟩ := h
  intro id kind hkind
  rw [hold, hkind]
  intro hid
  rw [(hnew id hid).1] at hkind
  cases hkind

end Bindings

namespace Validator.InPlace

variable {v : Validator}

namespace Loop

/-! ## The Trail of a Call -/

/-- No frame goes back further than to some mark, and the last one goes back to it. -/
def Above (mark : Nat) : List Attempt → Prop
  | [] => True
  | f :: rest => mark ≤ f.mark ∧ (rest = [] → f.mark = mark) ∧ Above mark rest

/-- What the loop keeps of the assignment on which a call was made. -/
structure Held (before : Bindings) (s : Loop) : Prop where
  /-- The assignment has grown from it. -/
  grown : before.Grown s.bindings
  /-- The frames go back to it at most. -/
  above : Above before.mark s.stack
  /-- If the last frame has failed, the assignment has gone back to it. -/
  back : s.stack = [] → s.settled ≠ some true → s.bindings = before

theorem held_of_pass? {before : Bindings} {s s' : Loop} (h : s.Held before)
    (hpass : s.pass? v = some s') :
    s'.Held before := by
  obtain ⟨top, rest, hstack, hpass⟩ := pass_of_pass? hpass
  obtain ⟨hgrown, habove, -⟩ := h
  rw [hstack] at habove
  obtain ⟨htop, hroot, hrest⟩ := habove
  -- the frame that is looked at keeps its mark
  rw [← top.mark_settle? s.settled] at htop hroot
  have hstay : Above before.mark (top.settle? s.settled :: rest) := ⟨htop, hroot, hrest⟩
  cases hpass with
  | closed => exact ⟨hgrown, hrest, fun _ hfailed => absurd rfl hfailed⟩
  | failed =>
    -- the last frame was opened at the mark of the call, so nothing of the call is left
    refine ⟨hgrown.rollback htop, hrest, fun hnil _ => ?_⟩
    rw [hroot hnil]
    exact hgrown.rollback_eq
  | settled => exact ⟨hgrown, hstay, nofun⟩
  | @opened id kind kinds goals inner _ henter =>
    have hbind := Bindings.grown_bind kind (enter_opened henter).1
    exact ⟨hgrown.trans hbind, ⟨hgrown.mark_le, nofun, hstay⟩, nofun⟩

/-- What a loop that keeps an assignment comes to: the same assignment, or one that has grown from
it. -/
theorem run_of_held {before : Bindings} {bottom : Assignment} {s : Loop} (h : s.Sound v bottom)
    (hheld : s.Held before) :
    match s.run v bottom h with
    | (true, b) => before.Grown b
    | (false, b) => b = before := by
  fun_induction run v bottom s h with
  | case1 s h s' hpass ih => exact ih (held_of_pass? hheld hpass)
  | case2 s h hpass =>
    have hstack : s.stack = [] := stack_of_pass?_eq_none hpass
    unfold outcome
    by_cases hsettled : s.settled = some true
    · rw [hsettled]
      exact hheld.grown
    · rw [beq_eq_false_iff_ne.2 hsettled]
      exact hheld.back hstack hsettled

/-- The loop ends the way the search does. -/
theorem ends_progress {bottom : Assignment} {s : Loop} (h : s.Sound v bottom)
    (before : Assignment) :
    v.Ends (s.progress before)
      (Check.orUndo before ((s.run v bottom h).1, (s.run v bottom h).2.toAssignment)) := by
  fun_induction run v bottom s h with
  | case1 s h s' hpass ih =>
    obtain ⟨top, rest, hstack, -⟩ := pass_of_pass? hpass
    rw [← advance_of_pass? before h.marked hpass] at ih
    rw [progress, hstack]
    exact .next ih
  | case2 s h hpass =>
    rw [progress, stack_of_pass?_eq_none hpass, outcome]
    by_cases hsettled : s.settled = some true
    · rw [if_pos hsettled, hsettled]
      exact .done _ _
    · rw [if_neg hsettled, beq_eq_false_iff_ne.2 hsettled]
      exact .done _ _

end Loop

/-! ## Calls -/

/-- A loop on a first frame ends the way the search does. -/
theorem ends_resolve (before : Assignment) (mark : Nat) (goals : List RefGoal) (b : Bindings) :
    v.Ends (.next b.toAssignment [⟨before, goals⟩])
      (Check.orUndo before ((resolve v (.start mark goals) b).1,
        (resolve v (.start mark goals) b).2.toAssignment)) := by
  have hends := Loop.ends_progress (Loop.sound_start v (.start mark goals) b) before
  have hprogress : (Loop.start (.start mark goals) b).progress before =
      .next b.toAssignment [⟨before, (Attempt.start mark goals).remaining⟩] := rfl
  rwa [hprogress, Attempt.remaining_start] at hends

/-- What comes of a call on an assignment: a failure leaves it as it was, and a success only adds to
it. -/
def Kept (before : Bindings) : Bool × Bindings → Prop
  | (true, b) => before.Grown b
  | (false, b) => b = before

/-- A failure that leaves the assignment as it was has nothing to take back. -/
theorem Kept.orUndo_eq {b : Bindings} {out : Bool × Bindings} (h : Kept b out) :
    Check.orUndo b.toAssignment (out.1, out.2.toAssignment) = (out.1, out.2.toAssignment) := by
  obtain ⟨ok, b'⟩ := out
  cases ok with
  | true => rfl
  | false =>
    cases h
    rfl

theorem kept_resolve (goals : List RefGoal) (b : Bindings) :
    Kept b (resolve v (.start b.mark goals) b) :=
  Loop.run_of_held _ ⟨.refl b, ⟨Nat.le_refl _, fun _ => rfl, trivial⟩, nofun⟩

/-- The frame of an entity that gets a kind goes back to before the binding. -/
theorem kept_resolve_bind {id : EntityId} {b : Bindings} (kind : String) (goals : List RefGoal)
    (h : b.kind? id = none) : Kept b (resolve v (.start b.mark goals) (b.bind id kind)) :=
  Loop.run_of_held _
    ⟨Bindings.grown_bind kind h, ⟨Nat.le_refl _, fun _ => rfl, trivial⟩, nofun⟩

theorem perform_check (id : EntityId) (kind : String) (b : Bindings) :
    perform v (.check id kind) b =
      match v.enter id kind b.toAssignment with
      | .settled ok => (ok, b)
      | .opened _ goals => resolve v (.start b.mark goals) (b.bind id kind) := by
  rw [perform, performWith, enter_eq]
  cases v.enter id kind b.toAssignment <;> rfl

theorem kept_meet (goals : Option (List RefGoal)) (b : Bindings) :
    Kept b (meetWith (m := Id) (resolve v) goals b) := by
  cases goals with
  | none => rfl
  | some goals => exact kept_resolve goals b

/-- A call that fails leaves assignment and trail as they were, and one that succeeds only adds to
them. -/
theorem kept_perform (v : Validator) (call : Call) (b : Bindings) : Kept b (perform v call b) := by
  cases call with
  | check id kind =>
    rw [perform_check]
    cases henter : v.enter id kind b.toAssignment with
    | settled ok => cases ok with
      | true => exact .refl b
      | false => rfl
    | opened bound goals => exact kept_resolve_bind kind goals (enter_opened henter).1
  | matchValue d value => exact kept_meet (v.collect d value) b
  | matchStructure kind entity =>
    exact kept_meet ((v.schema.kind? kind).bind (v.collectFields · entity)) b

/-- The search answers a call. -/
def answer (v : Validator) : Call → Assignment → Bool × Assignment
  | .check id kind => v.check id kind
  | .matchValue d value => v.matchValue d value
  | .matchStructure kind entity => v.matchStructure kind entity

theorem resolve_eq (goals : List RefGoal) (b : Bindings) :
    v.resolve b.toAssignment goals =
      ((resolve v (.start b.mark goals) b).1,
        (resolve v (.start b.mark goals) b).2.toAssignment) := by
  rw [← (kept_resolve goals b).orUndo_eq]
  exact run_eq_of_ends _ (ends_resolve b.toAssignment b.mark goals b)

theorem meet_eq (goals : Option (List RefGoal)) (b : Bindings) :
    (match goals with
      | some goals => v.resolve b.toAssignment goals
      | none => (false, b.toAssignment)) =
      ((meetWith (m := Id) (resolve v) goals b).1,
        (meetWith (m := Id) (resolve v) goals b).2.toAssignment) := by
  cases goals with
  | none => rfl
  | some goals => exact resolve_eq goals b

/-- A call in place has the outcome of the search. -/
theorem answer_eq (v : Validator) (call : Call) (b : Bindings) :
    answer v call b.toAssignment = ((perform v call b).1, (perform v call b).2.toAssignment) := by
  cases call with
  | check id kind =>
    have hkept := kept_perform v (.check id kind) b
    rw [perform_check] at hkept ⊢
    show v.check id kind b.toAssignment = _
    cases henter : v.enter id kind b.toAssignment with
    | settled ok => exact check_of_settled henter
    | opened bound goals =>
      -- the frame of the entity is searched on top of the assignment before its binding
      obtain ⟨-, rfl, -⟩ := enter_opened henter
      rw [henter] at hkept
      rw [← hkept.orUndo_eq]
      exact (ends_check henter).unique (ends_resolve b.toAssignment b.mark goals (b.bind id kind))
  | matchValue d value => exact meet_eq (v.collect d value) b
  | matchStructure kind entity =>
    exact meet_eq ((v.schema.kind? kind).bind (v.collectFields · entity)) b

theorem checkAny_cons (v : Validator) (id : EntityId) (kind : String) (kinds : List String)
    (b : Bindings) :
    checkAnyWith (m := Id) v (resolve v) id (kind :: kinds) b =
      if (perform v (.check id kind) b).1 then (true, (perform v (.check id kind) b).2)
      else checkAnyWith (m := Id) v (resolve v) id kinds (perform v (.check id kind) b).2 := rfl

theorem checkAny_eq (v : Validator) (id : EntityId) (kinds : List String) (b : Bindings) :
    v.checkAny id kinds b.toAssignment =
      ((checkAnyWith (m := Id) v (resolve v) id kinds b).1,
        (checkAnyWith (m := Id) v (resolve v) id kinds b).2.toAssignment) := by
  induction kinds generalizing b with
  | nil => rfl
  | cons kind kinds ih =>
    have hcheck : v.check id kind b.toAssignment = _ := answer_eq v (.check id kind) b
    rw [checkAny, hcheck, checkAny_cons]
    generalize perform v (.check id kind) b = out
    obtain ⟨ok, b'⟩ := out
    cases ok with
    | true => rfl
    | false => exact ih b'

theorem assignAll_cons (v : Validator) (id : EntityId) (ids : List EntityId) (b : Bindings) :
    assignAllWith (m := Id) v (resolve v) (id :: ids) b =
      if (checkAnyWith (m := Id) v (resolve v) id v.schema.kindNames b).1 then
        assignAllWith (m := Id) v (resolve v) ids
          (checkAnyWith (m := Id) v (resolve v) id v.schema.kindNames b).2
      else .error id := rfl

theorem assignAll_eq (v : Validator) (ids : List EntityId) (b : Bindings) :
    v.assignAll ids b.toAssignment =
      (assignAllWith (m := Id) v (resolve v) ids b).map (·.toAssignment) := by
  induction ids generalizing b with
  | nil => rfl
  | cons id ids ih =>
    rw [assignAll, checkAny_eq, assignAll_cons]
    generalize checkAnyWith (m := Id) v (resolve v) id v.schema.kindNames b = out
    obtain ⟨ok, b'⟩ := out
    cases ok with
    | true => exact ih b'
    | false => rfl

/-- A graph gets the same kinds in place. -/
theorem assign_eq (v : Validator) : assign v = v.assign := by
  have hall := assignAll_eq v v.graph.ids .new
  have hassign : assign v =
      (assignAllWith (m := Id) v (resolve v) v.graph.ids .new).map (·.toIndex v.graph) := rfl
  rw [hassign, Validator.assign]
  show _ = (v.assignAll v.graph.ids Bindings.new.toAssignment).map _
  rw [hall]
  generalize assignAllWith (m := Id) v (resolve v) v.graph.ids .new = out
  cases out <;> rfl

theorem diagnoseField_eq (v : Validator) (members : List (String × Json)) (name : String)
    (d : Descriptor) :
    diagnoseFieldWith (m := Id) v (resolve v) members name d = v.diagnoseField members name d := by
  rw [diagnoseFieldWith, diagnoseField]
  cases Json.lookup members name with
  | none => rfl
  | some value =>
    have hmatch : v.matchValue d (some value) ∅ = _ := answer_eq v (.matchValue d (some value)) .new
    dsimp only
    rw [hmatch]
    rfl

theorem diagnoseFields_cons (v : Validator) (members : List (String × Json))
    (f : String × Descriptor) (fields : List (String × Descriptor)) :
    diagnoseFieldsWith (m := Id) v (resolve v) members (f :: fields) =
      match diagnoseFieldWith (m := Id) v (resolve v) members f.1 f.2 with
      | some reason => some reason
      | none => diagnoseFieldsWith (m := Id) v (resolve v) members fields := by
  rw [diagnoseFieldsWith]
  show (match diagnoseFieldWith (m := Id) v (resolve v) members f.1 f.2 with
    | some reason => some reason
    | none => diagnoseFieldsWith (m := Id) v (resolve v) members fields) = _
  cases diagnoseFieldWith (m := Id) v (resolve v) members f.1 f.2 <;> rfl

theorem diagnoseFields_eq (v : Validator) (members : List (String × Json))
    (fields : List (String × Descriptor)) :
    diagnoseFieldsWith (m := Id) v (resolve v) members fields =
      fields.findSome? fun f => v.diagnoseField members f.1 f.2 := by
  induction fields with
  | nil => rfl
  | cons f fields ih =>
    rw [List.findSome?_cons, ← ih, ← diagnoseField_eq, diagnoseFields_cons]
    cases diagnoseFieldWith (m := Id) v (resolve v) members f.1 f.2 <;> rfl

/-- The reasons for a failure are the same in place. -/
theorem diagnose_eq (v : Validator) (kind : String) (entity : Json) :
    diagnose v kind entity = v.diagnose kind entity := by
  rw [diagnose, diagnoseWith, Validator.diagnose]
  cases v.schema.kind? kind with
  | none => rfl
  | some s =>
    cases entity.members? with
    | none => rfl
    | some members =>
      dsimp only
      cases members.find? fun m => !s.contains m.1 with
      | some m => rfl
      | none => exact diagnoseFields_eq v members s.fields.entries

/-! ## Assignments That Calls Can Lead To -/

/-- An assignment comes from some kinds by calls. -/
inductive Reached (v : Validator) (index : KindIndex) : Bindings → Prop
  | seeded : Reached v index (.seeded index)
  | perform {b : Bindings} (h : Reached v index b) (call : Call) :
    Reached v index (perform v call b).2

theorem Kept.grown {b : Bindings} {out : Bool × Bindings} (h : Kept b out) : b.Grown out.2 := by
  obtain ⟨ok, b'⟩ := out
  cases ok with
  | true => exact h
  | false =>
    cases h
    exact .refl b

theorem grown_of_reached {index : KindIndex} {b : Bindings} (h : Reached v index b) :
    (Bindings.seeded index).Grown b := by
  induction h with
  | seeded => exact .refl _
  | perform _ call ih => exact ih.trans (kept_perform v call _).grown

/-- The trail of an assignment lists the entities that have kinds, each once, but for those that it
was seeded with. -/
theorem trail_of_reached {index : KindIndex} {b : Bindings} (h : Reached v index b) :
    b.trail.toList.Nodup ∧
      ∀ id, id ∈ b.trail.toList ↔ (b.kind? id).isSome ∧ index.get? id = none := by
  obtain ⟨new, htrail, hnodup, hnew, hold⟩ := grown_of_reached h
  have hnil : (Bindings.seeded index).trail.toList = [] := rfl
  have hseeded (id : EntityId) : (Bindings.seeded index).kind? id = index.get? id :=
    Assignment.kind?_ofIndex index id
  rw [hnil, List.nil_append] at htrail
  rw [htrail]
  refine ⟨hnodup, fun id => ⟨fun hid => ?_, fun hid => ?_⟩⟩
  · rw [← hseeded]
    exact ⟨(hnew id hid).2, (hnew id hid).1⟩
  · -- off the trail an entity has the kind that it was seeded with, if any
    apply Classical.byContradiction
    intro hnot
    rw [hold id hnot, hseeded, hid.2] at hid
    cases hid.1

end Validator.InPlace

end TypedGraph
