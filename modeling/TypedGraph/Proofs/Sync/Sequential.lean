import TypedGraph.Proofs.Sync.Exchange
import TypedGraph.Proofs.Validation.Soundness

/-!
# Calls One After the Other

A remote that awaits each of its calls before it makes the next one sees what it would see if it had
the model at hand. This holds for all schedules in which no time limit ends a call, and for
authorities with the built-in action.

## Main definitions

* `Call`: what a remote asks for;
* `DataModel.perform`: what a call does to a model at hand;
* `Session.Sequential`: calls that are made and awaited one after the other;
* `Call.AnsweredBy`: the outcome of a call fits a model at hand.

## Main results

* `Session.Sequential.exists_idle`: after awaited calls nothing is under way, and the calls have
  been performed on the model of the authority;
* `Session.sequential_perform`: the outcomes of awaited calls are those of calls on a model at hand.
-/

namespace TypedGraph

/-- What a remote asks for. -/
inductive Call where
  | observe
  | self
  | doAction (op : String) (value : Json)
  | setField (target : RefToken) (field : String) (value : Json)
deriving DecidableEq

/-- The request that a call makes. -/
def Call.request : Call → Request
  | observe => .observe
  | self => .self
  | doAction op value => .action ⟨op, value⟩
  | setField target field value => .setField target field value

namespace DataModel

/-- Sets a field: whether this is refused, and the model then. -/
def update (m : DataModel) (u : FieldUpdate) : Bool × DataModel :=
  (!(m.setField u.target.id u.field u.value).1, (m.setField u.target.id u.field u.value).2)

/-- What a call does to a model at hand: whether it is refused, and the model then. Actions other
than the built-in one are refused. -/
def perform (m : DataModel) : Call → Bool × DataModel
  | .observe => (false, m)
  | .self => (false, m)
  | .doAction op value =>
    if op = FieldUpdate.op then
      match FieldUpdate.decode? value with
      | some u => m.update u
      | none => (true, m)
    else (true, m)
  | .setField target field value => m.update ⟨target, field, value⟩

/-- The model after some calls. -/
def performAll (m : DataModel) (calls : List Call) : DataModel :=
  calls.foldl (fun m c => (m.perform c).2) m

end DataModel

/-- The outcome of a call is that of taking over a graph: a model of it, or the first entity without
a kind, just as for a store over the schema. -/
structure RebuiltFrom (schema : Schema) (graph : EntityGraph) (answer : DataModel → Answer)
    (o : Outcome) : Prop where
  /-- If a store takes the graph over there is a model of it. -/
  taken : ∀ (store : DataModel) (index : KindIndex), store.schema = schema →
    (store.tryInit graph).1 = .ok index → ∃ rebuilt, o = .ok (answer rebuilt) ∧
      rebuilt.schema = schema ∧ rebuilt.entities = graph ∧ rebuilt.kinds = index
  /-- There is an error exactly if a store refuses the graph. -/
  refused : ∀ (store : DataModel) (id : EntityId), store.schema = schema →
    (o = .error (.invalidSnapshot id) ↔ (store.tryInit graph).1 = .error id)

/-- The outcome of a call fits a model at hand, which has had the calls before. -/
def Call.AnsweredBy (c : Call) (schema : Schema) (self : RefToken) (m : DataModel) (o : Outcome) :
    Prop :=
  match c with
  | .self => o = .ok (.self self)
  | .observe => RebuiltFrom schema m.entities .observed o
  | .doAction _ _ | .setField _ _ _ =>
    RebuiltFrom schema (m.perform c).2.entities (fun rebuilt => .acted rebuilt (m.perform c).1) o

/-- A rebuilt snapshot is one that a store over the schema takes over. -/
theorem Client.rebuiltFrom (c : Client) (graph : EntityGraph) (answer : DataModel → Answer) :
    RebuiltFrom c.schema graph answer ((c.rebuild graph).map answer) := by
  cases hassign : (Validator.of c.schema graph).assign with
  | ok index =>
    rw [rebuild_of_ok hassign]
    constructor
    · rintro store index' hschema htaken
      rw [DataModel.fst_tryInit, hschema, hassign] at htaken
      cases htaken
      exact ⟨_, rfl, rfl, rfl, rfl⟩
    · rintro store id hschema
      rw [DataModel.fst_tryInit, hschema, hassign]
      exact ⟨nofun, nofun⟩
  | error first =>
    rw [rebuild_of_error hassign]
    constructor
    · rintro store index hschema htaken
      rw [DataModel.fst_tryInit, hschema, hassign] at htaken
      cases htaken
    · rintro store id hschema
      rw [DataModel.fst_tryInit, hschema, hassign]
      constructor
      · rintro ⟨⟩
        rfl
      · rintro ⟨⟩
        rfl

namespace Session

/-- A remote and an authority with the built-in action, newly connected. -/
def served (schema : Schema) (config : SyncConfig) (capacity : Nat) (self : RefToken)
    (model : DataModel) : Session :=
  ⟨.start schema config, .ofCapacity capacity, .start ActionHandler.setField self model⟩

/-- Calls are made one after the other, each awaited until it has its outcome. -/
inductive Sequential : Session → List Call → List Outcome → Session → Prop
  | nil (s : Session) : Sequential s [] [] s
  | cons {s s₁ s₂ : Session} {c : Call} {calls : List Call} {o : Outcome} {outcomes : List Outcome}
    {n : Nat} (hawaiting : Awaiting s c.request n s₁)
    (ho : s₁.client.resolved.lookup s.client.issued = some o)
    (hrest : Sequential { s₁ with client := s₁.client.takeResolved.2 } calls outcomes s₂) :
    Sequential s (c :: calls) (o :: outcomes) s₂

/-! ## One Call -/

/-- The built-in action does what a model at hand does. -/
theorem setField_eq_perform (request : ActionRequest) (self : RefToken) (m : DataModel) :
    ActionHandler.setField request self m = m.perform (.doAction request.op request.value) := by
  rfl

/-- An update that travels as an argument is the update of the call. -/
theorem perform_doAction_toJson (m : DataModel) (u : FieldUpdate) :
    m.perform (.doAction FieldUpdate.op u.toJson) = m.update u := by
  rw [DataModel.perform, if_pos rfl, FieldUpdate.decode?_toJson]

section

variable {p : Idle}

/-- The request of an update makes the authority set the field. -/
theorem handler_setField (hp : p.handler = ActionHandler.setField) (target : RefToken)
    (field : String) (value : Json) :
    p.handler (FieldUpdate.request ⟨target, field, value⟩) p.self p.model =
      p.model.perform (.setField target field value) := by
  rw [hp, setField_eq_perform]
  exact perform_doAction_toJson _ _

/-- The authority performs calls on its model. -/
theorem modelAfter_request (hp : p.handler = ActionHandler.setField) (c : Call) :
    p.modelAfter c.request = (p.model.perform c).2 := by
  cases c with
  | observe => rfl
  | self => rfl
  | doAction op value =>
    show (p.handler ⟨op, value⟩ p.self p.model).2 = _
    rw [hp, setField_eq_perform]
  | setField target field value => exact congrArg Prod.snd (handler_setField hp target field value)

/-- The outcome of a call fits the model of the authority. -/
theorem answeredBy_outcome (hp : p.handler = ActionHandler.setField) (c : Call) :
    c.AnsweredBy p.schema p.self p.model (p.outcome c.request) := by
  have hacted (request : ActionRequest) :
      RebuiltFrom p.schema (p.handler request p.self p.model).2.entities
        (fun rebuilt => .acted rebuilt (p.handler request p.self p.model).1)
        (p.outcome (.action request)) := p.client.rebuiltFrom _ _
  cases c with
  | observe => exact p.client.rebuiltFrom _ _
  | self => rfl
  | doAction op value =>
    have hdone := hacted ⟨op, value⟩
    rw [hp, setField_eq_perform] at hdone
    exact hdone
  | setField target field value =>
    have hdone := hacted (FieldUpdate.request ⟨target, field, value⟩)
    rw [handler_setField hp] at hdone
    exact hdone

end

/-! ## All Calls -/

/-- The first of some calls ends as on a model at hand, and the others are made when nothing is
under way any more. -/
theorem Sequential.uncons {p : Idle} {s : Session} {c : Call} {calls : List Call}
    {outcomes : List Outcome} (h : Sequential p.session (c :: calls) outcomes s) :
    ∃ clock rest, outcomes = p.outcome c.request :: rest ∧
      Sequential (p.after c.request clock).session calls rest s := by
  cases h with
  | cons hawaiting ho hrest =>
    obtain ⟨hout, clock, hidle⟩ := exists_idle_of_awaiting hawaiting ho
    rw [hidle] at hrest
    rw [hout]
    exact ⟨clock, _, rfl, hrest⟩

/-- Calls can be made one after the other, each of them having its outcome. -/
theorem exists_sequential (p : Idle) (calls : List Call) :
    ∃ outcomes s, Sequential p.session calls outcomes s := by
  induction calls generalizing p with
  | nil => exact ⟨[], p.session, .nil _⟩
  | cons c calls ih =>
    obtain ⟨s₁, hawaiting, ho⟩ := exists_awaiting p c.request
    obtain ⟨-, clock, hidle⟩ := exists_idle_of_awaiting hawaiting ho
    obtain ⟨outcomes, s, hrest⟩ := ih (p.after c.request clock)
    rw [← hidle] at hrest
    exact ⟨_, s, .cons hawaiting ho hrest⟩

/-- After awaited calls nothing is under way, and the calls have been performed on the model. -/
theorem Sequential.exists_idle {p : Idle} {s : Session} {calls : List Call}
    {outcomes : List Outcome} (hp : p.handler = ActionHandler.setField)
    (h : Sequential p.session calls outcomes s) :
    ∃ q : Idle, s = q.session ∧ q.handler = ActionHandler.setField ∧ q.schema = p.schema ∧
      q.self = p.self ∧ q.model = p.model.performAll calls := by
  induction calls generalizing p outcomes with
  | nil =>
    cases h
    exact ⟨p, rfl, hp, rfl, rfl, rfl⟩
  | cons c calls ih =>
    obtain ⟨clock, rest, -, hrest⟩ := h.uncons
    obtain ⟨q, hs, hq, hschema, hself, hmodel⟩ := ih (p := p.after c.request clock) hp hrest
    refine ⟨q, hs, hq, hschema, hself, hmodel.trans ?_⟩
    show (p.modelAfter c.request).performAll calls = (p.model.perform c).2.performAll calls
    rw [modelAfter_request hp]

/-- Each awaited call has an outcome that fits a model at hand, which has had the calls before. -/
theorem Sequential.answeredBy {p : Idle} {s : Session} {calls : List Call}
    {outcomes : List Outcome} (hp : p.handler = ActionHandler.setField)
    (h : Sequential p.session calls outcomes s) :
    outcomes.length = calls.length ∧ ∀ (i : Nat) (c : Call), calls[i]? = some c →
      ∃ o, outcomes[i]? = some o ∧
        c.AnsweredBy p.schema p.self (p.model.performAll (calls.take i)) o := by
  induction calls generalizing p outcomes with
  | nil =>
    cases h
    exact ⟨rfl, fun _ _ hc => nomatch hc⟩
  | cons c calls ih =>
    obtain ⟨clock, rest, rfl, hrest⟩ := h.uncons
    obtain ⟨hlength, hanswers⟩ := ih (p := p.after c.request clock) hp hrest
    refine ⟨congrArg (· + 1) hlength, fun i c' hc' => ?_⟩
    cases i with
    | zero =>
      cases hc'
      exact ⟨_, rfl, answeredBy_outcome hp c⟩
    | succ i =>
      obtain ⟨o, ho, hanswer⟩ := hanswers i c' hc'
      have hmodel : (p.after c.request clock).model = (p.model.perform c).2 :=
        modelAfter_request hp c
      rw [hmodel] at hanswer
      exact ⟨o, ho, hanswer⟩

/-- A remote that awaits its calls one after the other sees what it would see with the model at
hand. All calls can be made; whatever the schedules, the model of the authority is the one after the
calls, and the outcome of each call is that on the model after the calls before it. The next call
gets its outcome with the sixth event, and until then there is an event that can happen. -/
theorem sequential_perform (schema : Schema) (config : SyncConfig) (capacity : Nat)
    (self : RefToken) (model : DataModel) (calls : List Call) :
    (∃ outcomes s, Sequential (served schema config capacity self model) calls outcomes s) ∧
    ∀ outcomes s, Sequential (served schema config capacity self model) calls outcomes s →
      s.authority.model = model.performAll calls ∧
      (outcomes.length = calls.length ∧ ∀ (i : Nat) (c : Call), calls[i]? = some c →
        ∃ o, outcomes[i]? = some o ∧
          c.AnsweredBy schema self (model.performAll (calls.take i)) o) ∧
      ∀ (c : Call) (n : Nat) (s' : Session), Awaiting s c.request n s' →
        n ≤ 6 ∧ ((s'.client.resolved.lookup s.client.issued).isSome ↔ n = 6) ∧
          (n < 6 → ∃ e, e ≠ .client .expire ∧ (fire? e s').isSome) := by
  let p : Idle := ⟨schema, config, 0, 0, capacity, ActionHandler.setField, self, model, 0⟩
  refine ⟨exists_sequential p calls, fun outcomes s h => ?_⟩
  have hanswers := Sequential.answeredBy (p := p) rfl h
  obtain ⟨q, rfl, -, -, -, hmodel⟩ := Sequential.exists_idle (p := p) rfl h
  refine ⟨hmodel, hanswers, fun c n s' hawaiting => ?_⟩
  obtain ⟨hle, hnext, hout⟩ := outcome_of_awaiting hawaiting
  refine ⟨hle, ?_, hnext⟩
  rw [Option.isSome_iff_exists]
  constructor
  · rintro ⟨o, ho⟩
    exact ((hout o).1 ho).1
  · rintro rfl
    exact ⟨_, (hout _).2 ⟨rfl, rfl⟩⟩

/-- Lamps with any level, as the authority has them. -/
def lampSchema : Schema := .ofKinds [("Lamp", .ofFields [("level", .string)])]

/-- Lamps that are on or off, as the remote has them. -/
def switchSchema : Schema :=
  .ofKinds [("Lamp", .ofFields [("level", .union (.ofList ["off", "on"]))])]

/-- A lamp of a level. -/
def lampGraph (level : String) : EntityGraph :=
  .ofMembers [("lamp", .obj [("level", .str level)])]

/-- The store with a lamp that is on. -/
def lampStore : DataModel :=
  ((DataModel.empty lampSchema SyncConfig.standard.mint).tryInit (lampGraph "on")).2

/-- Dims the lamp, turns it off, and asks for something that is not known. -/
def lampCalls : List Call := [
  .setField ⟨⟨"lamp"⟩⟩ "level" (.str "dim"), .self,
  .doAction "setField" (FieldUpdate.toJson ⟨⟨⟨"lamp"⟩⟩, "level", .str "off"⟩),
  .doAction "grow" .null]

/-- A failure, if it is one. -/
def failure? {ε α : Type} : Except ε α → Option ε
  | .error e => some e
  | .ok _ => none

theorem eq_error_of_failure? {ε α : Type} {x : Except ε α} {e : ε} (h : failure? x = some e) :
    x = .error e := by
  cases x with
  | error e' => exact congrArg Except.error (Option.some.inj h)
  | ok a => cases h

/-- The remote refuses the snapshot with the lamp that is dimmed, but takes over the one that is
off. -/
theorem sequential_lampCalls :
    ∃ outcomes s,
      Sequential (served switchSchema .standard 1 ⟨⟨"lamp"⟩⟩ lampStore) lampCalls outcomes s ∧
      s.authority.model = lampStore.performAll lampCalls ∧
      outcomes[0]? = some (.error (.invalidSnapshot ⟨"lamp"⟩)) ∧
      outcomes[1]? = some (.ok (.self ⟨⟨"lamp"⟩⟩)) ∧
      (∃ off, outcomes[2]? = some (.ok (.acted off false)) ∧ off.entities = lampGraph "off") ∧
      ∃ off, outcomes[3]? = some (.ok (.acted off true)) ∧ off.entities = lampGraph "off" := by
  obtain ⟨⟨outcomes, s, h⟩, hall⟩ :=
    sequential_perform switchSchema .standard 1 ⟨⟨"lamp"⟩⟩ lampStore lampCalls
  obtain ⟨hmodel, ⟨-, hanswers⟩, -⟩ := hall outcomes s h
  obtain ⟨dimmed, h0, hdimmed⟩ := hanswers 0 _ rfl
  obtain ⟨self, h1, rfl⟩ := hanswers 1 _ rfl
  obtain ⟨turned, h2, hturned⟩ := hanswers 2 _ rfl
  obtain ⟨grown, h3, hgrown⟩ := hanswers 3 _ rfl
  let store := DataModel.empty switchSchema SyncConfig.standard.mint
  have hrefuse : (store.tryInit (lampGraph "dim")).1 = .error ⟨"lamp"⟩ :=
    eq_error_of_failure? (by decide +kernel)
  have htake : (store.tryInit (lampGraph "off")).1 = .ok (.ofList [(⟨"lamp"⟩, "Lamp")]) :=
    eq_ok_of_toOption (by decide +kernel)
  -- the flag and the graph of an action are evaluated on the model at hand
  have hacted {done : Bool × DataModel} {o : Outcome} {error : Bool} {graph : EntityGraph}
      (h : RebuiltFrom switchSchema done.2.entities (fun rebuilt => .acted rebuilt done.1) o)
      (herror : done.1 = error) (hgraph : done.2.entities = graph) :
      RebuiltFrom switchSchema graph (fun rebuilt => .acted rebuilt error) o := by
    rw [herror, hgraph] at h
    exact h
  have hdimmed : RebuiltFrom switchSchema (lampGraph "dim") (fun off => .acted off false) dimmed :=
    hacted hdimmed (by decide +kernel) (by decide +kernel)
  have hturned : RebuiltFrom switchSchema (lampGraph "off") (fun off => .acted off false) turned :=
    hacted hturned (by decide +kernel) (by decide +kernel)
  have hgrown : RebuiltFrom switchSchema (lampGraph "off") (fun off => .acted off true) grown :=
    hacted hgrown (by decide +kernel) (by decide +kernel)
  obtain ⟨off, rfl, -, hoff, -⟩ := hturned.taken store _ rfl htake
  obtain ⟨off', rfl, -, hoff', -⟩ := hgrown.taken store _ rfl htake
  rw [(hdimmed.refused store ⟨"lamp"⟩ rfl).2 hrefuse] at h0
  exact ⟨outcomes, s, h, hmodel, h0, h1, ⟨off, h2, hoff⟩, off', h3, hoff'⟩

end Session

end TypedGraph
