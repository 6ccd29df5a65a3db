import TypedGraph.Proofs.Sync.Steps

/-!
# Exchanges

What happens when one request is made and nothing else is under way. The request waits as a command,
is queued as a command, lies in the outbox as a message, and travels to the authority; its reply is
held by the authority and travels back. In each of these stages there is one event that goes on to
the next stage, and apart from time limits no other event can happen. So all schedules end alike.

## Main definitions

* `Session.Idle`: a session in which nothing is under way;
* `Session.Stage`: how far a request has got;
* `Session.Exchange.session`: a session in which one request is under way, stage by stage;
* `Session.Awaiting`: a request that has been made, and what has happened since.

## Main results

* `Session.isOffered_of_fire?`: an event only happens when there is something for it to take;
* `Session.Exchange.exists_fire?`: the event of a stage leads to the next stage;
* `Session.exists_stage_of_awaiting`: whatever the schedule, the stage is the number of events;
* `Session.outcome_of_awaiting`: the outcome comes with the sixth event, and is the same in all
  schedules;
* `Session.call_session`: running a call until all is quiet is one of the schedules.
-/

namespace TypedGraph

/-- The message that carries a reply. -/
def Reply.message : Reply → Message
  | snapshot graph error => .snapshot graph error
  | selfRef id => .selfRef id

theorem Reply.ofMessage?_message (reply : Reply) : ofMessage? reply.message = some reply := by
  cases reply <;> rfl

/-- The only open request is resolved. -/
theorem Client.resolve_of_running {c : Client} {o : OpenRequest} {res : Resolution}
    (h : c.running = [o]) : c.resolve [(o.ticket, res)] = { c with
      running := []
      resolved := c.resolved ++ [(o.ticket, c.outcomeOf o.request res)] } := by
  simp [resolve, finish, h]

namespace Session

/-! ## What Events Take -/

/-- There is something for an event to take. While both ends of the channel are there and the client
is held, nothing stops. -/
def isOffered (s : Session) : Event → Bool
  | .client .expire => s.client.running.any s.client.isExpired
  | .client .enter => !s.client.waiting.isEmpty
  | .client .accept => !s.client.queue.isEmpty
  | .client .transmit => s.client.dispatcher.any fun d => !d.outbox.isEmpty
  | .client .receive => !s.channel.left.inbox.isEmpty
  | .client .stop => false
  | .authority .reply => s.authority.reply.isSome
  | .authority .receive => !s.channel.right.inbox.isEmpty
  | .authority .stop => false

/-- An event only happens when there is something for it to take. -/
theorem isOffered_of_fire? {s s' : Session} {e : Event} (hheld : s.client.held)
    (hleft : s.channel.left.present) (hright : s.channel.right.present)
    (hfire : fire? e s = some s') : s.isOffered e := by
  cases e with
  | client e =>
    obtain ⟨⟨c, ch⟩, hfire, -⟩ := Option.map_eq_some_iff.1 hfire
    cases Client.step_of_fire? hfire with
    | expire hany => exact hany
    | enter hw _ => simp [isOffered, hw]
    | accept _ hq _ => simp [isOffered, hq]
    | transmit hd ho _ _ => simp [isOffered, hd, ho]
    | receive _ hi => simp [isOffered, hi]
    | stop _ hstop =>
      -- the client is held, and the other end is there
      simp [Client.isAbandoned, Client.hasHungUp, Duplex.isClosed, Duplex.endpoint, Side.other,
        hheld, hright] at hstop
  | authority e =>
    obtain ⟨⟨a, ch⟩, hfire, -⟩ := Option.map_eq_some_iff.1 hfire
    cases Authority.step_of_fire? hfire with
    | deliver _ hr _ _ => simp [isOffered, hr]
    | fail _ hr _ => simp [isOffered, hr]
    | receive _ _ hi => simp [isOffered, hi]
    | stop _ _ _ hgone => cases hleft.symm.trans hgone

/-! ## Stages -/

/-- A session in which nothing is under way is told by these parts of it; all else is empty. -/
structure Idle where
  schema : Schema
  config : SyncConfig
  clock : Nat
  /-- The number of requests before. -/
  issued : Nat
  /-- The capacity of the channel. -/
  capacity : Nat
  handler : ActionHandler
  self : RefToken
  model : DataModel
  /-- The number of messages handled before. -/
  handled : Nat

namespace Idle

/-- The client, which has nothing to do. -/
def client (p : Idle) : Client :=
  { Client.start p.schema p.config with clock := p.clock, issued := p.issued }

/-- The authority, which has nothing to do. -/
def authority (p : Idle) : Authority :=
  { Authority.start p.handler p.self p.model with handled := p.handled }

/-- The session, in which all queues are empty. -/
def session (p : Idle) : Session := ⟨p.client, .ofCapacity p.capacity, p.authority⟩

/-- What the authority replies to a request. -/
def reply (p : Idle) : Request → Reply
  | .observe => .snapshot p.model.entities false
  | .self => .selfRef p.self.id
  | .action request =>
    let (error, m) := p.handler request p.self p.model
    .snapshot m.entities error

/-- The model after a request. -/
def modelAfter (p : Idle) : Request → DataModel
  | .observe => p.model
  | .self => p.model
  | .action request => (p.handler request p.self p.model).2

/-- How a request ends. -/
def outcome (p : Idle) (r : Request) : Outcome := p.client.outcomeOf r (.answered (p.reply r))

/-- The session in which nothing is under way any more after a request. -/
def after (p : Idle) (r : Request) (clock : Nat) : Idle :=
  { p with clock, issued := p.issued + 1, model := p.modelAfter r, handled := p.handled + 1 }

theorem take_message (p : Idle) (r : Request) :
    p.authority.take r.message = { (p.after r p.clock).authority with
      reply := some (p.reply r).message } := by
  cases r <;> rfl

theorem slot_reply (p : Idle) (r : Request) : (p.reply r).slot = r.slot := by cases r <;> rfl

end Idle

/-- How far a request has got. -/
inductive Stage where
  /-- Its command waits for a place in the queue. -/
  | waiting
  /-- Its command is queued. -/
  | queued
  /-- Its message is in the outbox. -/
  | accepted
  /-- Its message is in the channel. -/
  | sent
  /-- The authority has the reply. -/
  | handled
  /-- The reply is in the channel. -/
  | replied
  /-- It is resolved. -/
  | resolved
deriving DecidableEq

namespace Stage

/-- The event that goes on to the next stage, and this stage. -/
def next? : Stage → Option (Event × Stage)
  | waiting => some (.client .enter, queued)
  | queued => some (.client .accept, accepted)
  | accepted => some (.client .transmit, sent)
  | sent => some (.authority .receive, handled)
  | handled => some (.authority .reply, replied)
  | replied => some (.client .receive, resolved)
  | resolved => none

/-- The number of events before a stage. -/
def number : Stage → Nat
  | waiting => 0
  | queued => 1
  | accepted => 2
  | sent => 3
  | handled => 4
  | replied => 5
  | resolved => 6

variable {k k' : Stage} {e : Event}

theorem number_of_next? (h : k.next? = some (e, k')) : k'.number = k.number + 1 := by
  cases k <;> cases h <;> rfl

theorem ne_expire_of_next? (h : k.next? = some (e, k')) : e ≠ .client .expire := by
  cases k <;> cases h <;> decide

theorem number_eq_six_iff : k.number = 6 ↔ k = resolved := by cases k <;> decide

theorem next?_eq_none_iff : k.next? = none ↔ k = resolved := by cases k <;> decide

theorem exists_next?_of_number_lt (h : k.number < 6) : ∃ next, k.next? = some next := by
  cases k with
  | resolved => exact absurd h (Nat.lt_irrefl 6)
  | _ => exact ⟨_, rfl⟩

end Stage

/-- A request that is made when nothing else is under way. -/
structure Exchange where
  /-- The session before the request. -/
  idle : Idle
  request : Request
  clock : Nat
  /-- The time limit, once the command is queued. -/
  deadline : Option Nat

namespace Exchange

/-- The command of the request. -/
def command (x : Exchange) : Command := ⟨x.idle.issued, x.request.message, x.request.slot⟩

/-- The dispatcher while the request waits for its reply. -/
def dispatcher (x : Exchange) (outbox : List Message) : Dispatcher :=
  { (Dispatcher.idle x.idle.config.places).setSlot x.request.slot (some x.idle.issued) with outbox }

/-- The client without the request. -/
def base (x : Exchange) : Client :=
  { x.idle.client with clock := x.clock, issued := x.idle.issued + 1 }

/-- The client while the request is open. -/
def client (x : Exchange) : Client :=
  { x.base with running := [⟨x.idle.issued, x.request, x.deadline⟩] }

/-- The channel with some messages. -/
def channel (x : Exchange) (left right : List Message) : Duplex :=
  ⟨max 1 x.idle.capacity, ⟨true, left⟩, ⟨true, right⟩⟩

/-- The authority that has handled the request. -/
def authority (x : Exchange) : Authority := (x.idle.after x.request x.clock).authority

/-- The session in each stage. -/
def session (x : Exchange) : Stage → Session
  | .waiting => ⟨{ x.base with
      waiting := [x.command]
      running := [⟨x.idle.issued, x.request, none⟩] }, x.channel [] [], x.idle.authority⟩
  | .queued => ⟨{ x.client with queue := [x.command] }, x.channel [] [], x.idle.authority⟩
  | .accepted => ⟨{ x.client with dispatcher := some (x.dispatcher [x.request.message]) },
      x.channel [] [], x.idle.authority⟩
  | .sent => ⟨{ x.client with dispatcher := some (x.dispatcher []) },
      x.channel [] [x.request.message], x.idle.authority⟩
  | .handled => ⟨{ x.client with dispatcher := some (x.dispatcher []) }, x.channel [] [],
      { x.authority with reply := some (x.idle.reply x.request).message }⟩
  | .replied => ⟨{ x.client with dispatcher := some (x.dispatcher []) },
      x.channel [(x.idle.reply x.request).message] [], x.authority⟩
  | .resolved => ⟨{ x.base with resolved := [(x.idle.issued, x.idle.outcome x.request)] },
      x.channel [] [], x.authority⟩

/-- What happens in a stage is the event of the stage, time limits apart. -/
theorem next?_of_fire? {x : Exchange} {k : Stage} {e : Event} {s' : Session}
    (hfire : fire? e (x.session k) = some s') (he : e ≠ .client .expire) :
    ∃ k', k.next? = some (e, k') := by
  have hoffered : (x.session k).isOffered e := by
    apply isOffered_of_fire? _ _ _ hfire <;> cases k <;> rfl
  -- an empty place offers nothing, and in each stage a single place is not empty
  cases k <;> rcases e with (_ | _ | _ | _ | _ | _) | (_ | _ | _) <;>
    first
    | exact ⟨_, rfl⟩
    | cases hoffered
    | exact absurd rfl he

theorem fire?_enter (x : Exchange) : fire? (.client .enter) (x.session .waiting) =
    some ({ x with deadline := x.idle.config.timeout.map (x.clock + ·) }.session .queued) := by
  have hplaces : 0 < x.idle.config.places := Nat.le_max_left 1 _
  simp [fire?, Client.fire?, Client.enter?, session, base, client, Idle.client, Client.start,
    hplaces, Client.beginLimit, command, channel]

theorem fire?_accept (x : Exchange) :
    fire? (.client .accept) (x.session .queued) = some (x.session .accepted) := by
  have haccept : (Dispatcher.idle x.idle.config.places).accept? x.command =
      some (x.dispatcher [x.request.message], []) := by
    have hroom : (Dispatcher.idle x.idle.config.places).hasRoom :=
      decide_eq_true (Nat.le_max_left 1 _)
    rw [Dispatcher.accept?, if_pos hroom]
    cases hslot : x.request.slot <;>
      simp [dispatcher, command, Dispatcher.idle, Dispatcher.waitingIn, hslot]
  have hfire : Client.accept? { x.client with queue := [x.command] } =
      some { x.client with dispatcher := some (x.dispatcher [x.request.message]) } := by
    show ((Dispatcher.idle x.idle.config.places).accept? x.command).map _ = _
    rw [haccept]
    rfl
  simp only [fire?, Client.fire?, session, hfire]
  rfl

theorem fire?_transmit (x : Exchange) :
    fire? (.client .transmit) (x.session .accepted) = some (x.session .sent) :=
  fire?_of_client (Client.Step.transmit (d := x.dispatcher [x.request.message]) rfl rfl rfl
    (Nat.le_max_left 1 _))

theorem fire?_serve (x : Exchange) :
    fire? (.authority .receive) (x.session .sent) = some (x.session .handled) := by
  have hserve : fire? (.authority .receive) (x.session .sent) = some { x.session .sent with
      authority := x.idle.authority.take x.request.message
      channel := x.channel [] [] } := fire?_of_authority (.receive rfl rfl rfl)
  rw [hserve, Idle.take_message]
  rfl

theorem fire?_reply (x : Exchange) :
    fire? (.authority .reply) (x.session .handled) = some (x.session .replied) :=
  fire?_of_authority (.deliver rfl rfl rfl (Nat.le_max_left 1 _))

theorem fire?_receive (x : Exchange) :
    fire? (.client .receive) (x.session .replied) = some (x.session .resolved) := by
  have hreceive : (x.dispatcher []).receive (x.idle.reply x.request).message =
      (.idle x.idle.config.places, [(x.idle.issued, .answered (x.idle.reply x.request))]) := by
    rw [Dispatcher.receive, Reply.ofMessage?_message]
    simp only [Idle.slot_reply]
    cases hslot : x.request.slot <;>
      simp [dispatcher, Dispatcher.idle, Dispatcher.setSlot, Dispatcher.waitingIn, hslot]
  have hresolve : Client.resolve { x.client with dispatcher := some (.idle x.idle.config.places) }
      [(x.idle.issued, .answered (x.idle.reply x.request))] =
        { x.base with resolved := [(x.idle.issued, x.idle.outcome x.request)] } :=
    Client.resolve_of_running (o := ⟨x.idle.issued, x.request, x.deadline⟩) rfl
  have hfire : Client.receive? { x.client with dispatcher := some (x.dispatcher []) }
      (x.channel [(x.idle.reply x.request).message] []) =
        some ({ x.base with resolved := [(x.idle.issued, x.idle.outcome x.request)] },
          x.channel [] []) := by
    rw [← hresolve]
    exact congrArg (fun done =>
      some (Client.resolve { x.client with dispatcher := some done.1 } done.2, x.channel [] []))
      hreceive
  simp only [fire?, Client.fire?, session, hfire, Option.map_some]

/-- The event of a stage leads to the next stage. The time limit only changes when it begins. -/
theorem exists_fire? (x : Exchange) {k k' : Stage} {e : Event} (h : k.next? = some (e, k')) :
    ∃ deadline, (deadline = x.deadline ∨ deadline = x.idle.config.timeout.map (x.clock + ·)) ∧
      fire? e (x.session k) = some ({ x with deadline }.session k') := by
  cases k <;> cases h
  · exact ⟨_, .inr rfl, x.fire?_enter⟩
  · exact ⟨_, .inl rfl, x.fire?_accept⟩
  · exact ⟨_, .inl rfl, x.fire?_transmit⟩
  · exact ⟨_, .inl rfl, x.fire?_serve⟩
  · exact ⟨_, .inl rfl, x.fire?_reply⟩
  · exact ⟨_, .inl rfl, x.fire?_receive⟩

end Exchange

/-! ## Schedules -/

/-- A request has been made in a session, and since then time may have passed and some number of
events have happened, but no request has been ended by its time limit. -/
inductive Awaiting (s : Session) (r : Request) : Nat → Session → Prop
  | request : Awaiting s r 0 { s with client := s.client.request r }
  | elapse {n : Nat} {s' : Session} (h : Awaiting s r n s') (ms : Nat) :
    Awaiting s r n { s' with client := s'.client.elapse ms }
  | event {n : Nat} {s' s'' : Session} (h : Awaiting s r n s') {e : Event}
    (he : e ≠ .client .expire) (hfire : fire? e s' = some s'') : Awaiting s r (n + 1) s''

/-- A request that is made when nothing is under way has got to a stage. -/
def Idle.Reaches (p : Idle) (r : Request) (k : Stage) (s : Session) : Prop :=
  ∃ clock deadline, s = Exchange.session ⟨p, r, clock, deadline⟩ k

section

variable {p : Idle} {r : Request} {k : Stage} {s : Session}

theorem reaches_request (p : Idle) (r : Request) :
    p.Reaches r .waiting { p.session with client := p.session.client.request r } :=
  ⟨p.clock, none, rfl⟩

theorem Idle.Reaches.elapse (h : p.Reaches r k s) (ms : Nat) :
    p.Reaches r k { s with client := s.client.elapse ms } := by
  obtain ⟨clock, deadline, rfl⟩ := h
  exact ⟨clock + ms, deadline, by cases k <;> rfl⟩

/-- Whatever happens, apart from time limits, leads to the next stage. -/
theorem Idle.Reaches.fire {s' : Session} {e : Event} (h : p.Reaches r k s)
    (he : e ≠ .client .expire) (hfire : fire? e s = some s') :
    ∃ k', k.next? = some (e, k') ∧ p.Reaches r k' s' := by
  obtain ⟨clock, deadline, rfl⟩ := h
  obtain ⟨k', hnext⟩ := Exchange.next?_of_fire? hfire he
  obtain ⟨deadline', -, hfire'⟩ := Exchange.exists_fire? ⟨p, r, clock, deadline⟩ hnext
  rw [hfire'] at hfire
  exact ⟨k', hnext, clock, deadline', (Option.some.inj hfire).symm⟩

/-- Whatever the schedule, the stage is the number of events that have happened. -/
theorem exists_stage_of_awaiting {n : Nat} (h : Awaiting p.session r n s) :
    ∃ k : Stage, k.number = n ∧ p.Reaches r k s := by
  induction h with
  | request => exact ⟨.waiting, rfl, reaches_request p r⟩
  | elapse _ ms ih =>
    obtain ⟨k, hk, hreaches⟩ := ih
    exact ⟨k, hk, hreaches.elapse ms⟩
  | event _ he hfire ih =>
    obtain ⟨k, hk, hreaches⟩ := ih
    obtain ⟨k', hnext, hreaches'⟩ := hreaches.fire he hfire
    exact ⟨k', by rw [Stage.number_of_next? hnext, hk], hreaches'⟩

/-- A request has an outcome in the last stage only, which is the one that its reply gives. -/
theorem Idle.Reaches.lookup_eq_some_iff {o : Outcome} (h : p.Reaches r k s) :
    s.client.resolved.lookup p.issued = some o ↔ k = .resolved ∧ p.outcome r = o := by
  obtain ⟨clock, deadline, rfl⟩ := h
  cases k with
  | resolved =>
    have hlookup : (Exchange.session ⟨p, r, clock, deadline⟩ .resolved).client.resolved.lookup
        p.issued = some (p.outcome r) := List.lookup_cons_self
    rw [hlookup, Option.some.injEq]
    exact ⟨fun ho => ⟨rfl, ho⟩, And.right⟩
  | _ => exact ⟨nofun, nofun⟩

/-- In an awaited session there are at most six events. Before the sixth one another can happen, and
with it the request has its outcome. -/
theorem outcome_of_awaiting {n : Nat} (h : Awaiting p.session r n s) :
    n ≤ 6 ∧ (n < 6 → ∃ e, e ≠ .client .expire ∧ (fire? e s).isSome) ∧
      ∀ o, s.client.resolved.lookup p.issued = some o ↔ n = 6 ∧ p.outcome r = o := by
  obtain ⟨k, rfl, hreaches⟩ := exists_stage_of_awaiting h
  refine ⟨by cases k <;> decide, fun hlt => ?_, fun o => ?_⟩
  · obtain ⟨⟨e, k'⟩, hnext⟩ := Stage.exists_next?_of_number_lt hlt
    obtain ⟨clock, deadline, rfl⟩ := hreaches
    obtain ⟨deadline', -, hfire⟩ := Exchange.exists_fire? ⟨p, r, clock, deadline⟩ hnext
    exact ⟨e, Stage.ne_expire_of_next? hnext, Option.isSome_iff_exists.2 ⟨_, hfire⟩⟩
  · rw [hreaches.lookup_eq_some_iff, Stage.number_eq_six_iff]

/-- Once the outcome is taken nothing is under way any more. -/
theorem exists_idle_of_awaiting {n : Nat} {o : Outcome} (h : Awaiting p.session r n s)
    (ho : s.client.resolved.lookup p.issued = some o) :
    p.outcome r = o ∧
      ∃ clock, { s with client := s.client.takeResolved.2 } = (p.after r clock).session := by
  obtain ⟨k, -, hreaches⟩ := exists_stage_of_awaiting h
  obtain ⟨rfl, hout⟩ := hreaches.lookup_eq_some_iff.1 ho
  obtain ⟨clock, deadline, rfl⟩ := hreaches
  exact ⟨hout, clock, rfl⟩

/-- Every request can be awaited until it has its outcome. -/
theorem exists_awaiting (p : Idle) (r : Request) :
    ∃ s, Awaiting p.session r 6 s ∧ s.client.resolved.lookup p.issued = some (p.outcome r) := by
  have hreach (n : Nat) (hn : n ≤ 6) : ∃ s, Awaiting p.session r n s := by
    induction n with
    | zero => exact ⟨_, .request⟩
    | succ n ih =>
      obtain ⟨s, hs⟩ := ih (Nat.le_of_succ_le hn)
      obtain ⟨e, he, hfire⟩ := (outcome_of_awaiting hs).2.1 hn
      obtain ⟨s', hs'⟩ := Option.isSome_iff_exists.1 hfire
      exact ⟨s', hs.event he hs'⟩
  obtain ⟨s, hs⟩ := hreach 6 (Nat.le_refl 6)
  exact ⟨s, hs, ((outcome_of_awaiting hs).2.2 _).2 ⟨rfl, rfl⟩⟩

/-! ## Running a Call -/

namespace Exchange

/-- The time limit of the request is not over. -/
def InTime (x : Exchange) : Prop := ∀ limit ∈ x.deadline, x.clock < limit

theorem fire?_expire {x : Exchange} (h : x.InTime) :
    fire? (.client .expire) (x.session k) = none := by
  have hlimit : x.deadline.any (· ≤ x.clock) = false := by
    cases hdeadline : x.deadline with
    | none => rfl
    | some limit => exact decide_eq_false (Nat.not_le_of_lt (h limit hdeadline))
  have hopen : (x.session k).client.running.any (x.session k).client.isExpired = false := by
    cases k with
    | waiting => rfl
    | resolved => rfl
    | _ => exact (Bool.or_false _).trans hlimit
  show ((x.session k).client.expire?.map _).map _ = none
  rw [Client.expire?, hopen]
  rfl

/-- A time limit that is not over at once is not over when it begins. -/
theorem inTime_begin {x : Exchange} (h : x.idle.config.timeout ≠ some 0) :
    InTime { x with deadline := x.idle.config.timeout.map (x.clock + ·) } := by
  intro limit hlimit
  obtain ⟨ms, hms, rfl⟩ := Option.map_eq_some_iff.1 hlimit
  have hpos : ms ≠ 0 := fun hzero => h (hzero ▸ hms)
  exact Nat.lt_add_of_pos_right (Nat.pos_of_ne_zero hpos)

/-- What happens first while the request is in time leads to the next stage, where it is still in
time. -/
theorem InTime.step {x : Exchange} (h : x.InTime) (htimeout : x.idle.config.timeout ≠ some 0)
    {s' : Session} (hstep : step? (x.session k) = some s') :
    ∃ k' deadline, InTime { x with deadline } ∧ s' = { x with deadline }.session k' := by
  obtain ⟨_, e, _, -, hfire, -⟩ := List.findSome?_eq_some_iff.1 hstep
  have he : e ≠ .client .expire := by
    rintro rfl
    rw [fire?_expire h] at hfire
    cases hfire
  obtain ⟨k', hnext⟩ := next?_of_fire? hfire he
  obtain ⟨deadline, hdeadline, hfire'⟩ := exists_fire? x hnext
  rw [hfire'] at hfire
  refine ⟨k', deadline, ?_, (Option.some.inj hfire).symm⟩
  rcases hdeadline with rfl | rfl
  · exact h
  · exact inTime_begin htimeout

theorem next?_eq_none_of_step? {x : Exchange} (h : step? (x.session k) = none) :
    k.next? = none := by
  cases hnext : k.next? with
  | none => rfl
  | some next =>
    obtain ⟨deadline, -, hfire⟩ := exists_fire? x hnext
    have he : next.1 ∈ events := by cases k <;> cases hnext <;> decide
    rw [List.findSome?_eq_none_iff.1 h next.1 he] at hfire
    cases hfire

end Exchange

/-- If time limits are not over at once, the request is resolved when all is quiet. -/
theorem exists_settle_eq (p : Idle) (r : Request) (h : p.config.timeout ≠ some 0) :
    ∃ deadline, settle { p.session with client := p.session.client.request r } =
      Exchange.session ⟨p, r, p.clock, deadline⟩ .resolved := by
  obtain ⟨k, deadline, -, hsettle⟩ : ∃ k deadline,
      Exchange.InTime ⟨p, r, p.clock, deadline⟩ ∧
        settle { p.session with client := p.session.client.request r } =
          Exchange.session ⟨p, r, p.clock, deadline⟩ k := by
    apply untilQuiet_induction (P := fun s => ∃ k deadline,
      Exchange.InTime ⟨p, r, p.clock, deadline⟩ ∧ s = Exchange.session ⟨p, r, p.clock, deadline⟩ k)
    case h => exact ⟨.waiting, none, nofun, rfl⟩
    rintro _ s' ⟨k, deadline, hin, rfl⟩ hstep
    exact hin.step h hstep
  have hquiet : step? (Exchange.session ⟨p, r, p.clock, deadline⟩ k) = none := by
    rw [← hsettle]
    exact step?_untilQuiet _ _ _ _
  have hresolved := Stage.next?_eq_none_iff.1 (Exchange.next?_eq_none_of_step? hquiet)
  exact ⟨deadline, hresolved ▸ hsettle⟩

/-- A call in a session in which nothing is under way gives the outcome that its reply means, and
again nothing is under way. -/
theorem call_session (p : Idle) (r : Request) (h : p.config.timeout ≠ some 0) :
    p.session.call r = (some (p.outcome r), (p.after r p.clock).session) := by
  obtain ⟨deadline, hsettle⟩ := exists_settle_eq p r h
  rw [call, hsettle]
  have hlookup : [(p.issued, p.outcome r)].lookup p.session.client.issued = some (p.outcome r) :=
    List.lookup_cons_self
  simp only [Client.takeResolved, Exchange.session, List.mergeSort_singleton, hlookup]
  rfl

end

end Session

end TypedGraph
