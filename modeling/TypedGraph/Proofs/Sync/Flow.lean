import TypedGraph.Proofs.Sync.Dispatcher.Steps
import TypedGraph.Proofs.Sync.Exchange

/-!
# Sessions That Stay Open

While the client is held and requests have no time limits, nothing in a session ends by itself. Then
there are six events, and each passes one command or message on to the next of the bounded places
between a request and its reply.

## Main definitions

* `Session.Open`: a session in which nothing can end by itself;
* `Session.Flow`: the six events and what they pass on;
* `Session.underway`: the messages on their way to the authority and back.

## Main results

* `Session.flow_of_fire?`: whatever happens in an open session is one of the six events;
* `Session.Flow.isOpen`: an open session stays open;
* `Session.Open.exists_pass_of_underway`: as long as messages are on their way one of them can go
  on.
-/

namespace TypedGraph

/-- The kind of reply that a message asks for, or that it is. -/
def Message.slot : Message → Slot
  | .getObservation => .snapshot
  | .getSelf => .selfRef
  | .doAction _ => .snapshot
  | .snapshot _ _ => .snapshot
  | .selfRef _ => .selfRef

theorem Request.slot_message (r : Request) : r.message.slot = r.slot := by
  cases r <;> rfl

theorem Reply.slot_of_ofMessage? {m : Message} {reply : Reply} (h : ofMessage? m = some reply) :
    reply.slot = m.slot := by
  cases m <;> cases h <;> rfl

/-- The authority holds one reply to a request, of the kind that it asks for. -/
theorem Authority.exists_reply_take (a : Authority) (r : Request) :
    ∃ reply : Reply, (a.take r.message).reply = some reply.message ∧ reply.slot = r.slot := by
  cases r with
  | observe => exact ⟨.snapshot _ _, rfl, rfl⟩
  | self => exact ⟨.selfRef _, rfl, rfl⟩
  | action request => exact ⟨.snapshot _ _, rfl, rfl⟩

namespace Session

/-- A session with a running dispatcher in which nothing ends by itself: the client is held, both
ends of the channel are there, and no open request has a time limit. -/
structure Open (s : Session) (d : Dispatcher) : Prop where
  held : s.client.held
  dispatcher : s.client.dispatcher = some d
  /-- The outbox is as long as the queue of commands. -/
  places : d.capacity = s.client.config.places
  endless : s.client.config.timeout = none
  unlimited : ∀ o ∈ s.client.running, o.deadline = none
  left : s.channel.left.present
  right : s.channel.right.present
  room : 0 < s.channel.capacity
  serving : s.authority.result = none

/-- What can happen in an open session, and what passes on. -/
inductive Flow (s : Session) (d : Dispatcher) : Event → Session → Dispatcher → Prop where
  /-- The oldest waiting command gets a place in the queue. -/
  | enter {c : Command} {rest : List Command} (hw : s.client.waiting = c :: rest) :
    Flow s d (.client .enter) { s with client := { s.client with
      waiting := rest
      queue := s.client.queue ++ [c] } } d
  /-- The dispatcher accepts the oldest command of the queue, which supersedes another one. -/
  | accept {c : Command} {rest : List Command} (hq : s.client.queue = c :: rest) :
    Flow s d (.client .accept) { s with client := Client.resolve { s.client with
        queue := rest
        dispatcher := some (d.accepting c) } ((d.waitingIn c.slot).toList.map (·, .superseded)) }
      (d.accepting c)
  /-- The dispatcher sends the oldest message of the outbox. -/
  | transmit {m : Message} {rest : List Message} (ho : d.outbox = m :: rest) :
    Flow s d (.client .transmit) { s with
        client := { s.client with dispatcher := some { d with outbox := rest } }
        channel := { s.channel with right := { s.channel.right with
          inbox := s.channel.right.inbox ++ [m] } } }
      { d with outbox := rest }
  /-- The dispatcher receives a message. -/
  | receive {m : Message} {rest : List Message} (hi : s.channel.left.inbox = m :: rest) :
    Flow s d (.client .receive) { s with
        client :=
          Client.resolve { s.client with dispatcher := some (d.receive m).1 } (d.receive m).2
        channel := { s.channel with left := { s.channel.left with inbox := rest } } }
      (d.receive m).1
  /-- The authority handles the oldest message that it has received. -/
  | serve {m : Message} {rest : List Message} (hr : s.authority.reply = none)
    (hi : s.channel.right.inbox = m :: rest) :
    Flow s d (.authority .receive) { s with
      channel := { s.channel with right := { s.channel.right with inbox := rest } }
      authority := s.authority.take m } d
  /-- The authority sends its reply. -/
  | reply {m : Message} (hr : s.authority.reply = some m) :
    Flow s d (.authority .reply) { s with
      channel := { s.channel with left := { s.channel.left with
        inbox := s.channel.left.inbox ++ [m] } }
      authority := { s.authority with reply := none } } d

variable {s s' : Session} {d d' : Dispatcher} {e : Event}

/-- Time limits do not begin where there are none. -/
theorem Open.beginLimit_eq (hopen : s.Open d) (t : Ticket) :
    s.client.beginLimit t = s.client.running := by
  have hsame (o : OpenRequest) (ho : o ∈ s.client.running) :
      (if o.ticket = t then { o with deadline := s.client.config.timeout.map (s.client.clock + ·) }
        else o) = o := by
    have hnone := hopen.unlimited o ho
    obtain ⟨ticket, request, deadline⟩ := o
    subst hnone
    rw [hopen.endless]
    split <;> rfl
  exact (List.map_congr_left hsame).trans (List.map_id _)

/-- Whatever happens to the client in an open session is one of the six events. -/
theorem flow_of_client_fire? (hopen : s.Open d) {e : Client.Event} {c : Client} {ch : Duplex}
    (hoffered : s.isOffered (.client e))
    (hfire : Client.fire? e s.client s.channel = some (c, ch)) :
    ∃ d', Flow s d (.client e) { s with client := c, channel := ch } d' := by
  cases Client.step_of_fire? hfire with
  | expire hany =>
    -- no time limit is ever over
    obtain ⟨o, ho, hexpired⟩ := List.any_eq_true.1 hany
    rw [Client.isExpired, hopen.unlimited o ho] at hexpired
    cases hexpired
  | enter hw _ =>
    rw [hopen.beginLimit_eq]
    exact ⟨d, .enter hw⟩
  | accept hd hq _ =>
    cases hopen.dispatcher.symm.trans hd
    exact ⟨_, .accept hq⟩
  | transmit hd ho _ _ =>
    cases hopen.dispatcher.symm.trans hd
    exact ⟨_, .transmit ho⟩
  | receive hd hi =>
    cases hopen.dispatcher.symm.trans hd
    exact ⟨_, .receive hi⟩
  | stop => cases hoffered

/-- Whatever happens to the authority in an open session is one of the six events. -/
theorem flow_of_authority_fire? (hopen : s.Open d) {e : Authority.Event} {a : Authority}
    {ch : Duplex} (hoffered : s.isOffered (.authority e))
    (hfire : Authority.fire? e s.authority s.channel = some (a, ch)) :
    ∃ d', Flow s d (.authority e) { s with authority := a, channel := ch } d' := by
  cases Authority.step_of_fire? hfire with
  | deliver _ hr _ _ => exact ⟨d, .reply hr⟩
  | fail _ _ hgone =>
    -- the client's end is there
    cases hopen.left.symm.trans hgone
  | receive _ hr hi => exact ⟨d, .serve hr hi⟩
  | stop => cases hoffered

/-- Whatever happens in an open session is one of the six events. -/
theorem flow_of_fire? (hopen : s.Open d) (hfire : fire? e s = some s') :
    ∃ d', Flow s d e s' d' := by
  have hoffered := isOffered_of_fire? hopen.held hopen.left hopen.right hfire
  cases e with
  | client e =>
    obtain ⟨⟨c, ch⟩, hclient, rfl⟩ := Option.map_eq_some_iff.1 hfire
    exact flow_of_client_fire? hopen hoffered hclient
  | authority e =>
    obtain ⟨⟨a, ch⟩, hauthority, rfl⟩ := Option.map_eq_some_iff.1 hfire
    exact flow_of_authority_fire? hopen hoffered hauthority

/-- An open session stays open. -/
theorem Flow.isOpen (hflow : Flow s d e s' d') (hopen : s.Open d) : s'.Open d' := by
  cases hflow with
  | enter hw => exact { hopen with }
  | @accept c rest hq =>
    refine { hopen with dispatcher := rfl, places := ?_, unlimited := fun o ho => ?_ }
    · exact (d.capacity_accepting c).trans hopen.places
    · exact hopen.unlimited o (List.mem_filter.1 ho).1
  | transmit ho => exact { hopen with dispatcher := rfl }
  | @receive m rest hi =>
    refine { hopen with dispatcher := rfl, places := ?_, unlimited := fun o ho => ?_ }
    · exact (d.capacity_receive m).trans hopen.places
    · exact hopen.unlimited o (List.mem_filter.1 ho).1
  | serve hr hi => exact { hopen with }
  | reply hr => exact { hopen with }

/-! ## What Can Happen Next -/

/-- The events that pass a request on once its command is in the queue. -/
def passes : List Event :=
  [.client .accept, .client .transmit, .client .receive, .authority .receive, .authority .reply]

/-- Whatever happens in an open session, a command gets into the queue or is passed on. -/
theorem mem_passes_of_flow (hflow : Flow s d e s' d') : e = .client .enter ∨ e ∈ passes := by
  cases hflow with
  | enter => exact .inl rfl
  | _ => exact .inr (by decide)

/-- The requests on their way to the authority, the oldest first. -/
def requests (s : Session) (d : Dispatcher) : List Message := s.channel.right.inbox ++ d.outbox

/-- The replies on their way back, the oldest first. -/
def replies (s : Session) : List Message := s.channel.left.inbox ++ s.authority.reply.toList

/-- The messages on their way to the authority and back, the oldest first. -/
def underway (s : Session) (d : Dispatcher) : List Message := s.replies ++ s.requests d

/-- The oldest message on its way can always go on, however small the queues. -/
theorem Open.exists_pass_of_underway (hopen : s.Open d) (h : s.underway d ≠ []) :
    ∃ e ∈ passes, (fire? e s).isSome := by
  -- Taken from the client's inbox backwards: when nothing waits further on, there is room.
  cases hl : s.channel.left.inbox with
  | cons m rest =>
    have hfire := fire?_of_client (.receive hopen.dispatcher hl)
    exact ⟨.client .receive, by decide, Option.isSome_of_eq_some hfire⟩
  | nil =>
    cases hr : s.authority.reply with
    | some m =>
      have hroom : s.channel.left.inbox.length < s.channel.capacity := hl ▸ hopen.room
      have hfire := fire?_of_authority (.deliver hopen.serving hr hopen.left hroom)
      exact ⟨.authority .reply, by decide, Option.isSome_of_eq_some hfire⟩
    | none =>
      cases hi : s.channel.right.inbox with
      | cons m rest =>
        have hfire := fire?_of_authority (.receive hopen.serving hr hi)
        exact ⟨.authority .receive, by decide, Option.isSome_of_eq_some hfire⟩
      | nil =>
        cases ho : d.outbox with
        | cons m rest =>
          have hroom : s.channel.right.inbox.length < s.channel.capacity := hi ▸ hopen.room
          have hfire := fire?_of_client (.transmit hopen.dispatcher ho hopen.right hroom)
          exact ⟨.client .transmit, by decide, Option.isSome_of_eq_some hfire⟩
        | nil => simp [underway, replies, requests, hl, hr, hi, ho] at h

/-- A command in the queue can be accepted, or else a full outbox holds a message that can go on. -/
theorem Open.exists_pass_of_queue (hopen : s.Open d) (h : s.client.queue ≠ []) :
    ∃ e ∈ passes, (fire? e s).isSome := by
  obtain ⟨c, rest, hq⟩ := List.exists_cons_of_ne_nil h
  cases hroom : d.hasRoom with
  | true =>
    have hfire := fire?_of_client (.accept hopen.dispatcher hq hroom)
    exact ⟨.client .accept, by decide, Option.isSome_of_eq_some hfire⟩
  | false =>
    have hfull := of_decide_eq_false hroom
    have hplaces : 0 < d.capacity := by
      rw [hopen.places]
      exact Nat.le_max_left 1 _
    refine hopen.exists_pass_of_underway fun hnil => ?_
    have hempty : d.outbox = [] := by
      simp only [underway, requests, List.append_eq_nil_iff] at hnil
      exact hnil.2.2
    rw [hempty] at hfull
    exact hfull hplaces

/-- A waiting command can get into the queue, or else the queue is not empty. -/
theorem exists_fire_of_waiting (h : s.client.waiting ≠ []) :
    (fire? (.client .enter) s).isSome ∨ s.client.queue ≠ [] := by
  obtain ⟨c, rest, hw⟩ := List.exists_cons_of_ne_nil h
  by_cases hroom : s.client.queue.length < s.client.config.places
  · exact .inl (Option.isSome_of_eq_some (fire?_of_client (.enter hw hroom)))
  · right
    intro hnil
    rw [hnil] at hroom
    exact hroom (Nat.le_max_left 1 _)

end Session

end TypedGraph
