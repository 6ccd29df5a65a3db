import TypedGraph.Proofs.Sync.Flow
import TypedGraph.Proofs.Sync.Order

/-!
# Every Request Is Accounted For

In an open session every request that has been made is either open or resolved, once. An open one
waits as a command or in a slot of the dispatcher, and as long as a slot is taken a message that
will free it is on its way.

## Main definitions

* `Client.Settles`: an outcome is that of a reply of the right kind, or of being superseded;
* `Session.Accounts`: where the requests are;
* `Session.Routes`: which messages are on their way.

## Main results

* `Session.accounts_of_flow` and `Session.routes_of_flow`: both are kept by every event.
-/

namespace TypedGraph

namespace Client

/-- An outcome of a request is that of a reply of its kind, or the request has been superseded. -/
def Settles (c : Client) (r : Request) (o : Outcome) : Prop :=
  o = .error .superseded ∨
    ∃ reply : Reply, reply.slot = r.slot ∧ o = c.outcomeOf r (.answered reply)

theorem outcomeOf_congr {c c' : Client} (hschema : c'.schema = c.schema)
    (hconfig : c'.config = c.config) (r : Request) (res : Resolution) :
    c'.outcomeOf r res = c.outcomeOf r res := by
  unfold outcomeOf rebuild
  rw [hschema, hconfig]

theorem Settles.congr {c c' : Client} {r : Request} {o : Outcome} (h : c.Settles r o)
    (hschema : c'.schema = c.schema) (hconfig : c'.config = c.config) : c'.Settles r o := by
  refine h.imp_right ?_
  rintro ⟨reply, hslot, rfl⟩
  exact ⟨reply, hslot, (outcomeOf_congr hschema hconfig r _).symm⟩

/-- Open requests that end are resolved, and none is counted twice. -/
theorem tickets_finish (c : Client) (done : OpenRequest → Option Outcome) :
    ((c.finish done).running.map (·.ticket) ++ (c.finish done).resolved.map Prod.fst).Perm
      (c.running.map (·.ticket) ++ c.resolved.map Prod.fst) := by
  have hsplit (l : List OpenRequest) :
      ((l.filter fun r => (done r).isNone).map (·.ticket) ++
        (l.filterMap fun r => (done r).map (r.ticket, ·)).map Prod.fst).Perm
        (l.map (·.ticket)) := by
    induction l with
    | nil => exact List.Perm.refl _
    | cons r l ih =>
      cases hr : done r with
      | none => simpa [hr] using ih
      | some o => simpa [hr] using List.perm_middle.trans (ih.cons r.ticket)
  have hrunning := hsplit c.running
  rw [List.perm_iff_count] at hrunning ⊢
  intro t
  have ht := hrunning t
  simp only [finish, List.map_append, List.count_append] at ht ⊢
  omega

variable {c : Client} {t : Option Ticket} {res : Resolution}

private theorem lookup_toList_map (t : Option Ticket) (res : Resolution) (u : Ticket) :
    (t.toList.map (·, res)).lookup u = if t = some u then some res else none := by
  cases t with
  | none => simp
  | some t =>
    by_cases h : u = t
    · simp [h]
    · simp [List.lookup_cons, beq_eq_false_iff_ne.2 h, Ne.symm h]

/-- The request in a slot is open no longer when it is resolved. -/
theorem mem_running_resolve {o : OpenRequest} :
    o ∈ (c.resolve (t.toList.map (·, res))).running ↔ o ∈ c.running ∧ t ≠ some o.ticket := by
  simp only [resolve, finish, List.mem_filter, lookup_toList_map]
  by_cases h : t = some o.ticket <;> simp [h]

/-- The request in a slot has an outcome when it is resolved. -/
theorem mem_resolved_resolve {x : Ticket × Outcome} :
    x ∈ (c.resolve (t.toList.map (·, res))).resolved ↔ x ∈ c.resolved ∨
      ∃ o ∈ c.running, t = some o.ticket ∧ x = (o.ticket, c.outcomeOf o.request res) := by
  simp only [resolve, finish, List.mem_append, List.mem_filterMap, lookup_toList_map]
  refine or_congr_right (exists_congr fun o => and_congr_right fun _ => ?_)
  by_cases h : t = some o.ticket <;> simp [h, eq_comm]

end Client

namespace Session

/-- Where the requests are that have been made, by number. -/
structure Accounts (s : Session) (d : Dispatcher) (asked : List Request) : Prop where
  issued : s.client.issued = asked.length
  /-- Each request is open or resolved, once. -/
  tickets : (s.client.running.map (·.ticket) ++ s.client.resolved.map Prod.fst).Perm
    (List.range asked.length)
  /-- Open requests ask for what has been asked for. -/
  requests : ∀ o ∈ s.client.running, asked[o.ticket]? = some o.request
  /-- Commands carry what has been asked for. -/
  commands : ∀ c ∈ s.client.queue ++ s.client.waiting,
    ∃ r, asked[c.ticket]? = some r ∧ c.message = r.message ∧ c.slot = r.slot
  /-- The requests in slots have asked for the right kind of reply. -/
  holders : ∀ slot t, d.waitingIn slot = some t → ∃ r, asked[t]? = some r ∧ r.slot = slot
  /-- An open request is a command, or it waits in its slot. -/
  located : ∀ o ∈ s.client.running,
    o.ticket ∈ (s.client.queue ++ s.client.waiting).map (·.ticket) ∨
      d.waitingIn o.request.slot = some o.ticket
  /-- Requests are resolved by replies, or superseded. -/
  outcomes : ∀ x ∈ s.client.resolved, ∃ r, asked[x.1]? = some r ∧ s.client.Settles r x.2

/-- Which messages are on their way: requests, then replies, and one for each slot that is taken. -/
structure Routes (s : Session) (d : Dispatcher) : Prop where
  requests : ∀ m ∈ s.requests d, ∃ r : Request, m = r.message
  replies : ∀ m ∈ s.replies, ∃ reply, Reply.ofMessage? m = some reply
  awaited : ∀ slot t, d.waitingIn slot = some t → slot ∈ (s.underway d).map Message.slot

variable {s s' : Session} {d d' : Dispatcher} {e : Event} {asked : List Request}

/-- The request that is accepted has its slot, and the one that had it is resolved. -/
theorem accounts_accept {c : Command} {rest : List Command} (h : s.Accounts d asked)
    (hq : s.client.queue = c :: rest) :
    Accounts { s with client := Client.resolve { s.client with
      queue := rest
      dispatcher := some (d.accepting c) } ((d.waitingIn c.slot).toList.map (·, .superseded)) }
        (d.accepting c) asked := by
  obtain ⟨r, hr, -, hslot⟩ := h.commands c (by simp [hq])
  constructor
  · exact h.issued
  · exact (Client.tickets_finish _ _).trans h.tickets
  · exact fun o ho => h.requests o (Client.mem_running_resolve.1 ho).1
  · intro c' hc'
    exact h.commands c' (by rw [hq]; exact List.mem_cons_of_mem c hc')
  · intro slot t ht
    rw [d.waitingIn_accepting] at ht
    split at ht
    · next hsame =>
      cases ht
      exact ⟨r, hr, hslot.symm.trans hsame⟩
    · exact h.holders slot t ht
  · intro o ho
    obtain ⟨ho, hother⟩ := Client.mem_running_resolve.1 ho
    rw [d.waitingIn_accepting]
    rcases h.located o ho with hcommand | hwaits
    · rw [hq, List.cons_append, List.map_cons, List.mem_cons] at hcommand
      rcases hcommand with hticket | hrest
      · -- the command carries what the open request asks for
        have hrequest := h.requests o ho
        rw [hticket, hr] at hrequest
        cases hrequest
        exact .inr (by rw [if_pos hslot, hticket])
      · exact .inl hrest
    · -- a request that keeps waiting does so in the other slot
      have hne : c.slot ≠ o.request.slot := fun hsame => hother (hsame ▸ hwaits)
      exact .inr (by rw [if_neg hne, hwaits])
  · intro x hx
    rcases Client.mem_resolved_resolve.1 hx with hold | ⟨o, ho, -, rfl⟩
    · obtain ⟨r', hr', hsettles⟩ := h.outcomes x hold
      exact ⟨r', hr', hsettles.congr rfl rfl⟩
    · exact ⟨o.request, h.requests o ho, .inl (by cases o.request <;> rfl)⟩

/-- The request that waits for a reply is resolved by it. -/
theorem accounts_receive {m : Message} {reply : Reply} {ch : Duplex} (h : s.Accounts d asked)
    (hm : Reply.ofMessage? m = some reply) :
    Accounts { s with
      client := Client.resolve { s.client with dispatcher := some (d.receive m).1 } (d.receive m).2
      channel := ch } (d.receive m).1 asked := by
  rw [d.receive_of_reply hm]
  constructor
  · exact h.issued
  · exact (Client.tickets_finish _ _).trans h.tickets
  · exact fun o ho => h.requests o (Client.mem_running_resolve.1 ho).1
  · exact h.commands
  · intro slot t ht
    rw [d.waitingIn_setSlot] at ht
    split at ht
    · cases ht
    · exact h.holders slot t ht
  · intro o ho
    obtain ⟨ho, hother⟩ := Client.mem_running_resolve.1 ho
    rw [d.waitingIn_setSlot]
    refine (h.located o ho).imp_right fun hwaits => ?_
    have hne : reply.slot ≠ o.request.slot := fun hsame => hother (hsame ▸ hwaits)
    rw [if_neg hne, hwaits]
  · intro x hx
    rcases Client.mem_resolved_resolve.1 hx with hold | ⟨o, ho, hwaits, rfl⟩
    · obtain ⟨r', hr', hsettles⟩ := h.outcomes x hold
      exact ⟨r', hr', hsettles.congr rfl rfl⟩
    · -- the slot was that of the request
      obtain ⟨r, hr, hslot⟩ := h.holders _ _ hwaits
      have hrequest := h.requests o ho
      rw [hr] at hrequest
      cases hrequest
      exact ⟨_, hr, .inr ⟨reply, hslot.symm, Client.outcomeOf_congr rfl rfl _ _⟩⟩

/-- Every event keeps the accounts. -/
theorem accounts_of_flow (hflow : Flow s d e s' d') (hroutes : s.Routes d)
    (h : s.Accounts d asked) :
    s'.Accounts d' asked := by
  cases hflow with
  | @enter c rest hw =>
    -- the command moves over to the queue
    have hcommands : (s.client.queue ++ [c]) ++ rest = s.client.queue ++ s.client.waiting := by
      rw [hw, List.append_assoc, List.singleton_append]
    refine { h with commands := ?_, located := ?_ }
    · rw [hcommands]
      exact h.commands
    · rw [hcommands]
      exact h.located
  | accept hq => exact accounts_accept h hq
  | transmit ho => exact { h with }
  | @receive m rest hi =>
    obtain ⟨reply, hm⟩ := hroutes.replies m (by simp [replies, hi])
    exact accounts_receive h hm
  | serve hr hi => exact { h with }
  | reply hr => exact { h with }

/-- Messages that keep their places together stay on their ways. -/
theorem Routes.of_eq (h : s.Routes d) (hrequests : s'.requests d' = s.requests d)
    (hreplies : s'.replies = s.replies) (hslots : ∀ slot, d'.waitingIn slot = d.waitingIn slot) :
    s'.Routes d' where
  requests := by
    rw [hrequests]
    exact h.requests
  replies := by
    rw [hreplies]
    exact h.replies
  awaited := by
    intro slot t ht
    rw [underway, hrequests, hreplies]
    exact h.awaited slot t ((hslots slot).symm.trans ht)

/-- An accepted command puts its message on its way. -/
theorem routes_accept {c : Command} {client : Client} {r : Request} (h : s.Routes d)
    (hmessage : c.message = r.message) (hslot : c.slot = r.slot) :
    Routes { s with client } (d.accepting c) := by
  have hrequests : requests { s with client } (d.accepting c) = s.requests d ++ [c.message] :=
    (List.append_assoc _ _ _).symm
  refine ⟨fun m hm => ?_, h.replies, fun slot t ht => ?_⟩
  · rw [hrequests] at hm
    rcases List.mem_append.1 hm with hold | hnew
    · exact h.requests m hold
    · exact ⟨r, (List.mem_singleton.1 hnew).trans hmessage⟩
  · rw [underway, hrequests, ← List.append_assoc, List.map_append, List.mem_append]
    rw [d.waitingIn_accepting] at ht
    split at ht
    · next hsame =>
      right
      rw [List.map_singleton, hmessage, r.slot_message, ← hslot, hsame]
      exact List.mem_singleton_self slot
    · exact .inl (h.awaited slot t ht)

/-- A reply that is received frees its slot. -/
theorem routes_receive {m : Message} {rest : List Message} {client : Client} (h : s.Routes d)
    (hi : s.channel.left.inbox = m :: rest) :
    Routes { s with
      client
      channel := { s.channel with left := { s.channel.left with inbox := rest } } }
      (d.receive m).1 := by
  have hreplies : s.replies = m :: (rest ++ s.authority.reply.toList) := by
    rw [replies, hi, List.cons_append]
  obtain ⟨reply, hm⟩ := h.replies m (by rw [hreplies]; exact List.mem_cons_self)
  have hout : (d.receive m).1.outbox = d.outbox := outbox_receive d m
  refine ⟨fun m' hm' => ?_, fun m' hm' => ?_, fun slot t ht => ?_⟩
  · rw [requests, hout] at hm'
    exact h.requests m' hm'
  · exact h.replies m' (by rw [hreplies]; exact List.mem_cons_of_mem m hm')
  · rw [d.receive_of_reply hm, d.waitingIn_setSlot] at ht
    split at ht
    · cases ht
    · next hne =>
      -- what the slot waits for is not the reply that has come
      have hawaited := h.awaited slot t ht
      rw [underway, hreplies, List.cons_append, List.map_cons, List.mem_cons,
        ← Reply.slot_of_ofMessage? hm] at hawaited
      rw [underway, requests, hout]
      exact hawaited.resolve_left (Ne.symm hne)

/-- A request that is handled becomes a reply of the same kind. -/
theorem routes_serve {m : Message} {rest : List Message} (h : s.Routes d)
    (hr : s.authority.reply = none) (hi : s.channel.right.inbox = m :: rest) :
    Routes { s with
      channel := { s.channel with right := { s.channel.right with inbox := rest } }
      authority := s.authority.take m } d := by
  have hrequests : s.requests d = m :: (rest ++ d.outbox) := by
    rw [requests, hi, List.cons_append]
  obtain ⟨r, rfl⟩ := h.requests m (by rw [hrequests]; exact List.mem_cons_self)
  obtain ⟨reply, hreply, hslot⟩ := s.authority.exists_reply_take r
  have hreplies : s.replies = s.channel.left.inbox := by
    rw [replies, hr, Option.toList_none, List.append_nil]
  refine ⟨fun m hm => ?_, fun m hm => ?_, fun slot t ht => ?_⟩
  · exact h.requests m (by rw [hrequests]; exact List.mem_cons_of_mem _ hm)
  · rw [replies, hreply, Option.toList_some] at hm
    rcases List.mem_append.1 hm with hold | hnew
    · exact h.replies m (by rw [hreplies]; exact hold)
    · exact ⟨reply, by rw [List.mem_singleton.1 hnew, Reply.ofMessage?_message]⟩
  · have hkinds : reply.message.slot = r.message.slot := by
      rw [r.slot_message, ← hslot, Reply.slot_of_ofMessage? (Reply.ofMessage?_message reply)]
    have hawaited := h.awaited slot t ht
    rw [underway, hrequests, hreplies] at hawaited
    rw [underway, replies, hreply, Option.toList_some, List.append_assoc, List.singleton_append,
      List.map_append, List.map_cons, hkinds, ← List.map_cons, ← List.map_append]
    exact hawaited

/-- Every event keeps messages on their ways. -/
theorem routes_of_flow (hflow : Flow s d e s' d') (haccounts : s.Accounts d asked)
    (h : s.Routes d) :
    s'.Routes d' := by
  cases hflow with
  | enter hw => exact { h with }
  | @accept c rest hq =>
    obtain ⟨r, -, hmessage, hslot⟩ := haccounts.commands c (by simp [hq])
    exact routes_accept h hmessage hslot
  | transmit ho => exact h.of_eq (by simp [requests, ho]) rfl fun slot => by cases slot <;> rfl
  | receive hi => exact routes_receive h hi
  | serve hr hi => exact routes_serve h hr hi
  | reply hr => exact h.of_eq rfl (by simp [replies, hr]) fun _ => rfl

end Session

end TypedGraph
