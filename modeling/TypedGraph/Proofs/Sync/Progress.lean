import TypedGraph.Proofs.Sync.Accounts
import Mathlib.Tactic.ByContra

/-!
# Sessions Never Stall

However small the queues between a client and an authority are, an open session can go on until
every request is resolved. Each request takes six events to get through all places, so that no more
than six events happen for each; and when none can happen any more all places are empty.

## Main definitions

* `Session.Move.keepsOpen`: moves that do not make anything end by itself;
* `Session.load`: the number of events that commands and messages on their way still take.

## Main results

* `Session.Running.exists_fire`: a request that is not resolved can make progress;
* `Session.Running.of_moves?`: what is under way after any moves;
* `Session.progress_of_moves?`: an open session can go on until all requests are resolved, which
  takes six events for each.
-/

namespace TypedGraph

namespace Session

namespace Move

/-- The request that a move starts. -/
def request? : Move → Option Request
  | .request r => some r
  | _ => none

/-- The move is an event. -/
def isEvent : Move → Bool
  | .event _ => true
  | _ => false

/-- No request is given up, and the client is not dropped. -/
def keepsOpen : Move → Bool
  | .cancel _ => false
  | .release => false
  | _ => true

end Move

/-- The number of events that commands and messages on their way still take. -/
def load (s : Session) (d : Dispatcher) : Nat :=
  6 * s.client.waiting.length + 5 * s.client.queue.length + 4 * d.outbox.length +
    3 * s.channel.right.inbox.length + 2 * s.authority.reply.toList.length +
    s.channel.left.inbox.length

/-- A session that has been open all the time, with the requests that have been made and the number
of events that have happened. -/
structure Running (s : Session) (d : Dispatcher) (asked : List Request) (events : Nat) : Prop where
  isOpen : s.Open d
  accounts : s.Accounts d asked
  routes : s.Routes d
  /-- Each request has caused six events, less those that it still takes. -/
  load : events + s.load d = 6 * asked.length

variable {s s' : Session} {d d' : Dispatcher} {e : Event} {asked : List Request} {events : Nat}

/-- Every event lowers the load by one. -/
theorem load_of_flow (hflow : Flow s d e s' d') (hroutes : s.Routes d) :
    s'.load d' + 1 = s.load d := by
  cases hflow with
  | enter hw =>
    simp only [load, hw, List.length_cons, List.length_append, List.length_nil]
    omega
  | @accept c rest hq =>
    simp [load, hq, Dispatcher.accepting, Client.resolve, Client.finish]
    omega
  | transmit ho =>
    simp [load, ho]
    omega
  | receive hi =>
    simp [load, hi, outbox_receive, Client.resolve, Client.finish]
    omega
  | @serve m rest hr hi =>
    -- a message on its way is a request, and so it is replied to
    obtain ⟨r, rfl⟩ := hroutes.requests m (by simp [requests, hi])
    obtain ⟨reply, hreply, -⟩ := s.authority.exists_reply_take r
    simp [load, hr, hi, hreply]
    omega
  | reply hr =>
    simp [load, hr]
    omega

/-- A new connection between a client and an authority over a channel of any capacity. -/
def connection (schema : Schema) (config : SyncConfig) (capacity : Nat) (handler : ActionHandler)
    (self : RefToken) (model : DataModel) : Session :=
  ⟨.start schema config, .ofCapacity capacity, .start handler self model⟩

theorem running_connection (schema : Schema) {config : SyncConfig} (capacity : Nat)
    (handler : ActionHandler) (self : RefToken) (model : DataModel)
    (hendless : config.timeout = none) :
    (connection schema config capacity handler self model).Running (.idle config.places) [] 0 where
  isOpen :=
    { held := rfl
      dispatcher := rfl
      places := rfl
      endless := hendless
      unlimited := nofun
      left := rfl
      right := rfl
      room := Nat.le_max_left 1 _
      serving := rfl }
  accounts :=
    { issued := rfl
      tickets := List.Perm.refl _
      requests := nofun
      commands := nofun
      holders := fun slot t ht => by cases slot <;> cases ht
      located := nofun
      outcomes := nofun }
  routes :=
    { requests := nofun
      replies := nofun
      awaited := fun slot t ht => by cases slot <;> cases ht }
  load := rfl

/-- A request that is made is open, and its command waits for a place in the queue. -/
theorem Running.ask (h : s.Running d asked events) (r : Request) :
    Running { s with client := s.client.request r } d (asked ++ [r]) events := by
  have hrequest : s.client.request r = { s.client with
      issued := s.client.issued + 1
      waiting := s.client.waiting ++ [⟨s.client.issued, r.message, r.slot⟩]
      running := s.client.running ++ [⟨s.client.issued, r, none⟩] } := by
    simp [Client.request, Client.isConnected, h.isOpen.dispatcher]
  have hissued := h.accounts.issued
  -- what has been asked for before keeps its number
  have hold {t : Ticket} {r' : Request} (ht : asked[t]? = some r') :
      (asked ++ [r])[t]? = some r' := by
    rw [List.getElem?_append_left (List.getElem?_eq_some_iff.1 ht).1, ht]
  have hnew : (asked ++ [r])[s.client.issued]? = some r := by
    rw [hissued, List.getElem?_append_right (Nat.le_refl _), Nat.sub_self, List.getElem?_cons_zero]
  rw [hrequest]
  refine ⟨{ h.isOpen with unlimited := ?_ }, ?_, { h.routes with }, ?_⟩
  · intro o ho
    rcases List.mem_append.1 ho with ho | ho
    · exact h.isOpen.unlimited o ho
    · rw [List.mem_singleton.1 ho]
  · constructor
    · simp [hissued]
    · have htickets := h.accounts.tickets
      rw [List.perm_iff_count] at htickets ⊢
      intro t
      have ht := htickets t
      simp only [List.map_append, List.map_singleton, List.length_append, List.length_singleton,
        List.range_succ, List.count_append, hissued] at ht ⊢
      omega
    · intro o ho
      rcases List.mem_append.1 ho with ho | ho
      · exact hold (h.accounts.requests o ho)
      · rw [List.mem_singleton.1 ho]
        exact hnew
    · intro c hc
      rw [← List.append_assoc, List.mem_append] at hc
      rcases hc with hc | hc
      · obtain ⟨r', hr', hcarries⟩ := h.accounts.commands c hc
        exact ⟨r', hold hr', hcarries⟩
      · rw [List.mem_singleton.1 hc]
        exact ⟨r, hnew, rfl, rfl⟩
    · intro slot t ht
      obtain ⟨r', hr', hslot⟩ := h.accounts.holders slot t ht
      exact ⟨r', hold hr', hslot⟩
    · intro o ho
      rw [← List.append_assoc, List.map_append, List.mem_append]
      rcases List.mem_append.1 ho with ho | ho
      · exact (h.accounts.located o ho).imp_left .inl
      · rw [List.mem_singleton.1 ho]
        exact .inl (.inr (List.mem_singleton_self _))
    · intro x hx
      obtain ⟨r', hr', hsettles⟩ := h.accounts.outcomes x hx
      exact ⟨r', hold hr', hsettles.congr rfl rfl⟩
  · have hload := h.load
    simp only [Session.load, List.length_append, List.length_singleton] at hload ⊢
    omega

theorem Running.elapse (h : s.Running d asked events) (ms : Nat) :
    Running { s with client := s.client.elapse ms } d asked events where
  isOpen := { h.isOpen with }
  accounts := { h.accounts with
    outcomes := fun x hx =>
      let ⟨r, hr, hsettles⟩ := h.accounts.outcomes x hx
      ⟨r, hr, hsettles.congr rfl rfl⟩ }
  routes := { h.routes with }
  load := h.load

theorem Running.fire (h : s.Running d asked events) (hfire : fire? e s = some s') :
    ∃ d', s'.Running d' asked (events + 1) := by
  obtain ⟨d', hflow⟩ := flow_of_fire? h.isOpen hfire
  refine ⟨d', hflow.isOpen h.isOpen, accounts_of_flow hflow h.routes h.accounts,
    routes_of_flow hflow h.accounts h.routes, ?_⟩
  rw [Nat.add_right_comm, Nat.add_assoc, load_of_flow hflow h.routes, h.load]

/-- Whatever happens to an open session, the requests made are accounted for and each takes six
events. -/
theorem Running.of_moves? {moves : List Move} (h : s.Running d asked events)
    (hopen : ∀ m ∈ moves, m.keepsOpen) (hmoves : s.moves? moves = some s') :
    ∃ d', s'.Running d' (asked ++ moves.filterMap Move.request?)
      (events + moves.countP Move.isEvent) := by
  induction moves generalizing s d asked events with
  | nil =>
    cases hmoves
    exact ⟨d, by simpa using h⟩
  | cons m moves ih =>
    obtain ⟨hm, hrest⟩ := List.forall_mem_cons.1 hopen
    obtain ⟨s₁, hmove, hafter⟩ := Option.bind_eq_some_iff.1 hmoves
    cases m with
    | request r =>
      cases hmove
      obtain ⟨d', h'⟩ := ih (h.ask r) hrest hafter
      exact ⟨d', by simpa [Move.request?, Move.isEvent] using h'⟩
    | elapse ms =>
      cases hmove
      exact ih (h.elapse ms) hrest hafter
    | event e =>
      obtain ⟨d₁, h₁⟩ := h.fire hmove
      obtain ⟨d', h'⟩ := ih h₁ hrest hafter
      refine ⟨d', ?_⟩
      rw [List.filterMap_cons_none rfl, List.countP_cons_of_pos rfl, Nat.add_comm _ 1,
        ← Nat.add_assoc]
      exact h'
    -- A cancelled call or a released client is not a move that keeps the session open.
    | cancel t => cases hm
    | release => cases hm

/-! ## Progress -/

/-- An open request can make progress: if its command waits for a place in the queue it can get one,
and otherwise a command or a message can be passed on. -/
theorem Running.exists_fire (h : s.Running d asked events) {t : Ticket} (ht : t < asked.length)
    (hopen : t ∉ s.client.resolved.map Prod.fst) :
    (∃ e ∈ passes, (fire? e s).isSome) ∨
      (t ∈ s.client.waiting.map (·.ticket) ∧ (fire? (.client .enter) s).isSome) := by
  have hmem : t ∈ s.client.running.map (·.ticket) := by
    have hcounted := h.accounts.tickets.mem_iff.2 (List.mem_range.2 ht)
    exact (List.mem_append.1 hcounted).resolve_right hopen
  obtain ⟨o, ho, rfl⟩ := List.mem_map.1 hmem
  rcases h.accounts.located o ho with hcommand | hwaits
  · rw [List.map_append, List.mem_append] at hcommand
    rcases hcommand with hq | hw
    · exact .inl (h.isOpen.exists_pass_of_queue fun hnil => by simp [hnil] at hq)
    · rcases exists_fire_of_waiting (s := s) (fun hnil => by simp [hnil] at hw) with henter | hq
      · exact .inr ⟨hw, henter⟩
      · exact .inl (h.isOpen.exists_pass_of_queue hq)
  · have hslot := h.routes.awaited _ _ hwaits
    exact .inl (h.isOpen.exists_pass_of_underway fun hnil => by simp [hnil] at hslot)

/-- All places are empty, and the requests that have been made are resolved, each once, by a reply
or by being superseded. -/
structure AtRest (s : Session) (asked : List Request) : Prop where
  waiting : s.client.waiting = []
  queue : s.client.queue = []
  /-- The outbox and both slots are empty. -/
  dispatcher : s.client.dispatcher = some (.idle s.client.config.places)
  requests : s.channel.right.inbox = []
  reply : s.authority.reply = none
  replies : s.channel.left.inbox = []
  running : s.client.running = []
  resolved : (s.client.resolved.map Prod.fst).Perm (List.range asked.length)
  outcomes : ∀ x ∈ s.client.resolved, ∃ r, asked[x.1]? = some r ∧ s.client.Settles r x.2

/-- When nothing can be passed on any more, all places are empty and each request has taken six
events. -/
theorem Running.atRest (h : s.Running d asked events)
    (hquiet : ∀ e ∈ Event.client .enter :: passes, fire? e s = none) :
    s.AtRest asked ∧ events = 6 * asked.length := by
  have hpasses : ¬ ∃ e ∈ passes, (fire? e s).isSome := by
    rintro ⟨e, he, hfire⟩
    rw [hquiet e (List.mem_cons_of_mem _ he)] at hfire
    cases hfire
  have hunderway : s.underway d = [] := by
    by_contra hne
    exact hpasses (h.isOpen.exists_pass_of_underway hne)
  have hqueue : s.client.queue = [] := by
    by_contra hne
    exact hpasses (h.isOpen.exists_pass_of_queue hne)
  have hwaiting : s.client.waiting = [] := by
    by_contra hne
    rcases exists_fire_of_waiting hne with henter | hq
    · rw [hquiet _ List.mem_cons_self] at henter
      cases henter
    · exact hq hqueue
  simp only [underway, replies, requests, List.append_eq_nil_iff, Option.toList_eq_nil_iff]
    at hunderway
  obtain ⟨⟨hleft, hreply⟩, hright, houtbox⟩ := hunderway
  -- a slot that is taken would have a message on its way
  have hslots (slot : Slot) : d.waitingIn slot = none := by
    refine Option.eq_none_iff_forall_ne_some.2 fun t ht => ?_
    have hawaited := h.routes.awaited slot t ht
    simp [underway, replies, requests, hleft, hreply, hright, houtbox] at hawaited
  have hidle : d = .idle s.client.config.places := by
    have hsnapshot : d.snapshot = none := hslots .snapshot
    have hself : d.selfRef = none := hslots .selfRef
    calc d = ⟨d.capacity, d.snapshot, d.selfRef, d.outbox⟩ := rfl
      _ = .idle s.client.config.places := by
        rw [hsnapshot, hself, houtbox, h.isOpen.places]
        rfl
  have hrunning : s.client.running = [] := by
    refine List.eq_nil_iff_forall_not_mem.2 fun o ho => ?_
    rcases h.accounts.located o ho with hcommand | hwaits
    · simp [hqueue, hwaiting] at hcommand
    · rw [hslots] at hwaits
      cases hwaits
  refine ⟨⟨hwaiting, hqueue, by rw [h.isOpen.dispatcher, hidle], hright, hreply, hleft, hrunning,
    ?_, h.accounts.outcomes⟩, ?_⟩
  · have htickets := h.accounts.tickets
    rwa [hrunning] at htickets
  · have hload := h.load
    simp only [Session.load, hwaiting, hqueue, houtbox, hright, hreply, hleft, List.length_nil,
      Option.toList_none] at hload
    omega

/-- Let requests have no time limits, let none be given up and let the client not be dropped.
However small the queues are, and in whatever order requests are made and events happen, a request
that is not resolved can make progress: it can get a place in the queue of commands, or a command or
a message can be passed on, and nothing else ever happens. No more than six events happen for each
request; when there are no more, all places are empty and every request is resolved. -/
theorem progress_of_moves? {schema : Schema} {config : SyncConfig} {capacity : Nat}
    {handler : ActionHandler} {self : RefToken} {model : DataModel} {moves : List Move}
    (hendless : config.timeout = none) (hopen : ∀ m ∈ moves, m.keepsOpen)
    (hmoves : (connection schema config capacity handler self model).moves? moves = some s) :
    (∀ t < (moves.filterMap Move.request?).length, t ∉ s.client.resolved.map Prod.fst →
      (∃ e ∈ passes, (fire? e s).isSome) ∨
        (t ∈ s.client.waiting.map (·.ticket) ∧ (fire? (.client .enter) s).isSome)) ∧
    (∀ e, (fire? e s).isSome → e = .client .enter ∨ e ∈ passes) ∧
    moves.countP Move.isEvent ≤ 6 * (moves.filterMap Move.request?).length ∧
    ((∀ e ∈ Event.client .enter :: passes, fire? e s = none) →
      s.AtRest (moves.filterMap Move.request?) ∧
        moves.countP Move.isEvent = 6 * (moves.filterMap Move.request?).length) := by
  obtain ⟨d, h⟩ :=
    (running_connection schema capacity handler self model hendless).of_moves? hopen hmoves
  rw [List.nil_append, Nat.zero_add] at h
  refine ⟨fun t ht hunresolved => h.exists_fire ht hunresolved, fun e he => ?_, ?_, h.atRest⟩
  · obtain ⟨s', hfire⟩ := Option.isSome_iff_exists.1 he
    obtain ⟨d', hflow⟩ := flow_of_fire? h.isOpen hfire
    exact mem_passes_of_flow hflow
  · exact Nat.le.intro h.load

/-- A burst of three requests over queues of one place each. -/
def burstMoves : List Move := [
  .request .self, .request .observe, .request .observe,
  .event (.client .enter), .event (.client .accept), .event (.client .enter),
  .event (.client .transmit), .event (.client .accept), .event (.client .enter),
  -- the first message is handled before the next one fits
  .event (.authority .receive), .event (.client .transmit), .event (.client .accept),
  .event (.authority .reply), .event (.authority .receive), .event (.client .transmit),
  -- and the first reply is received before the next one fits
  .event (.client .receive), .event (.authority .reply), .event (.authority .receive),
  .event (.client .receive), .event (.authority .reply), .event (.client .receive)]

/-- The queues of the burst. -/
def unitConfig : SyncConfig := { SyncConfig.standard with capacity := 1 }

/-- The burst comes to rest, with all three requests resolved. -/
theorem atRest_burstMoves :
    ∃ s, (connection ⟨∅⟩ unitConfig 0 .setField ⟨⟨"e"⟩⟩ (.empty ⟨∅⟩ unitConfig.mint)).moves?
        burstMoves = some s ∧
      (∀ e ∈ Event.client .enter :: passes, fire? e s = none) ∧
      s.AtRest [.self, .observe, .observe] := by
  have hquiet : ((connection ⟨∅⟩ unitConfig 0 .setField ⟨⟨"e"⟩⟩
      (.empty ⟨∅⟩ unitConfig.mint)).moves? burstMoves).any fun s =>
        (Event.client .enter :: passes).all fun e => (fire? e s).isNone := by decide +kernel
  obtain ⟨s, hmoves, hall⟩ := (Option.any_eq_true _ _).1 hquiet
  have hnone (e : Event) (he : e ∈ Event.client .enter :: passes) : fire? e s = none :=
    Option.isNone_iff_eq_none.1 (List.all_eq_true.1 hall e he)
  have hprogress := progress_of_moves? (by rfl) (by decide) hmoves
  exact ⟨s, hmoves, hnone, (hprogress.2.2.2 hnone).1⟩

end Session

end TypedGraph
