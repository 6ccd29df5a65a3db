import TypedGraph.Quiescence
import TypedGraph.Sync.Action
import TypedGraph.Sync.Channel
import TypedGraph.Sync.Dispatcher
import TypedGraph.Sync.Error

/-!
# Clients

The remote side of replication. Requests go through a bounded queue of commands to the dispatcher; a
request that finds no place waits for one. A request is open until it is resolved: by its reply, by
a newer request for the same kind of reply, by its time limit, or by the end of the dispatcher.
Snapshots are validated on arrival. A client moves by events, each of which may fire when it is
enabled.

## Main results

* `Client.step_of_fire?` and `Client.Step.fire?_eq`: every event is one of six steps, and every step
  can be taken;
* `Client.Step.weight_lt`: a client comes to rest.
-/

namespace TypedGraph

/-- How a client and its channel are set up. -/
structure SyncConfig where
  /-- The length of the queues; at least one place is there. -/
  capacity : Nat
  /-- The milliseconds that a request waits for its reply; without a limit it waits for ever. -/
  timeout : Option Nat
  /-- The stem of the ids that rebuilt models mint. -/
  idStem : String
deriving DecidableEq

namespace SyncConfig

/-- The setup that is used when none is given. -/
def standard : SyncConfig := ⟨32, none, IdMint.defaultStem⟩

/-- The places in each queue. -/
def places (c : SyncConfig) : Nat := max 1 c.capacity

/-- A new mint for the ids of a rebuilt model. -/
def mint (c : SyncConfig) : IdMint := .ofStem c.idStem

end SyncConfig

/-- What a client can ask for. -/
inductive Request where
  /-- A snapshot. -/
  | observe
  /-- The entity that the client stands for. -/
  | self
  /-- An action. -/
  | action (request : ActionRequest)
deriving DecidableEq

namespace Request

/-- Asks to set a field. -/
def setField (target : RefToken) (field : String) (value : Json) : Request :=
  action (FieldUpdate.request ⟨target, field, value⟩)

/-- The message that carries a request. -/
def message : Request → Message
  | observe => .getObservation
  | self => .getSelf
  | action request => .doAction request

/-- The kind of reply that a request waits for. -/
def slot : Request → Slot
  | observe => .snapshot
  | self => .selfRef
  | action _ => .snapshot

end Request

/-- What a request gives. -/
inductive Answer where
  /-- The model rebuilt from a snapshot. -/
  | observed (model : DataModel)
  /-- The entity that the client stands for. -/
  | self (token : RefToken)
  /-- The model after an action, and whether the action was refused. -/
  | acted (model : DataModel) (error : Bool)
deriving DecidableEq

/-- How a request ends. -/
abbrev Outcome := Except SyncError Answer

/-- A request that is not resolved yet. -/
structure OpenRequest where
  /-- The number of the request. -/
  ticket : Ticket
  /-- What is asked for. -/
  request : Request
  /-- The time from which on the request fails, once it is queued. -/
  deadline : Option Nat
deriving DecidableEq

/-- A client with its dispatcher. -/
structure Client where
  /-- The schema that snapshots have to conform to. -/
  schema : Schema
  /-- The setup. -/
  config : SyncConfig
  /-- The client itself has not been dropped; open requests do not count. -/
  held : Bool
  /-- The time in milliseconds. -/
  clock : Nat
  /-- The number of requests so far. -/
  issued : Nat
  /-- The requests that wait for a place in the queue of commands, the oldest first. -/
  waiting : List Command
  /-- The queue of commands. -/
  queue : List Command
  /-- The requests that are not resolved yet. -/
  running : List OpenRequest
  /-- The dispatcher, until it stops. -/
  dispatcher : Option Dispatcher
  /-- The requests that are resolved, with their outcomes. -/
  resolved : List (Ticket × Outcome)

namespace Client

/-- A new client. -/
def start (schema : Schema) (config : SyncConfig) : Client where
  schema := schema
  config := config
  held := true
  clock := 0
  issued := 0
  waiting := []
  queue := []
  running := []
  dispatcher := some (.idle config.places)
  resolved := []

/-- The dispatcher is running. -/
def isConnected (c : Client) : Bool := c.dispatcher.isSome

/-- The model of a snapshot, if the snapshot conforms to the client's schema. -/
def rebuild (c : Client) (graph : EntityGraph) : Except SyncError DataModel :=
  match (DataModel.empty c.schema c.config.mint).tryInit graph with
  | (.ok _, model) => .ok model
  | (.error id, _) => .error (.invalidSnapshot id)

theorem rebuild_of_ok {c : Client} {graph : EntityGraph} {index : KindIndex}
    (h : (Validator.of c.schema graph).assign = .ok index) :
    c.rebuild graph = .ok { DataModel.empty c.schema c.config.mint with
      entities := graph
      kinds := index
      mint := graph.ids.foldl IdMint.observe c.config.mint } := by
  rw [rebuild, DataModel.tryInit_of_ok h]
  rfl

theorem rebuild_of_error {c : Client} {graph : EntityGraph} {id : EntityId}
    (h : (Validator.of c.schema graph).assign = .error id) :
    c.rebuild graph = .error (.invalidSnapshot id) := by
  rw [rebuild, DataModel.tryInit_of_error h]

/-- What a reply means for a request. -/
def outcomeOf (c : Client) : Request → Resolution → Outcome
  | .observe, .answered (.snapshot graph _) => (c.rebuild graph).map .observed
  | .action _, .answered (.snapshot graph error) =>
    (c.rebuild graph).map fun model => .acted model error
  | .self, .answered (.selfRef id) => .ok (.self ⟨id⟩)
  | _, .superseded => .error .superseded
  -- replies of the other kind do not get here
  | _, _ => .error .channelClosed

/-- Ends open requests with given outcomes. -/
def finish (c : Client) (done : OpenRequest → Option Outcome) : Client :=
  { c with
    running := c.running.filter fun r => (done r).isNone
    resolved := c.resolved ++ c.running.filterMap fun r => (done r).map (r.ticket, ·) }

/-- Ends the open requests that the dispatcher has resolved. A request that is no longer open has
lost interest. -/
def resolve (c : Client) (l : List (Ticket × Resolution)) : Client :=
  c.finish fun r => (l.lookup r.ticket).map (c.outcomeOf r.request)

/-! ## What a Caller Does -/

/-- Starts a request; its number is the count of requests before it. -/
def request (c : Client) (r : Request) : Client :=
  let ticket := c.issued
  let c := { c with issued := ticket + 1 }
  if c.isConnected then
    -- the time limit begins when the command is queued
    { c with
      waiting := c.waiting ++ [⟨ticket, r.message, r.slot⟩]
      running := c.running ++ [⟨ticket, r, none⟩] }
  else { c with resolved := c.resolved ++ [(ticket, .error .channelClosed)] }

/-- Gives up a request. If it still waits for a place its message is never sent. -/
def cancel (c : Client) (ticket : Ticket) : Client :=
  { c with
    waiting := c.waiting.filter (·.ticket ≠ ticket)
    running := c.running.filter (·.ticket ≠ ticket) }

/-- Lets time pass. -/
def elapse (c : Client) (ms : Nat) : Client := { c with clock := c.clock + ms }

/-- Drops the client; open requests go on. -/
def release (c : Client) : Client := { c with held := false }

/-- The outcomes since the last time, by number of the request. -/
def takeResolved (c : Client) : List (Ticket × Outcome) × Client :=
  (c.resolved.mergeSort fun a b => a.1 ≤ b.1, { c with resolved := [] })

/-! ## Events -/

/-- What can happen to a client, which has the left end of its channel. -/
inductive Event where
  /-- Time limits are over. -/
  | expire
  /-- A waiting request gets a place in the queue. -/
  | enter
  /-- The dispatcher accepts a command. -/
  | accept
  /-- The dispatcher sends a message. -/
  | transmit
  /-- The dispatcher receives a message. -/
  | receive
  /-- The dispatcher stops. -/
  | stop
deriving DecidableEq

/-- The request's time limit is over. -/
def isExpired (c : Client) (r : OpenRequest) : Bool := r.deadline.any (· ≤ c.clock)

/-- Ends the requests whose time limits are over. -/
def expire? (c : Client) : Option Client :=
  if c.running.any c.isExpired then
    some (c.finish fun r => if c.isExpired r then some (.error .timeout) else none)
  else none

/-- The time limit of a request begins when it is queued. -/
def beginLimit (c : Client) (ticket : Ticket) : List OpenRequest :=
  c.running.map fun r =>
    if r.ticket = ticket then { r with deadline := c.config.timeout.map (c.clock + ·) } else r

/-- Gives the oldest waiting request a place in the queue. -/
def enter? (c : Client) : Option Client :=
  match c.waiting with
  | [] => none
  | command :: rest =>
    if c.queue.length < c.config.places then
      some { c with
        waiting := rest
        queue := c.queue ++ [command]
        running := c.beginLimit command.ticket }
    else none

/-- Lets the dispatcher accept the oldest command. -/
def accept? (c : Client) : Option Client :=
  match c.dispatcher, c.queue with
  | some d, command :: rest =>
    (d.accept? command).map fun (d, l) =>
      { c with queue := rest, dispatcher := some d }.resolve l
  | _, _ => none

/-- Lets the dispatcher send its oldest message. -/
def transmit? (c : Client) (channel : Duplex) : Option (Client × Duplex) := do
  let d ← c.dispatcher
  let (m, d) ← d.next?
  match channel.send .left m with
  | (.sent, channel) => some ({ c with dispatcher := some d }, channel)
  | _ => none

/-- Lets the dispatcher receive a message. -/
def receive? (c : Client) (channel : Duplex) : Option (Client × Duplex) := do
  let d ← c.dispatcher
  let (m, channel) ← channel.take? .left
  let (d, l) := d.receive m
  return ({ c with dispatcher := some d }.resolve l, channel)

/-- Nobody can issue commands any more, and the dispatcher is ready for the next one. -/
def isAbandoned (c : Client) (d : Dispatcher) : Bool :=
  !c.held && c.running.isEmpty && c.waiting.isEmpty && c.queue.isEmpty && d.hasRoom

/-- The other end is gone, and the dispatcher has a message to send or nothing to receive. -/
def hasHungUp (channel : Duplex) (d : Dispatcher) : Bool :=
  channel.isClosed .left && (!d.outbox.isEmpty || channel.left.inbox.isEmpty)

/-- Stops the dispatcher; open requests fail and the client's end of the channel is dropped. -/
def stop? (c : Client) (channel : Duplex) : Option (Client × Duplex) := do
  let d ← c.dispatcher
  if c.isAbandoned d || hasHungUp channel d then
    some ({ c with dispatcher := none, waiting := [], queue := [] }.finish
      fun _ => some (.error .channelClosed), channel.drop .left)
  else none

/-- Lets an event happen if it can. -/
def fire? (e : Event) (c : Client) (channel : Duplex) : Option (Client × Duplex) :=
  match e with
  | .expire => c.expire?.map (·, channel)
  | .enter => c.enter?.map (·, channel)
  | .accept => c.accept?.map (·, channel)
  | .transmit => c.transmit? channel
  | .receive => c.receive? channel
  | .stop => c.stop? channel

/-- The events in the order in which they are tried. -/
def events : List Event := [.expire, .enter, .accept, .transmit, .receive, .stop]

/-! ## What a Client Can Do -/

/-- What can happen to a client, and to its channel. -/
inductive Step (c : Client) (channel : Duplex) : Event → Client → Duplex → Prop where
  /-- The requests whose time limits are over fail. -/
  | expire (hany : c.running.any c.isExpired) :
    Step c channel .expire
      (c.finish fun r => if c.isExpired r then some (.error .timeout) else none) channel
  /-- The oldest waiting request gets a place in the queue. -/
  | enter {command : Command} {rest : List Command} (hw : c.waiting = command :: rest)
    (hroom : c.queue.length < c.config.places) :
    Step c channel .enter { c with
      waiting := rest
      queue := c.queue ++ [command]
      running := c.beginLimit command.ticket } channel
  /-- The dispatcher accepts the oldest command, which supersedes another one. -/
  | accept {d : Dispatcher} {command : Command} {rest : List Command}
    (hd : c.dispatcher = some d) (hq : c.queue = command :: rest) (hroom : d.hasRoom) :
    Step c channel .accept
      (resolve { c with queue := rest, dispatcher := some (d.accepting command) }
        ((d.waitingIn command.slot).toList.map (·, .superseded))) channel
  /-- The dispatcher sends its oldest message. -/
  | transmit {d : Dispatcher} {m : Message} {rest : List Message} (hd : c.dispatcher = some d)
    (ho : d.outbox = m :: rest) (hright : channel.right.present)
    (hroom : channel.right.inbox.length < channel.capacity) :
    Step c channel .transmit { c with dispatcher := some { d with outbox := rest } }
      { channel with right := { channel.right with inbox := channel.right.inbox ++ [m] } }
  /-- The dispatcher receives a message. -/
  | receive {d : Dispatcher} {m : Message} {rest : List Message} (hd : c.dispatcher = some d)
    (hi : channel.left.inbox = m :: rest) :
    Step c channel .receive
      (resolve { c with dispatcher := some (d.receive m).1 } (d.receive m).2)
      { channel with left := { channel.left with inbox := rest } }
  /-- The dispatcher stops, and all open requests fail. -/
  | stop {d : Dispatcher} (hd : c.dispatcher = some d)
    (hstop : c.isAbandoned d || hasHungUp channel d) :
    Step c channel .stop
      (finish { c with dispatcher := none, waiting := [], queue := [] }
        fun _ => some (.error .channelClosed)) (channel.drop .left)

variable {c c' : Client} {channel channel' : Duplex} {e : Event}

/-- Every event is one of the steps. -/
theorem step_of_fire? (h : fire? e c channel = some (c', channel')) :
    Step c channel e c' channel' := by
  cases e with
  | expire =>
    obtain ⟨client, hc, heq⟩ := Option.map_eq_some_iff.1 h
    cases heq
    unfold expire? at hc
    split at hc
    · next hany =>
      cases hc
      exact .expire hany
    · cases hc
  | enter =>
    obtain ⟨client, hc, heq⟩ := Option.map_eq_some_iff.1 h
    cases heq
    unfold enter? at hc
    split at hc
    · cases hc
    · next command rest hw =>
      split at hc
      · next hroom =>
        cases hc
        exact .enter hw hroom
      · cases hc
  | accept =>
    obtain ⟨client, hc, heq⟩ := Option.map_eq_some_iff.1 h
    cases heq
    unfold accept? at hc
    split at hc
    · next d command rest hd hq =>
      obtain ⟨⟨d', l⟩, haccept, rfl⟩ := Option.map_eq_some_iff.1 hc
      obtain ⟨hroom, rfl, rfl⟩ := Dispatcher.accept?_eq_some_iff.1 haccept
      exact .accept hd hq hroom
    · cases hc
  | transmit =>
    obtain ⟨d, hd, hsend⟩ := Option.bind_eq_some_iff.1 h
    obtain ⟨⟨m, d'⟩, hnext, hsend⟩ := Option.bind_eq_some_iff.1 hsend
    obtain ⟨rest, ho, rfl⟩ := Dispatcher.next?_eq_some_iff.1 hnext
    dsimp only at hsend
    split at hsend
    · next channel'' hsent =>
      cases hsend
      obtain ⟨hright, hroom, rfl⟩ := Duplex.send_eq_sent_iff.1 hsent
      exact .transmit hd ho hright hroom
    · cases hsend
  | receive =>
    obtain ⟨d, hd, htake⟩ := Option.bind_eq_some_iff.1 h
    obtain ⟨⟨m, channel''⟩, htake, heq⟩ := Option.bind_eq_some_iff.1 htake
    obtain ⟨rest, hi, rfl⟩ := Duplex.take?_eq_some_iff.1 htake
    cases heq
    exact .receive hd hi
  | stop =>
    obtain ⟨d, hd, hif⟩ := Option.bind_eq_some_iff.1 h
    split at hif
    · next hstop =>
      cases hif
      exact .stop hd hstop
    · cases hif

/-- Every step can be taken. -/
theorem Step.fire?_eq (h : Step c channel e c' channel') :
    fire? e c channel = some (c', channel') := by
  cases h with
  | expire hany => rw [fire?, expire?, if_pos hany, Option.map_some]
  | enter hw hroom =>
    simp only [fire?, enter?, hw, if_pos hroom]
    rfl
  | @accept d command rest hd hq hroom =>
    have haccept : d.accept? command = some (_, _) :=
      Dispatcher.accept?_eq_some_iff.2 ⟨hroom, rfl, rfl⟩
    simp only [fire?, accept?, hd, hq, haccept, Option.map_some]
  | @transmit d m rest hd ho hright hroom =>
    have hnext : d.next? = some (m, _) := Dispatcher.next?_eq_some_iff.2 ⟨rest, ho, rfl⟩
    have hsend : channel.send .left m = (.sent, _) :=
      Duplex.send_eq_sent_iff.2 ⟨hright, hroom, rfl⟩
    simp only [fire?, transmit?, hd, hnext, hsend, Option.bind_eq_bind, Option.bind_some]
    rfl
  | @receive d m rest hd hi =>
    have htake : channel.take? .left = some (m, _) := Duplex.take?_eq_some_iff.2 ⟨rest, hi, rfl⟩
    simp only [fire?, receive?, hd, htake, Option.bind_eq_bind, Option.bind_some]
    rfl
  | stop hd hstop =>
    simp only [fire?, stop?, hd, Option.bind_eq_bind, Option.bind_some, if_pos hstop]

/-! ## Every Event Lowers the Weight -/

/-- A bound for the events that a client can still cause. -/
def weight (c : Client) : Nat :=
  -- a command gets lighter in the queue, in the outbox, in the channel and as a reply
  7 * c.waiting.length + 6 * c.queue.length + c.running.length +
    match c.dispatcher with
    | some d => 5 * d.outbox.length + 1
    | none => 0

theorem weight_finish_le (c : Client) (done : OpenRequest → Option Outcome) :
    (c.finish done).weight ≤ c.weight := by
  have := List.length_filter_le (fun r => (done r).isNone) c.running
  simp only [weight, finish]
  omega

/-- Ending an open request lowers the weight. -/
theorem weight_finish_lt {done : OpenRequest → Option Outcome} {r : OpenRequest}
    (hr : r ∈ c.running) (hdone : (done r).isSome) : (c.finish done).weight < c.weight := by
  have hfewer : (c.running.filter fun r => (done r).isNone).length < c.running.length := by
    rw [List.length_filter_lt_length_iff_exists]
    refine ⟨r, hr, ?_⟩
    rw [Option.isNone_eq_false_iff.2 hdone]
    exact Bool.false_ne_true
  simp only [weight, finish]
  omega

/-- Every step lowers the weight of the client and its channel. -/
theorem Step.weight_lt (h : Step c channel e c' channel') :
    c'.weight + channel'.weight < c.weight + channel.weight := by
  cases h with
  | expire hany =>
    obtain ⟨r, hr, hexpired⟩ := List.any_eq_true.1 hany
    refine Nat.add_lt_add_right (weight_finish_lt hr ?_) _
    rw [if_pos hexpired, Option.isSome_some]
  | enter hw hroom =>
    simp only [weight, beginLimit, hw, List.length_append, List.length_map, List.length_cons,
      List.length_nil]
    omega
  | @accept d command rest hd hq hroom =>
    -- the command is lighter as a message in the outbox
    refine Nat.add_lt_add_right (Nat.lt_of_le_of_lt (weight_finish_le _ _) ?_) _
    simp only [weight, hd, hq, Dispatcher.accepting, List.length_append, List.length_cons,
      List.length_nil]
    omega
  | transmit hd ho _ _ =>
    simp only [weight, hd, ho, Duplex.weight, List.length_append, List.length_cons, List.length_nil]
    omega
  | @receive d m rest hd hi =>
    -- resolving requests adds nothing, and the message is gone
    refine Nat.lt_of_le_of_lt (Nat.add_le_add_right (weight_finish_le _ _) _) ?_
    have houtbox : (d.receive m).1.outbox = d.outbox := by
      unfold Dispatcher.receive
      split
      · rfl
      · next reply _ => cases reply <;> rfl
    simp only [weight, hd, houtbox, Duplex.weight, hi, List.length_cons]
    omega
  | stop hd hstop =>
    have hfinish := weight_finish_le { c with dispatcher := none, waiting := [], queue := [] }
      fun _ => some (.error .channelClosed)
    simp only [weight, hd, List.length_nil, Duplex.weight, Duplex.drop, Duplex.setEndpoint,
      Endpoint.gone] at hfinish ⊢
    omega

/-- The first event that can happen. -/
def step? (s : Client × Duplex) : Option (Client × Duplex) :=
  events.findSome? fun e => fire? e s.1 s.2

theorem weight_step? (s s' : Client × Duplex) (h : step? s = some s') :
    s'.1.weight + s'.2.weight < s.1.weight + s.2.weight := by
  obtain ⟨_, e, _, _, he, _⟩ := List.findSome?_eq_some_iff.1 h
  exact (step_of_fire? he).weight_lt

/-- Lets events happen until none can. -/
def settle (c : Client) (channel : Duplex) : Client × Duplex :=
  untilQuiet step? (fun s => s.1.weight + s.2.weight) weight_step? (c, channel)

end Client

end TypedGraph
