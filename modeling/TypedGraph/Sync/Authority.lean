import TypedGraph.Quiescence
import TypedGraph.Sync.Action
import TypedGraph.Sync.Channel
import TypedGraph.Sync.Error

/-!
# Authorities

The side of replication that owns the model. It handles messages one at a time in the order in which
they arrive and sends at most one reply for each; while a reply does not fit into the channel it
takes no further message. It ends when the other side is gone and nothing is left to receive, or
when a reply cannot be delivered.

## Main results

* `Authority.step_of_fire?` and `Authority.Step.fire?_eq`: every event is one of four steps, and
  every step can be taken;
* `Authority.Step.weight_lt`: an authority comes to rest.
-/

namespace TypedGraph

namespace DataModel

/-- The snapshot message of a model. -/
def observation (m : DataModel) (error : Bool) : Message := .snapshot m.entities error

/-- Handles a message: the reply to it, if there is one, and the model after it. Replies of the
other direction are ignored. -/
def handle (m : DataModel) (handler : ActionHandler) (self : RefToken) :
    Message → Option Message × DataModel
  | .getObservation => (some (m.observation false), m)
  | .getSelf => (some (.selfRef self.id), m)
  | .doAction request =>
    let (error, m) := handler request self m
    (some (m.observation error), m)
  | .snapshot _ _ => (none, m)
  | .selfRef _ => (none, m)

end DataModel

/-- An authority that serves a channel. -/
structure Authority where
  /-- Carries out actions. -/
  handler : ActionHandler
  /-- The entity that the remote stands for. -/
  self : RefToken
  /-- The model. -/
  model : DataModel
  /-- The reply that is being sent. -/
  reply : Option Message
  /-- The number of messages handled. -/
  handled : Nat
  /-- How serving has ended: with the number of messages handled, or with a failure. -/
  result : Option (Except SyncError Nat)

namespace Authority

/-- An authority at the beginning of a connection. -/
def start (handler : ActionHandler) (self : RefToken) (model : DataModel) : Authority where
  handler := handler
  self := self
  model := model
  reply := none
  handled := 0
  result := none

/-- Serving has ended. -/
def isDone (a : Authority) : Bool := a.result.isSome

/-- What can happen to an authority, which has the right end of its channel. -/
inductive Event where
  /-- The reply is sent, or turns out to be undeliverable. -/
  | reply
  /-- A message is received and handled. -/
  | receive
  /-- Serving ends, as the other side is gone. -/
  | stop
deriving DecidableEq

/-- Ends serving and drops the authority's end of the channel. -/
def finish (a : Authority) (channel : Duplex) (result : Except SyncError Nat) :
    Authority × Duplex :=
  ({ a with reply := none, result := some result }, channel.drop .right)

/-- Sends the reply, if there is a place for it. -/
def reply? (a : Authority) (channel : Duplex) : Option (Authority × Duplex) :=
  match a.result, a.reply with
  | none, some m =>
    match channel.send .right m with
    | (.sent, channel) => some ({ a with reply := none }, channel)
    | (.closed, channel) => some (a.finish channel (.error .channelClosed))
    -- the reply waits for a place
    | (.full, _) => none
  | _, _ => none

/-- The authority after it has handled a message. -/
def take (a : Authority) (m : Message) : Authority :=
  let (reply, model) := a.model.handle a.handler a.self m
  { a with model, reply, handled := a.handled + 1 }

/-- Receives and handles a message, if no reply is being sent. -/
def receive? (a : Authority) (channel : Duplex) : Option (Authority × Duplex) :=
  match a.result, a.reply, channel.take? .right with
  | none, none, some (m, channel) => some (a.take m, channel)
  | _, _, _ => none

/-- Ends serving if no reply is being sent, nothing is left to receive and nobody sends more. -/
def stop? (a : Authority) (channel : Duplex) : Option (Authority × Duplex) :=
  match a.result, a.reply, (channel.receive .right).1 with
  | none, none, .closed => some (a.finish channel (.ok a.handled))
  | _, _, _ => none

/-- Lets an event happen if it can. -/
def fire? (e : Event) (a : Authority) (channel : Duplex) : Option (Authority × Duplex) :=
  match e with
  | .reply => a.reply? channel
  | .receive => a.receive? channel
  | .stop => a.stop? channel

/-- The events in the order in which they are tried. -/
def events : List Event := [.reply, .receive, .stop]

/-! ## What an Authority Can Do -/

/-- What can happen to an authority that serves, and to its channel. -/
inductive Step (a : Authority) (c : Duplex) : Event → Authority → Duplex → Prop where
  /-- The reply is sent. -/
  | deliver {m : Message} (hserving : a.result = none) (hr : a.reply = some m)
    (hleft : c.left.present) (hroom : c.left.inbox.length < c.capacity) :
    Step a c .reply { a with reply := none }
      { c with left := { c.left with inbox := c.left.inbox ++ [m] } }
  /-- The reply cannot be delivered. -/
  | fail {m : Message} (hserving : a.result = none) (hr : a.reply = some m)
    (hleft : c.left.present = false) :
    Step a c .reply (a.finish c (.error .channelClosed)).1 (c.drop .right)
  /-- The oldest message is handled. -/
  | receive {m : Message} {rest : List Message} (hserving : a.result = none)
    (hr : a.reply = none) (hi : c.right.inbox = m :: rest) :
    Step a c .receive (a.take m) { c with right := { c.right with inbox := rest } }
  /-- All messages have been handled, and no more will come. -/
  | stop (hserving : a.result = none) (hr : a.reply = none) (hi : c.right.inbox = [])
    (hleft : c.left.present = false) :
    Step a c .stop (a.finish c (.ok a.handled)).1 (c.drop .right)

variable {a a' : Authority} {c c' : Duplex} {e : Event}

/-- Every event is one of the steps. -/
theorem step_of_fire? (h : fire? e a c = some (a', c')) : Step a c e a' c' := by
  cases e with
  | reply =>
    change reply? _ _ = _ at h
    unfold reply? at h
    split at h
    · next m hserving hr =>
      split at h
      · next channel hsend =>
        cases h
        obtain ⟨hleft, hroom, rfl⟩ := Duplex.send_eq_sent_iff.1 hsend
        exact .deliver hserving hr hleft hroom
      · next channel hsend =>
        cases h
        obtain ⟨hleft, rfl⟩ := Duplex.send_eq_closed_iff.1 hsend
        exact .fail hserving hr hleft
      · cases h
    · cases h
  | receive =>
    change receive? _ _ = _ at h
    unfold receive? at h
    split at h
    · next m channel hserving hr htake =>
      cases h
      obtain ⟨rest, hi, rfl⟩ := Duplex.take?_eq_some_iff.1 htake
      exact .receive hserving hr hi
    · cases h
  | stop =>
    change stop? _ _ = _ at h
    unfold stop? at h
    split at h
    · next hserving hr hreceive =>
      cases h
      obtain ⟨hi, hleft⟩ := Duplex.receive_eq_closed_iff.1 hreceive
      exact .stop hserving hr hi hleft
    · cases h

/-- Every step can be taken. -/
theorem Step.fire?_eq (h : Step a c e a' c') : fire? e a c = some (a', c') := by
  cases h with
  | @deliver m hserving hr hleft hroom =>
    have hsend : c.send .right m = (.sent, _) :=
      Duplex.send_eq_sent_iff.2 ⟨hleft, hroom, rfl⟩
    simp only [fire?, reply?, hserving, hr, hsend]
    rfl
  | @fail m hserving hr hleft =>
    have hsend : c.send .right m = (.closed, c) := Duplex.send_eq_closed_iff.2 ⟨hleft, rfl⟩
    simp only [fire?, reply?, hserving, hr, hsend]
    rfl
  | @receive m rest hserving hr hi =>
    have htake : c.take? .right = some (m, _) := Duplex.take?_eq_some_iff.2 ⟨rest, hi, rfl⟩
    simp only [fire?, receive?, hserving, hr, htake]
    rfl
  | stop hserving hr hi hleft =>
    have hreceive : (c.receive .right).1 = .closed := Duplex.receive_eq_closed_iff.2 ⟨hi, hleft⟩
    simp only [fire?, stop?, hserving, hr, hreceive]
    rfl

/-! ## Every Event Lowers the Weight -/

/-- A bound for the events that an authority can still cause by itself. -/
def weight (a : Authority) : Nat :=
  match a.result, a.reply with
  | some _, _ => 0
  -- it can still end
  | none, none => 1
  -- it can end, after a reply that the client can receive
  | none, some _ => 4

theorem weight_le (a : Authority) : a.weight ≤ 4 := by
  unfold weight
  split <;> omega

theorem weight_finish (a : Authority) (channel : Duplex) (result : Except SyncError Nat) :
    (a.finish channel result).1.weight = 0 := rfl

theorem weight_drop_le (channel : Duplex) : (channel.drop .right).weight ≤ channel.weight := by
  simp only [Duplex.weight, Duplex.drop, Duplex.setEndpoint, Endpoint.gone, List.length_nil]
  omega

/-- Every step lowers the weight of the authority and its channel. -/
theorem Step.weight_lt (h : Step a c e a' c') : a'.weight + c'.weight < a.weight + c.weight := by
  cases h with
  | deliver hserving hr _ _ =>
    simp only [weight, hserving, hr, Duplex.weight, List.length_append, List.length_singleton]
    omega
  | fail hserving hr _ =>
    have hdrop := weight_drop_le c
    have hweight : a.weight = 4 := by simp [weight, hserving, hr]
    rw [weight_finish]
    omega
  | @receive m rest hserving hr hi =>
    -- a reply weighs no more than the message
    have htake := weight_le (a.take m)
    have hweight : a.weight = 1 := by simp [weight, hserving, hr]
    simp only [Duplex.weight, hi, List.length_cons]
    omega
  | stop hserving hr _ _ =>
    have hdrop := weight_drop_le c
    have hweight : a.weight = 1 := by simp [weight, hserving, hr]
    rw [weight_finish]
    omega

/-- The first event that can happen. -/
def step? (s : Authority × Duplex) : Option (Authority × Duplex) :=
  events.findSome? fun e => fire? e s.1 s.2

theorem weight_step? (s s' : Authority × Duplex) (h : step? s = some s') :
    s'.1.weight + s'.2.weight < s.1.weight + s.2.weight := by
  obtain ⟨_, e, _, _, he, _⟩ := List.findSome?_eq_some_iff.1 h
  exact (step_of_fire? he).weight_lt

/-- Lets events happen until none can. -/
def settle (a : Authority) (channel : Duplex) : Authority × Duplex :=
  untilQuiet step? (fun s => s.1.weight + s.2.weight) weight_step? (a, channel)

end Authority

end TypedGraph
