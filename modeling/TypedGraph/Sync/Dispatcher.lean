import TypedGraph.Sync.Message

/-!
# Dispatchers

The part of a client that talks to the channel. It accepts commands, queues their messages in an
outbox of bounded length, and keeps for each kind of reply the request that waits for it. A second
request for the same kind of reply takes the place of the first, which fails.
-/

namespace TypedGraph

/-- Requests of one client are told apart by number. -/
abbrev Ticket := Nat

/-- The kinds of replies. -/
inductive Slot where
  /-- A snapshot of the graph. -/
  | snapshot
  /-- The entity that the remote stands for. -/
  | selfRef
deriving DecidableEq

/-- A reply of the authority. -/
inductive Reply where
  | snapshot (graph : EntityGraph) (error : Bool)
  | selfRef (id : EntityId)
deriving DecidableEq

namespace Reply

/-- The reply that a message is. -/
def ofMessage? : Message → Option Reply
  | .snapshot graph error => some (.snapshot graph error)
  | .selfRef id => some (.selfRef id)
  | _ => none

/-- The kind of a reply. -/
def slot : Reply → Slot
  | snapshot _ _ => .snapshot
  | selfRef _ => .selfRef

end Reply

/-- A request on its way to the authority. -/
structure Command where
  /-- The number of the request. -/
  ticket : Ticket
  /-- The message to send. -/
  message : Message
  /-- The kind of reply that it waits for. -/
  slot : Slot
deriving DecidableEq

/-- How the dispatcher ends the wait of a request. -/
inductive Resolution where
  /-- A reply has come. -/
  | answered (reply : Reply)
  /-- A newer request waits for the same kind of reply. -/
  | superseded
  /-- The dispatcher has stopped. -/
  | closed
deriving DecidableEq

/-- A running dispatcher. -/
structure Dispatcher where
  /-- The number of messages that the outbox holds at most. -/
  capacity : Nat
  /-- The request that waits for a snapshot. -/
  snapshot : Option Ticket
  /-- The request that waits for the entity that the remote stands for. -/
  selfRef : Option Ticket
  /-- The messages to be sent, the oldest first. -/
  outbox : List Message
deriving DecidableEq

namespace Dispatcher

/-- A dispatcher that has nothing to do. -/
def idle (capacity : Nat) : Dispatcher := ⟨capacity, none, none, []⟩

/-- The request that waits for a kind of reply. -/
def waitingIn (d : Dispatcher) : Slot → Option Ticket
  | .snapshot => d.snapshot
  | .selfRef => d.selfRef

/-- Sets the request that waits for a kind of reply. -/
def setSlot (d : Dispatcher) (slot : Slot) (t : Option Ticket) : Dispatcher :=
  match slot with
  | .snapshot => { d with snapshot := t }
  | .selfRef => { d with selfRef := t }

/-- The outbox has a place. -/
def hasRoom (d : Dispatcher) : Bool := decide (d.outbox.length < d.capacity)

/-- Accepts a command if the outbox has a place; the request that waited for the same kind of reply
is superseded. -/
def accept? (d : Dispatcher) (c : Command) :
    Option (Dispatcher × List (Ticket × Resolution)) :=
  if d.hasRoom then
    let d' := d.setSlot c.slot (some c.ticket)
    some ({ d' with outbox := d.outbox ++ [c.message] },
      (d.waitingIn c.slot).toList.map (·, .superseded))
  else none

/-- The dispatcher once it has accepted a command. -/
def accepting (d : Dispatcher) (command : Command) : Dispatcher :=
  { d.setSlot command.slot (some command.ticket) with outbox := d.outbox ++ [command.message] }

theorem accept?_eq_some_iff {d d' : Dispatcher} {c : Command} {l : List (Ticket × Resolution)} :
    d.accept? c = some (d', l) ↔
      d.hasRoom ∧ d' = d.accepting c ∧ l = (d.waitingIn c.slot).toList.map (·, .superseded) := by
  unfold accept?
  split
  · next hroom => simp [hroom, accepting, eq_comm]
  · next hfull => simp [hfull]

/-- The oldest message to be sent, and the dispatcher once it is sent. -/
def next? (d : Dispatcher) : Option (Message × Dispatcher) :=
  match d.outbox with
  | [] => none
  | m :: rest => some (m, { d with outbox := rest })

theorem next?_eq_some_iff {d d' : Dispatcher} {m : Message} : d.next? = some (m, d') ↔
    ∃ rest, d.outbox = m :: rest ∧ d' = { d with outbox := rest } := by
  unfold next?
  cases d.outbox with
  | nil => simp
  | cons m' rest => simp [and_assoc, eq_comm]

/-- Receives a message. A reply goes to the request that waits for its kind, if there is one;
anything else is ignored. -/
def receive (d : Dispatcher) (m : Message) : Dispatcher × List (Ticket × Resolution) :=
  match Reply.ofMessage? m with
  | none => (d, [])
  | some reply =>
    (d.setSlot reply.slot none,
      (d.waitingIn reply.slot).toList.map (·, .answered reply))

/-- Stops; requests that still wait have no answer. -/
def stop (d : Dispatcher) : List (Ticket × Resolution) :=
  (d.snapshot.toList ++ d.selfRef.toList).map (·, .closed)

end Dispatcher

end TypedGraph
