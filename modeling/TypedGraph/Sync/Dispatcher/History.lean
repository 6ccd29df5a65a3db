import TypedGraph.Sync.Dispatcher

/-!
# Histories of Dispatchers

What can happen to a dispatcher, in any order, and a record of what has happened: which commands it
has accepted, which messages it has sent, and how it has ended the waits of requests.
-/

namespace TypedGraph.Dispatcher

/-- What can happen to a dispatcher. -/
inductive Event where
  /-- It accepts a command. -/
  | accept (c : Command)
  /-- It sends the oldest message of its outbox. -/
  | send
  /-- It receives a message. -/
  | receive (m : Message)
  /-- It stops. -/
  | stop
deriving DecidableEq

/-- A dispatcher with a record of what has happened to it. -/
structure History where
  /-- The dispatcher, until it stops. -/
  dispatcher : Option Dispatcher
  /-- The commands that it has accepted, the oldest first. -/
  accepted : List Command
  /-- The messages that it has sent, the oldest first. -/
  sent : List Message
  /-- The waits that it has ended, the oldest first. -/
  resolved : List (Ticket × Resolution)
deriving DecidableEq

namespace History

/-- The record of a dispatcher to which nothing has happened. -/
def start (capacity : Nat) : History := ⟨some (idle capacity), [], [], []⟩

/-- The record after one more event, if it can happen. -/
def next? (h : History) (e : Event) : Option History := do
  let d ← h.dispatcher
  match e with
  | .accept c =>
    let (d, l) ← d.accept? c
    return { h with
      dispatcher := some d
      accepted := h.accepted ++ [c]
      resolved := h.resolved ++ l }
  | .send =>
    let (m, d) ← d.next?
    return { h with
      dispatcher := some d
      sent := h.sent ++ [m] }
  | .receive m =>
    let (d, l) := d.receive m
    return { h with
      dispatcher := some d
      resolved := h.resolved ++ l }
  | .stop => return { h with
      dispatcher := none
      resolved := h.resolved ++ d.stop }

/-- The record after some events, if they can happen one after the other. -/
def after? (h : History) (events : List Event) : Option History := events.foldlM next? h

end History

end TypedGraph.Dispatcher
