import TypedGraph.Sync.Channel
import TypedGraph.Sync.Dispatcher

/-!
# The Loop of a Dispatcher

A running dispatcher waits for three things at once: for a command, for the send of its oldest
message to be over, and for a message from the channel. What comes first is done, and the other
waits are dropped, also a send that is under way; the next round begins it anew. A send carries a
copy of the oldest message, and the outbox is only touched once the send is over.

The loop runs over any channel whose sends can be polled and dropped. What it relies on is
`Outlet.CancelSafe`. A message channel promises in its contract that a send which is dropped has
delivered nothing. That a send which fails has delivered nothing either is not part of the contract:
it is assumed here in addition. The in-memory channel keeps both (`Outlet.cancelSafe_ofDuplex`).
-/

namespace TypedGraph

/-- A channel as its sender sees it. -/
structure Outlet (σ : Type) where
  /-- The messages that have been delivered, the oldest first. -/
  delivered : σ → List Message
  /-- Polls the send of a message: what comes of it, and the channel then. The send is under way as
  long as the channel is full. -/
  poll : Message → σ → SendResult × σ
  /-- Drops the send of a message that is under way. -/
  drop : Message → σ → σ

namespace Outlet

/-- A send delivers its message when it is over and not before, so that nothing is delivered by one
that is dropped: this much is the contract of a message channel. The field `closed` goes beyond it,
as the contract does not say that a send which ends with an error has delivered nothing. -/
structure CancelSafe {σ : Type} (o : Outlet σ) : Prop where
  /-- A send that is over has delivered its message. -/
  sent : ∀ {m s s'}, o.poll m s = (.sent, s') → o.delivered s' = o.delivered s ++ [m]
  /-- A send that is under way has delivered nothing. -/
  full : ∀ {m s s'}, o.poll m s = (.full, s') → o.delivered s' = o.delivered s
  /-- A send that fails delivers nothing, which the contract leaves open. -/
  closed : ∀ {m s s'}, o.poll m s = (.closed, s') → o.delivered s' = o.delivered s
  /-- Dropping a send delivers nothing. -/
  drop : ∀ m s, o.delivered (o.drop m s) = o.delivered s

/-- The left end of a duplex channel, together with the messages that the right end no longer has in
its queue. A message is queued at once or not at all, so there is nothing to drop. -/
def ofDuplex : Outlet (Duplex × List Message) where
  delivered s := s.2 ++ s.1.right.inbox
  poll m s := ((s.1.send .left m).1, (s.1.send .left m).2, s.2)
  drop _ s := s

theorem poll_ofDuplex_eq_iff {m : Message} {s s' : Duplex × List Message} {r : SendResult} :
    ofDuplex.poll m s = (r, s') ↔ s.1.send .left m = (r, s'.1) ∧ s'.2 = s.2 := by
  simp only [ofDuplex, Prod.ext_iff, and_assoc]
  rw [eq_comm (a := s.2)]

theorem cancelSafe_ofDuplex : ofDuplex.CancelSafe where
  sent {m s s'} h := by
    obtain ⟨hsend, htaken⟩ := poll_ofDuplex_eq_iff.1 h
    obtain ⟨-, -, hchannel⟩ := Duplex.send_eq_sent_iff.1 hsend
    show s'.2 ++ s'.1.right.inbox = s.2 ++ s.1.right.inbox ++ [m]
    rw [htaken, hchannel, List.append_assoc]
    rfl
  full {m s s'} h := by
    obtain ⟨hsend, htaken⟩ := poll_ofDuplex_eq_iff.1 h
    obtain ⟨-, -, hchannel⟩ := Duplex.send_eq_full_iff.1 hsend
    show s'.2 ++ s'.1.right.inbox = s.2 ++ s.1.right.inbox
    rw [htaken, hchannel]
  closed {m s s'} h := by
    obtain ⟨hsend, htaken⟩ := poll_ofDuplex_eq_iff.1 h
    obtain ⟨-, hchannel⟩ := Duplex.send_eq_closed_iff.1 hsend
    show s'.2 ++ s'.1.right.inbox = s.2 ++ s.1.right.inbox
    rw [htaken, hchannel]
  drop m s := rfl

end Outlet

namespace Dispatcher

/-- A dispatcher in its loop. -/
structure Loop (σ : Type) where
  /-- The dispatcher as it is, or as it was when it stopped. -/
  dispatcher : Dispatcher
  /-- The dispatcher has not stopped. -/
  running : Bool
  /-- The copy that the send under way carries, if there is one. -/
  sending : Option Message
  /-- The channel. -/
  channel : σ
  /-- The waits that have been ended, the oldest first. -/
  resolved : List (Ticket × Resolution)
deriving DecidableEq

namespace Loop

variable {σ : Type}

/-- A dispatcher that has nothing to do, at the start of its loop. -/
def start (capacity : Nat) (channel : σ) : Loop σ := ⟨idle capacity, true, none, channel, []⟩

/-- What can happen in the loop. -/
inductive Event (σ : Type) where
  /-- A command is accepted. -/
  | accept (c : Command)
  /-- The send of the oldest message is polled; the first poll begins it. -/
  | poll
  /-- A message is received. -/
  | receive (m : Message)
  /-- Nothing more is to be received, or nobody can issue commands any more. -/
  | stop
  /-- The channel changes by itself, and nothing is delivered. -/
  | elsewhere (channel : σ)

/-- The loop without the send that was under way, which is dropped. -/
def interrupt (o : Outlet σ) (l : Loop σ) : Loop σ :=
  match l.sending with
  | some m => { l with sending := none, channel := o.drop m l.channel }
  | none => l

/-- Polls the send under way, or begins to send a copy of the oldest message. -/
def poll? (o : Outlet σ) (l : Loop σ) : Option (Loop σ) :=
  (l.sending.or l.dispatcher.outbox.head?).map fun m =>
    match o.poll m l.channel with
    -- whatever is the oldest message now leaves the outbox
    | (.sent, channel) => { l with
      dispatcher := { l.dispatcher with outbox := l.dispatcher.outbox.tail }
      sending := none
      channel }
    | (.full, channel) => { l with sending := some m, channel }
    | (.closed, channel) => { l with
      running := false
      sending := none
      channel
      resolved := l.resolved ++ l.dispatcher.stop }

/-- Lets an event happen if it can. Each event but a poll drops the send under way, unless it
happens elsewhere. -/
def next? (o : Outlet σ) (l : Loop σ) (e : Event σ) : Option (Loop σ) :=
  if l.running then
    match e with
    | .accept c => (l.dispatcher.accept? c).map fun r => { l.interrupt o with
      dispatcher := r.1
      resolved := l.resolved ++ r.2 }
    | .poll => l.poll? o
    | .receive m => some { l.interrupt o with
      dispatcher := (l.dispatcher.receive m).1
      resolved := l.resolved ++ (l.dispatcher.receive m).2 }
    | .stop => some { l.interrupt o with
      running := false
      resolved := l.resolved ++ l.dispatcher.stop }
    | .elsewhere channel =>
      if o.delivered channel = o.delivered l.channel then some { l with channel } else none
  else none

/-- The loop after some events, if they can happen one after the other. -/
def after? (o : Outlet σ) (l : Loop σ) (events : List (Event σ)) : Option (Loop σ) :=
  events.foldlM (next? o) l

end Loop

end Dispatcher

end TypedGraph
