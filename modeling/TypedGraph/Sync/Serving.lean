import TypedGraph.Sync.Authority

/-!
# Serving Remotes

An authority with a remote at the other end of its channel. The remote sends and receives what and
when it likes, and may leave at any time. What has happened is recorded beside: what the remote has
sent and received, the turns of the messages that the authority has handled, and the replies that it
has sent. Nothing depends on the record.
-/

namespace TypedGraph

/-- A message that an authority has handled. -/
structure Turn where
  /-- The model before the message. -/
  before : DataModel
  /-- The message. -/
  message : Message
  /-- The reply, if there is one. -/
  reply : Option Message
  /-- The model after the message. -/
  after : DataModel
deriving DecidableEq

/-- An authority that serves a remote, with a record. -/
structure Serving where
  /-- The authority, at the right end. -/
  authority : Authority
  /-- The channel to the remote. -/
  channel : Duplex
  /-- The messages that the remote has sent, the oldest first. -/
  sent : List Message
  /-- The messages that the authority has handled, the oldest first. -/
  turns : List Turn
  /-- The replies that the authority has sent, the oldest first. -/
  delivered : List Message
  /-- The replies that the remote has received, the oldest first. -/
  taken : List Message

namespace Serving

/-- An authority to which no message has been sent. -/
def start (handler : ActionHandler) (self : RefToken) (model : DataModel) (capacity : Nat) :
    Serving where
  authority := .start handler self model
  channel := .ofCapacity capacity
  sent := []
  turns := []
  delivered := []
  taken := []

/-- What can happen while an authority serves a remote. -/
inductive Event where
  /-- The remote sends a message. -/
  | send (m : Message)
  /-- The remote receives a reply. -/
  | take
  /-- The remote leaves. -/
  | close
  /-- Something happens to the authority. -/
  | authority (e : Authority.Event)
deriving DecidableEq

/-- The messages that the authority has handled. -/
def handled (s : Serving) : List Message := s.turns.map Turn.message

/-- The turn of a message that the authority handles next. -/
def turn (s : Serving) (m : Message) : Turn :=
  ⟨s.authority.model, m, (s.authority.take m).reply, (s.authority.take m).model⟩

/-- Extends the record by what an event of the authority is about to do. -/
def record (s : Serving) : Authority.Event → Serving
  | .reply =>
    if s.channel.left.present then { s with delivered := s.delivered ++ s.authority.reply.toList }
    else s
  | .receive =>
    match s.channel.right.inbox with
    | m :: _ => { s with turns := s.turns ++ [s.turn m] }
    | [] => s
  | .stop => s

/-- Lets an event happen if it can. -/
def next? (s : Serving) : Event → Option Serving
  | .send m =>
    -- a remote that has left sends nothing
    if s.channel.left.present then
      match s.channel.send .left m with
      | (.sent, channel) => some { s with channel, sent := s.sent ++ [m] }
      | _ => none
    else none
  | .take => (s.channel.take? .left).map fun r =>
    { s with channel := r.2, taken := s.taken ++ [r.1] }
  | .close => some { s with channel := s.channel.drop .left }
  | .authority e =>
    (Authority.fire? e s.authority s.channel).map fun r =>
      { s.record e with authority := r.1, channel := r.2 }

/-- Lets events happen one after the other if they can. -/
def after? (s : Serving) (events : List Event) : Option Serving := events.foldlM next? s

end Serving

end TypedGraph
