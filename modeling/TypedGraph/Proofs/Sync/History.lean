import TypedGraph.Sync.Session

/-!
# Histories of Sessions

A session with a record of what has happened in it: which commands the dispatcher has accepted,
which messages the authority has handled, and which replies the dispatcher has received. Nothing in
the session depends on the record.

## Main definitions

* `Acceptance`: a command with the requests that waited for snapshots when it was accepted;
* `Handling`: a message with the authority that handled it;
* `Session.History`: a session and its record, which moves extend;
* `Session.History.effect?`: what the authority made of a request.

## Main results

* `Session.History.after?_induction`: what every move keeps holds after all moves.
-/

namespace TypedGraph

/-- A command that the dispatcher has accepted. -/
structure Acceptance where
  command : Command
  /-- The requests for snapshots that were accepted earlier and not answered yet, the oldest
  first. -/
  ahead : List Ticket

/-- A message that the authority has handled. -/
structure Handling where
  message : Message
  /-- The authority when it took the message. -/
  authority : Authority

namespace Handling

/-- The authority right after the message. -/
def after (s : Handling) : Authority := s.authority.take s.message

/-- The flag that the action handler has returned; nothing else is refused. -/
def refused (s : Handling) : Bool :=
  match s.message with
  | .doAction request => (s.authority.handler request s.authority.self s.authority.model).1
  | _ => false

end Handling

namespace Session

/-- A session with a record of what has happened in it. -/
structure History where
  session : Session
  /-- The commands that the dispatcher has accepted, the oldest first. -/
  accepted : List Acceptance
  /-- The messages that the authority has handled, the oldest first. -/
  served : List Handling
  /-- The messages that the dispatcher has received, the oldest first. -/
  received : List Message

namespace History

/-- The record of a session in which nothing has happened. -/
def start (s : Session) : History := ⟨s, [], [], []⟩

/-- The record of a new connection between a client and an authority. -/
def connect (schema : Schema) (config : SyncConfig) (handler : ActionHandler) (self : RefToken)
    (model : DataModel) : History :=
  start (Session.start (Client.start schema config) (Authority.start handler self model))

/-- The requests for snapshots that have been accepted and not answered. The authority answers every
request, in order, so that each message received stands for the oldest request not answered
before. -/
def unanswered (h : History) : List Ticket :=
  ((h.accepted.drop h.received.length).filter (·.command.slot = .snapshot)).map (·.command.ticket)

/-- Extends the record by what a move is about to do. -/
def record (h : History) : Move → History
  | .event (.client .accept) =>
    match h.session.client.queue with
    | command :: _ => { h with accepted := h.accepted ++ [⟨command, h.unanswered⟩] }
    | [] => h
  | .event (.client .receive) =>
    match h.session.channel.left.inbox with
    | m :: _ => { h with received := h.received ++ [m] }
    | [] => h
  | .event (.authority .receive) =>
    match h.session.channel.right.inbox with
    | m :: _ => { h with served := h.served ++ [⟨m, h.session.authority⟩] }
    | [] => h
  | _ => h

/-- The history after one more move, if it is possible. -/
def next? (h : History) (m : Move) : Option History :=
  (h.session.move? m).map fun s => { h.record m with session := s }

/-- The history after some moves, if they are possible one after the other. -/
def after? (h : History) (moves : List Move) : Option History := moves.foldlM next? h

/-- What holds at first and is kept by every move holds after all moves. -/
theorem after?_induction {P : History → Prop} {h h' : History} {moves : List Move}
    (hafter : h.after? moves = some h') (hstart : P h)
    (hnext : ∀ {h h' : History} {m : Move}, P h → h.next? m = some h' → P h') : P h' :=
  foldlM_induction (fun _ _ _ hP hm => hnext hP hm) hafter hstart

end History

end Session

end TypedGraph
