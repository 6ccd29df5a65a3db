import TypedGraph.Sync.Authority
import TypedGraph.Sync.Client

/-!
# Sessions

A client and an authority at the two ends of a channel. The events of both may happen in any order;
a call lets them happen until all is quiet.
-/

namespace TypedGraph

/-- A client connected with an authority. -/
structure Session where
  /-- The client, at the left end. -/
  client : Client
  /-- The channel between them. -/
  channel : Duplex
  /-- The authority, at the right end. -/
  authority : Authority

namespace Session

/-- A new connection. -/
def start (client : Client) (authority : Authority) : Session :=
  ⟨client, .ofCapacity client.config.capacity, authority⟩

/-- What can happen in a session. -/
inductive Event where
  | client (e : Client.Event)
  | authority (e : Authority.Event)
deriving DecidableEq

/-- Lets an event happen if it can. -/
def fire? (e : Event) (s : Session) : Option Session :=
  match e with
  | .client e =>
    (Client.fire? e s.client s.channel).map fun r => { s with client := r.1, channel := r.2 }
  | .authority e =>
    (Authority.fire? e s.authority s.channel).map fun r =>
      { s with authority := r.1, channel := r.2 }

theorem fire?_of_client {s : Session} {e : Client.Event} {c : Client} {channel : Duplex}
    (h : s.client.Step s.channel e c channel) :
    fire? (.client e) s = some { s with client := c, channel := channel } := by
  rw [fire?, h.fire?_eq, Option.map_some]

theorem fire?_of_authority {s : Session} {e : Authority.Event} {a : Authority} {channel : Duplex}
    (h : s.authority.Step s.channel e a channel) :
    fire? (.authority e) s = some { s with authority := a, channel := channel } := by
  rw [fire?, h.fire?_eq, Option.map_some]

/-- What moves a session: a caller, the time, or an event. -/
inductive Move where
  /-- A request starts. -/
  | request (r : Request)
  /-- A request is given up. -/
  | cancel (ticket : Ticket)
  /-- Time passes. -/
  | elapse (ms : Nat)
  /-- The client is dropped. -/
  | release
  /-- An event happens. -/
  | event (e : Event)
deriving DecidableEq

/-- Makes a move if it is possible. -/
def move? (s : Session) : Move → Option Session
  | .request r => some { s with client := s.client.request r }
  | .cancel ticket => some { s with client := s.client.cancel ticket }
  | .elapse ms => some { s with client := s.client.elapse ms }
  | .release => some { s with client := s.client.release }
  | .event e => fire? e s

/-- Makes moves one after the other. -/
def moves? (s : Session) (l : List Move) : Option Session := l.foldlM move? s

/-- The events in the order in which they are tried. -/
def events : List Event := Client.events.map .client ++ Authority.events.map .authority

/-- A bound for the events that can still happen. -/
def weight (s : Session) : Nat := s.client.weight + s.channel.weight + s.authority.weight

/-- Every event lowers the weight of the session. -/
theorem weight_fire? {e : Event} {s s' : Session} (h : fire? e s = some s') :
    s'.weight < s.weight := by
  cases e with
  | client e =>
    obtain ⟨⟨c, ch⟩, hr, rfl⟩ := Option.map_eq_some_iff.1 h
    have := (Client.step_of_fire? hr).weight_lt
    simp only [weight]
    omega
  | authority e =>
    obtain ⟨⟨a, ch⟩, hr, rfl⟩ := Option.map_eq_some_iff.1 h
    have := (Authority.step_of_fire? hr).weight_lt
    simp only [weight]
    omega

/-- The first event that can happen. -/
def step? (s : Session) : Option Session := events.findSome? fun e => fire? e s

theorem weight_step? (s s' : Session) (h : step? s = some s') : s'.weight < s.weight := by
  obtain ⟨_, e, _, _, he, _⟩ := List.findSome?_eq_some_iff.1 h
  exact weight_fire? he

/-- Lets events happen until none can. -/
def settle (s : Session) : Session := untilQuiet step? weight weight_step? s

/-- Makes a request and waits for its outcome. -/
def call (s : Session) (r : Request) : Option Outcome × Session :=
  let ticket := s.client.issued
  -- everything happens that can happen without the caller and the clock
  let s := { s with client := s.client.request r }.settle
  let (resolved, client) := s.client.takeResolved
  (resolved.lookup ticket, { s with client })

/-- Drops the client and waits for the authority to end. -/
def close (s : Session) : Session := { s with client := s.client.release }.settle

/-- Ends the connection and begins a new one with the same model. -/
def reconnect (s : Session) : Session :=
  let ended := s.close
  start (.start ended.client.schema ended.client.config)
    (.start ended.authority.handler ended.authority.self ended.authority.model)

end Session

end TypedGraph
