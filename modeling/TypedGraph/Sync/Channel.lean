import TypedGraph.Sync.Message

/-!
# Channels

A duplex channel with two ends. Each end has a bounded queue of messages that it has yet to receive.
An end that is dropped loses its queue; what it has sent stays readable at the other end.

## Main results

* `Duplex.send_eq_sent_iff`, `Duplex.send_eq_full_iff` and `Duplex.send_eq_closed_iff`: what comes
  of sending a message;
* `Duplex.take?_eq_some_iff` and `Duplex.receive_eq_closed_iff`: what there is to receive.
-/

namespace TypedGraph

/-- The two ends of a channel. -/
inductive Side where
  | left
  | right
deriving DecidableEq

/-- The other end. -/
def Side.other : Side → Side
  | left => right
  | right => left

/-- One end of a channel. -/
structure Endpoint where
  /-- The end has not been dropped. -/
  present : Bool
  /-- The messages that it has yet to receive, the oldest first. -/
  inbox : List Message
deriving DecidableEq

namespace Endpoint

/-- An end in use that has nothing to receive. -/
def fresh : Endpoint := ⟨true, []⟩

/-- A dropped end. -/
def gone : Endpoint := ⟨false, []⟩

end Endpoint

/-- A duplex channel. -/
structure Duplex where
  /-- The number of messages that can be queued in each direction. -/
  capacity : Nat
  /-- The left end. -/
  left : Endpoint
  /-- The right end. -/
  right : Endpoint
deriving DecidableEq

/-- What comes of sending a message. -/
inductive SendResult where
  /-- The message is queued at the other end. -/
  | sent
  /-- The queue is full. -/
  | full
  /-- The other end is gone. -/
  | closed
deriving DecidableEq

/-- What there is to receive. -/
inductive ReceiveResult where
  /-- The oldest message. -/
  | message (m : Message)
  /-- Nothing yet. -/
  | waiting
  /-- Nothing ever, as the other end is gone. -/
  | closed
deriving DecidableEq

namespace Duplex

/-- A channel of a capacity, which is at least one. -/
def ofCapacity (capacity : Nat) : Duplex := ⟨max 1 capacity, .fresh, .fresh⟩

/-- An end of the channel. -/
def endpoint (c : Duplex) : Side → Endpoint
  | .left => c.left
  | .right => c.right

/-- Replaces an end of the channel. -/
def setEndpoint (c : Duplex) (side : Side) (e : Endpoint) : Duplex :=
  match side with
  | .left => { c with left := e }
  | .right => { c with right := e }

/-- The other end is gone. -/
def isClosed (c : Duplex) (side : Side) : Bool := !(c.endpoint side.other).present

/-- Sends a message from one end, if the other end has a place for it. -/
def send (c : Duplex) (side : Side) (m : Message) : SendResult × Duplex :=
  let peer := c.endpoint side.other
  if !peer.present then (.closed, c)
  else if peer.inbox.length < c.capacity then
    (.sent, c.setEndpoint side.other { peer with inbox := peer.inbox ++ [m] })
  else (.full, c)

/-- Takes the oldest message that an end has yet to receive. -/
def take? (c : Duplex) (side : Side) : Option (Message × Duplex) :=
  match (c.endpoint side).inbox with
  | [] => none
  | m :: rest => some (m, c.setEndpoint side { c.endpoint side with inbox := rest })

/-- Receives at one end. -/
def receive (c : Duplex) (side : Side) : ReceiveResult × Duplex :=
  match c.take? side with
  | some (m, c) => (.message m, c)
  | none => (if c.isClosed side then .closed else .waiting, c)

/-- Drops an end. -/
def drop (c : Duplex) (side : Side) : Duplex := c.setEndpoint side .gone

/-- A bound for what the queued messages can still cause, on the way to the right and back. -/
def weight (c : Duplex) : Nat := 4 * c.right.inbox.length + 2 * c.left.inbox.length

/-! ## What Sending and Receiving Do -/

variable {c c' : Duplex} {side : Side} {m : Message}

/-- A message that is sent is queued at the other end, which is there and has a place for it. -/
theorem send_eq_sent_iff : c.send side m = (.sent, c') ↔
    (c.endpoint side.other).present ∧ (c.endpoint side.other).inbox.length < c.capacity ∧
      c' = c.setEndpoint side.other { c.endpoint side.other with
        inbox := (c.endpoint side.other).inbox ++ [m] } := by
  simp only [send]
  constructor
  · intro h
    split at h
    · cases h
    · next hpresent =>
      split at h
      · next hroom => exact ⟨by simpa using hpresent, hroom, (congrArg Prod.snd h).symm⟩
      · cases h
  · rintro ⟨hpresent, hroom, rfl⟩
    simp [hpresent, hroom]

/-- A message cannot be sent if the other end is gone. -/
theorem send_eq_closed_iff : c.send side m = (.closed, c') ↔
    (c.endpoint side.other).present = false ∧ c' = c := by
  simp only [send]
  constructor
  · intro h
    split at h
    · next hgone => exact ⟨by simpa using hgone, (congrArg Prod.snd h).symm⟩
    · split at h <;> cases h
  · rintro ⟨hgone, rfl⟩
    simp [hgone]

/-- A message does not fit if the other end is there and its queue is full. -/
theorem send_eq_full_iff : c.send side m = (.full, c') ↔
    (c.endpoint side.other).present ∧ ¬ (c.endpoint side.other).inbox.length < c.capacity ∧
      c' = c := by
  simp only [send]
  constructor
  · intro h
    split at h
    · cases h
    · next hpresent =>
      split at h
      · cases h
      · next hfull => exact ⟨by simpa using hpresent, hfull, (congrArg Prod.snd h).symm⟩
  · rintro ⟨hpresent, hfull, rfl⟩
    simp [hpresent, hfull]

/-- A message that is taken is the oldest one in the queue. -/
theorem take?_eq_some_iff : c.take? side = some (m, c') ↔ ∃ rest,
    (c.endpoint side).inbox = m :: rest ∧
      c' = c.setEndpoint side { c.endpoint side with inbox := rest } := by
  unfold take?
  cases (c.endpoint side).inbox with
  | nil => simp
  | cons m' rest => simp [and_assoc, eq_comm]

/-- Nothing is ever received if the queue is empty and the other end is gone. -/
theorem receive_eq_closed_iff : (c.receive side).1 = .closed ↔
    (c.endpoint side).inbox = [] ∧ (c.endpoint side.other).present = false := by
  unfold receive take?
  cases (c.endpoint side).inbox with
  | nil => simp [isClosed]
  | cons m rest => simp

end Duplex

end TypedGraph
