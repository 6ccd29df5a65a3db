import TypedGraph.Proofs.Sync.Steps
import TypedGraph.Sync.Dispatcher.History

/-!
# What an Event Does to a Dispatcher

Each event is one of five steps. Invariants of dispatchers are shown for these.

## Main definitions

* `Dispatcher.Step`: what an event does to a dispatcher and its record;
* `Dispatcher.Event.command?`: the command that an event accepts.

## Main results

* `Dispatcher.step_of_next?` and `Dispatcher.Step.next?_eq`: every event is one of the steps, and
  every step can be taken;
* `Dispatcher.accepted_of_step`: the accepted commands are those of the events.
-/

namespace TypedGraph.Dispatcher

/-! ## Parts of a Dispatcher -/

theorem waitingIn_setSlot (d : Dispatcher) (slot slot' : Slot) (t : Option Ticket) :
    (d.setSlot slot t).waitingIn slot' = if slot = slot' then t else d.waitingIn slot' := by
  cases slot <;> cases slot' <;> rfl

theorem waitingIn_accepting (d : Dispatcher) (c : Command) (slot : Slot) :
    (d.accepting c).waitingIn slot = if c.slot = slot then some c.ticket else d.waitingIn slot := by
  rw [← waitingIn_setSlot]
  cases slot <;> rfl

theorem capacity_setSlot (d : Dispatcher) (slot : Slot) (t : Option Ticket) :
    (d.setSlot slot t).capacity = d.capacity := by
  cases slot <;> rfl

theorem capacity_accepting (d : Dispatcher) (c : Command) :
    (d.accepting c).capacity = d.capacity :=
  d.capacity_setSlot c.slot (some c.ticket)

theorem capacity_receive (d : Dispatcher) (m : Message) :
    (d.receive m).1.capacity = d.capacity := by
  unfold receive
  split
  · rfl
  · exact d.capacity_setSlot _ _

/-- A reply empties its slot. -/
theorem receive_of_reply (d : Dispatcher) {m : Message} {reply : Reply}
    (hm : Reply.ofMessage? m = some reply) :
    d.receive m = (d.setSlot reply.slot none,
      (d.waitingIn reply.slot).toList.map (·, .answered reply)) := by
  simp only [receive, hm]

/-- What is no reply changes nothing. -/
theorem receive_of_ignored (d : Dispatcher) {m : Message} (hm : Reply.ofMessage? m = none) :
    d.receive m = (d, []) := by
  simp only [receive, hm]

/-! ## Events -/

/-- The command that an event accepts. -/
def Event.command? : Event → Option Command
  | .accept c => some c
  | _ => none

/-- What an event does to a dispatcher and its record. -/
inductive Step (h : History) : Event → History → Prop where
  /-- A command is accepted, and the request that waited in its slot is superseded. -/
  | accept {d : Dispatcher} {c : Command} (hd : h.dispatcher = some d) (hroom : d.hasRoom) :
    Step h (.accept c) { h with
      dispatcher := some (d.accepting c)
      accepted := h.accepted ++ [c]
      resolved := h.resolved ++ (d.waitingIn c.slot).toList.map (·, .superseded) }
  /-- The oldest message of the outbox is sent. -/
  | send {d : Dispatcher} {m : Message} {rest : List Message} (hd : h.dispatcher = some d)
    (ho : d.outbox = m :: rest) :
    Step h .send { h with
      dispatcher := some { d with outbox := rest }
      sent := h.sent ++ [m] }
  /-- A reply is received; it goes to the request in its slot, if there is one. -/
  | reply {d : Dispatcher} {m : Message} {reply : Reply} (hd : h.dispatcher = some d)
    (hm : Reply.ofMessage? m = some reply) :
    Step h (.receive m) { h with
      dispatcher := some (d.setSlot reply.slot none)
      resolved := h.resolved ++ (d.waitingIn reply.slot).toList.map (·, .answered reply) }
  /-- A message is received that is no reply. -/
  | ignore {d : Dispatcher} {m : Message} (hd : h.dispatcher = some d)
    (hm : Reply.ofMessage? m = none) : Step h (.receive m) h
  /-- The dispatcher stops. -/
  | stop {d : Dispatcher} (hd : h.dispatcher = some d) :
    Step h .stop { h with
      dispatcher := none
      resolved := h.resolved ++ d.stop }

variable {h h' : History} {e : Event}

/-- Every event is one of the steps. -/
theorem step_of_next? (hnext : h.next? e = some h') : Step h e h' := by
  obtain ⟨d, hd, hevent⟩ := Option.bind_eq_some_iff.1 hnext
  cases e with
  | accept c =>
    obtain ⟨⟨d', l⟩, haccept, hevent⟩ := Option.bind_eq_some_iff.1 hevent
    cases hevent
    obtain ⟨hroom, rfl, rfl⟩ := accept?_eq_some_iff.1 haccept
    exact .accept hd hroom
  | send =>
    obtain ⟨⟨m, d'⟩, hsend, hevent⟩ := Option.bind_eq_some_iff.1 hevent
    cases hevent
    obtain ⟨rest, ho, rfl⟩ := next?_eq_some_iff.1 hsend
    exact .send hd ho
  | receive m =>
    obtain rfl : { h with
        dispatcher := some (d.receive m).1
        resolved := h.resolved ++ (d.receive m).2 } = h' := Option.some.inj hevent
    cases hm : Reply.ofMessage? m with
    | none =>
      have heq : { h with
          dispatcher := some (d.receive m).1
          resolved := h.resolved ++ (d.receive m).2 } = h := by
        rw [d.receive_of_ignored hm, List.append_nil, ← hd]
      rw [heq]
      exact .ignore hd hm
    | some reply =>
      rw [d.receive_of_reply hm]
      exact .reply hd hm
  | stop =>
    cases hevent
    exact .stop hd

theorem next?_receive {d : Dispatcher} (hd : h.dispatcher = some d) (m : Message) :
    h.next? (.receive m) = some { h with
      dispatcher := some (d.receive m).1
      resolved := h.resolved ++ (d.receive m).2 } := by
  rw [History.next?, hd]
  rfl

/-- Every step can be taken. -/
theorem Step.next?_eq (hstep : Step h e h') : h.next? e = some h' := by
  cases hstep with
  | @accept d c hd hroom =>
    have haccept : d.accept? c = some (_, _) := accept?_eq_some_iff.2 ⟨hroom, rfl, rfl⟩
    simp only [History.next?, hd, haccept, Option.bind_eq_bind, Option.bind_some]
    rfl
  | @send d m rest hd ho =>
    have hsend : d.next? = some (m, _) := next?_eq_some_iff.2 ⟨rest, ho, rfl⟩
    simp only [History.next?, hd, hsend, Option.bind_eq_bind, Option.bind_some]
    rfl
  | @reply d m reply hd hm => rw [next?_receive hd, d.receive_of_reply hm]
  | @ignore d m hd hm => rw [next?_receive hd, d.receive_of_ignored hm, List.append_nil, ← hd]
  | stop hd =>
    rw [History.next?, hd]
    rfl

theorem after?_singleton (hnext : h.next? e = some h') : h.after? [e] = some h' := by
  rw [History.after?, List.foldlM_cons, hnext]
  rfl

theorem accepted_of_step (hstep : Step h e h') : h'.accepted = h.accepted ++ e.command?.toList := by
  cases hstep with
  | accept => rfl
  | _ => exact (List.append_nil _).symm

end TypedGraph.Dispatcher
