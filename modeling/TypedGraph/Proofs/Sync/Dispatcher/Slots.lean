import TypedGraph.Proofs.Sync.Dispatcher.Steps
import Mathlib.Data.List.Basic
import Mathlib.Data.List.Induction
import Mathlib.Data.List.Nodup

/-!
# The Slots of a Dispatcher

Every request that a dispatcher accepts waits in the slot of its kind of reply until the first event
that ends waits for this kind: a newer request, a reply, or the end of the dispatcher. Nothing else
touches it, and no wait is ended twice.

## Main definitions

* `Dispatcher.Event.ending?`: how an event ends the wait for a kind of reply;
* `Dispatcher.History.held`: the requests that wait in the slots;
* `Dispatcher.History.Settled`: which requests wait and which have been resolved.

## Main results

* `Dispatcher.settled_of_after?`: what waits and what is resolved after any events;
* `Dispatcher.resolved_iff_of_after?`: each accepted request is resolved at most once, by the first
  event that ends waits for its kind of reply.
-/

namespace TypedGraph.Dispatcher

namespace Event

/-- The request that an event lets wait for a kind of reply. -/
def opening? (slot : Slot) : Event → Option Ticket
  | .accept c => if c.slot = slot then some c.ticket else none
  | _ => none

/-- How an event ends the wait for a kind of reply, if it does. -/
def ending? (slot : Slot) : Event → Option Resolution
  | .accept c => if c.slot = slot then some .superseded else none
  | .send => none
  | .receive m =>
    (Reply.ofMessage? m).bind fun reply =>
      if reply.slot = slot then some (.answered reply) else none
  | .stop => some .closed

end Event

variable {h h' : History} {e : Event}

namespace History

/-- The request that waits for a kind of reply; there is none once the dispatcher has stopped. -/
def waitingIn (h : History) (slot : Slot) : Option Ticket := h.dispatcher.bind (·.waitingIn slot)

/-- The requests that wait in the slots. -/
def held (h : History) : List Ticket :=
  (h.waitingIn .snapshot).toList ++ (h.waitingIn .selfRef).toList

/-- The waits of a slot that an event ends. -/
def endedBy (h : History) (e : Event) (slot : Slot) : List (Ticket × Resolution) :=
  ((h.waitingIn slot).bind fun t => (e.ending? slot).map (t, ·)).toList

/-- Which requests wait and which have been resolved after some events. -/
structure Settled (h : History) (events : List Event) : Prop where
  /-- The accepted commands are those of the events. -/
  accepted : h.accepted = events.filterMap Event.command?
  /-- Every request that has been accepted waits or has been resolved, and is counted once. -/
  once : (h.resolved.map Prod.fst ++ h.held).Perm (h.accepted.map (·.ticket))
  /-- A request waits as long as no event ends the wait for its kind of reply. -/
  waits : ∀ before c after, events = before ++ .accept c :: after →
    after.findSome? (Event.ending? c.slot) = none → h.waitingIn c.slot = some c.ticket
  /-- A request is resolved by the first event that ends the wait for its kind of reply. -/
  resolves : ∀ before c after r, events = before ++ .accept c :: after →
    after.findSome? (Event.ending? c.slot) = some r → (c.ticket, r) ∈ h.resolved

end History

theorem waitingIn_of_dispatcher {d : Dispatcher} (hd : h.dispatcher = some d) (slot : Slot) :
    h.waitingIn slot = d.waitingIn slot := by
  rw [History.waitingIn, hd, Option.bind_some]

/-- The request that an event puts into a slot waits there, and otherwise the one before unless its
wait ends. -/
theorem waitingIn_of_step (hstep : Step h e h') (slot : Slot) :
    h'.waitingIn slot =
      (e.opening? slot).or (if e.ending? slot = none then h.waitingIn slot else none) := by
  cases hstep with
  | @accept d c hd hroom =>
    rw [waitingIn_of_dispatcher hd, waitingIn_of_dispatcher rfl, waitingIn_accepting]
    by_cases hslot : c.slot = slot <;> simp [Event.opening?, Event.ending?, hslot]
  | @send d m rest hd ho =>
    rw [waitingIn_of_dispatcher hd, waitingIn_of_dispatcher rfl]
    cases slot <;> rfl
  | @reply d m reply hd hm =>
    rw [waitingIn_of_dispatcher hd, waitingIn_of_dispatcher rfl, waitingIn_setSlot]
    by_cases hslot : reply.slot = slot <;> simp [Event.opening?, Event.ending?, hm, hslot]
  | ignore hd hm => simp [Event.opening?, Event.ending?, hm]
  | stop => rfl

/-- An event resolves the requests in the slots whose waits it ends. -/
theorem resolved_of_step (hstep : Step h e h') :
    h'.resolved = h.resolved ++ (h.endedBy e .snapshot ++ h.endedBy e .selfRef) := by
  cases hstep with
  | @accept d c hd hroom =>
    simp only [History.endedBy, waitingIn_of_dispatcher hd]
    cases hslot : c.slot <;> cases hw : d.waitingIn c.slot <;> simp_all [Event.ending?]
  | send => simp [History.endedBy, Event.ending?]
  | @reply d m reply hd hm =>
    simp only [History.endedBy, waitingIn_of_dispatcher hd]
    cases hslot : reply.slot <;> cases hw : d.waitingIn reply.slot <;> simp_all [Event.ending?]
  | ignore hd hm => simp [History.endedBy, Event.ending?, hm]
  | @stop d hd =>
    simp only [History.endedBy, waitingIn_of_dispatcher hd, stop, List.map_append]
    cases hs : d.snapshot <;> cases hr : d.selfRef <;>
      simp [Event.ending?, Dispatcher.waitingIn, hs, hr]

theorem mem_endedBy {slot : Slot} {t : Ticket} {r : Resolution} (hw : h.waitingIn slot = some t)
    (hr : e.ending? slot = some r) : (t, r) ∈ h.endedBy e slot := by
  simp [History.endedBy, hw, hr]

/-- Whoever gets into a slot ends the wait of the one before. -/
theorem opening?_of_ending? {slot : Slot} (h : e.ending? slot = none) : e.opening? slot = none := by
  cases e with
  | accept c =>
    by_cases hslot : c.slot = slot
    · simp [Event.ending?, hslot] at h
    · simp [Event.opening?, hslot]
  | _ => rfl

/-- The request in a slot stays there or is resolved, and the one accepted gets there. -/
theorem slot_perm_of_step (hstep : Step h e h') (slot : Slot) :
    ((h.endedBy e slot).map Prod.fst ++ (h'.waitingIn slot).toList).Perm
      ((h.waitingIn slot).toList ++ (e.opening? slot).toList) := by
  rw [History.endedBy, waitingIn_of_step hstep]
  cases hending : e.ending? slot with
  | none => simp [opening?_of_ending? hending]
  | some r => cases h.waitingIn slot <;> simp

theorem toList_opening? (e : Event) :
    (e.opening? .snapshot).toList ++ (e.opening? .selfRef).toList =
      e.command?.toList.map (·.ticket) := by
  cases e with
  | accept c => cases hslot : c.slot <;> simp [Event.opening?, Event.command?, hslot]
  | _ => rfl

/-- Every accepted request keeps waiting or is resolved, and none is counted twice. -/
theorem once_of_step (hstep : Step h e h')
    (honce : (h.resolved.map Prod.fst ++ h.held).Perm (h.accepted.map (·.ticket))) :
    (h'.resolved.map Prod.fst ++ h'.held).Perm (h'.accepted.map (·.ticket)) := by
  -- each slot keeps count by itself
  have hsnapshot := slot_perm_of_step hstep .snapshot
  have hself := slot_perm_of_step hstep .selfRef
  rw [resolved_of_step hstep, accepted_of_step hstep, List.map_append, List.map_append,
    List.map_append, ← toList_opening?]
  simp only [List.perm_iff_count, List.count_append, History.held]
    at honce hsnapshot hself ⊢
  intro t
  have := honce t
  have := hsnapshot t
  have := hself t
  omega

/-! ## What Any Events Do -/

private theorem concat_eq_append_cons {α : Type} {l before after : List α} {a b : α}
    (h : l ++ [a] = before ++ b :: after) :
    (after = [] ∧ a = b) ∨ ∃ after', after = after' ++ [a] ∧ l = before ++ b :: after' := by
  rcases List.eq_nil_or_concat' after with rfl | ⟨after', a', rfl⟩
  · exact .inl ⟨rfl, List.singleton_inj.1 (List.append_inj' h rfl).2⟩
  · rw [← List.cons_append, ← List.append_assoc] at h
    obtain ⟨hl, ha⟩ := List.append_inj' h rfl
    exact .inr ⟨after', by rw [List.singleton_inj.1 ha], hl⟩

theorem settled_start (capacity : Nat) : (History.start capacity).Settled [] := by
  refine ⟨rfl, List.Perm.refl _, fun before c after h => ?_, fun before c after r h => ?_⟩ <;>
    simp at h

/-- One more event resolves requests that wait, by the way in which it ends their waits. -/
theorem settled_of_step {events : List Event} (hsettled : h.Settled events)
    (hstep : Step h e h') : h'.Settled (events ++ [e]) := by
  constructor
  · rw [accepted_of_step hstep, hsettled.accepted, List.filterMap_append]
    cases e <;> rfl
  · exact once_of_step hstep hsettled.once
  · intro before c after hevents hnone
    rw [waitingIn_of_step hstep]
    rcases concat_eq_append_cons hevents with ⟨-, rfl⟩ | ⟨after, rfl, hinit⟩
    · simp [Event.opening?]
    · rw [List.findSome?_append, Option.or_eq_none_iff, List.findSome?_singleton] at hnone
      rw [opening?_of_ending? hnone.2, if_pos hnone.2, Option.none_or]
      exact hsettled.waits before c after hinit hnone.1
  · intro before c after r hevents hsome
    rw [resolved_of_step hstep]
    rcases concat_eq_append_cons hevents with ⟨rfl, -⟩ | ⟨after, rfl, hinit⟩
    · cases hsome
    · rw [List.findSome?_append] at hsome
      cases hearlier : after.findSome? (Event.ending? c.slot) with
      | some r' =>
        rw [hearlier] at hsome
        cases hsome
        exact List.mem_append_left _ (hsettled.resolves before c after r hinit hearlier)
      | none =>
        -- the request still waits, so that this event resolves it
        rw [hearlier, Option.none_or, List.findSome?_singleton] at hsome
        have hended := mem_endedBy (hsettled.waits before c after hinit hearlier) hsome
        refine List.mem_append_right _ ?_
        cases hslot : c.slot with
        | snapshot => exact List.mem_append_left _ (hslot ▸ hended)
        | selfRef => exact List.mem_append_right _ (hslot ▸ hended)

/-- After any events every accepted request waits or has been resolved by the first event that ends
the wait for its kind of reply. -/
theorem settled_of_after? {capacity : Nat} {events : List Event}
    (hafter : (History.start capacity).after? events = some h) : h.Settled events := by
  induction events using List.reverseRecOn generalizing h with
  | nil =>
    cases hafter
    exact settled_start capacity
  | append_singleton events e ih =>
    rw [History.after?, List.foldlM_append] at hafter
    obtain ⟨h₁, hevents, hlast⟩ := Option.bind_eq_some_iff.1 hafter
    obtain ⟨_, he, hnil⟩ := Option.bind_eq_some_iff.1 hlast
    cases hnil
    exact settled_of_step (ih hevents) (step_of_next? he)

/-- A command that has been accepted has an event that accepts it. -/
theorem exists_accept {events : List Event} (hsettled : h.Settled events) {c : Command}
    (hc : c ∈ h.accepted) : ∃ before after, events = before ++ .accept c :: after := by
  rw [hsettled.accepted] at hc
  obtain ⟨e, he, hec⟩ := List.mem_filterMap.1 hc
  obtain ⟨before, after, rfl⟩ := List.append_of_mem he
  cases e with
  | accept c' =>
    cases hec
    exact ⟨before, after, rfl⟩
  | _ => cases hec

/-- A request in the slots of a dispatcher whose requests have different numbers is in one of
them. -/
theorem waitingIn_inj (hheld : h.held.Nodup) {slot slot' : Slot} {t : Ticket}
    (hw : h.waitingIn slot = some t) (hw' : h.waitingIn slot' = some t) : slot = slot' := by
  cases slot <;> cases slot' <;> simp_all [History.held]

theorem mem_held {slot : Slot} {t : Ticket} (hw : h.waitingIn slot = some t) : t ∈ h.held := by
  cases slot <;> simp [History.held, hw]

/-- A reply that no request waits for, or a message that is no reply, changes nothing. -/
theorem next?_receive_unsolicited {m : Message} (hrunning : h.dispatcher.isSome)
    (hm : ∀ reply, Reply.ofMessage? m = some reply → h.waitingIn reply.slot = none) :
    h.next? (.receive m) = some h := by
  obtain ⟨d, hd⟩ := Option.isSome_iff_exists.1 hrunning
  have hreceive : d.receive m = (d, []) := by
    unfold receive
    split
    · rfl
    · next reply hreply =>
      have hnone := hm reply hreply
      rw [waitingIn_of_dispatcher hd] at hnone
      have hsame : d.setSlot reply.slot none = d := by
        rw [← hnone]
        cases reply.slot <;> rfl
      rw [hsame, hnone]
      rfl
  rw [next?_receive hd, hreceive, List.append_nil, ← hd]

namespace History.Settled

variable {events : List Event} {c : Command} {before after : List Event}

/-- A request that waits has not been resolved. -/
theorem not_mem_resolved (hsettled : h.Settled events)
    (hdistinct : (h.accepted.map (·.ticket)).Nodup) {slot : Slot} {t : Ticket}
    (hw : h.waitingIn slot = some t) (r : Resolution) : (t, r) ∉ h.resolved := by
  intro hmem
  have hnodup := hsettled.once.nodup_iff.2 hdistinct
  exact (List.nodup_append.1 hnodup).2.2 t (List.mem_map_of_mem hmem) t (mem_held hw) rfl

/-- A request is resolved by the first event that ends the wait for its kind of reply, and waits if
there is none. -/
theorem mem_resolved_iff (hsettled : h.Settled events)
    (hdistinct : (h.accepted.map (·.ticket)).Nodup)
    (hevents : events = before ++ .accept c :: after)
    {r : Resolution} :
    (c.ticket, r) ∈ h.resolved ↔ after.findSome? (Event.ending? c.slot) = some r := by
  refine ⟨fun hmem => ?_, hsettled.resolves before c after r hevents⟩
  cases hfirst : after.findSome? (Event.ending? c.slot) with
  | none =>
    have hw := hsettled.waits before c after hevents hfirst
    exact absurd hmem (hsettled.not_mem_resolved hdistinct hw r)
  | some r' =>
    -- both resolutions are those of the only entry for the request
    have hmem' := hsettled.resolves before c after r' hevents hfirst
    have hnodup := (List.nodup_append.1 (hsettled.once.nodup_iff.2 hdistinct)).1
    have heq := List.inj_on_of_nodup_map hnodup hmem' hmem rfl
    rw [Option.some.injEq]
    exact congrArg Prod.snd heq

/-- The requests in the slots are those that have been accepted and not resolved. -/
theorem waitingIn_iff (hsettled : h.Settled events)
    (hdistinct : (h.accepted.map (·.ticket)).Nodup) {slot : Slot} {t : Ticket} :
    h.waitingIn slot = some t ↔
      ∃ c ∈ h.accepted, c.slot = slot ∧ c.ticket = t ∧ ∀ r, (t, r) ∉ h.resolved := by
  have hnot {c : Command} (hc : c ∈ h.accepted) (hr : ∀ r, (c.ticket, r) ∉ h.resolved) :
      h.waitingIn c.slot = some c.ticket := by
    obtain ⟨before, after, hevents⟩ := exists_accept hsettled hc
    refine hsettled.waits before c after hevents
      (Option.eq_none_iff_forall_ne_some.2 fun r hfirst => ?_)
    exact hr r (hsettled.resolves before c after r hevents hfirst)
  constructor
  · intro hw
    have hr := hsettled.not_mem_resolved hdistinct hw
    have hmem := hsettled.once.subset (List.mem_append_right _ (mem_held hw))
    obtain ⟨c, hc, rfl⟩ := List.mem_map.1 hmem
    have hheld := (List.nodup_append.1 (hsettled.once.nodup_iff.2 hdistinct)).2.1
    exact ⟨c, hc, waitingIn_inj hheld (hnot hc hr) hw, rfl, hr⟩
  · rintro ⟨c, hc, rfl, rfl, hr⟩
    exact hnot hc hr

end History.Settled

/-- Let each accepted request have a number of its own. Whatever happens to a dispatcher, in any
order, a slot holds the request for its kind of reply that has been accepted and not resolved, so
that there is at most one; no request is resolved twice; and a request is resolved by the first
event after its acceptance that ends the wait for its kind of reply, in the way in which this event
does. A message that no request waits for changes nothing at all. -/
theorem resolved_iff_of_after? {capacity : Nat} {events : List Event}
    (hafter : (History.start capacity).after? events = some h)
    (hdistinct : (h.accepted.map (·.ticket)).Nodup) :
    (∀ slot t, h.waitingIn slot = some t ↔
      ∃ c ∈ h.accepted, c.slot = slot ∧ c.ticket = t ∧ ∀ r, (t, r) ∉ h.resolved) ∧
    (h.resolved.map Prod.fst).Nodup ∧
    (∀ before c after, events = before ++ .accept c :: after →
      ∀ r, (c.ticket, r) ∈ h.resolved ↔ after.findSome? (Event.ending? c.slot) = some r) ∧
    (∀ m, h.dispatcher.isSome →
      (∀ reply, Reply.ofMessage? m = some reply → h.waitingIn reply.slot = none) →
        h.next? (.receive m) = some h) := by
  have hsettled := settled_of_after? hafter
  refine ⟨fun slot t => hsettled.waitingIn_iff hdistinct, ?_,
    fun before c after hevents r => hsettled.mem_resolved_iff hdistinct hevents,
    fun m => next?_receive_unsolicited⟩
  exact (List.nodup_append.1 (hsettled.once.nodup_iff.2 hdistinct)).1

/-- A dispatcher gets a reply that nobody waits for, accepts two requests, ignores a request, and
lets a third request supersede the first one; then the other two are answered, another snapshot
finds nobody, and the fourth request is left when the dispatcher stops. -/
def busyEvents : List Event := [
  .receive (.selfRef ⟨"early"⟩),
  .accept ⟨0, .getObservation, .snapshot⟩,
  .accept ⟨1, .getSelf, .selfRef⟩,
  .send,
  .receive .getSelf,
  .accept ⟨2, .getObservation, .snapshot⟩,
  .receive (.selfRef ⟨"me"⟩),
  .send,
  .accept ⟨3, .getSelf, .selfRef⟩,
  .receive (.snapshot ∅ true),
  .receive (.snapshot ∅ false),
  .stop]

/-- What is recorded of the events. -/
def busyHistory : History where
  dispatcher := none
  accepted := [⟨0, .getObservation, .snapshot⟩, ⟨1, .getSelf, .selfRef⟩,
    ⟨2, .getObservation, .snapshot⟩, ⟨3, .getSelf, .selfRef⟩]
  sent := [.getObservation, .getSelf]
  resolved := [(0, .superseded), (1, .answered (.selfRef ⟨"me"⟩)),
    (2, .answered (.snapshot ∅ true)), (3, .closed)]

/-- The four requests are resolved in four different ways, each once. -/
theorem busyHistory_resolved :
    (History.start 2).after? busyEvents = some busyHistory ∧
      (busyHistory.accepted.map (·.ticket)).Nodup ∧
      (busyHistory.resolved.map Prod.fst).Nodup ∧
      ∀ before c after, busyEvents = before ++ .accept c :: after →
        ∀ r, (c.ticket, r) ∈ busyHistory.resolved ↔
          after.findSome? (Event.ending? c.slot) = some r := by
  have hafter : (History.start 2).after? busyEvents = some busyHistory := by decide +kernel
  have hdistinct : (busyHistory.accepted.map (·.ticket)).Nodup := by decide
  obtain ⟨-, honce, hrule, -⟩ := resolved_iff_of_after? hafter hdistinct
  exact ⟨hafter, hdistinct, honce, hrule⟩

end TypedGraph.Dispatcher
