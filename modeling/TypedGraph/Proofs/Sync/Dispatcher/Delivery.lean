import TypedGraph.Proofs.Sync.Dispatcher.Steps
import TypedGraph.Sync.Dispatcher.Loop

/-!
# Delivery of Requests

The loop of a dispatcher begins sends that any other event may cut short. A message is copied into a
send, and it leaves the outbox by itself when the send is over, so two things have to be kept: what
is delivered and the outbox together are what has been accepted, and the copy under way is the
oldest message of the outbox.

## Main definitions

* `Dispatcher.Loop.Step`: what an event does to the loop;
* `Dispatcher.Loop.Conserves`: no request is lost, duplicated or reordered;
* `Dispatcher.Loop.Traces`: the loop looks like a dispatcher that sends each message at once.

## Main results

* `Dispatcher.Loop.delivered_append_outbox`: what has been delivered, followed by the outbox, is
  what has been accepted, and the outbox is never too long;
* `Dispatcher.Loop.exists_traces_of_after?`: sends that are begun, cut short and begun again amount
  to sends at once.
-/

namespace TypedGraph.Dispatcher.Loop

variable {σ : Type} {o : Outlet σ} {l l' : Loop σ} {e : Event σ}

/-- The command that an event accepts. -/
def Event.command? : Event σ → Option Command
  | .accept c => some c
  | _ => none

/-! ## Events -/

/-- What an event does to the loop. -/
inductive Step (o : Outlet σ) (l : Loop σ) : Event σ → Loop σ → Prop where
  /-- A command is accepted, and the request that waited in its slot is superseded. -/
  | accept {c : Command} (hroom : l.dispatcher.hasRoom) :
    Step o l (.accept c) { l.interrupt o with
      dispatcher := l.dispatcher.accepting c
      resolved := l.resolved ++ (l.dispatcher.waitingIn c.slot).toList.map (·, .superseded) }
  /-- The send of a message is over. -/
  | sent {m : Message} {channel : σ} (hm : l.sending.or l.dispatcher.outbox.head? = some m)
    (hpoll : o.poll m l.channel = (.sent, channel)) :
    Step o l .poll { l with
      dispatcher := { l.dispatcher with outbox := l.dispatcher.outbox.tail }
      sending := none
      channel }
  /-- The send of a message is under way. -/
  | full {m : Message} {channel : σ} (hm : l.sending.or l.dispatcher.outbox.head? = some m)
    (hpoll : o.poll m l.channel = (.full, channel)) :
    Step o l .poll { l with sending := some m, channel }
  /-- The send of a message fails, and the dispatcher stops. -/
  | closed {m : Message} {channel : σ} (hm : l.sending.or l.dispatcher.outbox.head? = some m)
    (hpoll : o.poll m l.channel = (.closed, channel)) :
    Step o l .poll { l with
      running := false
      sending := none
      channel
      resolved := l.resolved ++ l.dispatcher.stop }
  /-- A message is received. -/
  | receive (m : Message) :
    Step o l (.receive m) { l.interrupt o with
      dispatcher := (l.dispatcher.receive m).1
      resolved := l.resolved ++ (l.dispatcher.receive m).2 }
  /-- The dispatcher stops. -/
  | stop :
    Step o l .stop { l.interrupt o with
      running := false
      resolved := l.resolved ++ l.dispatcher.stop }
  /-- The channel changes by itself. -/
  | elsewhere {channel : σ} (h : o.delivered channel = o.delivered l.channel) :
    Step o l (.elsewhere channel) { l with channel }

/-- Every event happens while the dispatcher runs, and is one of the steps. -/
theorem step_of_next? (hnext : l.next? o e = some l') : l.running ∧ Step o l e l' := by
  unfold next? at hnext
  split at hnext
  · next hrunning =>
    refine ⟨hrunning, ?_⟩
    cases e with
    | accept c =>
      obtain ⟨⟨d, waits⟩, haccept, rfl⟩ := Option.map_eq_some_iff.1 hnext
      obtain ⟨hroom, rfl, rfl⟩ := accept?_eq_some_iff.1 haccept
      exact .accept hroom
    | poll =>
      obtain ⟨m, hm, hpolled⟩ := Option.map_eq_some_iff.1 hnext
      split at hpolled
      · next hpoll =>
        subst hpolled
        exact .sent hm hpoll
      · next hpoll =>
        subst hpolled
        exact .full hm hpoll
      · next hpoll =>
        subst hpolled
        exact .closed hm hpoll
    | receive m =>
      cases hnext
      exact .receive m
    | stop =>
      cases hnext
      exact .stop
    | elsewhere channel =>
      dsimp only at hnext
      split at hnext
      · next hdelivered =>
        cases hnext
        exact .elsewhere hdelivered
      · cases hnext
  · cases hnext

@[simp]
theorem sending_interrupt (o : Outlet σ) (l : Loop σ) : (l.interrupt o).sending = none := by
  unfold interrupt
  split
  · rfl
  · next h => exact h

@[simp]
theorem running_interrupt (o : Outlet σ) (l : Loop σ) : (l.interrupt o).running = l.running := by
  unfold interrupt
  split <;> rfl

@[simp]
theorem dispatcher_interrupt (o : Outlet σ) (l : Loop σ) :
    (l.interrupt o).dispatcher = l.dispatcher := by
  unfold interrupt
  split <;> rfl

/-- Dropping the send under way delivers nothing. -/
theorem delivered_interrupt (hsafe : o.CancelSafe) (l : Loop σ) :
    o.delivered (l.interrupt o).channel = o.delivered l.channel := by
  unfold interrupt
  split
  · next m _ => exact hsafe.drop m l.channel
  · rfl

/-! ## Nothing Is Lost, Duplicated or Reordered -/

/-- The messages of some commands. -/
def messages (accepted : List Command) : List Message := accepted.map Command.message

/-- What has been delivered before and since, and what waits in the outbox. -/
structure Conserves (o : Outlet σ) (before : List Message) (capacity : Nat)
    (accepted : List Command) (l : Loop σ) : Prop where
  /-- What has been delivered, followed by the outbox, is what has been accepted. -/
  inOrder : o.delivered l.channel ++ l.dispatcher.outbox = before ++ messages accepted
  /-- The outbox is never too long. -/
  bounded : l.dispatcher.outbox.length ≤ capacity
  /-- The bound of the outbox does not change. -/
  places : l.dispatcher.capacity = capacity
  /-- The copy under way is the oldest message of the outbox, so that the message that leaves the
  outbox is the one that has been sent. -/
  copied : ∀ m, l.sending = some m → l.dispatcher.outbox.head? = some m

variable {before : List Message} {capacity : Nat} {accepted : List Command}

/-- The message that is polled is the oldest one of the outbox, whether or not its send is under
way. -/
theorem Conserves.exists_outbox_eq (h : l.Conserves o before capacity accepted) {m : Message}
    (hm : l.sending.or l.dispatcher.outbox.head? = some m) :
    ∃ rest, l.dispatcher.outbox = m :: rest := by
  apply List.head?_eq_some_iff.1
  cases hsending : l.sending with
  | none => rwa [hsending, Option.none_or] at hm
  | some m' =>
    rw [hsending, Option.some_or] at hm
    exact h.copied m (hsending.trans hm)

theorem outbox_receive (d : Dispatcher) (m : Message) : (d.receive m).1.outbox = d.outbox := by
  cases hm : Reply.ofMessage? m with
  | none => rw [d.receive_of_ignored hm]
  | some reply =>
    rw [d.receive_of_reply hm]
    cases reply <;> rfl

/-- Nothing is lost as long as what has been delivered and the outbox stay the same, and what is
copied is the oldest message. -/
theorem Conserves.of_eq (h : l.Conserves o before capacity accepted)
    (hdelivered : o.delivered l'.channel = o.delivered l.channel)
    (houtbox : l'.dispatcher.outbox = l.dispatcher.outbox)
    (hplaces : l'.dispatcher.capacity = l.dispatcher.capacity)
    (hcopied : ∀ m, l'.sending = some m → l'.dispatcher.outbox.head? = some m) :
    l'.Conserves o before capacity accepted where
  inOrder := by rw [hdelivered, houtbox, h.inOrder]
  bounded := by rw [houtbox]; exact h.bounded
  places := hplaces.trans h.places
  copied := hcopied

/-- An accepted command goes last. -/
theorem Conserves.accept (hsafe : o.CancelSafe) (h : l.Conserves o before capacity accepted)
    {c : Command} (hroom : l.dispatcher.hasRoom) {resolved : List (Ticket × Resolution)} :
    Conserves o before capacity (accepted ++ [c])
      { l.interrupt o with dispatcher := l.dispatcher.accepting c, resolved } where
  inOrder := by
    show o.delivered (l.interrupt o).channel ++ (l.dispatcher.outbox ++ [c.message]) = _
    rw [delivered_interrupt hsafe, ← List.append_assoc, h.inOrder, List.append_assoc, messages,
      messages, List.map_append]
    rfl
  bounded := by
    show (l.dispatcher.outbox ++ [c.message]).length ≤ capacity
    rw [List.length_append, List.length_singleton, ← h.places]
    exact of_decide_eq_true hroom
  places := (capacity_accepting _ c).trans h.places
  copied := by simp

/-- The message of a send that is over goes from the outbox to what has been delivered. -/
theorem Conserves.sent (hsafe : o.CancelSafe) (h : l.Conserves o before capacity accepted)
    {m : Message} {channel : σ} (hm : l.sending.or l.dispatcher.outbox.head? = some m)
    (hpoll : o.poll m l.channel = (.sent, channel)) :
    Conserves o before capacity accepted { l with
      dispatcher := { l.dispatcher with outbox := l.dispatcher.outbox.tail }
      sending := none
      channel } where
  inOrder := by
    -- the copy that has been delivered is the message that leaves the outbox
    obtain ⟨rest, hout⟩ := h.exists_outbox_eq hm
    show o.delivered channel ++ l.dispatcher.outbox.tail = _
    rw [hsafe.sent hpoll, ← h.inOrder, hout, List.append_assoc]
    rfl
  bounded := by
    show l.dispatcher.outbox.tail.length ≤ capacity
    rw [List.length_tail]
    exact Nat.le_trans (Nat.sub_le _ _) h.bounded
  places := h.places
  copied := by simp

theorem append_command?_of_quiet {e : Event σ} (h : e.command? = none) (accepted : List Command) :
    accepted ++ e.command?.toList = accepted := by
  rw [h]
  exact List.append_nil _

/-- An event keeps what has been accepted in order, and adds the command that it accepts. -/
theorem Conserves.step (hsafe : o.CancelSafe) (h : l.Conserves o before capacity accepted)
    (hstep : Step o l e l') :
    l'.Conserves o before capacity (accepted ++ e.command?.toList) := by
  cases hstep with
  | accept hroom => exact h.accept hsafe hroom
  | sent hm hpoll =>
    rw [append_command?_of_quiet rfl]
    exact h.sent hsafe hm hpoll
  | full hm hpoll =>
    rw [append_command?_of_quiet rfl]
    refine h.of_eq (hsafe.full hpoll) rfl rfl fun m' hm' => ?_
    obtain ⟨rest, hout⟩ := h.exists_outbox_eq hm
    cases hm'
    exact List.head?_eq_some_iff.2 ⟨rest, hout⟩
  | closed hm hpoll =>
    rw [append_command?_of_quiet rfl]
    exact h.of_eq (hsafe.closed hpoll) rfl rfl (by simp)
  | receive m =>
    rw [append_command?_of_quiet rfl]
    exact h.of_eq (delivered_interrupt hsafe l) (outbox_receive _ m) (capacity_receive _ m)
      (by simp)
  | stop =>
    rw [append_command?_of_quiet rfl]
    exact h.of_eq (delivered_interrupt hsafe l) (by simp) (by simp) (by simp)
  | elsewhere hsame =>
    rw [append_command?_of_quiet rfl]
    exact h.of_eq hsame rfl rfl h.copied

theorem filterMap_concat (events : List (Event σ)) (e : Event σ) :
    (events ++ [e]).filterMap Event.command? =
      events.filterMap Event.command? ++ e.command?.toList := by
  rw [List.filterMap_append]
  cases e <;> rfl

/-- Whatever happens keeps the accepted requests in order. -/
theorem conserves_of_after? {channel : σ} {events : List (Event σ)} (hsafe : o.CancelSafe)
    (hafter : (start capacity channel).after? o events = some l) :
    l.Conserves o (o.delivered channel) capacity (events.filterMap Event.command?) := by
  refine foldlM_concat_induction (P := fun events l =>
    l.Conserves o (o.delivered channel) capacity (events.filterMap Event.command?)) ?_ ?_ hafter
  · exact ⟨rfl, Nat.zero_le _, rfl, by simp [start]⟩
  · intro events l e l' h hnext
    rw [filterMap_concat]
    exact h.step hsafe (step_of_next? hnext).2

/-- Let a channel keep the promise that a send that is dropped has delivered nothing, and let a send
that fails have delivered nothing either, which the contract of a message channel does not promise
(`Outlet.CancelSafe.closed`). Whatever happens to a dispatcher, with sends that are begun, cut short
by any other event and begun again: what has been delivered since the start, followed by the outbox,
is the messages of the accepted commands in their order, also of those that have been superseded;
and the outbox never holds more than its capacity. -/
theorem delivered_append_outbox {channel : σ} {events : List (Event σ)} (hsafe : o.CancelSafe)
    (hafter : (start capacity channel).after? o events = some l) :
    o.delivered l.channel ++ l.dispatcher.outbox =
        o.delivered channel ++ messages (events.filterMap Event.command?) ∧
      l.dispatcher.outbox.length ≤ capacity :=
  have h := conserves_of_after? hsafe hafter
  ⟨h.inOrder, h.bounded⟩

/-- A request for an action. -/
def actionCommand (ticket : Ticket) (op : String) : Command :=
  ⟨ticket, .doAction ⟨op, .null⟩, .snapshot⟩

/-- The channel has a single place. The send of the second request is cut short by a reply, begun
again, cut short by a third request, which supersedes nobody any more, and gets through once the
other end has taken the first message. -/
def rushedEvents : List (Event (Duplex × List Message)) := [
  .accept (actionCommand 0 "a"),
  .poll,
  .accept (actionCommand 1 "b"),
  .poll,
  .receive (.snapshot ∅ false),
  .poll,
  .accept (actionCommand 2 "c"),
  .elsewhere (.ofCapacity 1, [(actionCommand 0 "a").message]),
  .poll]

/-- What the events lead to. -/
def rushedLoop : Loop (Duplex × List Message) where
  dispatcher := ⟨2, some 2, none, [(actionCommand 2 "c").message]⟩
  running := true
  sending := none
  channel := (⟨1, .fresh, ⟨true, [(actionCommand 1 "b").message]⟩⟩,
    [(actionCommand 0 "a").message])
  resolved := [(0, .superseded), (1, .answered (.snapshot ∅ false))]

/-- The second request is delivered once, between the other two. -/
theorem delivered_rushedEvents :
    Outlet.ofDuplex.CancelSafe ∧
      (start 2 (Duplex.ofCapacity 1, [])).after? .ofDuplex rushedEvents = some rushedLoop ∧
      Outlet.ofDuplex.delivered rushedLoop.channel ++ rushedLoop.dispatcher.outbox =
        messages [actionCommand 0 "a", actionCommand 1 "b", actionCommand 2 "c"] ∧
      rushedLoop.dispatcher.outbox.length ≤ 2 := by
  have hafter : (start 2 (Duplex.ofCapacity 1, [])).after? .ofDuplex rushedEvents =
      some rushedLoop := by decide +kernel
  obtain ⟨horder, hlength⟩ := delivered_append_outbox Outlet.cancelSafe_ofDuplex hafter
  exact ⟨Outlet.cancelSafe_ofDuplex, hafter, horder, hlength⟩

/-! ## Sends at Once -/

/-- The loop looks like a dispatcher with this record, which sends each message at once. -/
structure Traces (o : Outlet σ) (before : List Message) (l : Loop σ) (h : History) : Prop where
  /-- The dispatcher is the same, until it stops. -/
  dispatcher : h.dispatcher = if l.running then some l.dispatcher else none
  /-- What has been delivered is what has been sent. -/
  sent : o.delivered l.channel = before ++ h.sent
  /-- The same waits have been ended. -/
  resolved : h.resolved = l.resolved

variable {h : History}

theorem Traces.dispatcher_eq (ht : l.Traces o before h) (hrunning : l.running) :
    h.dispatcher = some l.dispatcher := by
  rw [ht.dispatcher, if_pos hrunning]

/-- An event of the loop is an event of the dispatcher that sends at once, or none that it sees. -/
theorem Traces.step (hsafe : o.CancelSafe) (hc : l.Conserves o before capacity accepted)
    (ht : l.Traces o before h) (hrunning : l.running) (hstep : Step o l e l') :
    ∃ seen h', h.after? seen = some h' ∧ l'.Traces o before h' ∧
      h'.accepted = h.accepted ++ e.command?.toList := by
  have hd := ht.dispatcher_eq hrunning
  -- A select branch that wins drops the front send, so the history takes the same event and nothing
  -- more; a poll that finds the channel full is no event at all.
  cases hstep with
  | @accept c hroom =>
    let h' : History := { h with
      dispatcher := some (l.dispatcher.accepting c)
      accepted := h.accepted ++ [c]
      resolved := h.resolved ++ (l.dispatcher.waitingIn c.slot).toList.map (·, .superseded) }
    refine ⟨[.accept c], h', after?_singleton (Dispatcher.Step.accept hd hroom).next?_eq, ?_, rfl⟩
    constructor
    · show some (l.dispatcher.accepting c) = if (l.interrupt o).running then _ else none
      rw [running_interrupt, if_pos hrunning]
    · exact (delivered_interrupt hsafe l).trans ht.sent
    · exact congrArg (· ++ _) ht.resolved
  | @sent m channel hm hpoll =>
    -- The message being sent is still the front of the queue: it leaves only once its send is done.
    obtain ⟨rest, hout⟩ := hc.exists_outbox_eq hm
    let h' : History := { h with
      dispatcher := some { l.dispatcher with outbox := rest }
      sent := h.sent ++ [m] }
    refine ⟨[.send], h', after?_singleton (Dispatcher.Step.send hd hout).next?_eq, ?_,
      (append_command?_of_quiet rfl _).symm⟩
    constructor
    · show some { l.dispatcher with outbox := rest } = if l.running then _ else none
      rw [if_pos hrunning, hout, List.tail_cons]
    · show o.delivered channel = before ++ (h.sent ++ [m])
      rw [hsafe.sent hpoll, ht.sent, List.append_assoc]
    · exact ht.resolved
  | full hm hpoll =>
    refine ⟨[], h, rfl, ?_, (append_command?_of_quiet rfl _).symm⟩
    exact ⟨ht.dispatcher, (hsafe.full hpoll).trans ht.sent, ht.resolved⟩
  | closed hm hpoll =>
    let h' : History := { h with dispatcher := none, resolved := h.resolved ++ l.dispatcher.stop }
    refine ⟨[.stop], h', after?_singleton (Dispatcher.Step.stop hd).next?_eq, ?_,
      (append_command?_of_quiet rfl _).symm⟩
    exact ⟨rfl, (hsafe.closed hpoll).trans ht.sent, congrArg (· ++ _) ht.resolved⟩
  | receive m =>
    let h' : History := { h with
      dispatcher := some (l.dispatcher.receive m).1
      resolved := h.resolved ++ (l.dispatcher.receive m).2 }
    refine ⟨[.receive m], h', after?_singleton (next?_receive hd m), ?_,
      (append_command?_of_quiet rfl _).symm⟩
    constructor
    · show some (l.dispatcher.receive m).1 = if (l.interrupt o).running then _ else none
      rw [running_interrupt, if_pos hrunning]
    · exact (delivered_interrupt hsafe l).trans ht.sent
    · exact congrArg (· ++ _) ht.resolved
  | stop =>
    let h' : History := { h with dispatcher := none, resolved := h.resolved ++ l.dispatcher.stop }
    refine ⟨[.stop], h', after?_singleton (Dispatcher.Step.stop hd).next?_eq, ?_,
      (append_command?_of_quiet rfl _).symm⟩
    exact ⟨rfl, (delivered_interrupt hsafe l).trans ht.sent, congrArg (· ++ _) ht.resolved⟩
  | elsewhere hsame =>
    refine ⟨[], h, rfl, ?_, (append_command?_of_quiet rfl _).symm⟩
    exact ⟨ht.dispatcher, hsame.trans ht.sent, ht.resolved⟩

/-- Whatever happens in the loop, a dispatcher that sends each message at once can come to the same:
it accepts the same commands, has sent what has been delivered, and has ended the same waits. -/
theorem exists_traces_of_after? {channel : σ} {events : List (Event σ)} (hsafe : o.CancelSafe)
    (hafter : (start capacity channel).after? o events = some l) :
    ∃ seen h, (History.start capacity).after? seen = some h ∧
      l.Traces o (o.delivered channel) h ∧ h.accepted = events.filterMap Event.command? := by
  -- what is conserved says which message leaves the outbox, so both are carried along
  have hboth : l.Conserves o (o.delivered channel) capacity (events.filterMap Event.command?) ∧
      ∃ seen h, (History.start capacity).after? seen = some h ∧
        l.Traces o (o.delivered channel) h ∧ h.accepted = events.filterMap Event.command? := by
    refine foldlM_concat_induction (P := fun events l =>
      l.Conserves o (o.delivered channel) capacity (events.filterMap Event.command?) ∧
        ∃ seen h, (History.start capacity).after? seen = some h ∧
          l.Traces o (o.delivered channel) h ∧ h.accepted = events.filterMap Event.command?)
      ?_ ?_ hafter
    · refine ⟨conserves_of_after? hsafe rfl, [], History.start capacity, rfl, ⟨rfl, ?_, rfl⟩, rfl⟩
      exact (List.append_nil _).symm
    · rintro events l e l' ⟨hc, seen, h, hseen, ht, haccepted⟩ hnext
      obtain ⟨hrunning, hstep⟩ := step_of_next? hnext
      obtain ⟨more, h', hmore, ht', haccepted'⟩ := ht.step hsafe hc hrunning hstep
      rw [filterMap_concat]
      refine ⟨hc.step hsafe hstep, seen ++ more, h', ?_, ht', ?_⟩
      · rw [History.after?, List.foldlM_append]
        exact Option.bind_eq_some_iff.2 ⟨h, hseen, hmore⟩
      · rw [haccepted', haccepted]
  exact hboth.2

end TypedGraph.Dispatcher.Loop
