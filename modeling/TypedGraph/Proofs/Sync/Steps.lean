import TypedGraph.Proofs.Sync.History

/-!
# What a Move Can Do

Most moves of a session only let the client lose commands and open requests, without an answer to
any of them. The others ask for something, or pass one message on its way from the client to the
authority and back. Invariants of sessions are shown for these few steps.

## Main definitions

* `Client.Sheds`: a client loses commands and open requests that are not answered;
* `Session.Step`: what can happen to a session and its record.

## Main results

* `Session.step_of_next?`: every move is one of the steps.
-/

namespace TypedGraph

namespace Client

/-- A client has lost commands and open requests, if anything, and the requests were not
answered. -/
structure Sheds (c c' : Client) : Prop where
  schema : c'.schema = c.schema
  config : c'.config = c.config
  dispatcher : c'.dispatcher = c.dispatcher
  /-- No number is used again. -/
  issued : c.issued ≤ c'.issued
  /-- No command is new. -/
  commands : (c'.queue ++ c'.waiting).Sublist (c.queue ++ c.waiting)
  /-- No open request is new. -/
  running : ∀ r' ∈ c'.running, ∃ r ∈ c.running, r.ticket = r'.ticket ∧ r.request = r'.request
  /-- What is resolved has been resolved before or has failed. -/
  resolved : ∀ x ∈ c'.resolved, x ∈ c.resolved ∨ ∃ e, x.2 = .error e

theorem Sheds.refl (c : Client) : c.Sheds c where
  schema := rfl
  config := rfl
  dispatcher := rfl
  issued := Nat.le_refl _
  commands := List.Sublist.refl _
  running := fun r hr => ⟨r, hr, rfl, rfl⟩
  resolved := fun _ hx => .inl hx

theorem Sheds.trans {c c' c'' : Client} (h : c.Sheds c') (h' : c'.Sheds c'') : c.Sheds c'' where
  schema := h'.schema.trans h.schema
  config := h'.config.trans h.config
  dispatcher := h'.dispatcher.trans h.dispatcher
  issued := Nat.le_trans h.issued h'.issued
  commands := h'.commands.trans h.commands
  running := by
    intro r'' hr''
    obtain ⟨r', hr', hticket', hrequest'⟩ := h'.running r'' hr''
    obtain ⟨r, hr, hticket, hrequest⟩ := h.running r' hr'
    exact ⟨r, hr, hticket.trans hticket', hrequest.trans hrequest'⟩
  resolved := by
    intro x hx
    rcases h'.resolved x hx with hold | hfailed
    · exact h.resolved x hold
    · exact .inr hfailed

/-- Ending open requests with failures sheds them. -/
theorem sheds_finish (c : Client) {done : OpenRequest → Option Outcome}
    (hdone : ∀ r o, done r = some o → ∃ e, o = .error e) : c.Sheds (c.finish done) where
  schema := rfl
  config := rfl
  dispatcher := rfl
  issued := Nat.le_refl _
  commands := List.Sublist.refl _
  running := fun r hr => ⟨r, (List.mem_filter.1 hr).1, rfl, rfl⟩
  resolved := by
    intro x hx
    rcases List.mem_append.1 hx with hold | hnew
    · exact .inl hold
    · obtain ⟨r, -, hr⟩ := List.mem_filterMap.1 hnew
      obtain ⟨o, ho, rfl⟩ := Option.map_eq_some_iff.1 hr
      exact .inr (hdone r o ho)

theorem sheds_resolve_superseded (c : Client) (t : Option Ticket) :
    c.Sheds (c.resolve (t.toList.map (·, .superseded))) := by
  refine sheds_finish c fun r o ho => ?_
  obtain ⟨res, hres, rfl⟩ := Option.map_eq_some_iff.1 ho
  -- no other resolution is in the list
  have hsup : res = .superseded := by
    cases t with
    | none => cases hres
    | some t =>
      rw [Option.toList_some, List.map_singleton, List.lookup_cons] at hres
      split at hres
      · exact (Option.some.inj hres).symm
      · cases hres
  rw [hsup]
  exact ⟨.superseded, by cases r.request <;> rfl⟩

/-- A request to a client without dispatcher fails. -/
theorem sheds_request {c : Client} (r : Request) (h : c.dispatcher = none) :
    c.Sheds (c.request r) := by
  have hrequest : c.request r =
      { c with
        issued := c.issued + 1
        resolved := c.resolved ++ [(c.issued, .error .channelClosed)] } := by
    simp [request, isConnected, h]
  rw [hrequest]
  refine { Sheds.refl c with issued := Nat.le_succ _, resolved := ?_ }
  intro x hx
  rcases List.mem_append.1 hx with hold | hnew
  · exact .inl hold
  · rw [List.mem_singleton.1 hnew]
    exact .inr ⟨_, rfl⟩

theorem sheds_cancel (c : Client) (t : Ticket) : c.Sheds (c.cancel t) :=
  { Sheds.refl c with
    commands := (List.Sublist.refl _).append List.filter_sublist
    running := fun r hr => ⟨r, (List.mem_filter.1 hr).1, rfl, rfl⟩ }

theorem sheds_elapse (c : Client) (ms : Nat) : c.Sheds (c.elapse ms) := { Sheds.refl c with }

theorem sheds_release (c : Client) : c.Sheds c.release := { Sheds.refl c with }

theorem sheds_expire (c : Client) :
    c.Sheds (c.finish fun r => if c.isExpired r then some (.error .timeout) else none) := by
  refine sheds_finish c fun r o ho => ?_
  split at ho
  · exact ⟨.timeout, (Option.some.inj ho).symm⟩
  · cases ho

/-- A command that gets a place in the queue stays between the same others. -/
theorem sheds_enter {c : Client} {command : Command} {rest : List Command}
    (hw : c.waiting = command :: rest) : c.Sheds { c with
      waiting := rest
      queue := c.queue ++ [command]
      running := c.beginLimit command.ticket } := by
  refine { Sheds.refl c with commands := ?_, running := ?_ }
  · rw [hw, List.append_assoc]
    exact List.Sublist.refl _
  · intro r' hr'
    obtain ⟨r, hr, rfl⟩ := List.mem_map.1 hr'
    refine ⟨r, hr, ?_, ?_⟩ <;> split <;> rfl

/-- A dispatcher that stops takes all commands and open requests with it. -/
theorem sheds_stop (c : Client) : Sheds { c with dispatcher := none }
    (finish { c with dispatcher := none, waiting := [], queue := [] }
      fun _ => some (.error .channelClosed)) := by
  -- first all commands are lost, then the open requests fail
  have hnone : Sheds { c with dispatcher := none }
      { c with dispatcher := none, waiting := [], queue := [] } :=
    { Sheds.refl _ with commands := List.nil_sublist _ }
  exact hnone.trans (sheds_finish _ fun _ _ ho => ⟨_, (Option.some.inj ho).symm⟩)

end Client

namespace Session

open History

/-- What can happen to a session and its record. -/
inductive Step (h : History) : History → Prop where
  /-- The client loses commands and open requests, if anything. -/
  | shed {c : Client} (hshed : h.session.client.Sheds c) :
    Step h { h with session := { h.session with client := c } }
  /-- A request starts. -/
  | ask {d : Dispatcher} (r : Request) (hd : h.session.client.dispatcher = some d) :
    Step h { h with session := { h.session with client := { h.session.client with
      issued := h.session.client.issued + 1
      waiting := h.session.client.waiting ++ [⟨h.session.client.issued, r.message, r.slot⟩]
      running := h.session.client.running ++ [⟨h.session.client.issued, r, none⟩] } } }
  /-- The dispatcher accepts the oldest command. -/
  | accept {d : Dispatcher} {command : Command} {rest : List Command} {c : Client}
    (hd : h.session.client.dispatcher = some d) (hq : h.session.client.queue = command :: rest)
    (hshed : Client.Sheds { h.session.client with
      queue := rest
      dispatcher := some (d.accepting command) } c) :
    Step h { h with
      session := { h.session with client := c }
      accepted := h.accepted ++ [⟨command, h.unanswered⟩] }
  /-- The dispatcher sends its oldest message. -/
  | transmit {d : Dispatcher} {m : Message} {rest : List Message}
    (hd : h.session.client.dispatcher = some d) (ho : d.outbox = m :: rest) :
    Step h { h with session := { h.session with
      client := { h.session.client with dispatcher := some { d with outbox := rest } }
      channel := { h.session.channel with right := { h.session.channel.right with
        inbox := h.session.channel.right.inbox ++ [m] } } } }
  /-- The dispatcher receives a message. -/
  | receive {d : Dispatcher} {m : Message} {rest : List Message}
    (hd : h.session.client.dispatcher = some d)
    (hi : h.session.channel.left.inbox = m :: rest) :
    Step h { h with
      session := { h.session with
        client := { h.session.client with
          dispatcher := some (d.receive m).1 }.resolve (d.receive m).2
        channel := { h.session.channel with left := { h.session.channel.left with
          inbox := rest } } }
      received := h.received ++ [m] }
  /-- The dispatcher stops. -/
  | stop {c : Client} (hshed : Client.Sheds { h.session.client with dispatcher := none } c) :
    Step h { h with session := { h.session with
      client := c
      channel := h.session.channel.drop .left } }
  /-- The authority handles a message. -/
  | serve {m : Message} {rest : List Message} (hr : h.session.authority.reply = none)
    (hi : h.session.channel.right.inbox = m :: rest) :
    Step h { h with
      session := { h.session with
        channel := { h.session.channel with right := { h.session.channel.right with
          inbox := rest } }
        authority := h.session.authority.take m }
      served := h.served ++ [⟨m, h.session.authority⟩] }
  /-- The authority sends its reply. -/
  | reply {m : Message} (hr : h.session.authority.reply = some m) :
    Step h { h with session := { h.session with
      channel := { h.session.channel with left := { h.session.channel.left with
        inbox := h.session.channel.left.inbox ++ [m] } }
      authority := { h.session.authority with reply := none } } }
  /-- The authority ends, which it only does when the client is gone. -/
  | leave (result : Except SyncError Nat) (hleft : h.session.channel.left.present = false) :
    Step h { h with session := { h.session with
      channel := h.session.channel.drop .right
      authority := { h.session.authority with reply := none, result := some result } } }

/-! ## Moves Are Steps -/

section

variable {h : History}

theorem step_of_client_fire? {e : Client.Event} {c : Client} {ch : Duplex}
    (hfire : Client.fire? e h.session.client h.session.channel = some (c, ch)) :
    Step h { h.record (.event (.client e)) with
      session := { h.session with client := c, channel := ch } } := by
  cases Client.step_of_fire? hfire with
  | expire _ => exact .shed (Client.sheds_expire _)
  | enter hw _ => exact .shed (Client.sheds_enter hw)
  | accept hd hq _ =>
    -- what the command supersedes fails, which the record does not mention
    simp only [record, hq]
    exact .accept hd hq (Client.sheds_resolve_superseded _ _)
  | transmit hd ho _ _ => exact .transmit hd ho
  | receive hd hi =>
    simp only [record, hi]
    exact .receive hd hi
  | stop _ _ => exact .stop (Client.sheds_stop _)

theorem step_of_authority_fire? {e : Authority.Event} {a : Authority} {ch : Duplex}
    (hfire : Authority.fire? e h.session.authority h.session.channel = some (a, ch)) :
    Step h { h.record (.event (.authority e)) with
      session := { h.session with authority := a, channel := ch } } := by
  cases Authority.step_of_fire? hfire with
  | deliver _ hr _ _ => exact .reply hr
  | fail _ _ hleft => exact .leave _ hleft
  | receive _ hr hi =>
    simp only [record, hi]
    exact .serve hr hi
  | stop _ _ _ hleft => exact .leave _ hleft

/-- Every move is one of the steps. -/
theorem step_of_next? {h' : History} {m : Move} (hnext : h.next? m = some h') : Step h h' := by
  obtain ⟨s, hmove, rfl⟩ := Option.map_eq_some_iff.1 hnext
  cases m with
  | request r =>
    cases hmove
    cases hd : h.session.client.dispatcher with
    -- without dispatcher the request fails at once
    | none => exact .shed (Client.sheds_request r hd)
    | some d =>
      have hrequest : h.session.client.request r = { h.session.client with
          issued := h.session.client.issued + 1
          waiting := h.session.client.waiting ++ [⟨h.session.client.issued, r.message, r.slot⟩]
          running := h.session.client.running ++ [⟨h.session.client.issued, r, none⟩] } := by
        simp [Client.request, Client.isConnected, hd]
      rw [hrequest]
      exact .ask r hd
  | cancel t =>
    cases hmove
    exact .shed (Client.sheds_cancel _ t)
  | elapse ms =>
    cases hmove
    exact .shed (Client.sheds_elapse _ ms)
  | release =>
    cases hmove
    exact .shed (Client.sheds_release _)
  | event e =>
    cases e with
    | client e =>
      obtain ⟨⟨c, ch⟩, hfire, rfl⟩ := Option.map_eq_some_iff.1 hmove
      exact step_of_client_fire? hfire
    | authority e =>
      obtain ⟨⟨a, ch⟩, hfire, rfl⟩ := Option.map_eq_some_iff.1 hmove
      exact step_of_authority_fire? hfire

end

end Session

end TypedGraph
