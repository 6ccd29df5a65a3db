import TypedGraph.Proofs.Store.Updates
import TypedGraph.Sync.Serving

/-!
# What Remotes Can Rely On

An authority handles the messages of a remote one at a time in the order in which they arrive. Every
request gets one reply, and the replies go out in the same order; a message that is itself a reply
gets none. When a reply cannot be delivered serving ends, and no further message is handled.
Otherwise it ends when the remote has left and all its messages have been handled.

## Main definitions

* `Turn.Follows`: what the protocol says of one message;
* `Transcript`: turns that follow the protocol, each on the model that the one before has left;
* `Outstanding`: the replies of some turns have been sent, but for the last one at most;
* `Serving.Lawful`: what holds while an authority serves a remote, and when it has ended;
* `Turn.Keeps`: what a turn can do to a model that only the built-in action changes.

## Main results

* `Transcript.take_eq`: turns depend only on the messages up to their own;
* `Authority.waits_of_fire?_eq_none`: what it means that nothing can happen to an authority;
* `Serving.step_of_next?` and `Serving.Step.lawful`: everything that can happen keeps the law;
* `Transcript.keeps`: with the built-in action the shape of the model never changes;
* `Serving.session_law`: the law for all remotes.
-/

namespace TypedGraph

/-! ## The Protocol -/

/-- What the protocol says of a message, for a remote that stands for an entity. -/
inductive Turn.Follows (handler : ActionHandler) (self : RefToken) : Turn → Prop where
  /-- The graph is asked for. -/
  | observation (m : DataModel) :
    Follows handler self ⟨m, .getObservation, some (.snapshot m.entities false), m⟩
  /-- The remote asks which entity it stands for. -/
  | selfRef (m : DataModel) : Follows handler self ⟨m, .getSelf, some (.selfRef self.id), m⟩
  /-- An action is asked for: the reply has the graph after it, and whether it was refused. -/
  | action {m m' : DataModel} {request : ActionRequest} {refused : Bool}
    (h : handler request self m = (refused, m')) :
    Follows handler self ⟨m, .doAction request, some (.snapshot m'.entities refused), m'⟩
  /-- A message that is itself a reply is ignored. -/
  | stray (m : DataModel) {x : Message} (h : x.isReply) : Follows handler self ⟨m, x, none, m⟩

/-- Turns that follow the protocol one after the other, from a model to the model that they
leave. -/
inductive Transcript (handler : ActionHandler) (self : RefToken) :
    DataModel → List Turn → DataModel → Prop where
  | nil (m : DataModel) : Transcript handler self m [] m
  | cons {t : Turn} {turns : List Turn} {m' : DataModel} (h : t.Follows handler self)
    (rest : Transcript handler self t.after turns m') :
    Transcript handler self t.before (t :: turns) m'

section

variable {handler : ActionHandler} {self : RefToken}

/-- Requests get a reply, and other messages get none. -/
theorem Turn.Follows.isSome_reply {t : Turn} (h : t.Follows handler self) :
    t.reply.isSome = t.message.isRequest := by
  cases h with
  | observation m => rfl
  | selfRef m => rfl
  | action _ => rfl
  | stray m hx => exact (Bool.not_eq_true' _ ▸ hx).symm

/-- What follows the protocol is determined by the message and the model before it. -/
theorem Turn.Follows.unique {t t' : Turn} (h : t.Follows handler self)
    (h' : t'.Follows handler self) (hbefore : t.before = t'.before)
    (hmessage : t.message = t'.message) : t = t' := by
  cases h with
  | observation m =>
    cases h' <;> cases hbefore <;> cases hmessage
    · rfl
    · next hx => cases hx
  | selfRef m =>
    cases h' <;> cases hbefore <;> cases hmessage
    · rfl
    · next hx => cases hx
  | action hrun =>
    cases h' <;> cases hbefore <;> cases hmessage
    · next hrun' =>
      cases hrun.symm.trans hrun'
      rfl
    · next hx => cases hx
  | stray m hx =>
    cases h' <;> cases hbefore <;> cases hmessage
    · cases hx
    · cases hx
    · cases hx
    · rfl

/-- An authority follows the protocol. -/
theorem Serving.follows_turn (s : Serving) (m : Message) :
    (s.turn m).Follows s.authority.handler s.authority.self := by
  cases m with
  | getObservation => exact .observation _
  | getSelf => exact .selfRef _
  | doAction request => exact .action rfl
  | snapshot graph error => exact .stray _ rfl
  | selfRef id => exact .stray _ rfl

theorem Transcript.concat {m m' : DataModel} {turns : List Turn} {t : Turn}
    (h : Transcript handler self m turns m') (ht : t.Follows handler self)
    (hbefore : t.before = m') : Transcript handler self m (turns ++ [t]) t.after := by
  induction h with
  | nil m =>
    rw [← hbefore]
    exact .cons ht (.nil _)
  | cons hfirst _ ih => exact .cons hfirst (ih hbefore)

theorem Transcript.follows {m m' : DataModel} {turns : List Turn}
    (h : Transcript handler self m turns m') : ∀ t ∈ turns, t.Follows handler self := by
  induction h with
  | nil m => exact fun t ht => nomatch ht
  | cons hfirst _ ih => exact List.forall_mem_cons.2 ⟨hfirst, ih⟩

/-- Turns depend only on the messages up to their own. -/
theorem Transcript.take_eq {m m₁ m₂ : DataModel} {turns turns' : List Turn} {n : Nat}
    (h : Transcript handler self m turns m₁) (h' : Transcript handler self m turns' m₂)
    (hmessages : (turns.map Turn.message).take n = (turns'.map Turn.message).take n) :
    turns.take n = turns'.take n := by
  induction h generalizing turns' n with
  | nil m =>
    rw [List.map_nil, List.take_nil, ← List.map_take] at hmessages
    rw [List.take_nil, List.map_eq_nil_iff.1 hmessages.symm]
  | @cons t turns m₁ hfirst _ ih =>
    cases n with
    | zero => rfl
    | succ n =>
      generalize hbefore : t.before = m at h'
      cases h' with
      | nil m => cases hmessages
      | @cons t' turns' m₂ hfirst' hrest' =>
        obtain ⟨hmessage, hrest⟩ := List.cons.inj hmessages
        -- the first turns are the same, so that the others begin with the same model
        cases hfirst.unique hfirst' hbefore hmessage
        exact congrArg (List.cons t) (ih hrest' hrest)

end

/-! ## The Built-In Action -/

/-- What a turn can do to a model that only the built-in action changes. -/
structure Turn.Keeps (t : Turn) (model : DataModel) : Prop where
  schema : t.after.schema = model.schema
  kinds : t.after.kinds = model.kinds
  mint : t.after.mint = model.mint
  /-- The entities are the same, in the same order. -/
  ids : t.after.entities.ids = model.entities.ids
  /-- An action that is refused asked for no update that the model takes, and leaves the model as it
  was. -/
  refused : ∀ request graph, t.message = .doAction request →
    t.reply = some (.snapshot graph true) →
      (∀ u, request.update? = some u → ¬ t.before.Takes u) ∧ t.after = t.before
  /-- An action that is not refused has set the field that it names to the value that it gives. -/
  applied : ∀ request graph, t.message = .doAction request →
    t.reply = some (.snapshot graph false) →
      ∃ u, request.update? = some u ∧ t.before.Takes u ∧ t.before.Updated u t.after

section

variable {self : RefToken}

theorem Turn.Follows.keeps {t : Turn} (h : t.Follows ActionHandler.setField self) :
    t.Keeps t.before := by
  cases h with
  | observation m => exact ⟨rfl, rfl, rfl, rfl, nofun, nofun⟩
  | selfRef m => exact ⟨rfl, rfl, rfl, rfl, nofun, nofun⟩
  | stray m hx =>
    refine ⟨rfl, rfl, rfl, rfl, fun _ _ _ hr => ?_, fun _ _ _ hr => ?_⟩ <;> cases hr
  | @action m m' request refused hrun =>
    rcases ActionHandler.setField_cases request self m with
      ⟨u, m₁, hu, htakes, hset, hupdated⟩ | ⟨hnone, hset⟩
    · cases hset.symm.trans hrun
      refine ⟨hupdated.schema, hupdated.kinds, hupdated.mint, hupdated.ids,
        fun _ _ _ hr => (nomatch hr), ?_⟩
      rintro request' graph ⟨⟩ -
      exact ⟨u, hu, htakes, hupdated⟩
    · cases hset.symm.trans hrun
      refine ⟨rfl, rfl, rfl, rfl, ?_, fun _ _ _ hr => (nomatch hr)⟩
      rintro request' graph ⟨⟩ -
      exact ⟨hnone, rfl⟩

/-- A model of the same shape can take the place of the one before the turn. -/
theorem Turn.Keeps.trans {t t' : Turn} {model : DataModel} (h : t.Keeps model)
    (h' : t'.Keeps t.after) : t'.Keeps model :=
  { h' with
    schema := h'.schema.trans h.schema
    kinds := h'.kinds.trans h.kinds
    mint := h'.mint.trans h.mint
    ids := h'.ids.trans h.ids }

/-- With the built-in action the shape of the model never changes. -/
theorem Transcript.keeps {m m' : DataModel} {turns : List Turn}
    (h : Transcript ActionHandler.setField self m turns m') : ∀ t ∈ turns, t.Keeps m := by
  induction h with
  | nil m => exact fun t ht => nomatch ht
  | cons hfirst _ ih =>
    exact List.forall_mem_cons.2 ⟨hfirst.keeps, fun t ht => hfirst.keeps.trans (ih t ht)⟩

end

/-! ## Waiting -/

/-- An authority that can do nothing has ended, or it waits for a remote that is there: for a
message, or for a place for its reply. -/
theorem Authority.waits_of_fire?_eq_none {a : Authority} {c : Duplex}
    (h : ∀ e, Authority.fire? e a c = none) :
    a.result.isSome ∨ c.left.present ∧
      (a.reply = none ∧ c.right.inbox = [] ∨ c.capacity ≤ c.left.inbox.length) := by
  -- A reply in hand blocks on room only, with none in hand only on mail; a client that is gone
  -- ends the run in either case, so it is never what is waited for.
  cases hserving : a.result with
  | some result => exact .inl rfl
  | none =>
    refine .inr ?_
    cases hr : a.reply with
    | some m =>
      cases hleft : c.left.present with
      | false =>
        have hfail := (Authority.Step.fail hserving hr hleft).fire?_eq
        cases (h .reply).symm.trans hfail
      | true =>
        refine ⟨rfl, .inr (Nat.le_of_not_lt fun hroom => ?_)⟩
        have hdeliver := (Authority.Step.deliver hserving hr hleft hroom).fire?_eq
        cases (h .reply).symm.trans hdeliver
    | none =>
      cases hi : c.right.inbox with
      | cons m rest =>
        have hreceive := (Authority.Step.receive hserving hr hi).fire?_eq
        cases (h .receive).symm.trans hreceive
      | nil =>
        cases hleft : c.left.present with
        | true => exact ⟨rfl, .inl ⟨rfl, rfl⟩⟩
        | false =>
          have hstop := (Authority.Step.stop hserving hr hi hleft).fire?_eq
          cases (h .stop).symm.trans hstop

/-! ## The Law -/

/-- The replies of some turns have been sent in order, but for the last one if there is a message
that is still to be sent. -/
inductive Outstanding (delivered : List Message) : List Turn → Option Message → Prop where
  | settled {turns : List Turn} (h : turns.filterMap Turn.reply = delivered) :
    Outstanding delivered turns none
  | pending {turns : List Turn} {t : Turn} {m : Message}
    (h : turns.filterMap Turn.reply = delivered) (ht : t.reply = some m) :
    Outstanding delivered (turns ++ [t]) (some m)

theorem Outstanding.filterMap_eq {delivered : List Message} {turns : List Turn}
    {pending : Option Message} (h : Outstanding delivered turns pending) :
    turns.filterMap Turn.reply = delivered ++ pending.toList := by
  cases h with
  | settled h => rw [h, Option.toList_none, List.append_nil]
  | pending h ht =>
    rw [List.filterMap_append, h, List.filterMap_cons_some ht]
    rfl

/-- A reply that is sent is no longer outstanding. -/
theorem Outstanding.deliver {delivered : List Message} {turns : List Turn} {m : Message}
    (h : Outstanding delivered turns (some m)) : Outstanding (delivered ++ [m]) turns none :=
  .settled h.filterMap_eq

/-- When no reply is outstanding, that of one more turn is. -/
theorem Outstanding.concat {delivered : List Message} {turns : List Turn}
    (h : Outstanding delivered turns none) (t : Turn) :
    Outstanding delivered (turns ++ [t]) t.reply := by
  have hsent : turns.filterMap Turn.reply = delivered := by simpa using h.filterMap_eq
  cases ht : t.reply with
  | none =>
    refine .settled ?_
    rw [List.filterMap_append, hsent, List.filterMap_cons_none ht, List.filterMap_nil,
      List.append_nil]
  | some m => exact .pending hsent ht

namespace Serving

/-- Some events can happen one after the other, and they lead to a state. -/
def Leads (s s' : Serving) : Prop := ∃ events, s.after? events = some s'

/-- What holds while an authority serves a remote, and when it has ended. -/
structure Lawful (s : Serving) (handler : ActionHandler) (token : RefToken) (model : DataModel) :
    Prop where
  handler_eq : s.authority.handler = handler
  token_eq : s.authority.self = token
  /-- The messages that have been handled followed the protocol. -/
  transcript : Transcript handler token model s.turns s.authority.model
  count : s.authority.handled = s.turns.length
  /-- Messages are handled in the order in which they were sent. -/
  arrival : s.handled <+: s.sent
  /-- The remote receives replies in the order in which they were sent. -/
  taken : s.taken <+: s.delivered
  /-- While a remote is there, all replies that it has not received are in its queue. -/
  mailbox : s.channel.left.present → s.delivered = s.taken ++ s.channel.left.inbox
  /-- A remote that has left receives nothing more. -/
  lost : s.channel.left.present = false → s.channel.left.inbox = []
  /-- While the authority serves, all messages that it has not handled are in its queue, and at most
  the reply to the last one that it has handled has not been sent. -/
  serving : s.authority.result = none → s.channel.right.present ∧
    s.sent = s.handled ++ s.channel.right.inbox ∧
    Outstanding s.delivered s.turns s.authority.reply
  /-- Serving ends well when the remote has left, all its messages have been handled, and all
  replies have been sent. -/
  ended : ∀ n, s.authority.result = some (.ok n) → n = s.handled.length ∧ s.handled = s.sent ∧
    Outstanding s.delivered s.turns none
  /-- Serving fails when the remote has left and the reply to the last message that has been handled
  could not be delivered. -/
  failed : ∀ e, s.authority.result = some (.error e) → e = .channelClosed ∧
    ∃ m, Outstanding s.delivered s.turns (some m)
  /-- When serving has ended, both ends of the channel are gone. -/
  gone : s.authority.result.isSome →
    s.channel.left.present = false ∧ s.channel.right.present = false

/-- What can happen while an authority serves a remote. -/
inductive Step (s : Serving) : Event → Serving → Prop where
  | send (m : Message) (hleft : s.channel.left.present) (hright : s.channel.right.present)
    (hroom : s.channel.right.inbox.length < s.channel.capacity) :
    Step s (.send m) { s with
      channel := { s.channel with right := { s.channel.right with
        inbox := s.channel.right.inbox ++ [m] } }
      sent := s.sent ++ [m] }
  | take {m : Message} {rest : List Message} (hi : s.channel.left.inbox = m :: rest) :
    Step s .take { s with
      channel := { s.channel with left := { s.channel.left with inbox := rest } }
      taken := s.taken ++ [m] }
  | close : Step s .close { s with channel := s.channel.drop .left }
  | receive {m : Message} {rest : List Message} (hserving : s.authority.result = none)
    (hr : s.authority.reply = none) (hi : s.channel.right.inbox = m :: rest) :
    Step s (.authority .receive) { s with
      authority := s.authority.take m
      channel := { s.channel with right := { s.channel.right with inbox := rest } }
      turns := s.turns ++ [s.turn m] }
  | deliver {m : Message} (hserving : s.authority.result = none) (hr : s.authority.reply = some m)
    (hleft : s.channel.left.present) (hroom : s.channel.left.inbox.length < s.channel.capacity) :
    Step s (.authority .reply) { s with
      authority := { s.authority with reply := none }
      channel := { s.channel with left := { s.channel.left with
        inbox := s.channel.left.inbox ++ [m] } }
      delivered := s.delivered ++ [m] }
  /-- The reply cannot be delivered. -/
  | fail {m : Message} (hserving : s.authority.result = none) (hr : s.authority.reply = some m)
    (hleft : s.channel.left.present = false) :
    Step s (.authority .reply) { s with
      authority := { s.authority with reply := none, result := some (.error .channelClosed) }
      channel := s.channel.drop .right }
  | stop (hserving : s.authority.result = none) (hr : s.authority.reply = none)
    (hi : s.channel.right.inbox = []) (hleft : s.channel.left.present = false) :
    Step s (.authority .stop) { s with
      authority := { s.authority with reply := none, result := some (.ok s.authority.handled) }
      channel := s.channel.drop .right }

variable {s s' : Serving}

theorem step_of_authority_fire? {e : Authority.Event} {a : Authority} {channel : Duplex}
    (h : Authority.fire? e s.authority s.channel = some (a, channel)) :
    Step s (.authority e) { s.record e with authority := a, channel := channel } := by
  cases Authority.step_of_fire? h with
  | deliver hserving hr hleft hroom =>
    rw [record, if_pos hleft, hr]
    exact .deliver hserving hr hleft hroom
  | fail hserving hr hleft =>
    rw [record, if_neg (Bool.not_eq_true _ ▸ hleft)]
    exact .fail hserving hr hleft
  | receive hserving hr hi =>
    simp only [record, hi]
    exact .receive hserving hr hi
  | stop hserving hr hi hleft => exact .stop hserving hr hi hleft

/-- Everything that happens is one of the steps. -/
theorem step_of_next? {e : Event} (h : s.next? e = some s') : Step s e s' := by
  cases e with
  | send m =>
    rw [next?] at h
    split at h
    · next hleft =>
      split at h
      · next channel hsend =>
        cases h
        obtain ⟨hright, hroom, rfl⟩ := Duplex.send_eq_sent_iff.1 hsend
        exact .send m hleft hright hroom
      · cases h
    · cases h
  | take =>
    obtain ⟨⟨m, channel⟩, htake, rfl⟩ := Option.map_eq_some_iff.1 h
    obtain ⟨rest, hi, rfl⟩ := Duplex.take?_eq_some_iff.1 htake
    exact .take hi
  | close =>
    cases h
    exact .close
  | authority e =>
    obtain ⟨⟨a, channel⟩, hfire, rfl⟩ := Option.map_eq_some_iff.1 h
    exact step_of_authority_fire? hfire

section

variable {handler : ActionHandler} {self : RefToken} {model : DataModel}

theorem lawful_start (handler : ActionHandler) (self : RefToken) (model : DataModel)
    (capacity : Nat) : (start handler self model capacity).Lawful handler self model where
  handler_eq := rfl
  token_eq := rfl
  transcript := .nil model
  count := rfl
  arrival := List.nil_prefix
  taken := List.nil_prefix
  mailbox := fun _ => rfl
  lost := fun _ => rfl
  serving := fun _ => ⟨rfl, rfl, .settled rfl⟩
  ended := nofun
  failed := nofun
  gone := nofun

/-- Everything that can happen keeps the law. -/
theorem Step.lawful {e : Event} (hstep : Step s e s') (h : s.Lawful handler self model) :
    s'.Lawful handler self model := by
  cases hstep with
  | send m hleft hright hroom =>
    refine { h with
      arrival := h.arrival.trans (List.prefix_append _ _)
      serving := fun hserving => ?_
      ended := fun n hn => ?_ }
    · obtain ⟨-, hsent, hout⟩ := h.serving hserving
      refine ⟨hright, ?_, hout⟩
      show s.sent ++ [m] = s.handled ++ (s.channel.right.inbox ++ [m])
      rw [hsent, List.append_assoc]
    · -- an authority that has ended has left its end
      cases hright.symm.trans (h.gone (Option.isSome_of_eq_some hn)).2
  | @take m rest hi =>
    have hleft : s.channel.left.present := by
      cases hpresent : s.channel.left.present with
      | true => rfl
      | false => cases hi.symm.trans (h.lost hpresent)
    have hmailbox : s.delivered = s.taken ++ [m] ++ rest := by
      rw [h.mailbox hleft, hi, List.append_assoc, List.singleton_append]
    refine { h with
      taken := ⟨rest, hmailbox.symm⟩
      mailbox := fun _ => hmailbox
      lost := fun hgone => ?_ }
    cases hleft.symm.trans hgone
  | close =>
    exact { h with
      mailbox := nofun
      lost := fun _ => rfl
      gone := fun hended => ⟨rfl, (h.gone hended).2⟩ }
  | @receive m rest hserving hr hi =>
    obtain ⟨hright, hsent, hout⟩ := h.serving hserving
    rw [hr] at hout
    have hfollows : (s.turn m).Follows handler self := by
      rw [← h.handler_eq, ← h.token_eq]
      exact s.follows_turn m
    -- the message goes from the head of the queue to the end of what has been handled
    have hhandled : (s.turns ++ [s.turn m]).map Turn.message = s.handled ++ [m] := by
      rw [List.map_append]
      rfl
    have hqueue : s.sent = (s.turns ++ [s.turn m]).map Turn.message ++ rest := by
      rw [hsent, hi, hhandled, List.append_assoc, List.singleton_append]
    exact { h with
      transcript := h.transcript.concat hfollows rfl
      count := by
        rw [List.length_append, ← h.count]
        rfl
      arrival := ⟨rest, hqueue.symm⟩
      serving := fun _ => ⟨hright, hqueue, hout.concat (s.turn m)⟩
      ended := fun n hn => nomatch hserving.symm.trans hn
      failed := fun e he => nomatch hserving.symm.trans he }
  | @deliver m hserving hr hleft hroom =>
    obtain ⟨hright, hsent, hout⟩ := h.serving hserving
    rw [hr] at hout
    refine { h with
      taken := h.taken.trans (List.prefix_append _ _)
      mailbox := fun _ => ?_
      lost := fun hgone => nomatch hleft.symm.trans hgone
      serving := fun _ => ⟨hright, hsent, hout.deliver⟩
      ended := fun n hn => nomatch hserving.symm.trans hn
      failed := fun e he => nomatch hserving.symm.trans he }
    show s.delivered ++ [m] = s.taken ++ (s.channel.left.inbox ++ [m])
    rw [h.mailbox hleft, List.append_assoc]
  | @fail m hserving hr hleft =>
    -- the reply stays outstanding for ever
    obtain ⟨-, -, hout⟩ := h.serving hserving
    rw [hr] at hout
    exact { h with
      serving := nofun
      ended := nofun
      failed := by
        rintro e ⟨⟩
        exact ⟨rfl, m, hout⟩
      gone := fun _ => ⟨hleft, rfl⟩ }
  | stop hserving hr hi hleft =>
    obtain ⟨-, hsent, hout⟩ := h.serving hserving
    rw [hr] at hout
    rw [hi, List.append_nil] at hsent
    exact { h with
      serving := nofun
      ended := by
        rintro n ⟨⟩
        exact ⟨h.count.trans (List.length_map _).symm, hsent.symm, hout⟩
      failed := nofun
      gone := fun _ => ⟨hleft, rfl⟩ }

/-- The law holds after everything that can happen. -/
theorem lawful_of_leads {capacity : Nat} (h : (start handler self model capacity).Leads s) :
    s.Lawful handler self model := by
  obtain ⟨events, hafter⟩ := h
  exact foldlM_induction (P := fun s => s.Lawful handler self model)
    (fun _ _ _ hlawful hnext => (step_of_next? hnext).lawful hlawful) hafter
    (lawful_start handler self model capacity)

end

/-! ## What the Authority Does Next -/

/-- What the authority does next, whatever the remote has done. -/
structure Responsive (s : Serving) : Prop where
  /-- After the end no message is handled. -/
  ended : s.authority.result.isSome → ∀ e, s.next? (.authority e) = none
  /-- A reply that cannot be delivered ends serving before another message is handled. -/
  undeliverable : s.authority.reply.isSome → s.channel.left.present = false → ∀ e s',
    s.next? (.authority e) = some s' →
      s'.authority.result = some (.error .channelClosed) ∧ s'.turns = s.turns
  /-- The authority only waits for a remote that is there, for a message or for a place for its
  reply. -/
  waits : (∀ e, s.next? (.authority e) = none) → s.authority.result.isSome ∨
    s.channel.left.present ∧ (s.authority.reply = none ∧ s.channel.right.inbox = [] ∨
      s.channel.capacity ≤ s.channel.left.inbox.length)
  /-- The authority cannot go on for ever by itself. -/
  lighter : ∀ e s', s.next? (.authority e) = some s' →
    s'.authority.weight + s'.channel.weight < s.authority.weight + s.channel.weight

theorem responsive (s : Serving) : s.Responsive where
  ended := by
    intro hended e
    cases hnext : s.next? (.authority e) with
    | none => rfl
    | some s' =>
      have hserving : s.authority.result = none := by
        cases step_of_next? hnext <;> assumption
      rw [hserving] at hended
      cases hended
  undeliverable := by
    intro hr hgone e s' hnext
    cases step_of_next? hnext with
    | receive _ hnone _ =>
      rw [hnone] at hr
      cases hr
    | deliver _ _ hleft _ => cases hleft.symm.trans hgone
    | fail _ _ _ => exact ⟨rfl, rfl⟩
    | stop _ hnone _ _ =>
      rw [hnone] at hr
      cases hr
  waits := fun h => Authority.waits_of_fire?_eq_none fun e => Option.map_eq_none_iff.1 (h e)
  lighter := by
    intro e s' hnext
    obtain ⟨r, hfire, rfl⟩ := Option.map_eq_some_iff.1 hnext
    exact (Authority.step_of_fire? hfire).weight_lt

/-! ## Runs to the End -/

theorem Leads.trans {s₁ s₂ s₃ : Serving} (h : s₁.Leads s₂) (h' : s₂.Leads s₃) : s₁.Leads s₃ := by
  obtain ⟨events, hafter⟩ := h
  obtain ⟨events', hafter'⟩ := h'
  refine ⟨events ++ events', ?_⟩
  rw [after?, List.foldlM_append]
  exact Option.bind_eq_some_iff.2 ⟨s₂, hafter, hafter'⟩

theorem Leads.refl (s : Serving) : s.Leads s := ⟨[], rfl⟩

/-- Every step can be taken. -/
theorem Step.next?_eq {e : Event} (h : Step s e s') : s.next? e = some s' := by
  cases h with
  | send m hleft hright hroom =>
    have hsend : s.channel.send .left m = (.sent, _) :=
      Duplex.send_eq_sent_iff.2 ⟨hright, hroom, rfl⟩
    rw [next?, if_pos hleft, hsend]
    rfl
  | @take m rest hi =>
    have htake : s.channel.take? .left = some (m, _) := Duplex.take?_eq_some_iff.2 ⟨rest, hi, rfl⟩
    rw [next?, htake]
    rfl
  | close => rfl
  | receive hserving hr hi =>
    rw [next?, (Authority.Step.receive hserving hr hi).fire?_eq, record, hi]
    rfl
  | deliver hserving hr hleft hroom =>
    rw [next?, (Authority.Step.deliver hserving hr hleft hroom).fire?_eq, record, if_pos hleft, hr]
    rfl
  | fail hserving hr hleft =>
    rw [next?, (Authority.Step.fail hserving hr hleft).fire?_eq, record,
      if_neg (Bool.not_eq_true _ ▸ hleft)]
    rfl
  | stop hserving hr hi hleft =>
    rw [next?, (Authority.Step.stop hserving hr hi hleft).fire?_eq]
    rfl

theorem Step.leads {e : Event} (h : Step s e s') : s.Leads s' :=
  ⟨[e], Option.bind_eq_some_iff.2 ⟨s', h.next?_eq, rfl⟩⟩

/-- The authority serves a remote that is there, and no message is on its way. -/
structure Quiet (s : Serving) : Prop where
  serving : s.authority.result = none
  left : s.channel.left = .fresh
  right : s.channel.right = .fresh
  room : 0 < s.channel.capacity

/-- A message is sent and handled. -/
theorem Quiet.handle (h : s.Quiet) (hr : s.authority.reply = none) (m : Message) :
    ∃ s', s.Leads s' ∧ s'.Quiet ∧ s'.authority = s.authority.take m ∧ s'.sent = s.sent ++ [m] := by
  have hqueue : s.channel.right.inbox = [] := congrArg Endpoint.inbox h.right
  have hleft : s.channel.left.present := congrArg Endpoint.present h.left
  have hright : s.channel.right.present := congrArg Endpoint.present h.right
  have hsend : s.Leads _ := (Step.send m hleft hright (hqueue ▸ h.room)).leads
  have hinbox : s.channel.right.inbox ++ [m] = [m] := by
    rw [hqueue, List.nil_append]
  refine ⟨_, hsend.trans (Step.leads (.receive h.serving hr hinbox)), ?_, rfl, rfl⟩
  refine ⟨h.serving, h.left, ?_, h.room⟩
  show Endpoint.mk s.channel.right.present [] = _
  rw [h.right]
  rfl

/-- A reply that is held is sent and received. -/
theorem Quiet.settle (h : s.Quiet) :
    ∃ s', s.Leads s' ∧ s'.Quiet ∧ s'.authority.reply = none ∧ s'.sent = s.sent := by
  cases hr : s.authority.reply with
  | none => exact ⟨s, .refl s, h, hr, rfl⟩
  | some m =>
    have hqueue : s.channel.left.inbox = [] := congrArg Endpoint.inbox h.left
    have hleft : s.channel.left.present := congrArg Endpoint.present h.left
    have hdeliver : s.Leads _ := (Step.deliver h.serving hr hleft (hqueue ▸ h.room)).leads
    have hinbox : s.channel.left.inbox ++ [m] = [m] := by
      rw [hqueue, List.nil_append]
    refine ⟨_, hdeliver.trans (Step.leads (.take hinbox)), ?_, rfl, rfl⟩
    refine ⟨h.serving, ?_, h.right, h.room⟩
    show Endpoint.mk s.channel.left.present [] = _
    rw [h.left]
    rfl

/-- All of some messages are sent and handled one after the other. -/
theorem Quiet.handle_all (h : s.Quiet) (hr : s.authority.reply = none) (messages : List Message) :
    ∃ s', s.Leads s' ∧ s'.Quiet ∧ s'.authority.reply = none ∧ s'.sent = s.sent ++ messages := by
  induction messages generalizing s with
  | nil => exact ⟨s, .refl s, h, hr, (List.append_nil _).symm⟩
  | cons m messages ih =>
    obtain ⟨s₁, hleads₁, hquiet₁, -, hsent₁⟩ := h.handle hr m
    obtain ⟨s₂, hleads₂, hquiet₂, hr₂, hsent₂⟩ := hquiet₁.settle
    obtain ⟨s₃, hleads₃, hquiet₃, hr₃, hsent₃⟩ := ih hquiet₂ hr₂
    refine ⟨s₃, (hleads₁.trans hleads₂).trans hleads₃, hquiet₃, hr₃, ?_⟩
    rw [hsent₃, hsent₂, hsent₁, List.append_assoc, List.singleton_append]

section

variable (handler : ActionHandler) (self : RefToken) (model : DataModel) (capacity : Nat)

theorem quiet_start : (start handler self model capacity).Quiet :=
  ⟨rfl, rfl, rfl, Nat.le_max_left 1 capacity⟩

/-- Whatever messages a remote sends, all of them can be served. -/
theorem exists_ended (messages : List Message) :
    ∃ s, (start handler self model capacity).Leads s ∧ s.sent = messages ∧
      s.authority.result = some (.ok messages.length) := by
  obtain ⟨s, hleads, hquiet, hr, hsent⟩ :=
    (quiet_start handler self model capacity).handle_all rfl messages
  have hclose : s.Leads _ := Step.close.leads
  have hinbox : s.channel.right.inbox = [] := congrArg Endpoint.inbox hquiet.right
  have hstop := hclose.trans (Step.leads (.stop hquiet.serving hr hinbox rfl))
  -- the number of messages is right by the law
  obtain ⟨hcount, hall, -⟩ := (lawful_of_leads (hleads.trans hstop)).ended _ rfl
  have hmessages : s.authority.handled = messages.length := by
    rw [hcount, hall]
    exact congrArg List.length hsent
  refine ⟨_, hleads.trans hstop, hsent, ?_⟩
  show some (Except.ok s.authority.handled) = _
  rw [hmessages]

/-- Whatever messages a remote sends before a request, it can leave without the reply. -/
theorem exists_failed (messages : List Message) {m : Message} (hm : m.isRequest) :
    ∃ s, (start handler self model capacity).Leads s ∧ s.sent = messages ++ [m] ∧
      s.authority.result = some (.error .channelClosed) := by
  obtain ⟨s, hleads, hquiet, hr, hsent⟩ :=
    (quiet_start handler self model capacity).handle_all rfl messages
  obtain ⟨s₁, hleads₁, hquiet₁, hauthority, hsent₁⟩ := hquiet.handle hr m
  -- the authority holds the reply when the remote leaves
  have hreply : (s.authority.take m).reply.isSome :=
    (s.follows_turn m).isSome_reply.trans hm
  rw [← hauthority] at hreply
  obtain ⟨r, hr₁⟩ := Option.isSome_iff_exists.1 hreply
  have hclose : s₁.Leads _ := Step.close.leads
  have hfail := hclose.trans (Step.leads (.fail hquiet₁.serving hr₁ rfl))
  have hmessages : s₁.sent = messages ++ [m] := by
    rw [hsent₁, hsent]
    rfl
  exact ⟨_, (hleads.trans hleads₁).trans hfail, hmessages, rfl⟩

end

/-! ## All Remotes -/

/-- What remotes can rely on. Whatever a remote does, the messages that have been handled are the
first ones that it has sent, each followed the protocol on the model that the one before has left,
and the replies have been sent in the same order. Serving ends with the number of messages when all
have been handled and the remote has left; it fails as soon as a reply cannot be delivered, before
any further message is handled. Turns depend only on the messages up to their own. With the built-in
action the shape of the model never changes, and exactly the actions that are not refused set the
field that they name. Both ends are possible whatever the remote sends. -/
theorem session_law (handler : ActionHandler) (self : RefToken) (model : DataModel) :
    (∀ capacity s, (start handler self model capacity).Leads s →
      s.Lawful handler self model ∧ s.Responsive ∧
      (∀ t ∈ s.turns, t.Follows handler self ∧ t.reply.isSome = t.message.isRequest) ∧
      (handler = ActionHandler.setField → ∀ t ∈ s.turns, t.Keeps model) ∧
      ∀ capacity' s', (start handler self model capacity').Leads s' →
        ∀ n, s.handled.take n = s'.handled.take n → s.turns.take n = s'.turns.take n) ∧
    ∀ capacity messages,
      (∃ s, (start handler self model capacity).Leads s ∧ s.sent = messages ∧
        s.authority.result = some (.ok messages.length)) ∧
      ∀ m : Message, m.isRequest →
        ∃ s, (start handler self model capacity).Leads s ∧ s.sent = messages ++ [m] ∧
          s.authority.result = some (.error .channelClosed) := by
  refine ⟨fun capacity s hleads => ?_, fun capacity messages => ⟨?_, fun m hm => ?_⟩⟩
  · have hlawful := lawful_of_leads hleads
    refine ⟨hlawful, s.responsive, fun t ht => ?_, ?_, fun capacity' s' hleads' n hn => ?_⟩
    · have hfollows := hlawful.transcript.follows t ht
      exact ⟨hfollows, hfollows.isSome_reply⟩
    · rintro rfl
      exact hlawful.transcript.keeps
    · exact hlawful.transcript.take_eq (lawful_of_leads hleads').transcript hn
  · exact exists_ended handler self model capacity messages
  · exact exists_failed handler self model capacity messages hm

/-- Doors that are open or not. -/
def doorSchema : Schema := .ofKinds [("Door", .ofFields [("open", .boolean)])]

/-- A door that is open or not. -/
def doorGraph (open? : Bool) : EntityGraph := .ofMembers [("door", .obj [("open", .bool open?)])]

/-- The store with a door that is not open. -/
def doorStore : DataModel :=
  ((DataModel.empty doorSchema (.ofStem IdMint.defaultStem)).tryInit (doorGraph false)).2

/-- Asks for a value of the field of the door. -/
def doorAction (value : Json) : Message :=
  .doAction (FieldUpdate.request ⟨⟨⟨"door"⟩⟩, "open", value⟩)

/-- The remote opens the door, sends what is no request, asks for itself and gives the door a value
that it cannot have. It leaves when the authority holds the reply to that, with a request in its
queue. -/
def doorEvents : List Event := [
  .send (doorAction (.bool true)), .authority .receive, .send (.selfRef ⟨"door"⟩),
  .authority .reply,
  .authority .receive, .send .getSelf, .authority .receive, .take, .authority .reply,
  .send (doorAction (.str "wide")), .authority .receive, .send .getObservation, .close,
  .authority .reply]

/-- The messages that the authority handles. -/
def doorMessages : List Message :=
  [doorAction (.bool true), .selfRef ⟨"door"⟩, .getSelf, doorAction (.str "wide")]

/-- The replies to them. -/
def doorReplies : List Message :=
  [.snapshot (doorGraph true) false, .selfRef ⟨"door"⟩, .snapshot (doorGraph true) true]

/-- The door is open, and stays so when the value is refused. The reply to this is lost, and the
last request is not handled. -/
theorem lawful_doorEvents :
    ∃ s, (start ActionHandler.setField ⟨⟨"door"⟩⟩ doorStore 1).Leads s ∧
      s.handled = doorMessages ∧ s.sent = doorMessages ++ [.getObservation] ∧
      s.turns.filterMap Turn.reply = doorReplies ∧ s.delivered = doorReplies.take 2 ∧
      s.authority.result = some (.error .channelClosed) ∧
      s.Lawful ActionHandler.setField ⟨⟨"door"⟩⟩ doorStore ∧ ∀ t ∈ s.turns, t.Keeps doorStore := by
  have hrun :
      ((start ActionHandler.setField ⟨⟨"door"⟩⟩ doorStore 1).after? doorEvents).map (fun s =>
        (s.handled, s.sent, s.turns.filterMap Turn.reply, s.delivered, s.authority.isDone)) =
      some (doorMessages, doorMessages ++ [.getObservation], doorReplies, doorReplies.take 2,
        true) :=
    by decide +kernel
  obtain ⟨s, hafter, hs⟩ := Option.map_eq_some_iff.1 hrun
  simp only [Prod.mk.injEq] at hs
  obtain ⟨hhandled, hsent, hreplies, hdelivered, hdone⟩ := hs
  obtain ⟨hlawful, -, -, hkeeps, -⟩ :=
    (session_law ActionHandler.setField ⟨⟨"door"⟩⟩ doorStore).1 1 s ⟨_, hafter⟩
  refine ⟨s, ⟨_, hafter⟩, hhandled, hsent, hreplies, hdelivered, ?_, hlawful, hkeeps rfl⟩
  obtain ⟨result, hresult⟩ := Option.isSome_iff_exists.1 hdone
  cases result with
  | ok n =>
    -- not all messages have been handled
    have hall := (hlawful.ended n hresult).2.1
    rw [hhandled, hsent] at hall
    exact absurd hall (by decide +kernel)
  | error e => rw [hresult, (hlawful.failed e hresult).1]

end Serving

end TypedGraph
