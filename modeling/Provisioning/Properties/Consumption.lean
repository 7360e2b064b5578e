import Provisioning.Properties.DescribedMessages
import Provisioning.Properties.PrefillFirst

/-!
# At least once, and in order

The stream is the only thing the two sides share, and everything that matters about it only ever
becomes more true: a message at the front of the stream stays there until it is gone, and once all
callbacks have returned for a message, they have. So it does not matter how late a request
arrives, or how often, or whose response is heard: a request to delete a message was sent when its
callbacks had returned, and a message that any handler was ever handed was at the front.

## The two facts that grow

`st.Front seq payload` says that the message of this number has this payload and that nothing before
it is left in the stream, whether the message itself is still there or not. `Done` says that its
callbacks have been called and have returned, one after the other, somewhere in the log of calls.
Both are monotone, the first along `Stream.Grows` and the second also along a longer log, and the
whole proof rests on this: a fact about the stream that could become false again would have to be
carried through each request that is under way, with all the others that overlap with it.

## The sides

A handler is some program of the server, at any point of it. What it may do is said by a bound on
the calls it has left and on what it can return (`Handles`), so that its place in the program need
not be known. The client's process is followed exactly, since the order in which it calls back is
what is to be shown: `InTurn` lists its places, each with the calls made so far.

They know of each other only what passes between them. A request that the process has sent is kept
even after it has given up on it, and may arrive at any later time; that it asks for a deletion is
justified when it is *sent*, and stays so.

## What is not promised

After a crash the process starts over and calls back again with a message whose callbacks have
returned before. The theorem bounds this from one side: nothing is lost, and nothing is handled
before its turn.
-/

namespace Provisioning

open Await Store Prog

variable {env : Env} {h : MessageHandler} {w : World} {st st' : Store.Stream Payload}

/-! ## The stream of the subscription -/

/-! Others register, delete and publish meanwhile. The stream is looked at under a bound on their
calls, so that the argument is the same for handlers of this consumer and for anybody else. -/

/-- The stream is there, with its consumer, and nothing in it was ever acknowledged. -/
structure HasQueue (name : String) (w : World) (st : Store.Stream Payload) : Prop where
  stream : w.streams (streamKey name) = some st
  consumer : ∃ d, st.durables (durableKey name) = some d ∧ d.acked = []

/-- The calls that anyone makes while the consumer runs; messages are deleted only if they are
`done`. -/
inductive MayCall (name : String) (done : Nat → Prop) : Op → Prop where
  | spares (op : Op) (hop : op.spares (streamKey name) = true) : MayCall name done op
  | fetch : MayCall name done (.fetch (streamKey name) (durableKey name))
  | deleteMsg (seq : Nat) (hdone : done seq) :
      MayCall name done (.deleteMsg (streamKey name) seq)
  | publish (subject : String) (payload : Payload) :
      MayCall name done (.publish subject payload (streamKey name))
  | ackWaitExpires : MayCall name done (.ackWaitExpires (streamKey name) (durableKey name))

section Queue

variable {name : String} {done : Nat → Prop} {op : Op}

/-- **What a call does to the stream**: only messages that are done leave it. -/
theorem HasQueue.answered (hq : HasQueue name w st) (hop : MayCall name done op) (env : Env)
    (tid : Nat) :
    ∃ st', HasQueue name (answer env tid op w).2 st' ∧ st.Grows st' ∧
      ∀ m ∈ st.msgs, m ∈ st'.msgs ∨ done m.seq := by
  have hsame : ∀ {w'}, HasQueue name w' st → ∃ st', HasQueue name w' st' ∧ st.Grows st' ∧
      ∀ m ∈ st.msgs, m ∈ st'.msgs ∨ done m.seq :=
    fun hq' => ⟨st, hq', .refl st, fun m hm => Or.inl hm⟩
  obtain ⟨d, hd, hacked⟩ := hq.consumer
  cases hop with
  | spares op hop =>
    exact hsame ⟨(streams_answer_of_spares env tid w hop).trans hq.stream, hq.consumer⟩
  | fetch =>
    rcases streams_answer env tid (.fetch (streamKey name) (durableKey name)) w (streamKey name)
      with heq | hchange
    · exact hsame ⟨heq.trans hq.stream, hq.consumer⟩
    · rw [hq.stream] at hchange
      generalize hafter : (answer env tid (.fetch (streamKey name)
        (durableKey name)) w).2.streams (streamKey name) = after at hchange
      cases hchange with
      | fetch durable s d' hd' m hm =>
        obtain rfl := Option.some.inj (hd.symm.trans hd')
        exact ⟨_, ⟨hafter, _, Stream.durables_setDurable_self .., hacked⟩,
          Stream.grows_setDurable .., fun m hm => Or.inl hm⟩
  | deleteMsg seq hdone =>
    simp only [answer, hq.stream]
    split
    · refine ⟨st.keep (·.seq != seq), ⟨World.streams_setStream_self .., d, hd, hacked⟩,
        Stream.grows_keep .., fun m hm => ?_⟩
      -- The one call that takes something out; it takes out what is done.
      by_cases heq : m.seq = seq
      · exact Or.inr (heq ▸ hdone)
      · exact Or.inl (List.mem_filter.mpr ⟨hm, by simpa using heq⟩)
    · exact hsame hq
  | publish subject payload =>
    rcases answer_publish env tid subject payload (streamKey name) w with
      ⟨s, hs, -, hanswer⟩ | hanswer
    · obtain rfl := Option.some.inj (hq.stream.symm.trans hs)
      rw [hanswer]
      exact ⟨_, ⟨World.streams_setStream_self .., d, hd, hacked⟩, Stream.grows_append ..,
        fun m hm => Or.inl (List.mem_append_left _ hm)⟩
    · rw [hanswer]
      exact hsame hq
  | ackWaitExpires =>
    simp only [answer, hq.stream, hd]
    exact ⟨_, ⟨World.streams_setStream_self .., d.expire, Stream.durables_setDurable_self ..,
      hacked⟩, Stream.grows_setDurable .., fun m hm => Or.inl hm⟩

/-- What a handler is handed is at the front. -/
theorem HasQueue.fetched (hq : HasQueue name w st) {tid : Nat} {msg : Msg}
    (hmsg : (answer env tid (.fetch (streamKey name) (durableKey name)) w).1 =
      .ok msg) : st.Front msg.streamSeq msg.payload := by
  obtain ⟨s, d, m, hs, hd, hm, rfl, -⟩ := answer_fetch_ok (Prod.ext hmsg rfl)
  obtain rfl := Option.some.inj (hq.stream.symm.trans hs)
  obtain ⟨d', hd', hacked⟩ := hq.consumer
  obtain rfl := Option.some.inj (hd'.symm.trans hd)
  exact Stream.front_of_fetch hacked hm

end Queue

/-! ## What is done -/

/-- All callbacks have returned for the message of that number. -/
def Done (h : MessageHandler) (calls : List CallbackEvent) (st : Store.Stream Payload)
    (seq : Nat) : Prop :=
  ∃ message : ProvisioningMessage, message.sequenceNumber = seq ∧
    st.Front seq (.message message.message) ∧ calledInOrder message h.callbacks <:+: calls

variable {calls : List CallbackEvent}

/-- **What is done stays done.** -/
theorem Done.mono {calls' : List CallbackEvent} {seq : Nat} (hdone : Done h calls st seq)
    (hcalls : calls <+: calls') (hst : st.Grows st') : Done h calls' st' seq := by
  obtain ⟨message, hseq, hfront, hinfix⟩ := hdone
  exact ⟨message, hseq, hfront.grows hst, hinfix.trans hcalls.isInfix⟩

/-! ## The handlers -/

/-! What a handler returns is known in one of two ways. Either the message is at the front already,
or the handler has not been handed it yet, and then it is guarded by the fetch that will. -/

/-- A handler is handed what the client will hear of. -/
abbrev IsHanded (name : String) (message : ProvisioningMessage) (op : Op)
    (r : Except CallError op.Res) : Prop :=
  ∃ msg, Carries msg message ∧ Fetches name msg op r

/-- A handler deletes only what is done, and returns only what is at the front. -/
structure Handles (name : String) (done : Nat → Prop) (st : Store.Stream Payload)
    (handler : Coro Reply) : Prop where
  calls : handler.Uses (MayCall name done)
  returns : ∀ message, handler.Guarded (IsHanded name message) (fun _ => False)
      (fun r => r = .ok (.message (some message))) ∨
    st.Front message.sequenceNumber (.message message.message)

section Handler

variable {name : String} {done done' : Nat → Prop} {op : Op} {handler : Coro Reply}

theorem MayCall.mono (hop : MayCall name done op) (hdone : ∀ seq, done seq → done' seq) :
    MayCall name done' op := by
  cases hop with
  | spares op hop => exact .spares op hop
  | fetch => exact .fetch
  | deleteMsg seq hseq => exact .deleteMsg seq (hdone seq hseq)
  | publish subject payload => exact .publish subject payload
  | ackWaitExpires => exact .ackWaitExpires

theorem Handles.mono (hh : Handles name done st handler) (hdone : ∀ seq, done seq → done' seq)
    (hst : st.Grows st') : Handles name done' st' handler :=
  ⟨hh.calls.mono fun _ hop => hop.mono hdone,
    fun message => (hh.returns message).imp_right fun hfront => hfront.grows hst⟩

/-- What the handler hears, it may have been handed: then it is at the front. -/
theorem HasQueue.hands (hq : HasQueue name w st) {tid : Nat} {f : Fault Outage}
    {message : ProvisioningMessage}
    (hheard : IsHanded name message op ((serve env).heard tid op w f)) :
    st.Front message.sequenceNumber (.message message.message) := by
  obtain ⟨msg, ⟨hpayload, hseq, -⟩, hfetches⟩ := hheard
  obtain ⟨-, rfl, hanswer⟩ := fetches_heard hfetches
  rw [← hpayload, ← hseq]
  exact hq.fetched (fetches_ok hanswer)

/-- The handler goes on after a call. -/
theorem Handles.call {k : Except CallError op.Res → Coro Reply}
    (hh : Handles name done st (.await op k)) (hq : HasQueue name w st) (tid : Nat)
    (f : Fault Outage) : Handles name done st (k ((serve env).heard tid op w f)) := by
  refine ⟨hh.calls.2 _, fun message => ?_⟩
  rcases hh.returns message with hguarded | hfront
  · by_cases hheard : IsHanded name message op ((serve env).heard tid op w f)
    · exact Or.inr (hq.hands hheard)
    · exact Or.inl (hguarded.2 _ hheard)
  · exact Or.inr hfront

/-- What a handler that is over has returned. -/
theorem Handles.replied {message : ProvisioningMessage}
    (hh : Handles name done st (.pure (.message (some message)))) :
    st.Front message.sequenceNumber (.message message.message) := by
  rcases hh.returns message with hguarded | hfront
  · exact absurd rfl hguarded
  · exact hfront

end Handler

section Handler

variable {client : ProvisioningConsumerClientSettings} {done : Nat → Prop} {request : Request}

theorem uses_authentication (salt : String) :
    (authenticateUser salt ⟨client.provisioningApiUsername, client.provisioningApiPassword⟩
      (some client.provisioningApiUsername)).Uses
      (MayCall client.provisioningApiUsername done) :=
  (uses_authenticateUser ..).mono fun op hop => .spares op (by cases hop <;> rfl)

theorem uses_report (seqNum : Nat) (report : MessageProcessingStatus) (hdone : done seqNum) :
    (updateMessageStatus client.provisioningApiUsername seqNum report).Uses
      (MayCall client.provisioningApiUsername done) := by
  apply (uses_updateMessageStatus ..).mono
  intro op hop
  cases hop with
  | get => exact .spares _ rfl
  | delete => exact .deleteMsg seqNum hdone

/-- What the handler of a request calls. -/
theorem uses_handler (hdone : ∀ seqNum report, request = .status seqNum report → done seqNum)
    (salt : String) (rounds : Nat) :
    (request.handler env client salt rounds).Uses
      (MayCall client.provisioningApiUsername done) := by
  cases request with
  | next =>
    refine Uses.bind (uses_authentication salt) fun _ =>
      Uses.bind (uses_getNextMessage_of _ rounds ?_) fun _ => trivial
    intro op hop hack
    cases hop with
    | message hop =>
      cases hop with
      | fetch => exact .fetch
      | ack msg => exact absurd rfl (hack rfl msg)
      | _ => exact .spares _ rfl
    | _ => exact .spares _ rfl
  | status seqNum report =>
    exact Uses.bind (uses_authentication salt) fun _ =>
      Uses.bind (uses_report seqNum report (hdone seqNum report rfl)) fun _ => trivial

/-- What it returns it was handed. -/
theorem guarded_handler (salt : String) (rounds : Nat) (message : ProvisioningMessage) :
    (request.handler env client salt rounds).Guarded
      (IsHanded client.provisioningApiUsername message) (fun _ => False)
      fun r => r = .ok (.message (some message)) := by
  have hsilent : (authenticateUser salt
      ⟨client.provisioningApiUsername, client.provisioningApiPassword⟩
      (some client.provisioningApiUsername)).Guarded
      (IsHanded client.provisioningApiUsername message) (fun _ => False) fun _ => False :=
    Uses.guarded (uses_authenticateUser ..) fun _ _ => id
  refine Guarded.bind hsilent (fun _ _ => ?_) fun _ _ => nofun
  cases request with
  | next => exact guarded_getNext_fetches _ rounds false message
  | status seqNum report =>
    exact Guarded.bind (Uses.guarded (uses_updateMessageStatus ..) fun _ _ => id)
      (fun _ _ => nofun) fun _ _ => nofun

/-- The handler of a request. -/
theorem handles_handler (hdone : ∀ seqNum report, request = .status seqNum report → done seqNum)
    (salt : String) (rounds : Nat) :
    Handles client.provisioningApiUsername done st (request.handler env client salt rounds) :=
  ⟨uses_handler hdone salt rounds, fun message => Or.inl (guarded_handler salt rounds message)⟩

end Handler

/-! ## The consumer's program -/

/-! The process is between two calls of the world when it runs a callback, so a place in its loop is
described by the program that is left and by the calls that have been recorded before it. -/

/-- The awaits of an acknowledgement. -/
inductive Acknowledges (seqNum : Nat) : ClientOp → Prop where
  | status (name : String) : Acknowledges seqNum (.setMessageStatus name seqNum .ok)
  | sleep (tenths : Nat) : Acknowledges seqNum (.sleep tenths)

theorem uses_awaiting {P : ClientOp → Prop} {op : ClientOp} (hop : P op) :
    (awaiting op).Uses P := uses_call hop

theorem uses_acknowledgeMessage (h : MessageHandler) (seqNum : Nat) :
    (h.acknowledgeMessage seqNum).Uses (Acknowledges seqNum) := by
  refine Uses.tryCatch (Uses.bind (uses_awaiting (.status _)) fun _ => trivial) ?_
  intro e
  cases e <;> trivial

theorem uses_acknowledgementRounds (h : MessageHandler) (message : ProvisioningMessage)
    (left : Nat) :
    (h.acknowledgementRounds message left).Uses (Acknowledges message.sequenceNumber) := by
  induction left with
  | zero => trivial
  | succ left ih =>
    apply Uses.bind (uses_acknowledgeMessage h _)
    intro acknowledged
    cases acknowledged with
    | true => trivial
    | false =>
      have hrest : (if h.settings.maxAcknowledgementRetries - left ≠
          h.settings.maxAcknowledgementRetries then
          (awaiting (.sleep (min (2 ^ (h.settings.maxAcknowledgementRetries - left)) 300))).bind
            fun _ => h.acknowledgementRounds message left
        else h.acknowledgementRounds message left).Uses
          (Acknowledges message.sequenceNumber) := by
        split
        · exact Uses.bind (uses_awaiting (.sleep _)) fun _ => ih
        · exact ih
      exact hrest

/-- With no callbacks left it is only the acknowledgement. -/
theorem uses_handleMessage_nil (h : MessageHandler) (message : ProvisioningMessage) :
    (h.handleMessage message []).Uses (Acknowledges message.sequenceNumber) := by
  show (if _ then _ else _ : ClientCoro Bool).Uses _
  split
  · exact Uses.bind (uses_acknowledgementRounds h message _) fun _ => trivial
  · trivial

theorem handleMessage_cons (h : MessageHandler) (message : ProvisioningMessage)
    (callback : Callback) (callbacks : List Callback) : ∃ k,
    h.handleMessage message (callback :: callbacks) = .await (.callback callback message) k ∧
      k (.ok ()) = h.handleMessage message callbacks ∧ ∀ e, k (.error e) = .throw e :=
  ⟨_, rfl, rfl, fun _ => rfl⟩

/-- Where the process can be in its loop, by the calls there were before its next `await`. -/
inductive InTurn (h : MessageHandler) (calls : List CallbackEvent) (st : Store.Stream Payload) :
    ClientCoro Bool → Prop where
  | start : InTurn h calls st h.turn
  /-- The callbacks before this one have returned. -/
  | calling (message : ProvisioningMessage) (before after : List Callback) (callback : Callback)
      (hsplit : h.callbacks = before ++ callback :: after)
      (hfront : st.Front message.sequenceNumber (.message message.message))
      (hcalls : calledInOrder message before <:+ calls) :
      InTurn h calls st (h.handleMessage message (callback :: after))
  | acknowledging (seqNum : Nat) (hdone : Done h calls st seqNum) (prog : ClientCoro Bool)
      (hprog : prog.Uses (Acknowledges seqNum)) : InTurn h calls st prog
  | finished (prog : ClientCoro Bool) (hprog : prog.Finished) : InTurn h calls st prog

/-- The process may hear this: a message from the front, and of its callbacks no more than that
one has raised. -/
def MayHear (st : Store.Stream Payload) : (op : ClientOp) → Except ClientError op.Res → Prop
  | .getSubscriptionMessage _, .ok (some message) =>
    st.Front message.sequenceNumber (.message message.message)
  | .callback .., .ok _ => False
  | _, _ => True

section Turn

variable {op : ClientOp} {k : Except ClientError op.Res → ClientCoro Bool}
  {prog : ClientCoro Bool} {message : ProvisioningMessage}

/-- The place stays right as the stream goes on. -/
theorem InTurn.mono (hin : InTurn h calls st prog) (hst : st.Grows st') :
    InTurn h calls st' prog := by
  cases hin with
  | start => exact .start
  | calling message before after callback hsplit hfront hcalls =>
    exact .calling message before after callback hsplit (hfront.grows hst) hcalls
  | acknowledging seqNum hdone prog hprog =>
    exact .acknowledging seqNum (hdone.mono (List.prefix_refl _) hst) prog hprog
  | finished prog hprog => exact .finished prog hprog

/-- After some callbacks come the others, and then the acknowledgement. -/
theorem InTurn.handleMessage {before after : List Callback}
    (hsplit : h.callbacks = before ++ after)
    (hfront : st.Front message.sequenceNumber (.message message.message))
    (hcalls : calledInOrder message before <:+ calls) :
    InTurn h calls st (h.handleMessage message after) := by
  cases after with
  | cons callback after => exact .calling message before after callback hsplit hfront hcalls
  | nil =>
    rw [List.append_nil] at hsplit
    refine .acknowledging message.sequenceNumber ⟨message, rfl, hfront, ?_⟩ _
      (uses_handleMessage_nil h message)
    rw [hsplit]
    exact hcalls.isInfix

/-- **What the process does next**, whatever it hears. -/
theorem InTurn.hears (hin : InTurn h calls st (.await op k)) {r : Except ClientError op.Res}
    (hr : MayHear st op r) : InTurn h (calls ++ op.invocations) st (k r) := by
  generalize hprog : Prog.await op k = prog at hin
  cases hin with
  | start =>
    obtain ⟨k', hturn, hnone, hsome, hstuck, herror⟩ := turn_eq h
    cases hprog.trans hturn
    cases r with
    | error e =>
      rw [herror]
      exact .finished _ (finished_throw e)
    | ok message? =>
      cases message? with
      | none =>
        rw [hnone]
        exact .finished _ (finished_pure false)
      | some message =>
        by_cases hdescribable : Describable message.message
        · rw [hsome message hdescribable]
          exact .handleMessage (List.nil_append _).symm hr (List.nil_suffix)
        · rw [hstuck message hdescribable]
          exact .finished _ (finished_throw ClientError.other)
  -- A callback that has raised ends the process. That it has returned is not heard here.
  | calling message before after callback =>
    obtain ⟨k', hawait, -, herror⟩ := handleMessage_cons h message callback after
    cases hprog.trans hawait
    cases r with
    | error e =>
      rw [herror]
      exact .finished _ (finished_throw e)
    | ok u => exact absurd hr id
  | acknowledging seqNum hdone prog huses =>
    subst hprog
    exact .acknowledging seqNum (hdone.mono (List.prefix_append ..) (.refl st)) _ (huses.2 r)
  | finished prog hfinished =>
    subst hprog
    cases hfinished

/-- Where the process is while it awaits a callback. -/
theorem InTurn.of_callback {callback : Callback}
    {k : Except ClientError (ClientOp.callback callback message).Res → ClientCoro Bool}
    (hin : InTurn h calls st (.await (.callback callback message) k)) :
    ∃ before after, h.callbacks = before ++ callback :: after ∧
      st.Front message.sequenceNumber (.message message.message) ∧
      calledInOrder message before <:+ calls ∧
      k (.ok ()) = h.handleMessage message after ∧ ∀ e, k (.error e) = .throw e := by
  generalize hprog : (.await (.callback callback message) k : ClientCoro Bool) = prog at hin
  cases hin with
  | start =>
    obtain ⟨k', hturn, -⟩ := turn_eq h
    cases hprog.trans hturn
  | calling message before after callback hsplit hfront hcalls =>
    obtain ⟨k', hawait, hok, herror⟩ := handleMessage_cons h message callback after
    cases hprog.trans hawait
    exact ⟨before, after, hsplit, hfront, hcalls, hok, herror⟩
  | acknowledging seqNum hdone prog huses =>
    subst hprog
    cases huses.1
  | finished prog hfinished =>
    subst hprog
    cases hfinished

/-- A callback has returned. -/
theorem InTurn.returned {callback : Callback}
    {k : Except ClientError (ClientOp.callback callback message).Res → ClientCoro Bool}
    (hin : InTurn h calls st (.await (.callback callback message) k)) :
    InTurn h (calls ++ [.invoked callback message] ++ [.returned callback message]) st
      (k (.ok ())) := by
  obtain ⟨before, after, hsplit, hfront, hcalls, hok, -⟩ := hin.of_callback
  rw [hok]
  have hsplit' : h.callbacks = (before ++ [callback]) ++ after := by
    rw [hsplit, List.append_assoc]
    rfl
  refine .handleMessage hsplit' hfront ?_
  unfold calledInOrder at hcalls ⊢
  rw [List.flatMap_append, List.append_assoc]
  exact List.suffix_append_self_iff.mpr hcalls

/-- The process asks only for what is done to be deleted. -/
theorem InTurn.requested (hin : InTurn h calls st (.await op k)) {seqNum : Nat}
    {report : MessageProcessingStatus} (hmem : .status seqNum report ∈ op.requests) :
    Done h calls st seqNum := by
  generalize hprog : Prog.await op k = prog at hin
  cases hin with
  | start =>
    obtain ⟨k', hturn, -⟩ := turn_eq h
    cases hprog.trans hturn
    cases List.mem_singleton.mp hmem
  | calling message before after callback =>
    obtain ⟨k', hawait, -⟩ := handleMessage_cons h message callback after
    cases hprog.trans hawait
    exact absurd hmem List.not_mem_nil
  | acknowledging seqNum' hdone prog huses =>
    subst hprog
    have hop := huses.1
    cases hop with
    | status name =>
      cases List.mem_singleton.mp hmem
      exact hdone
    | sleep tenths => exact absurd hmem List.not_mem_nil
  | finished prog hfinished =>
    subst hprog
    cases hfinished

/-- The process calls back with what is at the front. -/
theorem InTurn.invoked (hin : InTurn h calls st (.await op k)) {callback : Callback}
    (hmem : .invoked callback message ∈ op.invocations) :
    st.Front message.sequenceNumber (.message message.message) := by
  cases op with
  | callback callback' message' =>
    obtain ⟨before, after, -, hfront, -⟩ := hin.of_callback
    cases List.mem_singleton.mp hmem
    exact hfront
  | _ => exact absurd hmem List.not_mem_nil

end Turn

/-! ## Consumer and handlers together -/

/-! `Backed` is what does not depend on where the process is, so it survives the end of the process
and its restart. `Sound` adds the place. -/

/-- What is known whatever the process is at. -/
structure Backed (h : MessageHandler) (s : Consumption) (st : Store.Stream Payload) : Prop where
  queue : HasQueue h.subscriptionName s.world st
  requests : ∀ seqNum report, .status seqNum report ∈ s.requests → Done h s.calls st seqNum
  handlers : ∀ x ∈ s.handlers, Handles h.subscriptionName (Done h s.calls st) st x.2
  invoked : ∀ callback message, .invoked callback message ∈ s.calls →
    st.Front message.sequenceNumber (.message message.message)

/-- **The invariant.** -/
structure Sound (h : MessageHandler) (s : Consumption) (st : Store.Stream Payload) : Prop
    extends Backed h s st where
  process : ∀ p, s.process = some p → ∃ op k calls, p.prog = .await op k ∧
    s.calls = calls ++ op.invocations ∧ InTurn h calls st (.await op k)

variable {s t : Consumption}

/-- **What is known stays known**, when the stream and the calls go on and everything new is
known of too. -/
theorem Backed.mono (hs : Backed h s st) (hq : HasQueue h.subscriptionName t.world st')
    (hst : st.Grows st') (hcalls : s.calls <+: t.calls)
    (hrequests : ∀ seqNum report, .status seqNum report ∈ t.requests →
      .status seqNum report ∈ s.requests ∨ Done h s.calls st seqNum)
    (hhandlers : ∀ x ∈ t.handlers, Handles h.subscriptionName (Done h s.calls st) st x.2)
    (hinvoked : ∀ callback message, .invoked callback message ∈ t.calls →
      .invoked callback message ∈ s.calls ∨
        st.Front message.sequenceNumber (.message message.message)) : Backed h t st' := by
  refine ⟨hq, fun seqNum report hmem => ?_, fun x hx => ?_, fun callback message hmem => ?_⟩
  · rcases hrequests seqNum report hmem with hold | hdone
    · exact (hs.requests seqNum report hold).mono hcalls hst
    · exact hdone.mono hcalls hst
  · exact (hhandlers x hx).mono (fun _ hdone => hdone.mono hcalls hst) hst
  · rcases hinvoked callback message hmem with hold | hfront
    · exact (hs.invoked callback message hold).grows hst
    · exact hfront.grows hst

/-- The process has ended. -/
theorem Backed.ended (hs : Backed h s st) : Sound h { s with process := none } st :=
  ⟨⟨hs.queue, hs.requests, hs.handlers, hs.invoked⟩, nofun⟩

/-- A callback that returns or raises is recorded. -/
theorem Backed.record (hs : Backed h s st) {event : CallbackEvent}
    (hevent : ∀ callback message, event ≠ .invoked callback message) :
    Backed h (s.record event) st := by
  refine hs.mono hs.queue (.refl st) (List.prefix_append ..) (fun _ _ hmem => Or.inl hmem)
    hs.handlers fun callback message hmem => Or.inl ?_
  rcases List.mem_append.mp hmem with hold | hnew
  · exact hold
  · exact absurd (List.mem_singleton.mp hnew).symm (hevent callback message)

/-- The process enters its next `await`. -/
theorem Backed.enter (hs : Backed h s st) {prog : ClientCoro Bool} (hin : InTurn h s.calls st prog)
    (counter : Nat) : Sound h (s.enter counter prog) st := by
  cases prog with
  | pure b => exact hs.ended
  | throw e => exact hs.ended
  | await op k =>
    refine ⟨hs.mono hs.queue (.refl st) (List.prefix_append ..) ?_ hs.handlers ?_, fun p hp => ?_⟩
    · intro seqNum report hmem
      exact (List.mem_append.mp hmem).imp_right hin.requested
    · intro callback message hmem
      exact (List.mem_append.mp hmem).imp_right hin.invoked
    · cases hp
      exact ⟨op, k, s.calls, rfl, rfl, hin⟩

/-- …or it goes into its next turn, or is over. -/
theorem Backed.goOn (hs : Backed h s st) {prog : ClientCoro Bool} (hin : InTurn h s.calls st prog)
    (counter : Nat) : Sound h (s.goOn h counter prog) st := by
  cases prog with
  | throw e => exact hs.ended
  | await op k => exact hs.enter hin counter
  | pure handled =>
    cases handled with
    | false => exact hs.enter .start counter
    | true =>
      simp only [Consumption.goOn]
      split
      · exact hs.ended
      · exact hs.enter .start _

/-- Something happens to the world, and perhaps to the handlers. -/
theorem Sound.moves (hs : Sound h s st) {w : World} {handlers : List (Nat × Coro Reply)}
    (hq : HasQueue h.subscriptionName w st') (hst : st.Grows st')
    (hhandlers : ∀ x ∈ handlers, Handles h.subscriptionName (Done h s.calls st) st x.2) :
    Sound h { s with world := w, handlers := handlers } st' := by
  refine ⟨hs.toBacked.mono hq hst (List.prefix_refl _) (fun _ _ hmem => Or.inl hmem) hhandlers
    fun _ _ hmem => Or.inl hmem, fun p hp => ?_⟩
  obtain ⟨op, k, calls, hprog, hcalls, hin⟩ := hs.process p hp
  exact ⟨op, k, calls, hprog, hcalls, hin.mono hst⟩

/-! ## One step -/

/-! Each lemma is one transition; what it needs from the invariant is the place of the process or
the bound on the handler that moves. -/

section Step

variable {counter : Nat} {op : ClientOp} {k : Except ClientError op.Res → ClientCoro Bool}

/-- Where the process is. -/
theorem Sound.inTurn (hs : Sound h s st) (hp : s.process = some ⟨counter, .await op k⟩) :
    ∃ calls, s.calls = calls ++ op.invocations ∧ InTurn h calls st (.await op k) := by
  obtain ⟨op', k', calls, hprog, hcalls, hin⟩ := hs.process _ hp
  cases hprog
  exact ⟨calls, hcalls, hin⟩

/-- It hears an answer, and goes on. -/
theorem Sound.hears (hs : Sound h s st) (hp : s.process = some ⟨counter, .await op k⟩)
    {r : Except ClientError op.Res} (hr : MayHear st op r) :
    Sound h (s.goOn h counter (k r)) st := by
  obtain ⟨calls, hcalls, hin⟩ := hs.inTurn hp
  exact hs.toBacked.goOn (hcalls ▸ hin.hears hr) counter

/-- What the response of a handler may make the process hear. -/
theorem mayHear_response {name : String} {done : Nat → Prop} {handler : Coro Reply}
    (hh : Handles name done st handler) {r : Except ClientError op.Res}
    (hr : op.response handler = some r) : MayHear st op r := by
  cases r with
  | error e => cases op <;> trivial
  | ok a =>
    cases op with
    | getSubscriptionMessage name' =>
      cases a with
      | none => trivial
      | some message =>
        cases handler with
        | pure reply =>
          cases reply with
          | message message? =>
            cases hr
            exact hh.replied
          | status code => cases hr
          | finished => cases hr
        | throw e => cases hr
        | await op k => cases hr
    | callback callback message => cases handler <;> cases hr
    | setMessageStatus name' seqNum report => trivial
    | sleep tenths => trivial

/-- A call of anyone is served. -/
theorem Sound.answered (hs : Sound h s st) {op : Op}
    (hop : MayCall h.subscriptionName (Done h s.calls st) op) (env : Env) (tid : Nat) :
    ∃ st', Sound h { s with world := (answer env tid op s.world).2 } st' ∧
      ∀ m ∈ st.msgs, m ∈ st'.msgs ∨ Done h s.calls st m.seq := by
  obtain ⟨st', hq, hst, hmsgs⟩ := hs.queue.answered hop env tid
  exact ⟨st', hs.moves hq hst hs.handlers, hmsgs⟩

/-- A call of a handler is served, or not. -/
theorem Sound.handled (hs : Sound h s st) {i j : Nat} {op : Op}
    {k : Except CallError op.Res → Coro Reply} (hj : s.handlers[j]? = some (i, .await op k))
    (f : Fault Outage) :
    ∃ st', Sound h { s with
        world := (serve env).left j op s.world f
        handlers := s.handlers.set j (i, k ((serve env).heard j op s.world f)) } st' ∧
      ∀ m ∈ st.msgs, m ∈ st'.msgs ∨ Done h s.calls st m.seq := by
  have hh := hs.handlers _ (List.mem_of_getElem? hj)
  have hhandlers : ∀ x ∈ s.handlers.set j (i, k ((serve env).heard j op s.world f)),
      Handles h.subscriptionName (Done h s.calls st) st x.2 := by
    intro x hx
    rcases List.mem_or_eq_of_mem_set hx with hold | rfl
    · exact hs.handlers x hold
    · exact hh.call hs.queue j f
  by_cases hf : f.Lands
  · rw [Server.left_of_lands hf]
    obtain ⟨st', hq, hst, hmsgs⟩ := hs.queue.answered hh.calls.1 env j
    exact ⟨st', hs.moves hq hst hhandlers, hmsgs⟩
  · rw [Server.left_of_not_lands hf]
    exact ⟨st, hs.moves hs.queue (.refl st) hhandlers, fun m hm => Or.inl hm⟩

/-- A request arrives. -/
theorem Sound.arrived (hs : Sound h s st) (env : Env) {i : Nat} {request : Request}
    (hi : s.requests[i]? = some request) (salt : String) (rounds : Nat) :
    Sound h { s with
      handlers := s.handlers ++ [(i, request.handler env h.client salt rounds)] } st := by
  apply hs.moves hs.queue (.refl st)
  intro x hx
  rcases List.mem_append.mp hx with hold | hnew
  · exact hs.handlers x hold
  · rw [List.mem_singleton.mp hnew]
    apply handles_handler
    intro seqNum report heq
    exact hs.requests seqNum report (heq ▸ List.mem_of_getElem? hi)

section Callback

variable {callback : Callback} {message : ProvisioningMessage}
  {k : Except ClientError (ClientOp.callback callback message).Res → ClientCoro Bool}

/-- A callback returns. -/
theorem Sound.returned (hs : Sound h s st)
    (hp : s.process = some ⟨counter, .await (.callback callback message) k⟩) :
    Sound h ((s.record (.returned callback message)).goOn h counter (k (.ok ()))) st := by
  obtain ⟨calls, hcalls, hin⟩ := hs.inTurn hp
  have hback : Backed h (s.record (.returned callback message)) st := hs.toBacked.record nofun
  apply hback.goOn
  rw [Consumption.record, hcalls]
  exact hin.returned

/-- A callback raises, and with it `run`. -/
theorem Sound.raised (hs : Sound h s st)
    (hp : s.process = some ⟨counter, .await (.callback callback message) k⟩) (e : ClientError) :
    Sound h ((s.record (.raised callback message)).goOn h counter (k (.error e))) st := by
  obtain ⟨calls, -, hin⟩ := hs.inTurn hp
  obtain ⟨-, -, -, -, -, -, herror⟩ := hin.of_callback
  have hback : Backed h (s.record (.raised callback message)) st := hs.toBacked.record nofun
  rw [herror]
  exact hback.ended

end Callback

end Step

/-- **What a step does**: it keeps the invariant, and only messages that are done leave the
stream. -/
theorem Sound.step (hs : Sound h s st) {l : ConsumptionStep} (hl : s.step h env l = some t) :
    ∃ st', Sound h t st' ∧ ∀ m ∈ st.msgs, m ∈ st'.msgs ∨ Done h s.calls st m.seq := by
  have hkept : Sound h t st → ∃ st', Sound h t st' ∧
      ∀ m ∈ st.msgs, m ∈ st'.msgs ∨ Done h s.calls st m.seq :=
    fun ht => ⟨st, ht, fun m hm => Or.inl hm⟩
  cases Consumption.stepsTo_of_step hl with
  | start hp => exact hkept (hs.toBacked.enter .start 0)
  | crash => exact hkept hs.toBacked.ended
  | arrive hi salt rounds => exact hkept (hs.arrived env hi salt rounds)
  | serve hj f => exact hs.handled hj f
  | respond hp hj hi hr =>
    have hh := hs.handlers _ (List.mem_of_getElem? hj)
    exact hkept (hs.hears hp (mayHear_response hh hr))
  | @giveUp counter op k hp hrequests e =>
    refine hkept (hs.hears hp ?_)
    cases op <;> trivial
  | callbackReturns hp => exact hkept (hs.returned hp)
  | callbackRaises hp e => exact hkept (hs.raised hp e)
  | wake hp => exact hkept (hs.hears hp trivial)
  | @post payload seq w hanswer =>
    have hmore := hs.answered (.publish (mainSubject h.subscriptionName) payload) env 0
    rw [hanswer] at hmore
    exact hmore
  | ackWaitExpires => exact hs.answered .ackWaitExpires env 0
  | @elsewhere op hop tid => exact hs.answered (.spares op hop) env tid

/-! ## All runs -/

/-- What is left for the consumer is what the stream holds. -/
theorem HasQueue.messages (hq : HasQueue h.subscriptionName s.world st) :
    s.messages h = st.msgs := by
  unfold Consumption.messages
  rw [hq.stream]

/-- The stream is there, whatever is in it, and the consumer has never run. -/
structure Consumption.AtStart (h : MessageHandler) (s : Consumption) : Prop where
  process : s.process = none
  requests : s.requests = []
  handlers : s.handlers = []
  calls : s.calls = []
  queue : ∃ st, HasQueue h.subscriptionName s.world st

/-- Nothing has been called, so there is nothing to justify. -/
theorem sound_start (hs : s.AtStart h) : ∃ st, Sound h s st := by
  obtain ⟨st, hq⟩ := hs.queue
  refine ⟨st, ⟨hq, ?_, ?_, ?_⟩, ?_⟩
  · rw [hs.requests]
    exact fun seqNum report hmem => absurd hmem List.not_mem_nil
  · rw [hs.handlers]
    exact fun x hx => absurd hx List.not_mem_nil
  · rw [hs.calls]
    exact fun callback message hmem => absurd hmem List.not_mem_nil
  · rw [hs.process]
    exact nofun

/-- **Consumption is at least once and in order.** After any steps, in any order, the next step
takes a message out of the stream only if all callbacks have been called with it and have
returned, one after the other; and a callback is called with a message only if no earlier one is
left. -/
theorem consumption_in_order (env : Env) (h : MessageHandler) (s t u : Consumption)
    (ls : List ConsumptionStep) (l : ConsumptionStep) (hstart : s.AtStart h)
    (hrun : Machine.run (Consumption.step h env) s ls = some t) (hstep : t.step h env l = some u) :
    (∀ m ∈ t.messages h, m ∉ u.messages h → ∃ message : ProvisioningMessage,
      message.sequenceNumber = m.seq ∧ m.payload = .message message.message ∧
      calledInOrder message h.callbacks <:+: t.calls) ∧
    ∀ callback message, .invoked callback message ∈ u.calls →
      ∀ m ∈ u.messages h, message.sequenceNumber ≤ m.seq := by
  obtain ⟨st, hs⟩ := Machine.run_invariant (I := fun s => ∃ st, Sound h s st)
    (fun _ _ _ hs hl => hs.elim fun _ hs => (hs.step hl).imp fun _ ht => ht.1)
    (sound_start hstart) hrun
  obtain ⟨st', hu, hmsgs⟩ := hs.step hstep
  rw [hs.queue.messages, hu.queue.messages]
  constructor
  · intro m hm hgone
    rcases hmsgs m hm with hkept | ⟨message, hseq, hfront, hcalls⟩
    · exact absurd hkept hgone
    · exact ⟨message, hseq, hfront.payload m hm rfl, hcalls⟩
  · intro callback message hmem
    exact (hu.invoked callback message hmem).first

/-! ## A deletion after the retries are used up -/

/-! The order that a reader would doubt: the message disappears only when the consumer has long
stopped to wait for it. -/

def Consumption.withMessage : Consumption where
  world := .withMessage
  process := none
  requests := []
  handlers := []
  calls := []

/-- The consumer has handled its message and given up on the acknowledgement; the handler of the
first attempt is about to delete the message. -/
def lateSteps : List ConsumptionStep :=
  [.start, .post (.message .sample), .arrive 0 "x" 0] ++ List.replicate 8 (.serve 0 .ok) ++
    [.respond 0, .callbackReturns, .callbackReturns, .arrive 1 "x" 0] ++
    List.replicate 3 (.serve 1 .ok) ++ [.giveUp .client, .wake, .giveUp .client]

theorem consumption_in_order_late : ∃ t u,
    Machine.run (Consumption.step .sample .sample) .withMessage lateSteps = some t ∧
    t.step .sample .sample (.serve 1 .ok) = some u ∧
    (∀ m ∈ t.messages .sample, m ∉ u.messages .sample → ∃ message : ProvisioningMessage,
      message.sequenceNumber = m.seq ∧ m.payload = .message message.message ∧
      calledInOrder message MessageHandler.sample.callbacks <:+: t.calls) ∧
    ∀ callback message, .invoked callback message ∈ u.calls →
      ∀ m ∈ u.messages .sample, message.sequenceNumber ≤ m.seq :=
  have hstart : Consumption.AtStart .sample .withMessage :=
    ⟨rfl, rfl, rfl, rfl, _, rfl, _, rfl, rfl⟩
  ⟨_, _, rfl, rfl, consumption_in_order .sample .sample .withMessage _ _ lateSteps (.serve 1 .ok)
    hstart rfl rfl⟩

end Provisioning
