import Provisioning.Properties.Consumption
import Provisioning.Properties.DispatchOrder

/-!
# The messages of a callback

What a callback of the consumer is called with over a whole run: restarts, callbacks that raise,
requests that are lost, late or handled twice, acknowledgements that never come.
**`callbacks_in_order`** says that it is the stream of the subscription, from its beginning, without
a gap and in order, but for messages that come again before the next one does.

That is the fan-out of `Fanout`, with the callbacks for its receivers. An event is acknowledged when
a handler deletes it, which may be one that hardly anybody remembers; and it is held by whoever may
still hand it to the callbacks: the process that is at it, and the handlers of the request that the
process is waiting for.

## What is held

In the dispatcher a message is held by the process that was handed it. Here there is a handler in
between, which runs in the API, survives the death of the process and the loss of its connection,
and may be served its calls at any time. A handler that was handed a message and has not responded
yet holds it; but only as long as somebody waits for its response. When the process gives up on a
request or dies, its handlers go on, and what they hold can no longer reach a callback.

So in `CallsInOrder` the condition on the handlers stands under the condition that the process waits
for a message, and speaks of the handlers of the last request only. `Guarded` says it for a handler
that has not got there: it responds with a message only if it is handed it.

## What is acknowledged

Several things are called an acknowledgement in the code, and the one that counts here is that the
message is gone from the stream. It is deleted by its number, and only when all callbacks have
returned for it; that is the invariant of `Consumption`, and is used as it stands. So the log of the
fan-out is the stream with what was deleted in front of it, and `Logged` is the relation that a
stream is the rest of a log.
-/

namespace Provisioning

open Await Store Prog

variable {env : Env} {h : MessageHandler} {s t : Consumption} {st st' : Store.Stream Payload}
  {w : World} {log : List (Nat × Payload)} {acked : Nat} {held : List Nat}

/-! ## What a callback is called with -/

/-- The message, under its number. -/
def ProvisioningMessage.entry (message : ProvisioningMessage) : Nat × Payload :=
  (message.sequenceNumber, .message message.message)

/-- The call of this callback, if it is one. That it returned or raised does not count. -/
def CallbackEvent.invocation? (callback : Callback) : CallbackEvent → Option (Nat × Payload)
  | .invoked called message => if called = callback then some message.entry else none
  | .returned .. => none
  | .raised .. => none

namespace Consumption

/-- The messages that the callback was called with. -/
def calledWith (s : Consumption) (callback : Callback) : List (Nat × Payload) :=
  s.calls.filterMap (CallbackEvent.invocation? callback)

end Consumption

/-- What the step posts to the subscription. -/
def ConsumptionStep.posted? : ConsumptionStep → Option Payload
  | .post payload => some payload
  | _ => none

/-- The receivers of the fan-out. Two registrations of one callback are one receiver. -/
abbrev Called (h : MessageHandler) : Type := { callback // callback ∈ h.callbacks }

/-- Every callback is called with every message. -/
def Called.wants (_ : Called h) (_ : Nat × Payload) : Bool := true

/-- The fan-out of the stream to the callbacks. -/
def fanning (h : MessageHandler) (s : Consumption) (log : List (Nat × Payload)) (acked : Nat)
    (held : List Nat) : Fanout.State (Called h) (Nat × Payload) :=
  ⟨log, acked, held, fun i => s.calledWith i.1⟩

/-! ## Who may hand a message to the callbacks -/

/-- The message is held. -/
def HeldIn (log : List (Nat × Payload)) (held : List Nat) (message : ProvisioningMessage) : Prop :=
  ∃ j ∈ held, log[j]? = some message.entry

/-- The message is the one at work. -/
def AtWork (log : List (Nat × Payload)) (held : List Nat) (message : ProvisioningMessage) : Prop :=
  ∃ j rest, held = j :: rest ∧ log[j]? = some message.entry

/-- A call that does not publish to the subscription. -/
def NoPost (name : String) (op : Op) : Prop :=
  ∀ subject payload, op ≠ .publish subject payload (streamKey name)

/-- A handler returns only what is held. -/
def ReturnsHeld (name : String) (log : List (Nat × Payload)) (held : List Nat)
    (handler : Coro Reply) : Prop :=
  ∀ message, handler.Guarded (IsHanded name message) (fun _ => False)
    (fun r => r = .ok (.message (some message))) ∨ HeldIn log held message

/-- What is known whatever the process is at. -/
structure Fans (h : MessageHandler) (s : Consumption) (st : Store.Stream Payload)
    (log : List (Nat × Payload)) (acked : Nat) (held : List Nat) : Prop where
  inv : Fanout.Inv Called.wants (fanning h s log acked held)
  logged : Logged log acked st
  quiet : ∀ x ∈ s.handlers, x.2.Uses (NoPost h.subscriptionName)
  known : ∀ x ∈ s.handlers, x.1 < s.requests.length

/-- **The callbacks are served in order.** -/
structure CallsInOrder (h : MessageHandler) (s : Consumption) (st : Store.Stream Payload)
    (log : List (Nat × Payload)) (acked : Nat) (held : List Nat) : Prop
    extends Fans h s st log acked held where
  waiting : ∀ counter name k, s.process = some ⟨counter, .await (.getSubscriptionMessage name) k⟩ →
    ∀ x ∈ s.handlers, x.1 + 1 = s.requests.length →
      ReturnsHeld h.subscriptionName log held x.2
  calling : ∀ counter callback message k,
    s.process = some ⟨counter, .await (.callback callback message) k⟩ → AtWork log held message

/-! ## The process -/

/-! After each of its awaits the process goes on to the next one, into its next turn, or is over.
Only where the next await is that of a callback is there something to show. -/

section Process

variable {counter : Nat} {prog : ClientCoro Bool}

/-- Requests are only added. -/
theorem known_more {requests more : List Request} {handlers : List (Nat × Coro Reply)}
    (hknown : ∀ x ∈ handlers, x.1 < requests.length) :
    ∀ x ∈ handlers, x.1 < (requests ++ more).length := by
  intro x hx
  rw [List.length_append]
  exact Nat.lt_add_right _ (hknown x hx)

/-- The process is over. -/
theorem Fans.ended (hf : Fans h s st log acked held) :
    CallsInOrder h { s with process := none } st log acked held :=
  ⟨⟨hf.inv, hf.logged, hf.quiet, hf.known⟩, nofun, nofun⟩

/-- What the awaits other than those of callbacks leave of the calls. -/
theorem fanning_eq {t : Consumption} (hcalls : t.calls = s.calls) :
    fanning h t log acked held = fanning h s log acked held := by
  unfold fanning Consumption.calledWith
  rw [hcalls]

/-- A callback is called with the message at work. -/
theorem Fans.invoke (hf : Fans h s st log acked held) {callback : Callback}
    {message : ProvisioningMessage} (hmem : callback ∈ h.callbacks)
    (hwork : AtWork log held message) {t : Consumption}
    (hcalls : t.calls = s.calls ++ [.invoked callback message]) :
    Fanout.Inv Called.wants (fanning h t log acked held) := by
  obtain ⟨j, rest, hheld, hj⟩ := hwork
  have hsend := hf.inv.send (i := (⟨callback, hmem⟩ : Called h)) hheld hj rfl
  have hsent : fanning h t log acked held = { fanning h s log acked held with
      sent := Function.update (fanning h s log acked held).sent ⟨callback, hmem⟩
        ((fanning h s log acked held).sent ⟨callback, hmem⟩ ++ [message.entry]) } := by
    unfold fanning Consumption.calledWith
    rw [hcalls]
    congr 1
    funext i
    rw [List.filterMap_append]
    by_cases hi : i = ⟨callback, hmem⟩
    · subst hi
      rw [Function.update_self]
      exact congrArg (_ ++ ·) (List.filterMap_cons_some (if_pos rfl))
    · rw [Function.update_of_ne hi]
      have hnone : (CallbackEvent.invoked callback message).invocation? i.1 = none :=
        if_neg fun heq => hi (Subtype.ext heq.symm)
      rw [List.filterMap_cons_none hnone, List.filterMap_nil, List.append_nil]
  rw [hsent]
  exact hsend

/-- **The process enters its next `await`**: a callback only with the message at work. -/
theorem Fans.enter (hf : Fans h s st log acked held)
    (hcall : ∀ callback message k, prog = .await (.callback callback message) k →
      callback ∈ h.callbacks ∧ AtWork log held message) (counter : Nat) :
    CallsInOrder h (s.enter counter prog) st log acked held := by
  cases prog with
  | pure b => exact hf.ended
  | throw e => exact hf.ended
  | await op k =>
    cases op with
    | getSubscriptionMessage name =>
      refine ⟨⟨?_, hf.logged, hf.quiet, known_more hf.known⟩, ?_, nofun⟩
      · rw [fanning_eq (List.append_nil s.calls)]
        exact hf.inv
      · -- The request has just been sent.
        intro counter' name' k' _ x hx hlast
        have hlt := hf.known x hx
        have hlen : (s.requests ++ [Request.next]).length = s.requests.length + 1 := by simp
        have hlast' : x.1 + 1 = (s.requests ++ [Request.next]).length := hlast
        omega
    | setMessageStatus name seqNum status =>
      refine ⟨⟨?_, hf.logged, hf.quiet, known_more hf.known⟩, nofun, nofun⟩
      rw [fanning_eq (List.append_nil s.calls)]
      exact hf.inv
    | sleep tenths =>
      refine ⟨⟨?_, hf.logged, hf.quiet, known_more hf.known⟩, nofun, nofun⟩
      rw [fanning_eq (List.append_nil s.calls)]
      exact hf.inv
    -- The next one to be called is at work, which is what the process promises.
    | callback callback message =>
      obtain ⟨hmem, hwork⟩ := hcall callback message k rfl
      refine ⟨⟨hf.invoke hmem hwork rfl, hf.logged, hf.quiet, known_more hf.known⟩, nofun, ?_⟩
      intro counter' callback' message' k' hp
      cases hp
      exact hwork

/-- …or goes into its next turn, or is over. -/
theorem Fans.goOn (hf : Fans h s st log acked held)
    (hcall : ∀ callback message k, prog = .await (.callback callback message) k →
      callback ∈ h.callbacks ∧ AtWork log held message) (counter : Nat) :
    CallsInOrder h (s.goOn h counter prog) st log acked held := by
  have hturn : ∀ callback message k, h.turn = .await (.callback callback message) k →
      callback ∈ h.callbacks ∧ AtWork log held message := by
    intro callback message k heq
    obtain ⟨k', hawait, -⟩ := turn_eq h
    cases heq.symm.trans hawait
  cases prog with
  | throw e => exact hf.ended
  | await op k => exact hf.enter hcall counter
  | pure handled =>
    cases handled with
    | false => exact hf.enter hturn counter
    | true =>
      simp only [Consumption.goOn]
      split
      · exact hf.ended
      · exact hf.enter hturn _

/-- Of the callbacks that are left the first is next. -/
theorem call_of_handleMessage {message : ProvisioningMessage} {callbacks : List Callback}
    (hall : ∀ callback ∈ callbacks, callback ∈ h.callbacks) (hwork : AtWork log held message)
    {callback : Callback} {message' : ProvisioningMessage}
    {k : Except ClientError (ClientOp.callback callback message').Res → ClientCoro Bool}
    (heq : h.handleMessage message callbacks = .await (.callback callback message') k) :
    callback ∈ h.callbacks ∧ AtWork log held message' := by
  cases callbacks with
  | cons called callbacks =>
    obtain ⟨k', hawait, -⟩ := handleMessage_cons h message called callbacks
    cases heq.symm.trans hawait
    exact ⟨hall _ List.mem_cons_self, hwork⟩
  | nil =>
    have huses := uses_handleMessage_nil h message
    rw [heq] at huses
    cases huses.1

/-- What the process is at while it waits for a message. -/
theorem InTurn.of_next {calls : List CallbackEvent} {name : String}
    {k : Except ClientError (ClientOp.getSubscriptionMessage name).Res → ClientCoro Bool}
    (hin : InTurn h calls st (.await (.getSubscriptionMessage name) k)) :
    k (.ok none) = .pure false ∧
      (∀ message, Describable message.message →
        k (.ok (some message)) = h.handleMessage message h.callbacks) ∧
      (∀ message, ¬ Describable message.message → k (.ok (some message)) = .throw .other) ∧
      ∀ e, k (.error e) = .throw e := by
  generalize hprog : (.await (.getSubscriptionMessage name) k : ClientCoro Bool) = prog at hin
  cases hin with
  | start =>
    obtain ⟨k', hturn, hanswers⟩ := turn_eq h
    cases hprog.trans hturn
    exact hanswers
  | calling message before after callback =>
    obtain ⟨k', hawait, -⟩ := handleMessage_cons h message callback after
    cases hprog.trans hawait
  | acknowledging seqNum hdone prog huses =>
    subst hprog
    cases huses.1
  | finished prog hfinished =>
    subst hprog
    cases hfinished

/-- An acknowledgement goes on without a callback. -/
theorem InTurn.no_callback {calls : List CallbackEvent} {op : ClientOp}
    {k : Except ClientError op.Res → ClientCoro Bool} (hin : InTurn h calls st (.await op k))
    (hop : (∃ seqNum name status, op = .setMessageStatus name seqNum status) ∨
      ∃ tenths, op = .sleep tenths) (r : Except ClientError op.Res) {callback : Callback}
    {message : ProvisioningMessage}
    {k' : Except ClientError (ClientOp.callback callback message).Res → ClientCoro Bool} :
    k r ≠ .await (.callback callback message) k' := by
  intro heq
  generalize hprog : (.await op k : ClientCoro Bool) = prog at hin
  cases hin with
  | start =>
    obtain ⟨k'', hturn, -⟩ := turn_eq h
    cases hprog.trans hturn
    rcases hop with ⟨seqNum, name, status, hop⟩ | ⟨tenths, hop⟩ <;> cases hop
  | calling message' before after callback' =>
    obtain ⟨k'', hawait, -⟩ := handleMessage_cons h message' callback' after
    cases hprog.trans hawait
    rcases hop with ⟨seqNum, name, status, hop⟩ | ⟨tenths, hop⟩ <;> cases hop
  | acknowledging seqNum hdone prog huses =>
    subst hprog
    have hnext := huses.2 r
    rw [heq] at hnext
    cases hnext.1
  | finished prog hfinished =>
    subst hprog
    cases hfinished

end Process

/-! ## The stream -/

/-! What calls do to the stream: a publication by somebody else appends, a deletion takes out what
is done, and nothing else changes the messages. -/

section Call

variable {name : String} {done : Nat → Prop} {op : Op}

/-- What a call does to the stream, if it publishes nothing: at most it deletes what is done. -/
theorem HasQueue.effect (hq : HasQueue name w st) (hop : MayCall name done op)
    (hpost : NoPost name op) {tid : Nat}
    (hst' : (answer env tid op w).2.streams (streamKey name) = some st') :
    (st'.msgs = st.msgs ∧ st'.last = st.last) ∨
      ∃ seq, done seq ∧ st' = st.keep (·.seq != seq) := by
  obtain ⟨d, hd, -⟩ := hq.consumer
  have hsame : ∀ {d' : Durable}, st' = st.setDurable (durableKey name) (some d') →
      st'.msgs = st.msgs ∧ st'.last = st.last := by
    intro d' heq
    rw [heq]
    exact ⟨rfl, rfl⟩
  cases hop with
  | spares op hop =>
    rw [streams_answer_of_spares env tid w hop, hq.stream] at hst'
    cases hst'
    exact Or.inl ⟨rfl, rfl⟩
  | fetch =>
    simp only [answer, hq.stream, hd] at hst'
    split at hst'
    · rw [hq.stream] at hst'
      cases hst'
      exact Or.inl ⟨rfl, rfl⟩
    · rw [World.streams_setStream_self] at hst'
      exact Or.inl (hsame (Option.some.inj hst').symm)
  | deleteMsg seq hdone =>
    simp only [answer, hq.stream] at hst'
    split at hst'
    · rw [World.streams_setStream_self] at hst'
      exact Or.inr ⟨seq, hdone, (Option.some.inj hst').symm⟩
    · rw [hq.stream] at hst'
      cases hst'
      exact Or.inl ⟨rfl, rfl⟩
  | publish subject payload => exact absurd rfl (hpost subject payload)
  | ackWaitExpires =>
    simp only [answer, hq.stream, hd, World.streams_setStream_self] at hst'
    exact Or.inl (hsame (Option.some.inj hst').symm)

/-- All callbacks have been called with what is done. -/
theorem Done.calledWith {seq : Nat} (hdone : Done h s.calls st seq) {m : Stored Payload}
    (hm : m ∈ st.msgs) (hseq : m.seq = seq) (i : Called h) :
    (m.seq, m.payload) ∈ s.calledWith i.1 := by
  obtain ⟨message, hmessage, hfront, hinfix⟩ := hdone
  have hentry : (m.seq, m.payload) = message.entry := by
    rw [hfront.payload m hm hseq, hseq, ← hmessage]
    rfl
  rw [hentry]
  refine List.mem_filterMap.mpr ⟨.invoked i.1 message, hinfix.subset ?_, if_pos rfl⟩
  exact List.mem_flatMap.mpr ⟨i.1, i.2, List.mem_cons_self⟩

/-- **The stream and the fan-out stay together.** -/
theorem Fans.effect (hf : Fans h s st log acked held)
    (heffect : (st'.msgs = st.msgs ∧ st'.last = st.last) ∨
      ∃ seq, Done h s.calls st seq ∧ st' = st.keep (·.seq != seq)) :
    ∃ acked', Fans h s st' log acked' held := by
  have hunchanged : st'.msgs = st.msgs → st'.last = st.last → Fans h s st' log acked held := by
    intro hmsgs hlast
    refine ⟨hf.inv, ⟨?_, ?_, hf.logged.sorted⟩, hf.quiet, hf.known⟩
    · rw [hmsgs]
      exact hf.logged.msgs
    · rw [hlast]
      exact hf.logged.bounded
  rcases heffect with ⟨hmsgs, hlast⟩ | ⟨seq, hdone, rfl⟩
  · exact ⟨acked, hunchanged hmsgs hlast⟩
  · by_cases hstored : ∃ m ∈ st.msgs, m.seq = seq
    · -- What is done is at the front.
      obtain ⟨m, hm, hseq⟩ := hstored
      have hfirst : ∀ n ∈ st.msgs, m.seq ≤ n.seq := by
        obtain ⟨message, -, hfront, -⟩ := id hdone
        rw [hseq]
        exact hfront.first
      have hnext := hf.logged.front hm hfirst
      obtain ⟨callback, hcallback⟩ := List.exists_mem_of_ne_nil _ h.callbacks_ne_nil
      have hinv := hf.inv.ack_late (i := (⟨callback, hcallback⟩ : Called h)) hnext
        (Nat.le_refl acked) (fun i _ => hdone.calledWith hm hseq i) rfl
      refine ⟨max acked (acked + 1), hinv, ?_, hf.quiet, hf.known⟩
      rw [← hseq]
      exact hf.logged.remove hnext (Nat.le_refl acked)
    · -- It was gone already.
      refine ⟨acked, hunchanged ?_ rfl⟩
      refine List.filter_eq_self.mpr fun m hm => ?_
      simpa using fun heq => hstored ⟨m, hm, heq⟩

/-- A delivery is handed out. -/
theorem Fans.handOut (hf : Fans h s st log acked held) (hlt : acked < log.length) :
    Fans h s st log acked (held ++ [acked]) :=
  ⟨hf.inv.handOut hlt, hf.logged, hf.quiet, hf.known⟩

/-- An event is posted. -/
theorem Fans.post (hf : Fans h s st log acked held) (subject : String) (payload : Payload)
    (tid : Nat) : Fans h s (st.append subject payload tid) (log ++ [(st.last + 1, payload)])
      acked held :=
  ⟨hf.inv.post (hf.logged.new payload), hf.logged.append hf.inv.acked subject payload tid, hf.quiet,
    hf.known⟩

/-- What a handler hears it was handed: it is the next one. -/
theorem HasQueue.hands_entry (hq : HasQueue name w st) (hl : Logged log acked st) {tid : Nat}
    {f : Fault Outage} {message : ProvisioningMessage}
    (hheard : IsHanded name message op ((serve env).heard tid op w f)) :
    log[acked]? = some message.entry := by
  obtain ⟨msg, ⟨hpayload, hseq, -⟩, hfetches⟩ := hheard
  obtain ⟨-, rfl, hanswer⟩ := fetches_heard hfetches
  have hok : (answer env tid (.fetch (streamKey name) (durableKey name)) w).1 = .ok msg :=
    fetches_ok hanswer
  obtain ⟨s, d, m, hs, hd, hm, hmsg, -⟩ := answer_fetch_ok (Prod.ext hok rfl)
  cases hq.stream.symm.trans hs
  have hfront := hq.fetched hok
  have hmem := Stream.mem_of_oldest (Stream.oldest_of_fetch hm)
  have hfirst : ∀ n ∈ st.msgs, m.seq ≤ n.seq := by
    rw [hmsg] at hfront
    exact hfront.first
  rw [hl.front hmem hfirst]
  have hentry : message.entry = (msg.streamSeq, msg.payload) := by
    unfold ProvisioningMessage.entry
    rw [hseq, hpayload]
  rw [hentry, hmsg]
  rfl

/-- What is held stays held when more is held and more is posted. -/
theorem HeldIn.mono {log' : List (Nat × Payload)} {held' : List Nat} {message : ProvisioningMessage}
    (hheld : HeldIn log held message) (hsub : held ⊆ held') (hlog : log <+: log') :
    HeldIn log' held' message := by
  obtain ⟨j, hj, hentry⟩ := hheld
  obtain ⟨more, rfl⟩ := hlog
  obtain ⟨hlt, -⟩ := List.getElem?_eq_some_iff.mp hentry
  exact ⟨j, hsub hj, (List.getElem?_append_left hlt).trans hentry⟩

end Call

/-! ## One step -/

/-! The kinds of steps of `StepsTo`, one lemma each: a handler makes a call, somebody else does, a
request arrives, a response reaches the process, the process gives up, a callback returns or
raises, an event is posted. The log and what is held can only grow in each of them, which is why all
the lemmas end in the same relations. -/

section Step

variable {log' : List (Nat × Payload)} {acked' : Nat} {held' : List Nat}
  {message : ProvisioningMessage} {name : String} {counter : Nat}

/-- The message at work stays the first that is held. -/
theorem AtWork.mono (hwork : AtWork log held message) (hheld : held <+: held')
    (hlog : log <+: log') : AtWork log' held' message := by
  obtain ⟨j, rest, rfl, hentry⟩ := hwork
  obtain ⟨more, rfl⟩ := hlog
  obtain ⟨added, rfl⟩ := hheld
  obtain ⟨hlt, -⟩ := List.getElem?_eq_some_iff.mp hentry
  exact ⟨j, rest ++ added, rfl, (List.getElem?_append_left hlt).trans hentry⟩

/-- What a handler may respond with stays held. -/
theorem ReturnsHeld.mono {handler : Coro Reply} (hr : ReturnsHeld name log held handler)
    (hheld : held <+: held') (hlog : log <+: log') : ReturnsHeld name log' held' handler :=
  fun message => (hr message).imp_right fun h => h.mono hheld.subset hlog

/-- The process has not moved. -/
theorem CallsInOrder.moves (hc : CallsInOrder h s st log acked held)
    (hf : Fans h t st' log' acked' held') (hheld : held <+: held') (hlog : log <+: log')
    (hprocess : t.process = s.process) (hrequests : t.requests = s.requests)
    (hhandlers : ∀ x ∈ t.handlers, (∃ y ∈ s.handlers, y.1 = x.1 ∧
        (ReturnsHeld h.subscriptionName log held y.2 →
          ReturnsHeld h.subscriptionName log' held' x.2)) ∨
      ReturnsHeld h.subscriptionName log' held' x.2) :
    CallsInOrder h t st' log' acked' held' := by
  refine ⟨hf, fun counter name k hp x hx hlast => ?_, fun counter callback message k hp => ?_⟩
  · rcases hhandlers x hx with ⟨y, hy, hsame, hnext⟩ | hnext
    · refine hnext (hc.waiting counter name k (hprocess.symm.trans hp) y hy ?_)
      rw [hsame, hlast, hrequests]
    · exact hnext
  · exact (hc.calling counter callback message k (hprocess.symm.trans hp)).mono hheld hlog

/-- Whoever is handed a message now holds the next one. -/
theorem Fans.handOut_next (hf : Fans h s st log acked held) :
    ∃ held', held <+: held' ∧ Fans h s st log acked held' ∧
      ∀ message : ProvisioningMessage, log[acked]? = some message.entry →
        HeldIn log held' message := by
  by_cases hlt : acked < log.length
  · refine ⟨held ++ [acked], List.prefix_append .., hf.handOut hlt, fun message hentry => ?_⟩
    exact ⟨acked, List.mem_append_right _ List.mem_cons_self, hentry⟩
  · refine ⟨held, List.prefix_rfl, hf, fun message hentry => ?_⟩
    exact absurd (List.getElem?_eq_some_iff.mp hentry).1 hlt

/-- A handler goes on after a call. -/
theorem ReturnsHeld.call {op : Op} {k : Except CallError op.Res → Coro Reply}
    (hr : ReturnsHeld name log held (.await op k)) (hq : HasQueue name w st)
    (hl : Logged log acked st) (hheld : held <+: held')
    (hnext : ∀ message : ProvisioningMessage, log[acked]? = some message.entry →
      HeldIn log held' message) (tid : Nat) (f : Fault Outage) :
    ReturnsHeld name log held' (k ((serve env).heard tid op w f)) := by
  intro message
  rcases hr message with hguarded | hin
  · by_cases hheard : IsHanded name message op ((serve env).heard tid op w f)
    · exact Or.inr (hnext message (hq.hands_entry hl hheard))
    · exact Or.inl (hguarded.2 _ hheard)
  · exact Or.inr (hin.mono hheld.subset List.prefix_rfl)

/-- **A call of a handler** is served, or not. -/
theorem CallsInOrder.handled (hc : CallsInOrder h s st log acked held) (hs : Sound h s st)
    {i j : Nat} {op : Op} {k : Except CallError op.Res → Coro Reply}
    (hj : s.handlers[j]? = some (i, .await op k)) (f : Fault Outage)
    (hst' : ((serve env).left j op s.world f).streams (streamKey h.subscriptionName) =
      some st') :
    ∃ acked' held', CallsInOrder h { s with
        world := (serve env).left j op s.world f
        handlers := s.handlers.set j (i, k ((serve env).heard j op s.world f)) }
      st' log acked' held' := by
  have hmem := List.mem_of_getElem? hj
  have hh := hs.handlers _ hmem
  have hquiet := hc.quiet _ hmem
  -- Whatever the call is, the stream loses at most a message that is done.
  have heffect : (st'.msgs = st.msgs ∧ st'.last = st.last) ∨
      ∃ seq, Done h s.calls st seq ∧ st' = st.keep (·.seq != seq) := by
    by_cases hf : f.Lands
    · rw [Server.left_of_lands hf] at hst'
      exact hs.queue.effect hh.calls.1 hquiet.1 hst'
    · rw [Server.left_of_not_lands hf, hs.queue.stream] at hst'
      cases hst'
      exact Or.inl ⟨rfl, rfl⟩
  obtain ⟨held', hheld, hf', hnext⟩ := hc.toFans.handOut_next
  obtain ⟨acked', hfans⟩ := hf'.effect heffect
  have hset : ∀ x ∈ s.handlers.set j (i, k ((serve env).heard j op s.world f)),
      x ∈ s.handlers ∨ x = (i, k ((serve env).heard j op s.world f)) :=
    fun x hx => List.mem_or_eq_of_mem_set hx
  refine ⟨acked', held', hc.moves ⟨hfans.inv, hfans.logged, ?_, ?_⟩ hheld List.prefix_rfl rfl rfl
    fun x hx => Or.inl ?_⟩
  · intro x hx
    rcases hset x hx with hold | rfl
    · exact hc.quiet x hold
    · exact hquiet.2 _
  · intro x hx
    rcases hset x hx with hold | rfl
    · exact hc.known x hold
    · show i < s.requests.length
      exact hc.known _ hmem
  · rcases hset x hx with hold | rfl
    · exact ⟨x, hold, rfl, fun hr => hr.mono hheld List.prefix_rfl⟩
    · exact ⟨_, hmem, rfl, fun hr => hr.call hs.queue hc.logged hheld hnext j f⟩

/-- Somebody else's call is served. -/
theorem CallsInOrder.answered (hc : CallsInOrder h s st log acked held) (hs : Sound h s st)
    {op : Op} (hop : MayCall h.subscriptionName (Done h s.calls st) op)
    (hpost : NoPost h.subscriptionName op) {tid : Nat}
    (hst' : (answer env tid op s.world).2.streams (streamKey h.subscriptionName) = some st') :
    ∃ acked', CallsInOrder h { s with world := (answer env tid op s.world).2 } st' log acked'
      held := by
  obtain ⟨acked', hfans⟩ := hc.toFans.effect (hs.queue.effect hop hpost hst')
  exact ⟨acked', hc.moves ⟨hfans.inv, hfans.logged, hfans.quiet, hfans.known⟩ List.prefix_rfl
    List.prefix_rfl rfl rfl fun x hx => Or.inl ⟨x, hx, rfl, id⟩⟩

/-- The handlers of the consumer's requests publish nothing to the subscription. -/
theorem noPost_handler {client : ProvisioningConsumerClientSettings} (request : Request)
    (salt : String) (rounds : Nat) :
    (request.handler env client salt rounds).Uses (NoPost client.provisioningApiUsername) := by
  have hauth : (authenticateUser salt
      ⟨client.provisioningApiUsername, client.provisioningApiPassword⟩
      (some client.provisioningApiUsername)).Uses (NoPost client.provisioningApiUsername) := by
    refine (uses_authenticateUser ..).mono fun op hop subject payload heq => ?_
    subst heq
    cases hop
  cases request with
  | next =>
    refine Uses.bind hauth fun _ => Uses.bind (uses_getNextMessage_of _ rounds ?_) fun _ => trivial
    intro op hop _ subject payload heq
    subst heq
    cases hop with
    | message hop => cases hop
  | status seqNum report =>
    refine Uses.bind hauth fun _ => Uses.bind ?_ fun _ => trivial
    refine (uses_updateMessageStatus ..).mono fun op hop subject payload heq => ?_
    subst heq
    cases hop

/-- A request arrives. -/
theorem CallsInOrder.arrived (hc : CallsInOrder h s st log acked held) (env : Env) {i : Nat}
    {request : Request} (hi : s.requests[i]? = some request) (salt : String) (rounds : Nat) :
    CallsInOrder h { s with
      handlers := s.handlers ++ [(i, request.handler env h.client salt rounds)] }
      st log acked held := by
  have hnew : ∀ x ∈ s.handlers ++ [(i, request.handler env h.client salt rounds)],
      x ∈ s.handlers ∨ x = (i, request.handler env h.client salt rounds) :=
    fun x hx => (List.mem_append.mp hx).imp_right List.mem_singleton.mp
  refine hc.moves ⟨hc.inv, hc.logged, fun x hx => ?_, fun x hx => ?_⟩ List.prefix_rfl
    List.prefix_rfl rfl rfl fun x hx => ?_
  · rcases hnew x hx with hold | rfl
    · exact hc.quiet x hold
    · exact noPost_handler request salt rounds
  · rcases hnew x hx with hold | rfl
    · exact hc.known x hold
    · exact (List.getElem?_eq_some_iff.mp hi).1
  · rcases hnew x hx with hold | rfl
    · exact Or.inl ⟨x, hold, rfl, id⟩
    · exact Or.inr fun message => Or.inl (guarded_handler salt rounds message)

/-- An event is posted. -/
theorem CallsInOrder.posted (hc : CallsInOrder h s st log acked held) (subject : String)
    (payload : Payload) (tid : Nat) (w : World) :
    CallsInOrder h { s with world := w } (st.append subject payload tid)
      (log ++ [(st.last + 1, payload)]) acked held := by
  have hf := hc.toFans.post subject payload tid
  exact hc.moves ⟨hf.inv, hf.logged, hf.quiet, hf.known⟩ List.prefix_rfl (List.prefix_append ..) rfl
    rfl fun x hx => Or.inl
      ⟨x, hx, rfl, fun hr => hr.mono List.prefix_rfl (List.prefix_append ..)⟩

/-- A callback has returned or raised. -/
theorem Fans.record (hf : Fans h s st log acked held) {event : CallbackEvent}
    (hevent : ∀ callback, event.invocation? callback = none) :
    Fans h (s.record event) st log acked held := by
  refine ⟨?_, hf.logged, hf.quiet, hf.known⟩
  have hsame : fanning h (s.record event) log acked held = fanning h s log acked held := by
    unfold fanning Consumption.calledWith Consumption.record
    congr 1
    funext i
    rw [List.filterMap_append, List.filterMap_cons_none (hevent i.1), List.filterMap_nil,
      List.append_nil]
  rw [hsame]
  exact hf.inv

/-- **The process hears a message**, and lets go of all others. -/
theorem CallsInOrder.heard (hc : CallsInOrder h s st log acked held) (hs : Sound h s st)
    {k : Except ClientError (ClientOp.getSubscriptionMessage name).Res → ClientCoro Bool}
    (hp : s.process = some ⟨counter, .await (.getSubscriptionMessage name) k⟩)
    (hheld : HeldIn log held message) :
    ∃ held', CallsInOrder h (s.goOn h counter (k (.ok (some message)))) st log acked held' := by
  obtain ⟨calls, -, hin⟩ := hs.inTurn hp
  obtain ⟨-, hsome, hstuck, -⟩ := hin.of_next
  obtain ⟨j, hj, hentry⟩ := hheld
  have hdrop : Fans h s st log acked [j] :=
    ⟨hc.inv.drop (List.singleton_sublist.mpr hj), hc.logged, hc.quiet, hc.known⟩
  refine ⟨[j], hdrop.goOn (fun callback message' k' heq => ?_) counter⟩
  by_cases hdescribable : Describable message.message
  · rw [hsome message hdescribable] at heq
    exact call_of_handleMessage (fun _ hmem => hmem) ⟨j, [], rfl, hentry⟩ heq
  · rw [hstuck message hdescribable] at heq
    cases heq

/-- The response of a handler reaches the process. -/
theorem CallsInOrder.responded (hc : CallsInOrder h s st log acked held) (hs : Sound h s st)
    {i : Nat} {op : ClientOp} {k : Except ClientError op.Res → ClientCoro Bool}
    {handler : Coro Reply} {r : Except ClientError op.Res}
    (hp : s.process = some ⟨counter, .await op k⟩) (hmem : (i, handler) ∈ s.handlers)
    (hi : i + 1 = s.requests.length) (hr : op.response handler = some r) :
    ∃ held', CallsInOrder h (s.goOn h counter (k r)) st log acked held' := by
  obtain ⟨calls, -, hin⟩ := hs.inTurn hp
  -- Only the answer to a poll can lead to a callback, and it has to come from a handler that is
  -- over.
  cases op with
  | getSubscriptionMessage name =>
    obtain ⟨hnone, -, -, herror⟩ := hin.of_next
    cases r with
    | error e =>
      refine ⟨held, hc.toFans.goOn (fun callback message k' heq => ?_) counter⟩
      rw [herror] at heq
      cases heq
    | ok message? =>
      cases message? with
      | none =>
        refine ⟨held, hc.toFans.goOn (fun callback message k' heq => ?_) counter⟩
        rw [hnone] at heq
        cases heq
      | some message =>
        have hreturns := hc.waiting counter name k hp _ hmem hi message
        have hpure : handler = .pure (.message (some message)) := by
          cases handler with
          | pure reply =>
            cases reply with
            | message message? =>
              cases hr
              rfl
            | status code => cases hr
            | finished => cases hr
          | throw e => cases hr
          | await op' k' => cases hr
        rcases hreturns with hguarded | hheld
        · rw [hpure] at hguarded
          exact absurd rfl hguarded
        · exact hc.heard hs hp hheld
  | setMessageStatus name seqNum status =>
    refine ⟨held, hc.toFans.goOn (fun callback message k' heq => ?_) counter⟩
    exact absurd heq (hin.no_callback (Or.inl ⟨seqNum, name, status, rfl⟩) r)
  | callback callback message => cases handler <;> cases hr
  | sleep tenths => cases handler <;> cases hr

/-- The process gives up on its request. -/
theorem CallsInOrder.gaveUp (hc : CallsInOrder h s st log acked held) (hs : Sound h s st)
    {op : ClientOp} {k : Except ClientError op.Res → ClientCoro Bool}
    (hp : s.process = some ⟨counter, .await op k⟩) (hrequests : op.requests.isEmpty = false)
    (e : ClientError) : CallsInOrder h (s.goOn h counter (k (.error e))) st log acked held := by
  obtain ⟨calls, -, hin⟩ := hs.inTurn hp
  refine hc.toFans.goOn (fun callback message k' heq => ?_) counter
  cases op with
  | getSubscriptionMessage name =>
    obtain ⟨-, -, -, herror⟩ := hin.of_next
    rw [herror] at heq
    cases heq
  | setMessageStatus name seqNum status =>
    exact absurd heq (hin.no_callback (Or.inl ⟨seqNum, name, status, rfl⟩) _)
  | callback callback message => cases hrequests
  | sleep tenths => cases hrequests

/-- A callback returns. -/
theorem CallsInOrder.returned (hc : CallsInOrder h s st log acked held) (hs : Sound h s st)
    {callback : Callback}
    {k : Except ClientError (ClientOp.callback callback message).Res → ClientCoro Bool}
    (hp : s.process = some ⟨counter, .await (.callback callback message) k⟩) :
    CallsInOrder h ((s.record (.returned callback message)).goOn h counter (k (.ok ())))
      st log acked held := by
  obtain ⟨calls, -, hin⟩ := hs.inTurn hp
  obtain ⟨before, after, hsplit, -, -, hok, -⟩ := hin.of_callback
  have hwork := hc.calling counter callback message k hp
  refine (hc.toFans.record fun _ => rfl).goOn (fun callback' message' k' heq => ?_) counter
  rw [hok] at heq
  refine call_of_handleMessage (fun c hmem => ?_) hwork heq
  rw [hsplit]
  exact List.mem_append_right _ (List.mem_cons_of_mem callback hmem)

/-- A callback raises. -/
theorem CallsInOrder.raised (hc : CallsInOrder h s st log acked held) (hs : Sound h s st)
    {callback : Callback}
    {k : Except ClientError (ClientOp.callback callback message).Res → ClientCoro Bool}
    (hp : s.process = some ⟨counter, .await (.callback callback message) k⟩) (e : ClientError) :
    CallsInOrder h ((s.record (.raised callback message)).goOn h counter (k (.error e)))
      st log acked held := by
  obtain ⟨calls, -, hin⟩ := hs.inTurn hp
  obtain ⟨-, -, -, -, -, -, herror⟩ := hin.of_callback
  refine (hc.toFans.record fun _ => rfl).goOn (fun callback' message' k' heq => ?_) counter
  rw [herror] at heq
  cases heq

/-- The process goes on without touching the world. -/
theorem world_goOn (s : Consumption) (counter : Nat) (prog : ClientCoro Bool) :
    (s.goOn h counter prog).world = s.world := by
  cases prog with
  | throw e => rfl
  | await op k => rfl
  | pure handled =>
    cases handled with
    | false => rfl
    | true =>
      simp only [Consumption.goOn]
      split <;> rfl

/-- **What a step does**: the callbacks stay in order, and the log grows by what is posted. -/
theorem CallsInOrder.step (hc : CallsInOrder h s st log acked held) (hs : Sound h s st)
    {l : ConsumptionStep} (hl : s.step h env l = some t) :
    ∃ st' log' acked' held', Sound h t st' ∧ CallsInOrder h t st' log' acked' held' ∧
      log'.map (·.2) = log.map (·.2) ++ l.posted?.toList := by
  obtain ⟨st', ht, -⟩ := hs.step hl
  have hstream := ht.queue.stream
  -- The stream is as it was.
  have hkept : ∀ held', t.world = s.world → CallsInOrder h t st log acked held' →
      l.posted? = none → ∃ st' log' acked' held', Sound h t st' ∧
        CallsInOrder h t st' log' acked' held' ∧
          log'.map (·.2) = log.map (·.2) ++ l.posted?.toList := by
    intro held' hworld hnext hnone
    rw [hworld, hs.queue.stream] at hstream
    cases hstream
    refine ⟨st, log, acked, held', ht, hnext, ?_⟩
    rw [hnone]
    exact (List.append_nil _).symm
  -- one case for each kind of step
  cases Consumption.stepsTo_of_step hl with
  | start hp =>
    refine hkept held rfl (hc.toFans.enter (fun callback message k heq => ?_) 0) rfl
    obtain ⟨k', hawait, -⟩ := turn_eq h
    cases heq.symm.trans hawait
  | crash => exact hkept held rfl hc.toFans.ended rfl
  | arrive hi salt rounds => exact hkept held rfl (hc.arrived env hi salt rounds) rfl
  | serve hj f =>
    obtain ⟨acked', held', hnext⟩ := hc.handled hs hj f hstream
    exact ⟨st', log, acked', held', ht, hnext, (List.append_nil _).symm⟩
  | respond hp hj hi hr =>
    obtain ⟨held', hnext⟩ := hc.responded hs hp (List.mem_of_getElem? hj) hi hr
    exact hkept held' (world_goOn ..) hnext rfl
  | giveUp hp hrequests e => exact hkept held (world_goOn ..) (hc.gaveUp hs hp hrequests e) rfl
  | callbackReturns hp => exact hkept held (world_goOn ..) (hc.returned hs hp) rfl
  | callbackRaises hp e => exact hkept held (world_goOn ..) (hc.raised hs hp e) rfl
  | @wake counter tenths k hp =>
    refine hkept held (world_goOn ..)
      (hc.toFans.goOn (fun callback message k' heq => ?_) counter) rfl
    obtain ⟨calls, -, hin⟩ := hs.inTurn hp
    exact absurd heq (hin.no_callback (Or.inr ⟨tenths, rfl⟩) _)
  | @post payload seq w hanswer =>
    rcases answer_publish env 0 (mainSubject h.subscriptionName) payload
      (streamKey h.subscriptionName) s.world with ⟨st₀, hst₀, -, hok⟩ | hrefused
    · cases hs.queue.stream.symm.trans hst₀
      cases hok.symm.trans hanswer
      rw [World.streams_setStream_self] at hstream
      cases hstream
      refine ⟨_, _, acked, held, ht, hc.posted (mainSubject h.subscriptionName) payload 0 _, ?_⟩
      rw [List.map_append]
      rfl
    · cases hrefused.symm.trans hanswer
  | ackWaitExpires =>
    have hpost : NoPost h.subscriptionName
        (.ackWaitExpires (streamKey h.subscriptionName) (durableKey h.subscriptionName)) := by
      intro subject payload heq
      cases heq
    obtain ⟨acked', hnext⟩ := hc.answered hs .ackWaitExpires hpost hstream
    exact ⟨st', log, acked', held, ht, hnext, (List.append_nil _).symm⟩
  | @elsewhere op hop tid =>
    have hpost : NoPost h.subscriptionName op := by
      intro subject payload heq
      subst heq
      exact bne_iff_ne.mp hop rfl
    obtain ⟨acked', hnext⟩ := hc.answered hs (.spares op hop) hpost hstream
    exact ⟨st', log, acked', held, ht, hnext, (List.append_nil _).symm⟩

end Step

/-! ## All runs -/

/-! The log of a run is made of what was in the stream at its beginning and of what its steps post,
in this order; that it is found again in the stream at the end is the invariant. -/

/-- At the beginning nothing is held and nothing acknowledged, and the log is the stream. -/
theorem callsInOrder_start (hs : s.AtStart h) : ∃ st, Sound h s st ∧
    CallsInOrder h s st (st.msgs.map fun m => (m.seq, m.payload)) 0 [] := by
  obtain ⟨st, hsound⟩ := sound_start hs
  have hlogged : Logged (st.msgs.map fun m => (m.seq, m.payload)) 0 st := logged_self st
  have hnone : ∀ x ∈ s.handlers, False := by
    rw [hs.handlers]
    exact fun x hx => List.not_mem_nil hx
  refine ⟨st, hsound, ⟨⟨?_, hlogged, fun x hx => (hnone x hx).elim,
    fun x hx => (hnone x hx).elim⟩, ?_, ?_⟩⟩
  · unfold fanning Consumption.calledWith
    rw [hs.calls]
    exact Fanout.inv_start hlogged.nodup
  · rw [hs.process]
    exact nofun
  · rw [hs.process]
    exact nofun

/-- The posts of a run with one more step. -/
theorem posted_concat (done : List ConsumptionStep) (l : ConsumptionStep) :
    (done ++ [l]).filterMap ConsumptionStep.posted? =
      done.filterMap ConsumptionStep.posted? ++ l.posted?.toList := by
  rw [List.filterMap_append]
  cases hl : l.posted? with
  | none => rw [List.filterMap_cons_none hl, List.filterMap_nil, Option.toList_none]
  | some payload => rw [List.filterMap_cons_some hl, List.filterMap_nil, Option.toList_some]

/-- The log of a run is what was in the stream and what has been posted. -/
theorem callsInOrder_run (hstart : s.AtStart h) {ls : List ConsumptionStep}
    (hrun : Machine.run (Consumption.step h env) s ls = some t) :
    ∃ st log acked held, Sound h t st ∧ CallsInOrder h t st log acked held ∧
      log.map (·.2) = (s.messages h).map Stored.payload ++
        ls.filterMap ConsumptionStep.posted? := by
  obtain ⟨st₀, hsound₀, hcalls₀⟩ := callsInOrder_start hstart
  refine Machine.run_trace (I := fun done t => ∃ st log acked held, Sound h t st ∧
    CallsInOrder h t st log acked held ∧ log.map (·.2) = (s.messages h).map Stored.payload ++
      done.filterMap ConsumptionStep.posted?) (fun done u l v hu hl => ?_) ?_ hrun
  · obtain ⟨st, log, acked, held, hs, hc, hlog⟩ := hu
    obtain ⟨st', log', acked', held', hs', hc', hlog'⟩ := hc.step hs hl
    refine ⟨st', log', acked', held', hs', hc', ?_⟩
    rw [hlog', hlog, posted_concat, List.append_assoc]
  · refine ⟨st₀, _, 0, [], hsound₀, hcalls₀, ?_⟩
    rw [hsound₀.queue.messages, List.map_map]
    exact (List.append_nil _).symm

/-- A callback has been called with everything that is acknowledged, and perhaps the next one. -/
theorem CallsInOrder.called (hc : CallsInOrder h s st log acked held) {callback : Callback}
    (hcallback : callback ∈ h.callbacks) : ∃ n, acked ≤ n ∧ n ≤ acked + 1 ∧
      (s.calledWith callback).destutter (· ≠ ·) = log.take n := by
  have hcalled : ∀ n,
      Fanout.SentUpTo Called.wants (fanning h s log acked held) ⟨callback, hcallback⟩ n →
      (s.calledWith callback).destutter (· ≠ ·) = log.take n := by
    intro n hsent
    have hdestutter : (s.calledWith callback).destutter (· ≠ ·) =
        (log.take n).filter (Called.wants ⟨callback, hcallback⟩) := hsent
    rw [hdestutter]
    exact List.filter_eq_self.mpr fun _ _ => rfl
  rcases hc.inv.sent ⟨callback, hcallback⟩ with hup | ⟨-, hup⟩
  · exact ⟨acked, Nat.le_refl _, Nat.le_succ _, hcalled acked hup⟩
  · exact ⟨acked + 1, Nat.le_succ _, Nat.le_refl _, hcalled (acked + 1) hup⟩

/-- **A callback is called with the stream.** Whatever the process, the requests and their handlers
have gone through, the stream holds what is left of the messages that it held and that have been
posted since after the first `k`. The messages that a callback was called with are, but for
immediate repetitions, these first `k` in this order, or one more. -/
theorem callbacks_in_order (env : Env) (h : MessageHandler) (s t : Consumption)
    (ls : List ConsumptionStep) (hstart : s.AtStart h)
    (hrun : Machine.run (Consumption.step h env) s ls = some t) (callback : Callback)
    (hcallback : callback ∈ h.callbacks) :
    let log := (s.messages h).map Stored.payload ++ ls.filterMap ConsumptionStep.posted?
    ∃ k n, (t.messages h).map Stored.payload = log.drop k ∧ k ≤ n ∧ n ≤ k + 1 ∧
      ((t.calledWith callback).destutter (· ≠ ·)).map (·.2) = log.take n := by
  intro log
  obtain ⟨st, entries, acked, held, hs, hc, hentries⟩ := callsInOrder_run hstart hrun
  have hlog : entries.map (·.2) = log := hentries
  have hmessages : (t.messages h).map Stored.payload = log.drop acked := by
    rw [hs.queue.messages, ← hlog, ← List.map_drop, ← hc.logged.msgs, List.map_map]
    rfl
  obtain ⟨n, hle, hlt, hcalled⟩ := hc.called hcallback
  refine ⟨acked, n, hmessages, hle, hlt, ?_⟩
  rw [hcalled, List.map_take, hlog]

/-- The consumer is handed the message that it could not acknowledge in time once more, and asks
for it to be deleted a second time. -/
def againSteps : List ConsumptionStep :=
  lateSteps ++ [.ackWaitExpires, .arrive 3 "x" 0] ++ List.replicate 8 (.serve 2 .ok) ++
    [.respond 2, .callbackReturns, .callbackReturns, .serve 1 .ok]

theorem callbacks_in_order_again : ∃ t,
    Machine.run (Consumption.step .sample .sample) .withMessage againSteps = some t ∧
    (t.calledWith "first").length = 2 ∧
    let log := (Consumption.withMessage.messages .sample).map Stored.payload ++
      againSteps.filterMap ConsumptionStep.posted?
    ∃ k n, (t.messages .sample).map Stored.payload = log.drop k ∧ k ≤ n ∧ n ≤ k + 1 ∧
      ((t.calledWith "first").destutter (· ≠ ·)).map (·.2) = log.take n :=
  have hstart : Consumption.AtStart .sample .withMessage :=
    ⟨rfl, rfl, rfl, rfl, _, rfl, _, rfl, rfl⟩
  ⟨_, rfl, rfl, callbacks_in_order .sample .sample .withMessage _ againSteps hstart rfl "first"
    (by decide)⟩

end Provisioning
