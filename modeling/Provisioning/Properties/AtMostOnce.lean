import Provisioning.Properties.Consumption

/-!
# Without `pop_after_handling`

The mode promises the other guarantee: a message is acknowledged upon reception, before the first
callback, so that it is handed over at most once. But the parameter that would have the server
acknowledge it is commented out of the poll, and the acknowledgement of `run` is in the branch of
the other mode. Nothing acknowledges anything.

`at_most_once_iff` says what that leaves of the promise: it is kept by the runs in which no message
is delivered. A message that cannot be described is no exception: no callback is called with it, but
it is received, and the process ends over it with nothing acknowledged.

## Nothing is taken out

The proof goes the long way round: it does not follow the process to find an acknowledgement
missing, but shows that in this mode every request is a poll, that a poll takes nothing out of a
stream, and so that nothing is ever acknowledged (`Untaken`). It follows that the promise is broken
with the first message that is received, however the run goes on.

For the other direction a run without deliveries is looked at (`Idles`): the process never leaves
its poll, so no callback is called and there is nothing to be acknowledged.
-/

namespace Provisioning

open Await Store Prog

variable {env : Env} {h : MessageHandler} {w : World} {st st' : Store.Stream Payload}
  {s t : Consumption}

/-- The message of that number has been acknowledged, or has been deleted, which is how the client
acknowledges. -/
def Acknowledged (h : MessageHandler) (s : Consumption) (seq : Nat) : Prop :=
  ∀ st, s.world.streams (streamKey h.subscriptionName) = some st →
    seq ∈ st.acked (durableKey h.subscriptionName) ∨ st.stored seq = false

/-- How often a callback was called with the message of that number. -/
def timesCalled (calls : List CallbackEvent) (callback : Callback) (seq : Nat) : Nat :=
  calls.countP fun
    | .invoked called message => called == callback && message.sequenceNumber == seq
    | _ => false

/-- The step answers the poll of the process with this message. -/
def Receives (s : Consumption) (l : ConsumptionStep) (message : ProvisioningMessage) : Prop :=
  ∃ j i, l = .respond j ∧ s.handlers[j]? = some (i, .pure (.message (some message)))

/-- The process is at nothing but the acknowledgement of the message of that number. -/
def Acknowledging (s : Consumption) (seq : Nat) : Prop :=
  ∃ counter name status k,
    s.process = some ⟨counter, .await (.setMessageStatus name seq status) k⟩

/-- **The promise**: a message has been acknowledged when it is received, or that is what the
process does next; whenever a callback is called with a message, the message has been acknowledged;
and no callback is called twice with it, except as often as it is in the list. -/
structure AtMostOnce (env : Env) (h : MessageHandler) (s : Consumption)
    (ls : List ConsumptionStep) : Prop where
  received : ∀ done l rest u v message, ls = done ++ l :: rest →
    Machine.run (Consumption.step h env) s done = some u → u.step h env l = some v →
    Receives u l message →
    Acknowledged h v message.sequenceNumber ∨ Acknowledging v message.sequenceNumber
  acknowledged : ∀ done l rest u v callback message, ls = done ++ l :: rest →
    Machine.run (Consumption.step h env) s done = some u → u.step h env l = some v →
    .invoked callback message ∈ v.calls.drop u.calls.length →
    Acknowledged h v message.sequenceNumber
  once : ∀ t, Machine.run (Consumption.step h env) s ls = some t →
    ∀ callback seq, timesCalled t.calls callback seq ≤ h.callbacks.count callback

/-- The step answers the poll with a message. -/
def Delivers (s : Consumption) (l : ConsumptionStep) : Prop := ∃ message, Receives s l message

/-- In none of its steps. -/
def DeliversNothing (env : Env) (h : MessageHandler) (s : Consumption)
    (ls : List ConsumptionStep) : Prop :=
  ∀ done l rest u, ls = done ++ l :: rest →
    Machine.run (Consumption.step h env) s done = some u → ¬ Delivers u l

/-! ## Nothing is acknowledged -/

/-- What the process does in this mode: it polls, and it calls back. -/
def Polls (op : ClientOp) : Prop := ∀ request ∈ op.requests, request = .next

theorem uses_handleMessage_polls (hpop : h.popAfterHandling = false) (message : ProvisioningMessage)
    (callbacks : List Callback) : (h.handleMessage message callbacks).Uses Polls := by
  refine Uses.bind (Uses.forEach fun callback _ => uses_awaiting ?_) fun _ => ?_
  · exact fun request hmem => absurd hmem List.not_mem_nil
  · rw [hpop]
    trivial

theorem uses_turn_polls (hpop : h.popAfterHandling = false) : h.turn.Uses Polls := by
  refine Uses.bind (uses_awaiting ?_) fun message? => ?_
  · exact fun request hmem => List.mem_singleton.mp hmem
  · cases message? with
    | none => trivial
    | some message =>
      dsimp only
      cases MessageHandler.debugMsg h.diff message.message with
      | error e => trivial
      | ok text => exact uses_handleMessage_polls hpop message h.callbacks

/-- A handler that neither acknowledges nor deletes, and returns only what is stored. -/
structure Peeks (name : String) (st : Store.Stream Payload) (handler : Coro Reply) : Prop where
  calls : handler.Uses (MayCall name fun _ => False)
  returns : ∀ message, handler.Guarded (IsHanded name message) (fun _ => False)
      (fun r => r = .ok (.message (some message))) ∨ st.stored message.sequenceNumber = true

/-- Whatever the process is at: every request is a poll, and none of their handlers takes anything
out of the stream. -/
structure Untaken (h : MessageHandler) (s : Consumption) (st : Store.Stream Payload) : Prop where
  queue : HasQueue h.subscriptionName s.world st
  requests : ∀ request ∈ s.requests, request = .next
  handlers : ∀ x ∈ s.handlers, Peeks h.subscriptionName st x.2
  process : ∀ p, s.process = some p → p.prog.Uses Polls

/-- What is stored stays stored. -/
def Keeps (st st' : Store.Stream Payload) : Prop := ∀ m ∈ st.msgs, m ∈ st'.msgs

theorem Keeps.stored (hkeeps : Keeps st st') {seq : Nat} (hseq : st.stored seq = true) :
    st'.stored seq = true := by
  obtain ⟨m, hm, heq⟩ := List.any_eq_true.mp hseq
  exact List.any_eq_true.mpr ⟨m, hkeeps m hm, heq⟩

theorem Peeks.mono {name : String} {handler : Coro Reply} (hh : Peeks name st handler)
    (hkeeps : Keeps st st') : Peeks name st' handler :=
  ⟨hh.calls, fun message => (hh.returns message).imp_right hkeeps.stored⟩

/-- What a fetch is answered with is stored. -/
theorem HasQueue.stored_of_handed {name : String} {op : Op} {tid : Nat} {f : Fault Outage}
    {message : ProvisioningMessage} (hq : HasQueue name w st)
    (hheard : IsHanded name message op ((serve env).heard tid op w f)) :
    st.stored message.sequenceNumber = true := by
  obtain ⟨msg, ⟨-, hseq, -⟩, hfetches⟩ := hheard
  obtain ⟨-, rfl, hanswer⟩ := fetches_heard hfetches
  obtain ⟨s, d, m, hs, -, hm, rfl, -⟩ := answer_fetch_ok (Prod.ext (fetches_ok hanswer) rfl)
  obtain rfl := Option.some.inj (hq.stream.symm.trans hs)
  rw [← hseq]
  exact Stream.stored_of_mem (Stream.mem_of_oldest (Stream.oldest_of_fetch hm))

theorem Peeks.call {name : String} {op : Op} {k : Except CallError op.Res → Coro Reply}
    (hh : Peeks name st (.await op k)) (hq : HasQueue name w st) (tid : Nat) (f : Fault Outage) :
    Peeks name st (k ((serve env).heard tid op w f)) := by
  refine ⟨hh.calls.2 _, fun message => ?_⟩
  rcases hh.returns message with hguarded | hstored
  · by_cases hheard : IsHanded name message op ((serve env).heard tid op w f)
    · exact Or.inr (hq.stored_of_handed hheard)
    · exact Or.inl (hguarded.2 _ hheard)
  · exact Or.inr hstored

section Step

variable {counter : Nat} {prog : ClientCoro Bool}

/-- The process has ended. -/
theorem Untaken.ended (hs : Untaken h s st) : Untaken h { s with process := none } st :=
  ⟨hs.queue, hs.requests, hs.handlers, nofun⟩

/-- The process enters its next `await`. -/
theorem Untaken.enter (hs : Untaken h s st) (hprog : prog.Uses Polls) (counter : Nat) :
    Untaken h (s.enter counter prog) st := by
  cases prog with
  | pure b => exact hs.ended
  | throw e => exact hs.ended
  | await op k =>
    refine ⟨hs.queue, fun request hmem => ?_, hs.handlers, fun p hp => ?_⟩
    · rcases List.mem_append.mp hmem with hold | hnew
      · exact hs.requests request hold
      · exact hprog.1 request hnew
    · cases hp
      exact hprog

/-- …or it goes into its next turn, or is over. -/
theorem Untaken.goOn (hpop : h.popAfterHandling = false) (hs : Untaken h s st)
    (hprog : prog.Uses Polls) (counter : Nat) : Untaken h (s.goOn h counter prog) st := by
  cases prog with
  | throw e => exact hs.ended
  | await op k => exact hs.enter hprog counter
  | pure handled =>
    cases handled with
    | false => exact hs.enter (uses_turn_polls hpop) counter
    | true =>
      simp only [Consumption.goOn]
      split
      · exact hs.ended
      · exact hs.enter (uses_turn_polls hpop) _

theorem Untaken.record (hs : Untaken h s st) (event : CallbackEvent) :
    Untaken h (s.record event) st :=
  ⟨hs.queue, hs.requests, hs.handlers, hs.process⟩

/-- Something happens to the world, and perhaps to the handlers. -/
theorem Untaken.moves (hs : Untaken h s st) {w : World} {handlers : List (Nat × Coro Reply)}
    (hq : HasQueue h.subscriptionName w st') (hkeeps : Keeps st st')
    (hhandlers : ∀ x ∈ handlers, Peeks h.subscriptionName st x.2) :
    Untaken h { s with world := w, handlers := handlers } st' :=
  ⟨hq, hs.requests, fun x hx => (hhandlers x hx).mono hkeeps, hs.process⟩

/-- What no one is done with is not deleted. -/
theorem HasQueue.keeps {name : String} (hq : HasQueue name w st) {op : Op}
    (hop : MayCall name (fun _ => False) op) (env : Env) (tid : Nat) :
    ∃ st', HasQueue name (answer env tid op w).2 st' ∧ Keeps st st' := by
  obtain ⟨st', hq', -, hmsgs⟩ := hq.answered hop env tid
  exact ⟨st', hq', fun m hm => (hmsgs m hm).resolve_right id⟩

/-- The process hears something and goes on. -/
theorem Untaken.hears (hpop : h.popAfterHandling = false) (hs : Untaken h s st) {op : ClientOp}
    {k : Except ClientError op.Res → ClientCoro Bool}
    (hp : s.process = some ⟨counter, .await op k⟩) (r : Except ClientError op.Res) :
    Untaken h (s.goOn h counter (k r)) st :=
  hs.goOn hpop ((hs.process _ hp).2 r) counter

/-- A poll arrives. -/
theorem Untaken.arrived (hs : Untaken h s st) (env : Env) {i : Nat} {request : Request}
    (hi : s.requests[i]? = some request) (salt : String) (rounds : Nat) :
    Untaken h { s with
      handlers := s.handlers ++ [(i, request.handler env h.client salt rounds)] } st := by
  refine hs.moves hs.queue (fun m hm => hm) fun x hx => ?_
  rcases List.mem_append.mp hx with hold | hnew
  · exact hs.handlers x hold
  · rw [List.mem_singleton.mp hnew]
    have hnext := hs.requests request (List.mem_of_getElem? hi)
    refine ⟨uses_handler (fun seqNum report heq => ?_) salt rounds,
      fun message => Or.inl (guarded_handler salt rounds message)⟩
    rw [hnext] at heq
    cases heq

/-- A call of a handler is served, or not. -/
theorem Untaken.handled (hs : Untaken h s st) {i j : Nat} {op : Op}
    {k : Except CallError op.Res → Coro Reply} (hj : s.handlers[j]? = some (i, .await op k))
    (f : Fault Outage) :
    ∃ st', Untaken h { s with
        world := (serve env).left j op s.world f
        handlers := s.handlers.set j (i, k ((serve env).heard j op s.world f)) } st' ∧
      Keeps st st' := by
  have hh := hs.handlers _ (List.mem_of_getElem? hj)
  have hhandlers : ∀ x ∈ s.handlers.set j (i, k ((serve env).heard j op s.world f)),
      Peeks h.subscriptionName st x.2 := by
    intro x hx
    rcases List.mem_or_eq_of_mem_set hx with hold | rfl
    · exact hs.handlers x hold
    · exact hh.call hs.queue j f
  by_cases hf : f.Lands
  · rw [Server.left_of_lands hf]
    obtain ⟨st', hq, hkeeps⟩ := hs.queue.keeps hh.calls.1 env j
    exact ⟨st', hs.moves hq hkeeps hhandlers, hkeeps⟩
  · rw [Server.left_of_not_lands hf]
    exact ⟨st, hs.moves hs.queue (fun m hm => hm) hhandlers, fun m hm => hm⟩

/-- **What a step does in this mode**: everything that was stored still is, and nothing has been
acknowledged. -/
theorem Untaken.step (hpop : h.popAfterHandling = false) (hs : Untaken h s st)
    {l : ConsumptionStep} (hl : s.step h env l = some t) :
    ∃ st', Untaken h t st' ∧ Keeps st st' := by
  have hsame : Untaken h t st → ∃ st', Untaken h t st' ∧ Keeps st st' :=
    fun ht => ⟨st, ht, fun m hm => hm⟩
  have hanswered : ∀ tid {op}, MayCall h.subscriptionName (fun _ => False) op →
      ∃ st', Untaken h { s with world := (answer env tid op s.world).2 } st' ∧ Keeps st st' := by
    intro tid op hop
    obtain ⟨st', hq, hkeeps⟩ := hs.queue.keeps hop env tid
    exact ⟨st', hs.moves hq hkeeps hs.handlers, hkeeps⟩
  cases Consumption.stepsTo_of_step hl with
  | start hp => exact hsame (hs.enter (uses_turn_polls hpop) 0)
  | crash => exact hsame hs.ended
  | arrive hi salt rounds => exact hsame (hs.arrived env hi salt rounds)
  | serve hj f => exact hs.handled hj f
  | respond hp hj hi hr => exact hsame (hs.hears hpop hp _)
  | giveUp hp hrequests e => exact hsame (hs.hears hpop hp _)
  | callbackReturns hp => exact hsame ((hs.record _).hears hpop hp _)
  | callbackRaises hp e => exact hsame ((hs.record _).hears hpop hp _)
  | wake hp => exact hsame (hs.hears hpop hp _)
  | @post payload seq w hanswer =>
    have hmore := hanswered 0 (.publish (mainSubject h.subscriptionName) payload)
    rw [hanswer] at hmore
    exact hmore
  | ackWaitExpires => exact hanswered 0 .ackWaitExpires
  | @elsewhere op hop tid => exact hanswered tid (.spares op hop)

end Step

/-- **In no run of this mode is anything acknowledged.** -/
theorem untaken_run (hpop : h.popAfterHandling = false) (hstart : s.AtStart h)
    {ls : List ConsumptionStep} (hrun : Machine.run (Consumption.step h env) s ls = some t) :
    ∃ st, Untaken h t st := by
  refine Machine.run_invariant (I := fun s => ∃ st, Untaken h s st) ?_ ?_ hrun
  · intro s l t hs hl
    obtain ⟨st, hs⟩ := hs
    exact (hs.step hpop hl).imp fun _ ht => ht.1
  · obtain ⟨st, hq⟩ := hstart.queue
    refine ⟨st, hq, ?_, ?_, ?_⟩
    · rw [hstart.requests]
      exact fun request hmem => absurd hmem List.not_mem_nil
    · rw [hstart.handlers]
      exact fun x hx => absurd hx List.not_mem_nil
    · rw [hstart.process]
      exact nofun

theorem Untaken.not_acknowledged (hs : Untaken h s st) {seq : Nat}
    (hstored : st.stored seq = true) : ¬ Acknowledged h s seq := by
  intro hacked
  obtain ⟨d, hd, hnone⟩ := hs.queue.consumer
  rcases hacked st hs.queue.stream with hmem | hgone
  · rw [Stream.acked_of_durable hd, hnone] at hmem
    exact absurd hmem List.not_mem_nil
  · rw [hstored] at hgone
    cases hgone

/-- The process does not ask for an acknowledgement. -/
theorem Untaken.not_acknowledging (hs : Untaken h s st) {seq : Nat} : ¬ Acknowledging s seq := by
  intro ⟨counter, name, status, k, hp⟩
  cases (hs.process _ hp).1 (.status seq status) (List.mem_singleton_self _)

/-! ## Where nothing is delivered -/

/-- The process is polling, and no callback was ever called. -/
structure Idles (h : MessageHandler) (s : Consumption) : Prop where
  calls : s.calls = []
  process : ∀ p, s.process = some p → p.prog = h.turn

theorem Idles.enter (hs : Idles h s) (counter : Nat) : Idles h (s.enter counter h.turn) := by
  obtain ⟨k, hawait, -⟩ := turn_eq h
  rw [hawait]
  refine ⟨?_, fun p hp => ?_⟩
  · show s.calls ++ [] = []
    rw [hs.calls]
    rfl
  · cases hp
    exact hawait.symm

theorem Idles.step (hs : Idles h s) {l : ConsumptionStep} (hl : s.step h env l = some t)
    (hnot : ¬ Delivers s l) : Idles h t := by
  obtain ⟨k₀, hawait, hnone, -, -, herror⟩ := turn_eq h
  -- A process that is at anything else is not idle.
  have hother : ∀ {counter : Nat} {op : ClientOp} {k : Except ClientError op.Res → ClientCoro Bool},
      s.process = some ⟨counter, .await op k⟩ →
      (.await op k : ClientCoro Bool) = .await (.getSubscriptionMessage h.subscriptionName) k₀ :=
    fun hp => (hs.process _ hp).trans hawait
  cases Consumption.stepsTo_of_step hl with
  | start hp => exact hs.enter 0
  | crash => exact ⟨hs.calls, nofun⟩
  | arrive hi salt rounds => exact ⟨hs.calls, hs.process⟩
  | serve hj f => exact ⟨hs.calls, hs.process⟩
  | @respond j i counter op k handler r hp hj hi hr =>
    cases hother hp
    cases handler with
    | pure reply =>
      cases reply with
      | message message? =>
        cases message? with
        | none =>
          cases hr
          rw [hnone]
          exact hs.enter counter
        | some message => exact absurd ⟨message, j, i, rfl, hj⟩ hnot
      | status code => cases hr
      | finished => cases hr
    | throw e =>
      cases hr
      rw [herror]
      exact ⟨hs.calls, nofun⟩
    | await op k => cases hr
  | giveUp hp hrequests e =>
    cases hother hp
    rw [herror]
    exact ⟨hs.calls, nofun⟩
  | callbackReturns hp => cases hother hp
  | callbackRaises hp e => cases hother hp
  | wake hp => cases hother hp
  | post hanswer => exact ⟨hs.calls, hs.process⟩
  | ackWaitExpires => exact ⟨hs.calls, hs.process⟩
  | elsewhere hop tid => exact ⟨hs.calls, hs.process⟩

theorem idles_run (hstart : s.AtStart h) {ls : List ConsumptionStep}
    (hnothing : DeliversNothing env h s ls)
    (hrun : Machine.run (Consumption.step h env) s ls = some t) : Idles h t := by
  refine Machine.run_along ⟨hstart.calls, ?_⟩ hrun fun done l rest u v hls hdone hl hu => ?_
  · rw [hstart.process]
    exact nofun
  · exact hu.step hl (hnothing done l rest u hls hdone)

/-- What holds of a run holds of its beginning. -/
theorem DeliversNothing.first {ls done : List ConsumptionStep} {l : ConsumptionStep}
    {rest : List ConsumptionStep} (hnothing : DeliversNothing env h s ls)
    (hls : ls = done ++ l :: rest) : DeliversNothing env h s (done ++ [l]) := by
  intro before l' after u hdone hrun
  refine hnothing before l' (after ++ rest) u ?_ hrun
  have hsplit : ls = (done ++ [l]) ++ rest := by
    rw [hls, List.append_assoc]
    rfl
  rw [hsplit, hdone, List.append_assoc]
  rfl

/-- **What is left of the promise.** In every run without `pop_after_handling`, with redeliveries,
restarts and whatever else can happen: messages are acknowledged upon reception, before their first
callback, and handed over at most once, if and only if no poll of the run is answered with a
message. -/
theorem at_most_once_iff (env : Env) (h : MessageHandler) (s t : Consumption)
    (ls : List ConsumptionStep) (hstart : s.AtStart h) (hpop : h.popAfterHandling = false)
    (hrun : Machine.run (Consumption.step h env) s ls = some t) :
    AtMostOnce env h s ls ↔ DeliversNothing env h s ls := by
  constructor
  · intro honce done l rest u hls hdone ⟨message, j, i, hl, hj⟩
    -- The step was taken.
    have hmore := hrun
    rw [hls, Machine.run_append, hdone, Option.bind_some, Machine.run_cons] at hmore
    obtain ⟨v, hv, -⟩ := Option.bind_eq_some_iff.mp hmore
    obtain ⟨st, hu⟩ := untaken_run hpop hstart hdone
    obtain ⟨st', hv', hkeeps⟩ := hu.step hpop hv
    have hstored : st.stored message.sequenceNumber = true := by
      rcases (hu.handlers _ (List.mem_of_getElem? hj)).returns message with hguarded | hstored
      · exact absurd rfl hguarded
      · exact hstored
    -- Its message is where it was, and the process does not go to acknowledge it either.
    rcases honce.received done l rest u v message hls hdone hv ⟨j, i, hl, hj⟩ with hacked | hacks
    · exact hv'.not_acknowledged (hkeeps.stored hstored) hacked
    · exact hv'.not_acknowledging hacks
  · intro hnothing
    refine ⟨fun done l rest u v message hls hdone hl hreceives => ?_,
      fun done l rest u v callback message hls hdone hl hmem => ?_,
      fun t' ht callback seq => ?_⟩
    · exact absurd ⟨message, hreceives⟩ (hnothing done l rest u hls hdone)
    · have hidles := idles_run hstart (hnothing.first hls) (Machine.run_concat hdone hl)
      rw [hidles.calls, List.drop_nil] at hmem
      exact absurd hmem List.not_mem_nil
    · rw [(idles_run hstart hnothing ht).calls]
      exact Nat.zero_le _

/-! ## A callback that raises -/

/-- The mode in question, with one callback. -/
def MessageHandler.early : MessageHandler where
  client := MessageHandler.sample.client
  settings := MessageHandler.sample.settings
  callbacks := ["first"]
  callbacks_ne_nil := List.cons_ne_nil _ _
  popAfterHandling := false
  diff := MessageHandler.sample.diff

/-- Every HTTP call succeeds. -/
def ConsumptionStep.succeeds : ConsumptionStep → Bool
  | .giveUp _ => false
  | .serve _ (.before _) => false
  | .serve _ (.after _) => false
  | _ => true

/-- The consumer is handed its message, its callback raises, and it is started again; the message
is delivered again once the ack wait has passed. -/
def raisingSteps : List ConsumptionStep :=
  [.start, .arrive 0 "x" 0] ++ List.replicate 8 (.serve 0 .ok) ++
    [.respond 0, .callbackRaises .other, .start, .ackWaitExpires, .arrive 1 "x" 0] ++
    List.replicate 8 (.serve 1 .ok) ++ [.respond 1]

theorem at_most_once_iff_raising : ∃ t,
    Machine.run (Consumption.step .early .sample) .withMessage raisingSteps = some t ∧
    (AtMostOnce .sample .early .withMessage raisingSteps ↔
      DeliversNothing .sample .early .withMessage raisingSteps) :=
  have hstart : Consumption.AtStart .early .withMessage :=
    ⟨rfl, rfl, rfl, rfl, _, rfl, _, rfl, rfl⟩
  ⟨_, rfl, at_most_once_iff .sample .early .withMessage _ raisingSteps hstart rfl rfl⟩

theorem called_twice : ∃ t,
    Machine.run (Consumption.step .early .sample) .withMessage raisingSteps = some t ∧
    timesCalled t.calls "first" 1 = 2 := ⟨_, rfl, rfl⟩

/-- So a message is handed over twice, though every call succeeds. -/
theorem not_at_most_once : ¬ ∀ (env : Env) (h : MessageHandler) (s t : Consumption)
    (ls : List ConsumptionStep), s.AtStart h → h.popAfterHandling = false →
    (∀ l ∈ ls, l.succeeds = true) → Machine.run (Consumption.step h env) s ls = some t →
    AtMostOnce env h s ls := by
  intro hall
  have hstart : Consumption.AtStart .early .withMessage :=
    ⟨rfl, rfl, rfl, rfl, _, rfl, _, rfl, rfl⟩
  obtain ⟨t, hrun, htwice⟩ := called_twice
  have hsucceeds : ∀ l ∈ raisingSteps, l.succeeds = true := List.all_eq_true.mp rfl
  have honce := hall .sample .early .withMessage t raisingSteps hstart rfl hsucceeds hrun
  have hle := honce.once t hrun "first" 1
  rw [htwice] at hle
  exact absurd hle (by decide)

end Provisioning
