import Provisioning.Properties.CallbackOrder
import Provisioning.Properties.DeletionFinal

/-!
# The consumer catches up

`callbacks_in_order` would hold of a consumer that never gets anywhere. This is the other half:
whatever requests and handlers an earlier process has left behind, a process that is started anew,
and whose requests are answered, has its callbacks called with everything that is in the stream, and
the stream is empty afterwards. The API has to let the consumer in, and its prefill has to be done.

One message is enough to stop it: the first that cannot be described stays at the front, every
process ends over it, and what is behind it is never delivered. So the consumer catches up **if and
only if all that is waiting can be described**.

## The two directions

That it can catch up is shown by a run: for each message that waits, the request, the calls of its
handler, the response, the callbacks, and the report. `Leads` is that a run of undisturbed steps
exists, and composes by transitivity, so the run is never written down. What a handler does in it is
computed by `finish`, like the calls of a service that is alone, which is allowed because in the run
nobody else moves while it does.

That it cannot otherwise is an invariant. No callback is ever called with a message that cannot be
described, since describing it comes first and raises (`DescribedCalls`); and a stream that has
become empty has been handed to the callbacks as a whole, which is `callbacks_in_order`. So if it
becomes empty, all that was in it could be described.

The first clause of the theorem needs neither: it is `callbacks_in_order` at an empty stream.
-/

namespace Provisioning

open Await Store Prog

variable {env : Env} {h : MessageHandler} {s t : Consumption} {st : Store.Stream Payload}
  {w : World} {tid : Nat}

/-! ## What the API does with a request -/

/-! The handlers of the two requests, run to their end. In between the password is verified, which
may be answered from a table or may lead to a new hash in the store, so "the API lets the consumer
in" has to be a property that it keeps. -/

/-- Every stored result is one that a verification has given. -/
def CacheGiven (env : Env) (w : World) : Prop :=
  ∀ x ∈ w.passwordCache, ∃ salt, x.2 = env.verifyAndUpdate salt x.1.1 x.1.2.1

/-- The API lets the consumer in, and its prefill is done. -/
structure Admits (env : Env) (client : ProvisioningConsumerClientSettings) (w : World) : Prop where
  password : ∃ hash, (w.bucket .credentials).value? client.provisioningApiUsername = some hash ∧
    env.verify client.provisioningApiPassword hash = true
  cached : CacheGiven env w
  prefilled : w.prefillDone client.provisioningApiUsername = true ∨
    (w.record client.provisioningApiUsername).map (·.prefillQueueStatus) = some .done

section Server

variable {client : ProvisioningConsumerClientSettings}

/-- A password that verifies something can be hashed. -/
theorem accepted_of_verify {password hash : String} (h : env.verify password hash = true) :
    env.refuses password = false := by
  by_contra hrefused
  rw [env.verify_refused password hash (by simpa using hrefused)] at h
  cases h

/-- The password of a consumer that is let in can be hashed. -/
theorem Admits.accepted (ha : Admits env client w) :
    env.refuses client.provisioningApiPassword = false := by
  obtain ⟨hash, -, hverify⟩ := ha.password
  exact accepted_of_verify hverify

/-- What happens to streams does not matter for it. -/
theorem Admits.setStream (ha : Admits env client w) (stream : String)
    (st : Option (Store.Stream Payload)) : Admits env client (w.setStream stream st) :=
  ⟨ha.password, ha.cached, ha.prefilled⟩

/-- A new hash takes the place of the old one. -/
theorem Admits.putHash (ha : Admits env client w) (salt : String) :
    Admits env client (w.setBucket .credentials ((w.bucket .credentials).put
      client.provisioningApiUsername (env.hash salt client.provisioningApiPassword))) := by
  refine ⟨⟨_, ?_, env.verify_hash salt _ ha.accepted⟩, ha.cached, ?_⟩
  · rw [World.bucket_setBucket_self]
    exact Bucket.value?_put_self ..
  · rw [record_setCredentials]
    exact ha.prefilled

/-- What a verification gives for the right password: nothing to do, or a new hash. -/
theorem verifyAndUpdate_of_verified {password hash : String}
    (hverify : env.verify password hash = true) (salt : String) :
    env.verifyAndUpdate salt password (some hash) = (true, none) ∨
      env.verifyAndUpdate salt password (some hash) = (true, some (env.hash salt password)) := by
  simp only [Env.verifyAndUpdate, hverify]
  cases env.needsUpdate hash password with
  | false => exact Or.inl rfl
  | true => exact Or.inr rfl

/-- The verification, from the table or not. -/
theorem Admits.answer_verifyCached (ha : Admits env client w) (tid : Nat) (salt hash : String) :
    ∃ w' given, answer env tid (.verifyCached salt client.provisioningApiPassword (some hash)
        (some client.provisioningApiUsername)) w =
      (.ok (env.verifyAndUpdate given client.provisioningApiPassword (some hash)), w') ∧
      Admits env client w' ∧ w'.streams = w.streams := by
  simp only [answer]
  split
  · next r hlookup =>
    obtain ⟨before, after, hsplit, -⟩ := List.lookup_eq_some_iff.mp hlookup
    obtain ⟨given, hgiven⟩ := ha.cached ((client.provisioningApiPassword, some hash,
      some client.provisioningApiUsername), r) (by
        rw [hsplit]
        exact List.mem_append_right _ List.mem_cons_self)
    exact ⟨w, given, congrArg (fun r => (Except.ok r, w)) hgiven, ha, rfl⟩
  · have hraises : ¬ env.raises client.provisioningApiPassword (some hash) = true :=
      Bool.eq_false_iff.mp ha.accepted
    rw [if_neg hraises]
    refine ⟨_, salt, rfl, ⟨ha.password, fun x hx => ?_, ha.prefilled⟩, rfl⟩
    rcases List.mem_cons.mp hx with rfl | hold
    · exact ⟨salt, rfl⟩
    · exact ha.cached x hold

/-- **The consumer is let in**, and still is the next time. -/
theorem Admits.finish_authenticateUser (ha : Admits env client w) (salt : String) (tid : Nat) :
    ∃ w', (authenticateUser salt ⟨client.provisioningApiUsername, client.provisioningApiPassword⟩
        (some client.provisioningApiUsername)).finish (serve env) tid w = (.ok (), w') ∧
      Admits env client w' ∧ w'.streams = w.streams := by
  obtain ⟨hash, hvalue, hverify⟩ := ha.password
  obtain ⟨w₁, given, hanswer, hadmits, hstreams⟩ := ha.answer_verifyCached tid salt hash
  have hread : (authenticateUser salt
      ⟨client.provisioningApiUsername, client.provisioningApiPassword⟩
      (some client.provisioningApiUsername)).finish (serve env) tid w =
        (afterVerification ⟨client.provisioningApiUsername, client.provisioningApiPassword⟩
          (some hash) (some client.provisioningApiUsername)
          (env.verifyAndUpdate given client.provisioningApiPassword (some hash))).finish (serve env)
            tid w₁ := by
    rw [authenticateUser_eq, if_neg (by simp), finish_getValue_bind, hvalue]
    exact finish_request_bind hanswer
  rw [hread]
  rcases verifyAndUpdate_of_verified hverify given with hkept | hnew
  · rw [hkept]
    exact ⟨w₁, rfl, hadmits, hstreams⟩
  · have hput : afterVerification
        ⟨client.provisioningApiUsername, client.provisioningApiPassword⟩ (some hash)
        (some client.provisioningApiUsername)
        (true, some (env.hash given client.provisioningApiPassword)) =
          request (.kvPut .credentials client.provisioningApiUsername
            (env.hash given client.provisioningApiPassword)) := by
      have hne := env.hash_ne_empty given client.provisioningApiPassword
      simp [afterVerification, putValue, Bucket.Val.empty, hne]
    rw [hnew, hput]
    exact ⟨_, finish_call rfl, hadmits.putHash given, hstreams⟩

/-- With no delivery out, the consumer is handed what is at the front, whatever the subject. -/
theorem finish_getMessage {name : String} (subject : String) {m : Stored Payload}
    {rest : List (Stored Payload)} {message : Message} {d : Durable}
    (hstream : w.streams (streamKey name) = some st)
    (hd : st.durables (durableKey name) = some d) (hacked : d.acked = []) (hfree : d.pending = none)
    (hmsgs : st.msgs = m :: rest) (hpayload : m.payload = .message message) :
    (getMessage name subject false).finish (serve env) tid w =
      (.ok (some ⟨message, m.seq, (d.deliver m.seq).numDelivered m.seq⟩),
        w.setStream (streamKey name)
          (some (st.setDurable (durableKey name) (some (d.deliver m.seq))))) := by
  have hfetch : st.fetch d = some m :=
    Stream.fetch_of_front hfree hmsgs (hacked ▸ List.not_mem_nil)
  have hdurable : w.durable (streamKey name) (durableKey name) = some d := by
    unfold World.durable
    rw [hstream]
    exact hd
  have hinfo : answer env tid (.streamInfo (streamKey name)) w = (.ok (), w) := by
    simp only [answer, hstream, Option.isSome_some, if_true]
  have hconsumer : answer env tid (.consumerInfo (streamKey name) (durableKey name)) w =
      (.ok (), w) := by
    simp only [answer, hdurable]
  have hpull : answer env tid (.pullSubscribe subject (durableKey name) (streamKey name)) w =
      (.ok (), w) := by
    simp only [answer, hdurable]
  have hfetched : answer env tid (.fetch (streamKey name) (durableKey name)) w =
      (.ok ⟨streamKey name, durableKey name, m.subject, .message message, m.seq,
        (d.deliver m.seq).numDelivered m.seq, m.origin⟩, w.setStream (streamKey name)
          (some (st.setDurable (durableKey name) (some (d.deliver m.seq))))) := by
    simp only [answer, hstream, hd, hfetch, hpayload]
  have hfound : (catching .notFound (do request (.streamInfo (streamKey name)); return true)
      (return false) : Coro Bool).finish (serve env) tid w = (.ok true, w) :=
    finish_tryCatch ((finish_request_bind hinfo).trans rfl)
  refine (finish_bind hfound).trans ((finish_request_bind hconsumer).trans
    ((finish_request_bind hpull).trans ?_))
  exact (finish_bind (finish_tryCatch ((finish_request_bind hfetched).trans rfl))).trans rfl

/-- There is nothing to wait for once the status is done. -/
theorem finish_checkSubscriptionStatus {name : String}
    (hdone : (w.record name).map (·.prefillQueueStatus) = some .done) (rounds : Nat) :
    (checkSubscriptionStatus name rounds).finish (serve env) tid w = (.ok .done, w) := by
  obtain ⟨sub, hrecord, hsub⟩ := Option.map_eq_some_iff.mp hdone
  have hread : (getSubscriptionQueueStatus name).finish (serve env) tid w = (.ok .done, w) := by
    refine finish_getValue_bind.trans ?_
    rw [show (w.bucket .subscriptions).value? name = some sub from hrecord]
    exact congrArg (fun status => (Except.ok status, w)) hsub
  cases rounds with
  | zero => exact hread
  | succ rounds => exact (finish_bind hread).trans rfl

/-- Once the prefill is done the next message comes from the front, if perhaps under the subject of
the prefill. -/
theorem finish_getNextMessage {name : String} (hprefilled : w.prefillDone name = true ∨
      (w.record name).map (·.prefillQueueStatus) = some .done) (rounds : Nat)
    {message : ProvisioningMessage} {w' : World} (hget : ∀ subject,
      (getMessage name subject false).finish (serve env) tid w = (.ok (some message), w')) :
    (getNextMessage name rounds false).finish (serve env) tid w = (.ok (some message), w') := by
  by_cases hdone : w.prefillDone name = true
  · have hanswer : answer env tid (.prefillDoneGet name) w = (.ok true, w) := by
      simp only [answer, hdone]
    exact (finish_request_bind hanswer).trans (hget _)
  · have hanswer : answer env tid (.prefillDoneGet name) w = (.ok false, w) := by
      simp only [answer, Bool.eq_false_iff.mpr hdone]
    have hstatus : (checkSubscriptionStatus name rounds).finish (serve env) tid w =
        (.ok .done, w) := finish_checkSubscriptionStatus (hprefilled.resolve_left hdone) rounds
    exact (finish_request_bind hanswer).trans
      ((finish_bind hstatus).trans ((finish_bind (hget _)).trans rfl))

/-- What the request for the next message is answered. -/
theorem Admits.finish_next (ha : Admits env client w) (salt : String) (tid rounds : Nat)
    {m : Stored Payload} {rest : List (Stored Payload)} {message : Message} {d : Durable}
    (hstream : w.streams (streamKey client.provisioningApiUsername) = some st)
    (hd : st.durables (durableKey client.provisioningApiUsername) = some d) (hacked : d.acked = [])
    (hfree : d.pending = none) (hmsgs : st.msgs = m :: rest)
    (hpayload : m.payload = .message message) :
    ∃ w' num st', (Request.next.handler env client salt rounds).finish (serve env) tid w =
        (.ok (.message (some ⟨message, m.seq, num⟩)), w') ∧ Admits env client w' ∧
      HasQueue client.provisioningApiUsername w' st' ∧ st'.msgs = m :: rest := by
  obtain ⟨w', hin, hadmits, hstreams⟩ := ha.finish_authenticateUser salt tid
  have hget : ∀ subject, (getMessage client.provisioningApiUsername subject false).finish
      (serve env) tid w' = _ := fun subject =>
    finish_getMessage subject ((congrFun hstreams _).trans hstream) hd hacked hfree hmsgs hpayload
  have hnext := finish_getNextMessage hadmits.prefilled rounds hget
  exact ⟨_, _, _, (finish_bind hin).trans ((finish_bind hnext).trans rfl), hadmits.setStream ..,
    ⟨World.streams_setStream_self .., _, Stream.durables_setDurable_self .., hacked⟩, hmsgs⟩

/-- What a report is answered: the message is deleted. -/
theorem Admits.finish_status (ha : Admits env client w) (salt : String) (tid rounds : Nat)
    {m : Stored Payload} {rest : List (Stored Payload)}
    (hq : HasQueue client.provisioningApiUsername w st) (hmsgs : st.msgs = m :: rest) :
    ∃ w' st', ((Request.status m.seq .ok).handler env client salt rounds).finish (serve env) tid w =
        (.ok (.status 200), w') ∧ Admits env client w' ∧
      HasQueue client.provisioningApiUsername w' st' ∧ st'.msgs = rest := by
  obtain ⟨w', hin, hadmits, hstreams⟩ := ha.finish_authenticateUser salt tid
  have hstored : st.stored m.seq = true := by
    unfold Stream.stored
    rw [hmsgs, List.any_cons, beq_self_eq_true, Bool.true_or]
  have hdelete : (postMessageStatus client.provisioningApiUsername m.seq .ok).finish (serve env) tid
      w' = _ := finish_postMessageStatus ((congrFun hstreams _).trans hq.stream) hstored
  have hroute : (updateMessageStatus client.provisioningApiUsername m.seq .ok).finish (serve env)
      tid w' = (.ok 200, _) := (finish_bind (finish_tryCatch hdelete)).trans rfl
  exact ⟨_, _, (finish_bind hin).trans ((finish_bind hroute).trans rfl), hadmits.setStream ..,
    ⟨World.streams_setStream_self .., hq.consumer⟩, Stream.msgs_keep_front hmsgs⟩

end Server

/-! ## Steps that nothing happens to -/

/-! The run that is built here never serves a handler that an earlier process has left behind. It
need not: the calls of a handler are steps of their own, and nothing obliges a run to take them. -/

/-- A request that arrives, a call that is answered, a callback that returns; and the ack wait of a
delivery that is still out may pass. -/
def ConsumptionStep.Undisturbed : ConsumptionStep → Prop
  | .arrive .. => True
  | .serve _ f => f = .ok
  | .respond _ => True
  | .callbackReturns => True
  | .ackWaitExpires => True
  | _ => False

/-- Undisturbed steps lead from one state to the other. -/
def Consumption.Leads (env : Env) (h : MessageHandler) (s t : Consumption) : Prop :=
  ∃ ls : List ConsumptionStep, (∀ l ∈ ls, l.Undisturbed) ∧
    Machine.run (Consumption.step h env) s ls = some t

namespace Consumption

-- `Leads` is reflexive and transitive, and contains the undisturbed steps.
theorem Leads.refl (s : Consumption) : Leads env h s s :=
  ⟨[], fun _ hl => absurd hl List.not_mem_nil, rfl⟩

theorem Leads.trans {u : Consumption} (hst : Leads env h s t) (htu : Leads env h t u) :
    Leads env h s u := by
  obtain ⟨ls, hls, hrun⟩ := hst
  obtain ⟨ls', hls', hrun'⟩ := htu
  refine ⟨ls ++ ls', fun l hl => (List.mem_append.mp hl).elim (hls l) (hls' l), ?_⟩
  rw [Machine.run_append, hrun]
  exact hrun'

theorem leads_step {l : ConsumptionStep} (hl : l.Undisturbed) (hs : s.step h env l = some t) :
    Leads env h s t := by
  refine ⟨[l], fun l' hl' => List.mem_singleton.mp hl' ▸ hl, ?_⟩
  rw [Machine.run_cons, hs]
  rfl

/-- All calls of a handler are answered. -/
theorem leads_served {i j : Nat} {handler : Coro Reply} {reply : Reply}
    (hj : s.handlers[j]? = some (i, handler))
    (hfinish : handler.finish (serve env) j s.world = (.ok reply, w)) :
    Leads env h s { s with world := w, handlers := s.handlers.set j (i, .pure reply) } := by
  induction handler generalizing s with
  | pure a =>
    cases hfinish
    obtain ⟨hlt, hget⟩ := List.getElem?_eq_some_iff.mp hj
    have hsame : s.handlers.set j (i, .pure reply) = s.handlers := by
      rw [← hget]
      exact List.set_getElem_self hlt
    rw [hsame]
    exact .refl s
  | throw e => cases hfinish
  | await op k ih =>
    have hstep : s.step h env (.serve j .ok) = some { s with
        world := (answer env j op s.world).2
        handlers := s.handlers.set j (i, k (answer env j op s.world).1) } := by
      simp only [step, hj]
      rfl
    obtain ⟨hlt, -⟩ := List.getElem?_eq_some_iff.mp hj
    refine (leads_step (l := .serve j .ok) rfl hstep).trans ?_
    have hrest := ih _ (s := { s with
        world := (answer env j op s.world).2
        handlers := s.handlers.set j (i, k (answer env j op s.world).1) })
      (List.getElem?_set_self hlt) hfinish
    rwa [List.set_set] at hrest

/-- **A request that is answered**: it arrives, its handler returns, and the process hears of it. -/
theorem leads_answered (env : Env) (h : MessageHandler) {counter : Nat} {op : ClientOp}
    {k : Except ClientError op.Res → ClientCoro Bool} {before : List Request} {request : Request}
    {reply : Reply} {r : Except ClientError op.Res}
    (hp : s.process = some ⟨counter, .await op k⟩) (hrequests : s.requests = before ++ [request])
    (hfinish : (request.handler env h.client "" 0).finish (serve env) s.handlers.length s.world =
      (.ok reply, w)) (hresponse : op.response (.pure reply) = some r) :
    ∃ handlers,
      Leads env h s ({ s with world := w, handlers := handlers }.goOn h counter (k r)) := by
  generalize hhandler : request.handler env h.client "" 0 = handler at hfinish
  have hlast : s.requests[before.length]? = some request := by
    rw [hrequests, List.getElem?_append_right (Nat.le_refl _), Nat.sub_self]
    rfl
  have harrive : s.step h env (.arrive before.length "" 0) =
      some { s with handlers := s.handlers ++ [(before.length, handler)] } := by
    simp only [step, hlast, hhandler]
  have hnew : (s.handlers ++ [(before.length, handler)])[s.handlers.length]? =
      some (before.length, handler) := by
    rw [List.getElem?_append_right (Nat.le_refl _), Nat.sub_self]
    rfl
  have hserved : Leads env h { s with handlers := s.handlers ++ [(before.length, handler)] } _ :=
    leads_served hnew hfinish
  have hover : ((s.handlers ++ [(before.length, handler)]).set s.handlers.length
      (before.length, .pure reply))[s.handlers.length]? = some (before.length, .pure reply) :=
    List.getElem?_set_self (by simp)
  have hlength : before.length + 1 = s.requests.length := by
    rw [hrequests, List.length_append]
    rfl
  refine ⟨(s.handlers ++ [(before.length, handler)]).set s.handlers.length
    (before.length, .pure reply), ?_⟩
  refine ((leads_step (l := .arrive before.length "" 0) trivial harrive).trans hserved).trans
    (leads_step (l := .respond s.handlers.length) trivial ?_)
  simp only [step, hp, hover, hlength, if_true, hresponse]

/-- Where a process goes on does not depend on where it was. -/
theorem enter_process (s : Consumption) (process : Option ConsumerProcess) (counter : Nat)
    (prog : ClientCoro Bool) :
    { s with process := process }.enter counter prog = s.enter counter prog := by
  cases prog <;> rfl

/-- …and neither where it goes after a turn. -/
theorem goOn_process (s : Consumption) (process : Option ConsumerProcess) (counter : Nat)
    (prog : ClientCoro Bool) :
    { s with process := process }.goOn h counter prog = s.goOn h counter prog := by
  cases prog with
  | pure handled =>
    cases handled with
    | false =>
      simp only [goOn]
      exact enter_process s process counter h.turn
    | true =>
      simp only [goOn]
      split
      · rfl
      · exact enter_process s process (counter + 1) h.turn
  | throw e => rfl
  | await op k => rfl

/-- **All callbacks return**, one after the other. -/
theorem leads_called (env : Env) (h : MessageHandler) (message : ProvisioningMessage)
    (callbacks : List Callback) (s : Consumption) (counter : Nat) : ∃ calls,
    Leads env h (s.goOn h counter (h.handleMessage message callbacks))
      ({ s with calls := calls }.goOn h counter (h.handleMessage message [])) := by
  induction callbacks generalizing s with
  | nil => exact ⟨s.calls, .refl _⟩
  | cons callback callbacks ih =>
    obtain ⟨k, hawait, hok, -⟩ := handleMessage_cons h message callback callbacks
    have hcalled : s.goOn h counter (h.handleMessage message (callback :: callbacks)) = { s with
        process := some ⟨counter, .await (.callback callback message) k⟩
        calls := s.calls ++ [.invoked callback message] } := by
      rw [hawait]
      simp only [goOn, enter, ClientOp.requests, ClientOp.invocations, List.append_nil]
    have hreturns : (s.goOn h counter (h.handleMessage message (callback :: callbacks))).step h env
        .callbackReturns = some ({ s with
          calls := s.calls ++ [CallbackEvent.invoked callback message] ++
            [CallbackEvent.returned callback message] }.goOn h counter
              (h.handleMessage message callbacks)) := by
      rw [hcalled, ← hok]
      exact congrArg some (goOn_process { s with
        calls := s.calls ++ [CallbackEvent.invoked callback message] ++
          [CallbackEvent.returned callback message] } _ counter _)
    obtain ⟨calls, hrest⟩ := ih { s with
      calls := s.calls ++ [CallbackEvent.invoked callback message] ++
        [CallbackEvent.returned callback message] }
    exact ⟨calls, (leads_step (l := .callbackReturns) trivial hreturns).trans hrest⟩

/-- The process asks for a message. -/
theorem enter_turn (s : Consumption) (counter : Nat) : s.enter counter h.turn = { s with
    process := some ⟨counter, h.turn⟩
    requests := s.requests ++ [.next] } := by
  obtain ⟨k, hturn, -⟩ := turn_eq h
  rw [hturn]
  simp only [enter, ClientOp.requests, ClientOp.invocations, List.append_nil]

/-- …and for the one after it, if there is no limit. -/
theorem goOn_done (hlimit : h.messageLimit = none) (s : Consumption) (counter : Nat) :
    s.goOn h counter (.pure true) = s.enter (counter + 1) h.turn := by
  simp only [goOn, MessageHandler.limitReached, hlimit, Bool.false_eq_true, if_false]

end Consumption

/-! ## A message -/

/-! One message from the front of the stream to its deletion, with the process waiting for the next
one at both ends: `AsksNext` is the invariant of the loop. The induction is on the messages. -/

/-- After the callbacks comes the report, and after that the next turn. -/
theorem handleMessage_nil (hpop : h.popAfterHandling = true) (message : ProvisioningMessage) :
    ∃ k, h.handleMessage message [] =
        .await (.setMessageStatus h.subscriptionName message.sequenceNumber .ok) k ∧
      k (.ok ()) = .pure true := by
  have hreport : h.handleMessage message [] =
      (h.acknowledgeMessageWithRetries message).bind fun _ => .pure true := by
    show (if h.popAfterHandling then _ else _ : ClientCoro Bool) = _
    rw [if_pos hpop]
    rfl
  rw [hreport]
  exact ⟨_, rfl, rfl⟩

/-- The process waits for the answer to its request for the next message. -/
structure AsksNext (env : Env) (h : MessageHandler) (s : Consumption) (st : Store.Stream Payload) :
    Prop where
  process : ∃ counter, s.process = some ⟨counter, h.turn⟩
  requests : ∃ before, s.requests = before ++ [.next]
  admits : Admits env h.client s.world
  queue : HasQueue h.subscriptionName s.world st

/-- A delivery that is still out comes to its end. -/
theorem AsksNext.expired (ha : AsksNext env h s st) : ∃ t st' d, s.Leads env h t ∧
    AsksNext env h t st' ∧ st'.msgs = st.msgs ∧
    st'.durables (durableKey h.subscriptionName) = some d ∧ d.pending = none := by
  obtain ⟨d, hd, hacked⟩ := ha.queue.consumer
  let st' := st.setDurable (durableKey h.subscriptionName) (some d.expire)
  let w := s.world.setStream (streamKey h.subscriptionName) (some st')
  have hexpires : s.step h env .ackWaitExpires = some { s with world := w } := by
    simp only [Consumption.step, answer, ha.queue.stream, hd, w, st']
  exact ⟨_, st', d.expire, Consumption.leads_step (l := .ackWaitExpires) trivial hexpires,
    ⟨ha.process, ha.requests, ha.admits.setStream .., World.streams_setStream_self .., d.expire,
      Stream.durables_setDurable_self .., hacked⟩, rfl, Stream.durables_setDurable_self .., rfl⟩

/-- **A message is handled**, and the next one is asked for. -/
theorem AsksNext.handled (ha : AsksNext env h s st) (hpop : h.popAfterHandling = true)
    (hlimit : h.messageLimit = none) {m : Stored Payload} {rest : List (Stored Payload)}
    {message : Message} (hmsgs : st.msgs = m :: rest) (hpayload : m.payload = .message message)
    (hdescribable : Describable message) :
    ∃ t st', s.Leads env h t ∧ AsksNext env h t st' ∧ st'.msgs = rest := by
  obtain ⟨s₀, st₀, d, hexpired, ha₀, hmsgs₀, hd, hfree⟩ := ha.expired
  obtain ⟨counter, hp⟩ := ha₀.process
  obtain ⟨before, hrequests⟩ := ha₀.requests
  obtain ⟨k, hturn, -, hsome, -⟩ := turn_eq h
  rw [hturn] at hp
  have hacked : d.acked = [] := by
    obtain ⟨d', hd', hacked⟩ := ha₀.queue.consumer
    exact Option.some.inj (hd'.symm.trans hd) ▸ hacked
  -- The message is handed out, and the callbacks are called.
  obtain ⟨w₁, num, st₁, hnext, hadmits₁, hqueue₁, hmsgs₁⟩ :=
    ha₀.admits.finish_next "" s₀.handlers.length 0 ha₀.queue.stream hd hacked hfree
      (hmsgs₀.trans hmsgs) hpayload
  obtain ⟨handlers₁, hheard⟩ := Consumption.leads_answered env h hp hrequests hnext rfl
  rw [hsome _ hdescribable] at hheard
  obtain ⟨calls, hcalled⟩ := Consumption.leads_called env h
    ⟨message, m.seq, num⟩ h.callbacks { s₀ with world := w₁, handlers := handlers₁ } counter
  -- The report is answered.
  obtain ⟨k', hreport, hover⟩ := handleMessage_nil hpop ⟨message, m.seq, num⟩
  obtain ⟨w₂, st₂, hstatus, hadmits₂, hqueue₂, hmsgs₂⟩ :=
    hadmits₁.finish_status "" handlers₁.length 0 hqueue₁ hmsgs₁
  rw [hreport] at hcalled
  obtain ⟨handlers₂, hreported⟩ := Consumption.leads_answered env h (r := .ok ())
    (s := { s₀ with world := w₁, handlers := handlers₁, calls := calls }.goOn h counter
      (.await (.setMessageStatus h.subscriptionName m.seq .ok) k')) rfl rfl hstatus rfl
  rw [hover, Consumption.goOn_done hlimit, Consumption.enter_turn] at hreported
  exact ⟨_, st₂, ((hexpired.trans hheard).trans hcalled).trans hreported,
    ⟨⟨_, rfl⟩, ⟨_, rfl⟩, hadmits₂, hqueue₂⟩, hmsgs₂⟩

/-- **All messages are handled.** -/
theorem AsksNext.drained (ha : AsksNext env h s st) (hpop : h.popAfterHandling = true)
    (hlimit : h.messageLimit = none)
    (hpayload : ∀ m ∈ st.msgs, ∃ message, m.payload = .message message ∧ Describable message) :
    ∃ t st', s.Leads env h t ∧ AsksNext env h t st' ∧ st'.msgs = [] := by
  generalize hmsgs : st.msgs = msgs at hpayload
  induction msgs generalizing s st with
  | nil => exact ⟨s, st, .refl s, ha, hmsgs⟩
  | cons m rest ih =>
    obtain ⟨message, hm, hdescribable⟩ := hpayload m List.mem_cons_self
    obtain ⟨t, st', hleads, ht, hrest⟩ := ha.handled hpop hlimit hmsgs hm hdescribable
    obtain ⟨u, st'', hleads', hu, hnil⟩ :=
      ih ht hrest fun n hn => hpayload n (List.mem_cons_of_mem m hn)
    exact ⟨u, st'', hleads.trans hleads', hu, hnil⟩

/-! ## What cannot be described -/

/-! The other direction: a property of the programs of the process and of the calls that were made,
kept by every step of every kind. -/

/-- An `await` that calls no callback, or one with a message that can be described. -/
def CallsDescribable (op : ClientOp) : Prop :=
  ∀ callback message, .invoked callback message ∈ op.invocations → Describable message.message

/-- The report of a message calls no callback. -/
theorem Acknowledges.callsDescribable {seqNum : Nat} {op : ClientOp}
    (hop : Acknowledges seqNum op) : CallsDescribable op := by
  intro callback message hmem
  cases hop <;> exact absurd hmem List.not_mem_nil

/-- Handling a message that can be described calls callbacks with it only. -/
theorem uses_handleMessage_callsDescribable (h : MessageHandler) {message : ProvisioningMessage}
    (hdescribable : Describable message.message) (callbacks : List Callback) :
    (h.handleMessage message callbacks).Uses CallsDescribable := by
  induction callbacks with
  | nil => exact (uses_handleMessage_nil h message).mono fun _ => Acknowledges.callsDescribable
  | cons callback callbacks ih =>
    obtain ⟨k, hawait, hok, herror⟩ := handleMessage_cons h message callback callbacks
    rw [hawait]
    refine ⟨fun callback' message' hmem => ?_, fun r => ?_⟩
    · cases List.mem_singleton.mp hmem
      exact hdescribable
    · cases r with
      | ok u =>
        rw [hok]
        exact ih
      | error e =>
        rw [herror]
        trivial

/-- **A turn describes a message before it calls a callback.** A message that cannot be described
ends the turn. -/
theorem uses_turn_callsDescribable (h : MessageHandler) : h.turn.Uses CallsDescribable := by
  obtain ⟨k, hturn, hnone, hsome, hstuck, herror⟩ := turn_eq h
  rw [hturn]
  refine ⟨fun callback message hmem => absurd hmem List.not_mem_nil, fun r => ?_⟩
  cases r with
  | error e =>
    rw [herror]
    trivial
  | ok message? =>
    cases message? with
    | none =>
      rw [hnone]
      trivial
    | some message =>
      by_cases hdescribable : Describable message.message
      · rw [hsome message hdescribable]
        exact uses_handleMessage_callsDescribable h hdescribable h.callbacks
      · rw [hstuck message hdescribable]
        trivial

/-- The callbacks have been called with nothing else, and will not be. -/
structure DescribedCalls (s : Consumption) : Prop where
  calls : ∀ callback message, .invoked callback message ∈ s.calls → Describable message.message
  process : ∀ p, s.process = some p → p.prog.Uses CallsDescribable

section Step

variable {counter : Nat} {prog : ClientCoro Bool}

/-- A process that is over calls nothing. -/
theorem DescribedCalls.ended (hs : DescribedCalls s) :
    DescribedCalls { s with process := none } :=
  ⟨hs.calls, nofun⟩

/-- It calls what its next `await` says. -/
theorem DescribedCalls.enter (hs : DescribedCalls s) (hprog : prog.Uses CallsDescribable)
    (counter : Nat) : DescribedCalls (s.enter counter prog) := by
  cases prog with
  | pure b => exact hs.ended
  | throw e => exact hs.ended
  | await op k =>
    refine ⟨fun callback message hmem => ?_, fun p hp => ?_⟩
    · rcases List.mem_append.mp hmem with hold | hnew
      · exact hs.calls callback message hold
      · exact hprog.1 callback message hnew
    · cases hp
      exact hprog

/-- Its next turn is one like the first. -/
theorem DescribedCalls.goOn (hs : DescribedCalls s) (hprog : prog.Uses CallsDescribable)
    (counter : Nat) : DescribedCalls (s.goOn h counter prog) := by
  cases prog with
  | throw e => exact hs.ended
  | await op k => exact hs.enter hprog counter
  | pure handled =>
    cases handled with
    | false => exact hs.enter (uses_turn_callsDescribable h) counter
    | true =>
      simp only [Consumption.goOn]
      split
      · exact hs.ended
      · exact hs.enter (uses_turn_callsDescribable h) _

/-- A callback has returned or raised. -/
theorem DescribedCalls.record (hs : DescribedCalls s) {event : CallbackEvent}
    (hevent : ∀ callback message, event ≠ .invoked callback message) :
    DescribedCalls (s.record event) := by
  refine ⟨fun callback message hmem => ?_, hs.process⟩
  rcases List.mem_append.mp hmem with hold | hnew
  · exact hs.calls callback message hold
  · exact absurd (List.mem_singleton.mp hnew).symm (hevent callback message)

/-- The process hears something and goes on. -/
theorem DescribedCalls.hears (hs : DescribedCalls s) {op : ClientOp}
    {k : Except ClientError op.Res → ClientCoro Bool}
    (hp : s.process = some ⟨counter, .await op k⟩) (r : Except ClientError op.Res) :
    DescribedCalls (s.goOn h counter (k r)) :=
  hs.goOn ((hs.process _ hp).2 r) counter

/-- **Every step keeps it.** -/
theorem DescribedCalls.step (hs : DescribedCalls s) {l : ConsumptionStep}
    (hl : s.step h env l = some t) : DescribedCalls t := by
  cases Consumption.stepsTo_of_step hl with
  | start hp => exact hs.enter (uses_turn_callsDescribable h) 0
  | crash => exact hs.ended
  | respond hp hj hi hr => exact hs.hears hp _
  | giveUp hp hrequests e => exact hs.hears hp _
  | callbackReturns hp => exact (hs.record (by intros; exact nofun)).hears hp _
  | callbackRaises hp e => exact (hs.record (by intros; exact nofun)).hears hp _
  | wake hp => exact hs.hears hp _
  -- The others do not touch the process.
  | arrive | serve | post | ackWaitExpires | elsewhere => exact ⟨hs.calls, hs.process⟩

end Step

/-- **No callback is called with what cannot be described.** -/
theorem describedCalls_run (hstart : s.AtStart h) {ls : List ConsumptionStep}
    (hrun : Machine.run (Consumption.step h env) s ls = some t) : DescribedCalls t := by
  refine Machine.run_invariant (I := DescribedCalls) (fun _ _ _ hs hl => hs.step hl) ?_ hrun
  refine ⟨?_, ?_⟩
  · rw [hstart.calls]
    exact fun callback message hmem => absurd hmem List.not_mem_nil
  · rw [hstart.process]
    exact nofun

/-! ## Everything -/

/-! Two runs in a row: whatever has gone before, and the undisturbed one. -/

/-- Nothing is posted in an undisturbed run. -/
theorem posted_of_undisturbed {ls : List ConsumptionStep} (hls : ∀ l ∈ ls, l.Undisturbed) :
    ls.filterMap ConsumptionStep.posted? = [] := by
  refine List.filterMap_eq_nil_iff.mpr fun l hl => ?_
  have hquiet := hls l hl
  cases l with
  | post payload => exact hquiet.elim
  | _ => rfl

/-- What a callback was called with comes from a call of it. -/
theorem invoked_of_invocation? {callback : Callback} {event : CallbackEvent}
    {entry : Nat × Payload} (h : event.invocation? callback = some entry) :
    ∃ message, event = .invoked callback message ∧ entry = message.entry := by
  cases event with
  | invoked called message =>
    simp only [CallbackEvent.invocation?] at h
    split at h
    · next heq =>
      subst heq
      exact ⟨message, rfl, (Option.some.inj h).symm⟩
    · cases h
  | returned called message => cases h
  | raised called message => cases h

/-- **An empty stream has been handed over**: nothing gets out of it in any other way. -/
theorem called_of_empty (hstart : s.AtStart h) {ls : List ConsumptionStep}
    (hrun : Machine.run (Consumption.step h env) s ls = some t) (hempty : t.messages h = [])
    {callback : Callback} (hcallback : callback ∈ h.callbacks) :
    ((t.calledWith callback).destutter (· ≠ ·)).map (·.2) =
      (s.messages h).map Stored.payload ++ ls.filterMap ConsumptionStep.posted? := by
  obtain ⟨st, log, acked, held, hs, hc, hlog⟩ := callsInOrder_run hstart hrun
  have hnone : log.drop acked = [] := by
    rw [← hc.logged.msgs, ← hs.queue.messages, hempty]
    rfl
  obtain ⟨n, hle, -, hcalled⟩ := hc.called hcallback
  rw [hcalled, List.take_of_length_le (Nat.le_trans (List.drop_eq_nil_iff.mp hnone) hle), hlog]

/-- What was waiting has been there before. -/
theorem payload_mem_of_waiting (hstart : s.AtStart h) {ls : List ConsumptionStep}
    (hrun : Machine.run (Consumption.step h env) s ls = some t) {m : Stored Payload}
    (hm : m ∈ t.messages h) :
    m.payload ∈ (s.messages h).map Stored.payload ++ ls.filterMap ConsumptionStep.posted? := by
  obtain ⟨st, log, acked, held, hs, hc, hlog⟩ := callsInOrder_run hstart hrun
  rw [hs.queue.messages] at hm
  rw [← hlog]
  exact List.mem_map_of_mem (List.mem_of_mem_drop (hc.logged.mem_drop hm))

/-- **The consumer catches up.** After any run, and for a process that is started anew and that
nothing happens to: once the stream is empty, each callback has been called with all messages there
have been, in order; and the stream can be emptied if and only if every message that waits in it
can be described. -/
theorem consumer_catches_up_iff (env : Env) (h : MessageHandler) (s t : Consumption)
    (ls : List ConsumptionStep) (hstart : s.AtStart h)
    (hrun : Machine.run (Consumption.step h env) s ls = some t)
    (hadmits : Admits env h.client t.world) (hpop : h.popAfterHandling = true)
    (hlimit : h.messageLimit = none) :
    (∀ more u, (∀ l ∈ more, l.Undisturbed) →
      Machine.run (Consumption.step h env) t (.crash :: .start :: more) = some u →
      u.messages h = [] → ∀ callback ∈ h.callbacks,
        ((u.calledWith callback).destutter (· ≠ ·)).map (·.2) =
          (s.messages h).map Stored.payload ++ ls.filterMap ConsumptionStep.posted?) ∧
    ((∃ more u, (∀ l ∈ more, l.Undisturbed) ∧
      Machine.run (Consumption.step h env) t (.crash :: .start :: more) = some u ∧
      u.messages h = []) ↔
      ∀ m ∈ t.messages h, ∃ message, m.payload = .message message ∧ Describable message) := by
  -- The two runs in a row are one, and nothing is posted in the second.
  have hwhole : ∀ more u,
      Machine.run (Consumption.step h env) t (.crash :: .start :: more) = some u →
      Machine.run (Consumption.step h env) s (ls ++ .crash :: .start :: more) = some u := by
    intro more u hagain
    rw [Machine.run_append, hrun]
    exact hagain
  have hcalled : ∀ more u, (∀ l ∈ more, l.Undisturbed) →
      Machine.run (Consumption.step h env) t (.crash :: .start :: more) = some u →
      u.messages h = [] → ∀ callback ∈ h.callbacks,
        ((u.calledWith callback).destutter (· ≠ ·)).map (·.2) =
          (s.messages h).map Stored.payload ++ ls.filterMap ConsumptionStep.posted? := by
    intro more u hmore hagain hempty callback hcallback
    have hposted : (ls ++ .crash :: .start :: more).filterMap ConsumptionStep.posted? =
        ls.filterMap ConsumptionStep.posted? := by
      rw [List.filterMap_append, List.filterMap_cons_none rfl, List.filterMap_cons_none rfl,
        posted_of_undisturbed hmore, List.append_nil]
    rw [called_of_empty hstart (hwhole more u hagain) hempty hcallback, hposted]
  refine ⟨hcalled, ?_, fun hpayload => ?_⟩
  · intro ⟨more, u, hmore, hagain, hempty⟩ m hm
    obtain ⟨callback, hcallback⟩ := List.exists_mem_of_ne_nil _ h.callbacks_ne_nil
    -- It has been handed to the callbacks, and what is handed to them can be described.
    have hmem := payload_mem_of_waiting hstart hrun hm
    rw [← hcalled more u hmore hagain hempty callback hcallback] at hmem
    obtain ⟨entry, hentry, hpayload⟩ := List.mem_map.mp hmem
    obtain ⟨event, hevent, hinvocation⟩ :=
      List.mem_filterMap.mp ((List.destutter_sublist _ _).subset hentry)
    obtain ⟨message, rfl, rfl⟩ := invoked_of_invocation? hinvocation
    exact ⟨message.message, hpayload.symm,
      (describedCalls_run hstart (hwhole more u hagain)).calls callback message hevent⟩
  · obtain ⟨st, -, -, -, hs, -, -⟩ := callsInOrder_run hstart hrun
    have hasks : AsksNext env h (({ t with process := none } : Consumption).enter 0 h.turn) st := by
      rw [Consumption.enter_turn]
      exact ⟨⟨0, rfl⟩, ⟨_, rfl⟩, hadmits, hs.queue⟩
    rw [hs.queue.messages] at hpayload
    obtain ⟨u, st', ⟨more, hmore, hleads⟩, hu, hnil⟩ := hasks.drained hpop hlimit hpayload
    exact ⟨more, u, hmore, hleads, hu.queue.messages.trans hnil⟩

theorem consumer_catches_up_iff_late : ∃ t,
    Machine.run (Consumption.step .sample .sample) .withMessage lateSteps = some t ∧
    ∃ more u, (∀ l ∈ more, l.Undisturbed) ∧
      Machine.run (Consumption.step .sample .sample) t (.crash :: .start :: more) = some u ∧
      u.messages .sample = [] ∧ ∀ callback ∈ MessageHandler.sample.callbacks,
        ((u.calledWith callback).destutter (· ≠ ·)).map (·.2) =
          (Consumption.withMessage.messages .sample).map Stored.payload ++
            lateSteps.filterMap ConsumptionStep.posted? := by
  have hstart : Consumption.AtStart .sample .withMessage :=
    ⟨rfl, rfl, rfl, rfl, _, rfl, _, rfl, rfl⟩
  have hlate : ∃ t, Machine.run (Consumption.step .sample .sample) .withMessage lateSteps = some t ∧
      Admits .sample MessageHandler.sample.client t.world ∧
      ∀ m ∈ t.messages .sample, ∃ message, m.payload = .message message ∧ Describable message := by
    refine ⟨_, rfl, ⟨⟨_, rfl, by decide⟩, fun x hx => ?_, Or.inr rfl⟩, fun m hm => ?_⟩
    · cases hx with
      | head => exact ⟨"x", rfl⟩
      | tail _ hx => cases hx
    · cases hm with
      | head => exact ⟨_, rfl, describable_sample⟩
      | tail _ hm =>
        cases hm with
        | head => exact ⟨_, rfl, describable_sample⟩
        | tail _ hm => cases hm
  obtain ⟨t, hrun, hadmits, hpayload⟩ := hlate
  obtain ⟨hcalled, hcan⟩ := consumer_catches_up_iff .sample .sample .withMessage t lateSteps hstart
    hrun hadmits rfl rfl
  obtain ⟨more, u, hmore, hagain, hempty⟩ := hcan.mpr hpayload
  exact ⟨t, hrun, more, u, hmore, hagain, hempty, hcalled more u hmore hagain hempty⟩

end Provisioning
