import Provisioning.Properties.PrefillGate

/-!
# A popped message

With `pop`, `get_next_message` is to delete the message it returns. It acknowledges the message, and
it does so before it has looked at the payload. Whether an acknowledgement removes a message is up
to the retention of the stream, and a subscription's stream keeps what is acknowledged. And once it
is acknowledged, a message that cannot be returned is delivered to nobody else.

A request for a message makes only calls that change nothing, up to its fetch; so what it comes to
is told by the state it starts in and by the faults its calls meet. `popped_iff` says when it
removes what it returns, and nothing else.

## What there is to promise

Removal has two sides. A message that was returned must be gone from the log (`removed`), and it
must not come back, whatever is called afterwards (`final`). An acknowledgement gives the second for
any retention; the first it gives only for a work queue. And a request that returns nothing must not
have removed anything (`untouched`), which is what an acknowledgement that comes before the payload
is decoded cannot keep.

## How the ends are counted

A request looks at the flag, at the record unless the flag is set, and then at the stream, and any
of its calls may be lost. Instead of following all these paths to the end, each part is shown to end
in one of the three ways of `RequestEnds`, and the parts are put together from the back. The number
in it tells how many calls are still to be made before the acknowledgement: what decides is the
fault that *this* call meets, and a call in front of it uses up one entry of the plan
(`RequestEnds.await`). The three ways are those that leave the log alone, those that hand over
without touching it, and those whose acknowledgement was served, answered or not.

The condition `Poppable` speaks of the state before the request and of the plan of faults, and of
nothing that the request computes.
-/

namespace Provisioning

open Await Store Prog

/-- How a request for a message ends, and the state it leaves. -/
abbrev Handed : Type := Option (Except Exc (Option ProvisioningMessage)) × World

/-- No message is returned: there is none, the request has raised, or it was cut short. -/
def NoMessage (x : Option (Except Exc (Option ProvisioningMessage))) : Prop :=
  ∀ m, x ≠ some (.ok (some m))

/-- The log of the subscription's stream is as it was, and so is what has been acknowledged. -/
def SameLog (name : String) (w w' : World) : Prop :=
  (w'.streams (streamKey name)).map (fun s => (s.msgs, s.acked)) =
    (w.streams (streamKey name)).map (fun s => (s.msgs, s.acked))

/-- Some time later, whatever has been called in between: no request returns the message of this
number. A stream that was deleted counts from the beginning, so it is left out. -/
def NeverReturned (env : Env) (name : String) (seq : Nat) (w : World) : Prop :=
  ∀ calls : List (Nat × Op), (∀ c ∈ calls, c.2 ≠ .deleteStream (streamKey name)) →
    ∀ (tid rounds : Nat) (pop : Bool) (plan : List (Fault Outage)) (m : ProvisioningMessage),
      ((getNextMessage name rounds pop).ending (serve env) tid plan
        (calls.foldl (fun w c => (answer env c.1 c.2 w).2) w)).1 = some (.ok (some m)) →
      m.sequenceNumber ≠ seq

/-- What is returned is removed; what is not returned is not touched. -/
structure PopsReturned (env : Env) (name : String) (w : World) (r : Handed) : Prop where
  removed : ∀ m, r.1 = some (.ok (some m)) → ∀ s, r.2.streams (streamKey name) = some s →
    s.stored m.sequenceNumber = false
  final : ∀ m, r.1 = some (.ok (some m)) → NeverReturned env name m.sequenceNumber r.2
  untouched : r.1 ≠ none → NoMessage r.1 → SameLog name w r.2

/-- The message that the consumer of the subscription is to be handed next. -/
structure Deliverable (name : String) (w : World) (s : Store.Stream Payload) (d : Durable)
    (m : Stored Payload) : Prop where
  stream : w.streams (streamKey name) = some s
  durable : s.durables (durableKey name) = some d
  next : s.fetch d = some m

/-- The process remembers that the prefill is done, or the record says so. -/
def GateOpen (name : String) (w : World) : Prop := w.prefillDone name = true ∨ PrefillDone w name

/-- The calls of a request before it acknowledges: the flag, the record if the flag is not set, the
stream, the consumer, the subscription and the fetch. -/
def callsBeforeAck (name : String) (w : World) : Nat := if w.prefillDone name then 5 else 6

/-- Where the request comes to acknowledge a message, and the acknowledgement does not get lost on
its way: it is answered, the stream is a work queue, and the message is one that can be returned. -/
def Poppable (name : String) (plan : List (Fault Outage)) (w : World) : Prop :=
  ∀ s d m f, Deliverable name w s d m → GateOpen name w → Meets (callsBeforeAck name w) f plan →
    (∀ e, f ≠ .before e) →
    f = .ok ∧ s.workQueue = true ∧ ∃ message, m.payload = .message message

/-! ## What a request can come to -/

/-! `quiet` has to say more than that nothing happened: where there was a message to be handed over
and the plan goes as far as the acknowledgement, it was lost on its way. Else the condition could
not be shown to be necessary. -/

/-- What the delivery is returned as: only a `Message` can be. -/
def Decodes (msg : Msg) (x : Except Exc (Option ProvisioningMessage)) : Prop :=
  (∃ message, msg.payload = .message message ∧
    x = .ok (some ⟨message, msg.streamSeq, msg.numDelivered⟩)) ∨
  (∀ message, msg.payload ≠ .message message) ∧ ∃ e, x = .error e

variable {env : Env} {tid : Nat} {name : String} {w : World}

/-- What the consumer is handed. -/
abbrev nextDelivery (name : String) (d : Durable) (m : Stored Payload) : Msg :=
  deliveryOf (streamKey name) (durableKey name) d m

/-- **The ends of a request** whose acknowledgement would be the call after the next `n` ones: it
returns no message and changes nothing, it hands over what was fetched, or it acknowledges that. -/
inductive RequestEnds (env : Env) (tid : Nat) (name : String) (pop : Bool) (n : Nat)
    (plan : List (Fault Outage)) (w : World) : Handed → Prop where
  | quiet {r : Handed} (hnone : NoMessage r.1) (hsame : SameLog name w r.2)
      (hno : ∀ s d m f, Deliverable name w s d m → Meets n f plan → pop = true →
        ∃ e, f = .before e) :
      RequestEnds env tid name pop n plan w r
  | handed (s : Store.Stream Payload) (d : Durable) (m : Stored Payload)
      {x : Except Exc (Option ProvisioningMessage)} (hpop : pop = false)
      (hdeliv : Deliverable name w s d m)
      (hx : Decodes (nextDelivery name d m) x) :
      RequestEnds env tid name pop n plan w
        (some x, (answer env tid (.fetch (streamKey name) (durableKey name)) w).2)
  | acked (s : Store.Stream Payload) (d : Durable) (m : Stored Payload) (f : Fault Outage)
      {x : Except Exc (Option ProvisioningMessage)} (hdeliv : Deliverable name w s d m)
      (hmeets : Meets n f plan) (hlands : ∀ e, f ≠ .before e)
      (hx : (f = .ok ∧ Decodes (nextDelivery name d m) x) ∨ (f ≠ .ok ∧ ∃ e, x = .error e)) :
      RequestEnds env tid name pop n plan w
        (some x, (answer env tid (.ack (nextDelivery name d m))
          (answer env tid (.fetch (streamKey name) (durableKey name)) w).2).2)

/-- The three ways to return no message. -/
theorem NoMessage.cut : NoMessage none := nofun
theorem NoMessage.raised (e : Exc) : NoMessage (some (.error e)) := nofun
theorem NoMessage.returned : NoMessage (some (.ok none)) := nofun

theorem SameLog.refl (name : String) (w : World) : SameLog name w w := rfl

/-- An acknowledgement would have to come from a message that is not there. -/
theorem RequestEnds.of_nothing {pop : Bool} {n : Nat} {plan : List (Fault Outage)} {r : Handed}
    (hnone : NoMessage r.1) (hsame : SameLog name w r.2)
    (hno : ∀ s d m, ¬ Deliverable name w s d m) : RequestEnds env tid name pop n plan w r :=
  .quiet hnone hsame fun s d m _ hdeliv => absurd hdeliv (hno s d m)

/-- A call that changes nothing and raises what it is answered when it is lost. -/
theorem RequestEnds.await {pop : Bool} {n : Nat} {op : Op}
    {k : Except CallError op.Res → Coro (Option ProvisioningMessage)}
    (hkeep : (answer env tid op w).2 = w) (hlost : ∀ e : Outage, ∃ x, k (.error e.error) = .throw x)
    (hok : ∀ fs, RequestEnds env tid name pop n fs w
      ((k (answer env tid op w).1).ending (serve env) tid fs w)) (plan : List (Fault Outage)) :
    RequestEnds env tid name pop (n + 1) plan w
      ((Prog.await op k).ending (serve env) tid plan w) := by
  cases plan with
  | nil => exact .quiet .cut (.refl name w) fun s d m f _ hmeets => absurd hmeets not_meets_nil
  | cons g fs =>
    -- A lost call leaves the acknowledgement out.
    have hlate : ∀ {r : Handed}, g ≠ .ok → (∃ x, r = (some (.error x), w)) →
        RequestEnds env tid name pop (n + 1) (g :: fs) w r := by
      intro r hg hr
      obtain ⟨x, rfl⟩ := hr
      refine .quiet (.raised x) (.refl name w) fun s d m f _ hmeets => ?_
      exact absurd (meets_succ.mp hmeets).1 hg
    cases g with
    | before e =>
      obtain ⟨x, hx⟩ := hlost e
      refine hlate nofun ⟨x, ?_⟩
      rw [ending_before, serve_lost, hx, ending_throw]
    | after e =>
      obtain ⟨x, hx⟩ := hlost e
      refine hlate nofun ⟨x, ?_⟩
      rw [ending_after, serve_answer, serve_lost, hx, ending_throw, hkeep]
    | ok =>
      have hends := hok fs
      rw [ending_ok, serve_answer, hkeep]
      generalize (k (answer env tid op w).1).ending (serve env) tid fs w = r at hends ⊢
      cases hends with
      | quiet hnone hsame hno =>
        refine .quiet hnone hsame fun s d m f hdeliv hmeets => ?_
        exact hno s d m f hdeliv (meets_succ.mp hmeets).2
      | handed s d m hpop hdeliv hx => exact .handed s d m hpop hdeliv hx
      | acked s d m f hdeliv hmeets hlands hx =>
        exact .acked s d m f hdeliv (meets_succ.mpr ⟨rfl, hmeets⟩) hlands hx

/-- A fetch moves the delivery on; the log and the acknowledgements stay. -/
theorem sameLog_fetch (env : Env) (tid : Nat) (name : String) (w : World) :
    SameLog name w (answer env tid (.fetch (streamKey name) (durableKey name)) w).2 := by
  unfold SameLog
  rcases streams_answer env tid (.fetch (streamKey name) (durableKey name)) w (streamKey name) with
    hsame | hchange
  · rw [hsame]
  · generalize w.streams (streamKey name) = before,
      (answer env tid (.fetch (streamKey name) (durableKey name)) w).2.streams (streamKey name) =
        after at hchange ⊢
    cases hchange with
    | fetch _ s d hd m hm =>
      refine congrArg some (congrArg (Prod.mk s.msgs) (funext fun durable => ?_))
      by_cases hname : durable = durableKey name
      · rw [hname, Stream.acked_of_durable (Stream.durables_setDurable_self ..),
          Stream.acked_of_durable hd, Durable.acked_deliver]
      · unfold Stream.acked
        rw [Stream.durables_setDurable_of_ne hname]

/-- What is there to be delivered is what a fetch is answered with. -/
theorem Deliverable.answer_fetch {s : Store.Stream Payload} {d : Durable} {m : Stored Payload}
    (h : Deliverable name w s d m) (env : Env) (tid : Nat) :
    (answer env tid (.fetch (streamKey name) (durableKey name)) w).1 =
      .ok (nextDelivery name d m) := by
  simp only [answer, h.stream, h.durable, h.next]
  rfl

/-- Decoding makes no call, so the plan is not used up by it. -/
theorem ending_decoded (env : Env) (tid : Nat) (msg : Msg)
    {f : Option ProvisioningMessage → Coro (Option ProvisioningMessage)}
    (hsome : ∀ m, f (some m) = .pure (some m)) (plan : List (Fault Outage)) (w : World) :
    ∃ x, Decodes msg x ∧
      (((provisioningMessageFrom msg).bind fun m => Prog.pure (some m)).bind f).ending (serve env)
        tid plan w = (some x, w) := by
  unfold provisioningMessageFrom Decodes
  cases hpayload : msg.payload with
  | message body =>
    refine ⟨_, Or.inl ⟨body, rfl, rfl⟩, ?_⟩
    simp only [pure_eq, bind_pure, hsome, ending_pure]
  | prefill body =>
    refine ⟨.error (.keyError "realm"), Or.inr ⟨nofun, _, rfl⟩, ?_⟩
    simp only [throw_eq, bind_throw, ending_throw]
  | simple publisherName body =>
    refine ⟨.error (.keyError "realm"), Or.inr ⟨nofun, _, rfl⟩, ?_⟩
    simp only [throw_eq, bind_throw, ending_throw]

/-! ## One stream -/

/-! A request asks for the subject of the prefill or for the main one. The two are the same program,
but for what follows: where the prefill has nothing left, the flag is set. This is the `f` below. -/

section GetMessage

variable {subject : String} {pop : Bool}
  {f : Option ProvisioningMessage → Coro (Option ProvisioningMessage)}

/-- What follows the fetch of a message. -/
def handOver (pop : Bool) (msg : Msg) : Coro (Option ProvisioningMessage) := do
  if pop then request (.ack msg)
  return some (← provisioningMessageFrom msg)

/-- The message is fetched, and handed over if there is one. -/
def fetchAndHandOver (name : String) (pop : Bool) : Coro (Option ProvisioningMessage) :=
  .await (.fetch (streamKey name) (durableKey name)) fun
    | .ok msg => handOver pop msg
    | .error x => if x = .timeout then .pure none else .throw (.call x)

theorem getMessage_bind : (getMessage name subject pop).bind f =
    .await (.streamInfo (streamKey name)) fun
      | .ok _ => (request (.consumerInfo (streamKey name) (durableKey name))).bind fun _ =>
        (request (.pullSubscribe subject (durableKey name) (streamKey name))).bind fun _ =>
          (fetchAndHandOver name pop).bind f
      | .error x => if x = .notFound then f none else .throw (.call x) := by
  unfold getMessage fetchAndHandOver
  refine congrArg (Prog.await (Op.streamInfo (streamKey name))) (funext fun r => ?_)
  cases r with
  | error x =>
    by_cases hx : x = .notFound
    · simp [hx]
    · simp [hx]
  | ok found =>
    refine congrArg (Prog.await _) (funext fun r => ?_)
    cases r with
    | error x => rfl
    | ok info =>
      refine congrArg (Prog.await _) (funext fun r => ?_)
      cases r with
      | error x => rfl
      | ok sub =>
        refine congrArg (Prog.await _) (funext fun r => ?_)
        cases r with
        | ok msg => rfl
        | error x =>
          by_cases hx : x = .timeout
          · simp [hx]
          · simp [hx]

/-- The program comes to no message and leaves the log as it is. -/
def LeavesLog (env : Env) (tid : Nat) (name : String) (p : Coro (Option ProvisioningMessage)) :
    Prop :=
  ∀ plan w, NoMessage (p.ending (serve env) tid plan w).1 ∧
    SameLog name w (p.ending (serve env) tid plan w).2

variable (hsome : ∀ m, f (some m) = .pure (some m)) (hnone : LeavesLog env tid name (f none))

include hsome in
/-- What was fetched is handed over, and acknowledged before that if it is to be popped. -/
theorem ends_handOver {s : Store.Stream Payload} {d : Durable} {m : Stored Payload}
    (hdeliv : Deliverable name w s d m) (fs : List (Fault Outage)) :
    RequestEnds env tid name pop 1 (.ok :: fs) w
      (((handOver pop (nextDelivery name d m)).bind f).ending (serve env) tid fs
        (answer env tid (.fetch (streamKey name) (durableKey name)) w).2) := by
  have hfetched := sameLog_fetch env tid name w
  generalize hw' : (answer env tid (.fetch (streamKey name) (durableKey name)) w).2 = w'
    at hfetched ⊢
  cases pop with
  | false =>
    obtain ⟨x, hx, hend⟩ := ending_decoded env tid (nextDelivery name d m) hsome fs w'
    have hwhole : ((handOver false (nextDelivery name d m)).bind f).ending (serve env) tid fs w' =
        (some x, w') := hend
    rw [hwhole, ← hw']
    exact .handed s d m rfl hdeliv hx
  | true =>
    have htree : (handOver true (nextDelivery name d m)).bind f =
        (request (.ack (nextDelivery name d m))).bind fun _ =>
          ((provisioningMessageFrom (nextDelivery name d m)).bind fun m =>
            Prog.pure (some m)).bind f :=
      Prog.bind_assoc (request (.ack (nextDelivery name d m))) _ f
    rw [htree]
    -- The first fault that is left is the one the acknowledgement meets.
    cases fs with
    | nil =>
      refine .quiet .cut hfetched fun s d m g _ hmeets => ?_
      exact absurd (meets_succ.mp hmeets).2 not_meets_nil
    | cons g fs =>
      have hmeets : Meets 1 g (.ok :: g :: fs) := meets_succ.mpr ⟨rfl, meets_zero.mpr rfl⟩
      cases g with
      | before e =>
        exact .quiet (.raised _) hfetched fun s d m g _ hg _ => ⟨e, hg.unique hmeets⟩
      | after e =>
        rw [← hw']
        exact .acked s d m (.after e) hdeliv hmeets nofun (Or.inr ⟨nofun, _, rfl⟩)
      | ok =>
        obtain ⟨x, hx, hend⟩ := ending_decoded env tid (nextDelivery name d m)
          hsome fs (answer env tid (.ack (nextDelivery name d m)) w').2
        have hwhole : ((request (.ack (nextDelivery name d m))).bind fun _ =>
            ((provisioningMessageFrom (nextDelivery name d m)).bind fun m =>
              Prog.pure (some m)).bind f).ending (serve env) tid (.ok :: fs) w' =
            (some x, (answer env tid (.ack (nextDelivery name d m)) w').2) := by
          rw [← hend]
          exact ending_ok
        rw [hwhole, ← hw']
        exact .acked s d m .ok hdeliv hmeets nofun (Or.inl ⟨rfl, hx⟩)

theorem SameLog.trans {w' w'' : World} (h : SameLog name w w') (h' : SameLog name w' w'') :
    SameLog name w w'' := Eq.trans h' h

/-- A fetch that is answered with a message has found it. -/
theorem deliverable_of_fetch {msg : Msg}
    (h : (answer env tid (.fetch (streamKey name) (durableKey name)) w).1 = .ok msg) :
    ∃ s d m, Deliverable name w s d m ∧ msg = nextDelivery name d m := by
  obtain ⟨s, d, m, hs, hd, hm, hmsg, -⟩ := answer_fetch_ok (Prod.ext h rfl)
  exact ⟨s, d, m, ⟨hs, hd, hm⟩, hmsg⟩

include hsome hnone in
/-- **The fetch and what follows.** -/
theorem ends_fetchAndHandOver (plan : List (Fault Outage)) :
    RequestEnds env tid name pop 1 plan w
      (((fetchAndHandOver name pop).bind f).ending (serve env) tid plan w) := by
  have hfetched := sameLog_fetch env tid name w
  -- A fetch without a message ends the request, with what the error is made of.
  have herror : ∀ (x : CallError) (fs : List (Fault Outage)) {w' : World}, SameLog name w w' →
      (∀ s d m g, Deliverable name w s d m → Meets 1 g plan → pop = true → ∃ e, g = .before e) →
      RequestEnds env tid name pop 1 plan w
        (((if x = .timeout then Prog.pure none else Prog.throw (.call x)).bind f).ending (serve env)
          tid fs w') := by
    intro x fs w' hsame hno
    by_cases hx : x = .timeout
    · rw [if_pos hx, bind_pure]
      exact .quiet (hnone fs w').1 (hsame.trans (hnone fs w').2) hno
    · rw [if_neg hx, bind_throw, ending_throw]
      exact .quiet (.raised (.call x)) hsame hno
  unfold fetchAndHandOver
  rw [bind_await]
  cases plan with
  | nil => exact .quiet .cut (.refl name w) fun s d m g _ hmeets => absurd hmeets not_meets_nil
  | cons g fs =>
    cases g with
    | before e =>
      rw [ending_before]
      exact herror _ fs (.refl name w) fun s d m g _ hmeets => nomatch (meets_succ.mp hmeets).1
    | after e =>
      rw [ending_after]
      exact herror _ fs hfetched fun s d m g _ hmeets => nomatch (meets_succ.mp hmeets).1
    | ok =>
      rw [ending_ok, serve_answer]
      cases hr : (answer env tid (.fetch (streamKey name) (durableKey name)) w).1 with
      | error x =>
        refine herror x fs hfetched fun s d m g hdeliv => ?_
        rw [hdeliv.answer_fetch env tid] at hr
        cases hr
      | ok msg =>
        obtain ⟨s, d, m, hdeliv, rfl⟩ := deliverable_of_fetch hr
        exact ends_handOver hsome hdeliv fs

/-- The consumer is there. -/
theorem Deliverable.found {s : Store.Stream Payload} {d : Durable} {m : Stored Payload}
    (h : Deliverable name w s d m) : w.durable (streamKey name) (durableKey name) = some d := by
  unfold World.durable
  rw [h.stream]
  exact h.durable

include hsome hnone in
/-- **A request to one stream.** -/
theorem ends_getMessage (plan : List (Fault Outage)) :
    RequestEnds env tid name pop 4 plan w
      (((getMessage name subject pop).bind f).ending (serve env) tid plan w) := by
  rw [getMessage_bind]
  -- Three calls come before the fetch. Where one of them is refused, there is nothing to be
  -- delivered.
  refine .await ?_ (fun e => ?_) (fun fs => ?_) plan
  · simp only [answer]
    split <;> rfl
  · cases e <;> exact ⟨_, rfl⟩
  · cases hs : (answer env tid (.streamInfo (streamKey name)) w).1 with
    | error x =>
      refine .of_nothing ?_ ?_ fun s d m hdeliv => ?_
      · by_cases hx : x = .notFound
        · simpa only [if_pos hx] using (hnone fs w).1
        · simp only [if_neg hx, ending_throw]
          exact .raised (.call x)
      · by_cases hx : x = .notFound
        · simpa only [if_pos hx] using (hnone fs w).2
        · simp only [if_neg hx, ending_throw]
          exact .refl name w
      · simp only [answer, hdeliv.stream] at hs
        cases hs
    | ok _ =>
      refine .await ?_ (fun e => ⟨_, rfl⟩) (fun fs => ?_) fs
      · simp only [answer]
        split <;> rfl
      · cases hinfo : (answer env tid (.consumerInfo (streamKey name) (durableKey name)) w).1 with
        | error x =>
          refine .of_nothing (.raised (.call x)) (.refl name w) fun s d m hdeliv => ?_
          simp only [answer, hdeliv.found] at hinfo
          cases hinfo
        | ok _ =>
          refine .await ?_ (fun e => ⟨_, rfl⟩) (fun fs => ?_) fs
          · simp only [answer]
            split <;> rfl
          · cases hsub : (answer env tid
                (.pullSubscribe subject (durableKey name) (streamKey name)) w).1 with
            | error x =>
              refine .of_nothing (.raised (.call x)) (.refl name w) fun s d m hdeliv => ?_
              simp only [answer, hdeliv.found] at hsub
              cases hsub
            | ok _ => exact ends_fetchAndHandOver hsome hnone fs

end GetMessage

/-! ## The gate -/

/-! The status is looked at until it is `done` or the rounds are used up; a record that says `done`
is not looked at twice. -/

section Gate

variable {g : FillQueueStatus → Coro (Option ProvisioningMessage)}

/-- Reading the status is one call. -/
theorem getSubscriptionQueueStatus_bind : (getSubscriptionQueueStatus name).bind g =
    .await (.kvGet .subscriptions name) fun
      | .ok e => g e.value.prefillQueueStatus
      | .error x =>
        if x = .keyNotFound then .throw (.valueError "Subscription was not found.")
        else .throw (.call x) := by
  refine congrArg (Prog.await (Op.kvGet .subscriptions name)) (funext fun r => ?_)
  cases r with
  | ok e => rfl
  | error x =>
    by_cases hx : x = .keyNotFound
    · simp [hx]
    · simp [hx]

theorem checkSubscriptionStatus_bind (rounds : Nat) :
    (checkSubscriptionStatus name (rounds + 1)).bind g =
      (getSubscriptionQueueStatus name).bind fun status =>
        if status = .done then g .done else (checkSubscriptionStatus name rounds).bind g := by
  rw [checkSubscriptionStatus, bind_eq, Prog.bind_assoc]
  refine congrArg (getSubscriptionQueueStatus name).bind (funext fun status => ?_)
  by_cases hdone : status = .done
  · simp [hdone]
  · simp [hdone]

/-- Where the record says `done`, one look is enough. -/
theorem ends_checkSubscriptionStatus {pop : Bool} {n : Nat} (hdone : PrefillDone w name)
    (hg : ∀ fs, RequestEnds env tid name pop n fs w ((g .done).ending (serve env) tid fs w))
    (rounds : Nat) (plan : List (Fault Outage)) :
    RequestEnds env tid name pop (n + 1) plan w
      (((checkSubscriptionStatus name rounds).bind g).ending (serve env) tid plan w) := by
  obtain ⟨e, he, hstatus⟩ := hdone
  have hread : (answer env tid (.kvGet .subscriptions name) w) = (.ok e, w) := by
    simp only [answer, he]
  have hlook : ∀ g' : FillQueueStatus → Coro (Option ProvisioningMessage), g' .done = g .done →
      RequestEnds env tid name pop (n + 1) plan w
        (((getSubscriptionQueueStatus name).bind g').ending (serve env) tid plan w) := by
    intro g' hg'
    rw [getSubscriptionQueueStatus_bind]
    refine .await (by rw [hread]) (fun x => ?_) (fun fs => ?_) plan
    · cases x <;> exact ⟨_, rfl⟩
    · rw [hread]
      dsimp only
      rw [hstatus, hg']
      exact hg fs
  cases rounds with
  | zero => exact hlook g rfl
  | succ rounds =>
    rw [checkSubscriptionStatus_bind]
    exact hlook _ (if_pos rfl)

/-- A look at a status that is not `done`. -/
theorem closed_getSubscriptionQueueStatus (hdone : ¬ PrefillDone w name)
    (hg : ∀ status, status ≠ .done → ∀ fs, ∃ x, NoMessage x ∧
      (g status).ending (serve env) tid fs w = (x, w)) (plan : List (Fault Outage)) :
    ∃ x, NoMessage x ∧
      ((getSubscriptionQueueStatus name).bind g).ending (serve env) tid plan w = (x, w) := by
  rw [getSubscriptionQueueStatus_bind]
  cases plan with
  | nil => exact ⟨none, .cut, rfl⟩
  | cons f fs =>
    cases f with
    | before e =>
      cases e <;> exact ⟨_, .raised _, (ending_before _).trans (ending_throw ..)⟩
    | after e =>
      cases e <;>
        exact ⟨_, .raised _, (ending_after _).trans
          ((ending_throw ..).trans (Prod.ext rfl (kvGet_world env tid w .subscriptions name)))⟩
    | ok =>
      rw [ending_ok, serve_answer, kvGet_world]
      cases hr : (answer env tid (.kvGet .subscriptions name) w).1 with
      | error x =>
        by_cases hx : x = .keyNotFound
        · simp only [if_pos hx, ending_throw]
          exact ⟨_, .raised _, rfl⟩
        · simp only [if_neg hx, ending_throw]
          exact ⟨_, .raised _, rfl⟩
      | ok e => exact hg _ (fun hstatus => hdone (prefillDone_get hr hstatus)) fs

/-- Where it does not, no round helps. -/
theorem closed_checkSubscriptionStatus (hdone : ¬ PrefillDone w name)
    (hg : ∀ status, status ≠ .done → g status = .pure none) (rounds : Nat)
    (plan : List (Fault Outage)) :
    ∃ x, NoMessage x ∧
      ((checkSubscriptionStatus name rounds).bind g).ending (serve env) tid plan w = (x, w) := by
  induction rounds generalizing plan with
  | zero =>
    refine closed_getSubscriptionQueueStatus hdone (fun status h fs => ?_) plan
    exact ⟨_, .returned, by rw [hg status h, ending_pure]⟩
  | succ rounds ih =>
    rw [checkSubscriptionStatus_bind]
    refine closed_getSubscriptionQueueStatus hdone (fun status h fs => ?_) plan
    rw [if_neg h]
    exact ih fs

/-- What follows the look at the prefill's messages. -/
def rememberDrained (name : String) (message : Option ProvisioningMessage) :
    Coro (Option ProvisioningMessage) := do
  if message.isNone then request (.prefillDoneSet name)
  return message

theorem getNextMessage_eq (name : String) (rounds : Nat) (pop : Bool) :
    getNextMessage name rounds pop = .await (.prefillDoneGet name) fun
      | .ok flag =>
        if flag then getMessage name (mainSubject name) pop
        else (checkSubscriptionStatus name rounds).bind fun status =>
          if status ≠ .done then .pure none
          else (getMessage name (prefillSubject name) pop).bind (rememberDrained name)
      | .error x => .throw (.call x) := by
  refine congrArg (Prog.await (Op.prefillDoneGet name)) (funext fun r => ?_)
  cases r with
  | error x => rfl
  | ok flag => cases flag <;> rfl

/-- Remembering it touches no stream. -/
theorem leavesLog_rememberDrained (env : Env) (tid : Nat) (name : String) :
    LeavesLog env tid name (rememberDrained name none) := by
  have htree : rememberDrained name none =
      (request (.prefillDoneSet name)).bind fun _ => .pure none := rfl
  rw [htree]
  intro plan w
  cases plan with
  | nil => exact ⟨.cut, .refl name w⟩
  | cons f fs =>
    cases f with
    | before e => exact ⟨.raised _, .refl name w⟩
    | after e => exact ⟨.raised _, .refl name w⟩
    | ok => exact ⟨.returned, .refl name w⟩

/-- **A request past the gate.** -/
theorem ends_getNextMessage (env : Env) (tid : Nat) (hgate : GateOpen name w) (rounds : Nat)
    (pop : Bool) (plan : List (Fault Outage)) :
    RequestEnds env tid name pop (callsBeforeAck name w) plan w
      ((getNextMessage name rounds pop).ending (serve env) tid plan w) := by
  rw [getNextMessage_eq]
  unfold callsBeforeAck
  cases hflag : w.prefillDone name with
  | true =>
    rw [if_pos rfl]
    refine .await rfl (fun e => ⟨_, rfl⟩) (fun fs => ?_) plan
    have hanswer : (answer env tid (.prefillDoneGet name) w).1 = .ok true :=
      congrArg Except.ok hflag
    rw [hanswer, ← Prog.bind_pure_right (getMessage name (mainSubject name) pop)]
    exact ends_getMessage (fun _ => rfl) (fun _ w => ⟨.returned, .refl name w⟩) fs
  | false =>
    rw [if_neg nofun]
    refine .await rfl (fun e => ⟨_, rfl⟩) (fun fs => ?_) plan
    have hanswer : (answer env tid (.prefillDoneGet name) w).1 = .ok false :=
      congrArg Except.ok hflag
    have hdone : PrefillDone w name := hgate.resolve_left (by rw [hflag]; exact nofun)
    rw [hanswer]
    refine ends_checkSubscriptionStatus hdone (fun fs => ?_) rounds fs
    exact ends_getMessage (f := rememberDrained name) (fun _ => rfl)
      (leavesLog_rememberDrained env tid name) fs

/-- A request that does not get past it. -/
theorem closed_getNextMessage (env : Env) (tid : Nat) (hgate : ¬ GateOpen name w) (rounds : Nat)
    (pop : Bool) (plan : List (Fault Outage)) :
    ∃ x, NoMessage x ∧
      (getNextMessage name rounds pop).ending (serve env) tid plan w = (x, w) := by
  rw [getNextMessage_eq]
  cases plan with
  | nil => exact ⟨none, .cut, rfl⟩
  | cons f fs =>
    cases f with
    | before e => exact ⟨_, .raised _, rfl⟩
    | after e => exact ⟨_, .raised _, rfl⟩
    | ok =>
      have hflag : w.prefillDone name = false := by
        cases h : w.prefillDone name with
        | true => exact absurd (Or.inl h) hgate
        | false => rfl
      have hanswer : answer env tid (.prefillDoneGet name) w = (.ok false, w) :=
        Prod.ext (congrArg Except.ok hflag) rfl
      rw [ending_ok, serve_answer, hanswer]
      exact closed_checkSubscriptionStatus (fun h => hgate (Or.inr h))
        (fun status h => if_pos h) rounds fs

end Gate

/-! ## What was popped -/

/-- The number was given out, and its message is gone. -/
def MessageGone (name : String) (seq : Nat) (w : World) : Prop :=
  ∃ s, w.streams (streamKey name) = some s ∧ seq ≤ s.last ∧ s.stored seq = false

theorem messageGone_answer {seq : Nat} (h : MessageGone name seq w) {op : Op}
    (hop : op ≠ .deleteStream (streamKey name)) (env : Env) (tid : Nat) :
    MessageGone name seq (answer env tid op w).2 := by
  obtain ⟨s, hs, hlast, hstored⟩ := h
  rcases streams_answer env tid op w (streamKey name) with hsame | hchange
  · exact ⟨s, hsame.trans hs, hlast, hstored⟩
  · rw [hs] at hchange
    cases hafter : (answer env tid op w).2.streams (streamKey name) with
    | none =>
      rw [hafter] at hchange
      cases hchange with
      | remove => exact absurd rfl hop
    | some t =>
      rw [hafter] at hchange
      exact ⟨t, hafter, Nat.le_trans hlast hchange.grows.last,
        hchange.grows.not_stored hlast hstored⟩

theorem Decodes.seq {msg : Msg} {x : Except Exc (Option ProvisioningMessage)} (h : Decodes msg x)
    {m : ProvisioningMessage} (hx : x = .ok (some m)) :
    m.sequenceNumber = msg.streamSeq ∧ ∃ message, msg.payload = .message message := by
  rcases h with ⟨message, hpayload, rfl⟩ | ⟨-, e, rfl⟩
  · cases hx
    exact ⟨rfl, message, hpayload⟩
  · cases hx

/-- Only what is stored is returned. -/
theorem stored_of_returned {rounds : Nat} {pop : Bool} {plan : List (Fault Outage)}
    {m : ProvisioningMessage}
    (h : ((getNextMessage name rounds pop).ending (serve env) tid plan w).1 = some (.ok (some m))) :
    ∃ s, w.streams (streamKey name) = some s ∧ s.stored m.sequenceNumber = true := by
  by_cases hgate : GateOpen name w
  · have hends := ends_getNextMessage env tid hgate rounds pop plan
    generalize (getNextMessage name rounds pop).ending (serve env) tid plan w = r at h hends
    have hstored : ∀ {s : Store.Stream Payload} {d : Durable} {n : Stored Payload},
        Deliverable name w s d n → m.sequenceNumber = n.seq →
        ∃ s, w.streams (streamKey name) = some s ∧ s.stored m.sequenceNumber = true := by
      intro s d n hdeliv hseq
      refine ⟨s, hdeliv.stream, ?_⟩
      rw [hseq]
      exact Stream.stored_of_mem (Stream.mem_of_oldest (Stream.oldest_of_fetch hdeliv.next))
    cases hends with
    | quiet hnone => exact absurd h (hnone m)
    | handed s d n hpop hdeliv hx => exact hstored hdeliv (hx.seq (Option.some.inj h)).1
    | acked s d n f hdeliv hmeets hlands hx =>
      rcases hx with ⟨-, hx⟩ | ⟨-, e, rfl⟩
      · exact hstored hdeliv (hx.seq (Option.some.inj h)).1
      · cases h
  · obtain ⟨x, hnone, hend⟩ := closed_getNextMessage env tid hgate rounds pop plan
    rw [hend] at h
    exact absurd h (hnone m)

/-- A message that is gone is never returned. -/
theorem MessageGone.neverReturned {seq : Nat} (h : MessageGone name seq w) (env : Env) :
    NeverReturned env name seq w := by
  intro calls hcalls tid rounds pop plan m hm hseq
  have hgone : MessageGone name seq (calls.foldl (fun w c => (answer env c.1 c.2 w).2) w) :=
    List.foldlRecOn calls _ h fun _ hw c hc => messageGone_answer hw (hcalls c hc) env c.1
  obtain ⟨s, hs, hstored⟩ := stored_of_returned hm
  obtain ⟨s', hs', -, hstored'⟩ := hgone
  obtain rfl := Option.some.inj (hs.symm.trans hs')
  rw [hseq, hstored'] at hstored
  cases hstored

/-! ## The acknowledgement -/

/-- The stream after the message was fetched and acknowledged. -/
theorem Deliverable.acknowledged {s : Store.Stream Payload} {d : Durable} {m : Stored Payload}
    (h : Deliverable name w s d m) (env : Env) (tid : Nat) :
    ∃ t : Store.Stream Payload, t.msgs = s.msgs ∧ t.last = s.last ∧
      t.acked (durableKey name) = m.seq :: d.acked ∧
      (answer env tid (.ack (nextDelivery name d m))
        (answer env tid (.fetch (streamKey name) (durableKey name)) w).2).2.streams
          (streamKey name) = some (if s.workQueue then t.keep (·.seq != m.seq) else t) := by
  refine ⟨(s.setDurable (durableKey name) (some (d.deliver m.seq))).setDurable (durableKey name)
    (some ((d.deliver m.seq).ack m.seq)), rfl, rfl, ?_, ?_⟩
  · rw [Stream.acked_of_durable (Stream.durables_setDurable_self ..)]
    rfl
  · have hfetch : (answer env tid (.fetch (streamKey name) (durableKey name)) w).2 =
        w.setStream (streamKey name)
          (some (s.setDurable (durableKey name) (some (d.deliver m.seq)))) := by
      simp only [answer, h.stream, h.durable, h.next]
    rw [hfetch]
    simp only [answer, World.settle, nextDelivery, deliveryOf, World.streams_setStream_self,
      Stream.durables_setDurable_self]
    rfl

/-- A work queue loses the message. -/
theorem Deliverable.removed {s : Store.Stream Payload} {d : Durable} {m : Stored Payload}
    (h : Deliverable name w s d m) (hwork : s.workQueue = true) (env : Env) (tid : Nat) :
    MessageGone name m.seq (answer env tid (.ack (nextDelivery name d m))
      (answer env tid (.fetch (streamKey name) (durableKey name)) w).2).2 := by
  obtain ⟨t, hmsgs, hlast, -, ht⟩ := h.acknowledged env tid
  rw [if_pos hwork] at ht
  refine ⟨_, ht, ?_, Stream.not_stored_taken t m.seq⟩
  have hmem := Stream.mem_of_oldest (Stream.oldest_of_fetch h.next)
  exact Nat.le_trans (s.bounded m hmem) (Nat.le_of_eq hlast.symm)

/-- Any other stream keeps it. -/
theorem Deliverable.kept {s : Store.Stream Payload} {d : Durable} {m : Stored Payload}
    (h : Deliverable name w s d m) (hwork : s.workQueue = false) (env : Env) (tid : Nat) :
    ∃ t, (answer env tid (.ack (nextDelivery name d m))
      (answer env tid (.fetch (streamKey name) (durableKey name)) w).2).2.streams
        (streamKey name) = some t ∧ t.stored m.seq = true := by
  obtain ⟨t, hmsgs, -, -, ht⟩ := h.acknowledged env tid
  refine ⟨t, by rw [ht, hwork]; rfl, ?_⟩
  have hmem := Stream.mem_of_oldest (Stream.oldest_of_fetch h.next)
  exact Stream.stored_of_mem (hmsgs ▸ hmem)

/-- In either case it is acknowledged, which it was not before. -/
theorem Deliverable.not_sameLog {s : Store.Stream Payload} {d : Durable} {m : Stored Payload}
    (h : Deliverable name w s d m) (env : Env) (tid : Nat) :
    ¬ SameLog name w (answer env tid (.ack (nextDelivery name d m))
      (answer env tid (.fetch (streamKey name) (durableKey name)) w).2).2 := by
  intro hsame
  obtain ⟨t, -, -, hacked, ht⟩ := h.acknowledged env tid
  unfold SameLog at hsame
  rw [ht, h.stream] at hsame
  have hwhole : (if s.workQueue then t.keep (·.seq != m.seq) else t).acked (durableKey name) =
      s.acked (durableKey name) :=
    congrFun (congrArg Prod.snd (Option.some.inj hsame)) (durableKey name)
  have hback : (if s.workQueue then t.keep (·.seq != m.seq) else t).acked (durableKey name) =
      t.acked (durableKey name) := by
    split <;> rfl
  rw [hback, hacked, Stream.acked_of_durable h.durable] at hwhole
  have hlength := congrArg List.length hwhole
  simp at hlength

/-! ## When a pop removes what it returns -/

/-- **When a popped message is removed, and nothing else is.** For every state, every request with
`pop` and all faults its calls can meet: what is returned is out of the stream for good, and without
a message returned nothing has changed, if and only if the request does not come to acknowledge a
message, or the stream is a work queue, the message is a `Message`, and the acknowledgement is
answered. -/
theorem popped_iff (env : Env) (tid : Nat) (name : String) (rounds : Nat)
    (plan : List (Fault Outage)) (w : World) :
    PopsReturned env name w
        ((getNextMessage name rounds true).ending (serve env) tid plan w) ↔
      Poppable name plan w := by
  by_cases hgate : GateOpen name w
  · have hends := ends_getNextMessage env tid hgate rounds true plan
    generalize (getNextMessage name rounds true).ending (serve env) tid plan w = r at hends
    cases hends with
    | quiet hnone hsame hno =>
      refine iff_of_true ?_ fun s d m f hdeliv _ hmeets hlands => ?_
      · exact ⟨fun m h => absurd h (hnone m), fun m h => absurd h (hnone m), fun _ _ => hsame⟩
      · obtain ⟨e, he⟩ := hno s d m f hdeliv hmeets rfl
        exact absurd he (hlands e)
    | handed s d m hpop => cases hpop
    | acked s d m f hdeliv hmeets hlands hx =>
      constructor
      · intro hpops s' d' m' f' hdeliv' _ hmeets' _
        obtain rfl := hmeets'.unique hmeets
        obtain rfl := Option.some.inj (hdeliv'.stream.symm.trans hdeliv.stream)
        obtain rfl := Option.some.inj (hdeliv'.durable.symm.trans hdeliv.durable)
        obtain rfl := Option.some.inj (hdeliv'.next.symm.trans hdeliv.next)
        -- What raises after the acknowledgement has touched the log.
        have hraised : ∀ {x}, (∃ e, x = Except.error e) → ¬ PopsReturned env name w
            (some x, (answer env tid (.ack (nextDelivery name d' m'))
              (answer env tid (.fetch (streamKey name) (durableKey name)) w).2).2) := by
          intro x hx hpops
          obtain ⟨e, rfl⟩ := hx
          exact hdeliv.not_sameLog env tid (hpops.untouched nofun (.raised e))
        rcases hx with ⟨rfl, hdecodes⟩ | ⟨-, hx⟩
        · rcases hdecodes with ⟨message, hpayload, rfl⟩ | ⟨-, hx⟩
          · refine ⟨rfl, ?_, message, hpayload⟩
            cases hwork : s'.workQueue with
            | true => rfl
            | false =>
              obtain ⟨t, ht, hstored⟩ := hdeliv.kept hwork env tid
              have hremoved : t.stored m'.seq = false := hpops.removed _ rfl t ht
              rw [hstored] at hremoved
              cases hremoved
          · exact absurd hpops (hraised hx)
        · exact absurd hpops (hraised hx)
      · intro hpoppable
        obtain ⟨rfl, hwork, message, hpayload⟩ :=
          hpoppable s d m f hdeliv hgate hmeets hlands
        have hgone := hdeliv.removed hwork env tid
        rcases hx with ⟨-, hdecodes⟩ | ⟨hne, -⟩
        · rcases hdecodes with ⟨message', -, rfl⟩ | ⟨hnot, -⟩
          · refine ⟨fun n hn t ht => ?_, fun n hn => ?_, fun _ hnone => absurd rfl (hnone _)⟩
            · cases hn
              obtain ⟨t', ht', -, hstored⟩ := hgone
              obtain rfl := Option.some.inj (ht'.symm.trans ht)
              exact hstored
            · cases hn
              exact hgone.neverReturned env
          · exact absurd hpayload (hnot message)
        · exact absurd rfl hne
  · obtain ⟨x, hnone, hend⟩ := closed_getNextMessage env tid hgate rounds true plan
    rw [hend]
    refine iff_of_true ?_ fun s d m f _ hopen => absurd hopen hgate
    exact ⟨fun m h => absurd h (hnone m), fun m h => absurd h (hnone m), fun _ _ => .refl name w⟩

/-! ## An ordinary message -/

/-- A live message of a subscription: it is returned, and still stored. -/
theorem stored_after_pop : ∃ m w s,
    (getNextMessage "a" 0 true).ending (serve .sample) 0 (List.replicate 7 .ok) .withMessage =
      (some (.ok (some m)), w) ∧
    w.streams (streamKey "a") = some s ∧ s.stored m.sequenceNumber = true :=
  ⟨_, _, _, rfl, rfl, rfl⟩

/-- So popping does not always remove what it returns. -/
theorem not_popped : ¬ ∀ (env : Env) (tid : Nat) (name : String) (rounds : Nat)
    (plan : List (Fault Outage)) (w : World), PopsReturned env name w
      ((getNextMessage name rounds true).ending (serve env) tid plan w) := by
  intro h
  obtain ⟨m, w, s, hend, hs, hstored⟩ := stored_after_pop
  have hpops := h .sample 0 "a" 0 (List.replicate 7 .ok) .withMessage
  rw [hend] at hpops
  have hremoved := hpops.removed m rfl s hs
  rw [hstored] at hremoved
  cases hremoved

end Provisioning
