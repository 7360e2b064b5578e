import Provisioning.Properties.PrefillRounds
import Provisioning.Properties.MappingRefresh

/-!
# The limit on the attempts of a prefill

`server/core/prefill/service/udm_prefill.py`, `handle_message`. A request that was delivered more
than `max_prefill_attempts` times is put into the queue of the failures, the subscription is
marked, and the request is acknowledged. Every one of these steps can raise, and **what raises
gives the request back**; so the limit binds only where none of them does. `retries_bounded` says
that it binds then, and `not_retries_bounded` runs the service against a subscription that is gone.

## What is counted, and where

What is followed is one request, by its number in the queue, through any run of any jobs. Two
counters belong to it. The server keeps how often the request was handed out; that is in the state,
and `handle_message` reads it off the delivery. How often it was added to the failures is nowhere
in the state: the entry in the other queue names the subscription and not the request. So
`failuresFor` counts in the history, the additions by rounds that had been handed this request.

## Why the invariant has its shape

A bound on the deliveries alone is not inductive. After the delivery beyond the limit nothing but
the acknowledgement keeps the server from another one, and the acknowledgement is the last of four
calls: in between the delivery has to be *out*, which is `Withheld`, and the round that has it has
to be on its way to the acknowledgement, which is `GivesUp`. And since a second such round would
add to the failures a second time, the invariant says too that there is only one. `Limited` is the
conjunction of these, and none of its fields is kept by a step without the others.

`GivesUp` describes the round by the list of calls that are still to come. That is why it does not
matter at which point between two of its calls another job is scheduled.
-/

namespace Provisioning

open Await Store Prog

/-! ## The queue -/

-- Three names that occur in nearly every statement below.
abbrev requestQueue : String := streamKey PREFILL_STREAM

abbrev requestWorker : String := durableKey PREFILL_STREAM

abbrev failureQueue : String := streamKey PREFILL_FAILURES_STREAM

/-- The call gives the delivery of `seq` back. -/
def releases (x name : String) (seq : Nat) : Op → Bool
  | .nak msg => msg.stream == x && msg.streamSeq == seq
  | .ackWaitExpires stream durable => stream == x && durable == name
  | _ => false

/-- What a call leaves of a consumer, as far as one message is concerned. An acknowledgement stays.
The count of the deliveries stays or goes up by one, and in the second case the call was a fetch,
the message was at hand before, and is withheld now. A message that is withheld stays so, unless
its delivery is given back without having been acknowledged.

The last field is an implication and not a conclusion: whether a delivery is given back depends on
who makes the call, which is not known at this level. -/
structure Onward (x name : String) (seq : Nat) (op : Op) (s t : Store.Stream Payload)
    (d d' : Durable) : Prop where
  acked : ∀ n ∈ d.acked, n ∈ d'.acked
  delivered : d'.numDelivered seq = d.numDelivered seq ∨
    op = .fetch x name ∧ d'.numDelivered seq = d.numDelivered seq + 1 ∧ t.Withheld d' seq ∧
      ∃ m, s.fetch d = some m ∧ m.seq = seq
  withheld : s.Withheld d seq → (releases x name seq op = true → seq ∈ d.acked) →
    t.Withheld d' seq

variable {x name : String} {seq : Nat} {op : Op} {s t : Store.Stream Payload} {d d' : Durable}

/-- Neither the messages nor this consumer have changed. -/
theorem onward_same (hmsgs : t.msgs = s.msgs) (hlast : t.last = s.last) :
    Onward x name seq op s t d d := by
  refine ⟨fun _ h => h, Or.inl rfl, fun hw _ => ?_⟩
  unfold Stream.Withheld Stream.stored
  rw [hmsgs, hlast]
  exact hw

/-- Only messages have gone. -/
theorem onward_keep (p : Stored Payload → Bool) : Onward x name seq op s (s.keep p) d d :=
  ⟨fun _ h => h, Or.inl rfl,
    fun h _ => ⟨h.1, h.2.imp_right (Or.imp_right Stream.stored_keep)⟩⟩

/-- A call that takes messages away besides, as an acknowledgement does to a work queue. -/
theorem Onward.keep (h : Onward x name seq op s t d d') (hop : op ≠ .fetch x name)
    (p : Stored Payload → Bool) : Onward x name seq op s (t.keep p) d d' := by
  refine ⟨h.acked, Or.inl ?_, fun hw hrel => ?_⟩
  · rcases h.delivered with hsame | ⟨heq, -⟩
    · exact hsame
    · exact absurd heq hop
  · obtain ⟨hlast, hrest⟩ := h.withheld hw hrel
    exact ⟨hlast, hrest.imp_right (Or.imp_right Stream.stored_keep)⟩

/-! The four things that happen to the state of a consumer: an acknowledgement, a delivery given
back, a delivery that expires, a delivery. -/
theorem onward_ack (n : Nat) :
    Onward x name seq op s (s.setDurable name (some (d.ack n))) d (d.ack n) := by
  refine ⟨fun m hm => List.mem_cons_of_mem n hm, Or.inl rfl, fun hw _ => ⟨hw.1, ?_⟩⟩
  rcases hw.2 with hpending | hacked | hgone
  · by_cases hn : n = seq
    · exact Or.inr (Or.inl (hn ▸ List.mem_cons_self))
    · refine Or.inl ?_
      show (if d.pending = some n then none else d.pending) = some seq
      rw [hpending, if_neg fun heq => hn (Option.some.inj heq).symm]
  · exact Or.inr (Or.inl (List.mem_cons_of_mem n hacked))
  · exact Or.inr (Or.inr hgone)

theorem onward_nak {msg : Msg} (hx : msg.stream = x) :
    Onward x name seq (.nak msg) s (s.setDurable name (some (d.release msg.streamSeq))) d
      (d.release msg.streamSeq) := by
  refine ⟨fun _ h => h, Or.inl rfl, fun hw hrel => ⟨hw.1, ?_⟩⟩
  rcases hw.2 with hpending | hacked | hgone
  · by_cases hn : msg.streamSeq = seq
    · exact Or.inr (Or.inl (hrel (by simp [releases, hx, hn])))
    · refine Or.inl ?_
      show (if d.pending = some msg.streamSeq then none else d.pending) = some seq
      rw [hpending, if_neg fun heq => hn (Option.some.inj heq).symm]
  · exact Or.inr (Or.inl hacked)
  · exact Or.inr (Or.inr hgone)

theorem onward_expire :
    Onward x name seq (.ackWaitExpires x name) s (s.setDurable name (some d.expire)) d
      d.expire := by
  refine ⟨fun _ h => h, Or.inl rfl, fun hw hrel => ⟨hw.1, ?_⟩⟩
  exact Or.inr (Or.inl (hrel (by simp [releases])))

theorem onward_fetch {m : Stored Payload} (hm : s.fetch d = some m) :
    Onward x name seq (.fetch x name) s (s.setDurable name (some (d.deliver m.seq))) d
      (d.deliver m.seq) := by
  refine ⟨fun _ h => h, ?_, fun hw _ => ⟨hw.1, Or.inr (hw.of_fetch hm)⟩⟩
  -- the fetch is for the one message or for another; the count of the others is not touched
  by_cases hn : m.seq = seq
  · refine Or.inr ⟨rfl, ?_, ⟨?_, Or.inl (congrArg some hn)⟩, m, hm, hn⟩
    · rw [hn, Durable.numDelivered_deliver_self]
    · rw [← hn]
      exact s.bounded m (Stream.mem_of_oldest (Stream.oldest_of_fetch hm))
  · exact Or.inl (Durable.numDelivered_deliver_of_ne hn d)

/-- **What a call leaves of a consumer** that it does not delete. -/
theorem StreamChange.onward {tid : Nat} {after : Option (Store.Stream Payload)}
    (h : StreamChange tid x op (some s) after) (hd : s.durables name = some d)
    (hstream : op ≠ .deleteStream x) (hconsumer : op ≠ .deleteConsumer x name) :
    ∃ t d', after = some t ∧ t.durables name = some d' ∧ Onward x name seq op s t d d' := by
  -- What concerns another consumer leaves this one as it was; the interesting cases are the fetch,
  -- the two answers to a delivery and the wait that expires.
  cases h with
  | update config h s => exact ⟨_, d, rfl, hd, onward_same rfl rfl⟩
  | remove s => exact absurd rfl hstream
  | addConsumer durable s h =>
    have hne : name ≠ durable := fun heq => by rw [heq, h] at hd; cases hd
    exact ⟨_, d, rfl, (Stream.durables_setDurable_of_ne hne ..).trans hd, onward_same rfl rfl⟩
  | removeConsumer durable s d₀ h =>
    have hne : name ≠ durable := fun heq => hconsumer (by rw [heq])
    exact ⟨_, d, rfl, (Stream.durables_setDurable_of_ne hne ..).trans hd, onward_same rfl rfl⟩
  | publish subject payload s h =>
    refine ⟨_, d, rfl, hd, fun _ h => h, Or.inl rfl, fun hw _ => ⟨Nat.le_succ_of_le hw.1, ?_⟩⟩
    exact hw.2.imp_right (Or.imp_right (Stream.stored_append hw.1))
  | fetch durable s d₀ h m hm =>
    by_cases hne : name = durable
    · subst hne
      obtain rfl := Option.some.inj (hd.symm.trans h)
      exact ⟨_, _, rfl, Stream.durables_setDurable_self .., onward_fetch hm⟩
    · exact ⟨_, d, rfl, (Stream.durables_setDurable_of_ne hne ..).trans hd, onward_same rfl rfl⟩
  | ack msg hx s d₀ h =>
    have hleft : ∃ d', (s.setDurable msg.durable (some (d₀.ack msg.streamSeq))).durables name =
        some d' ∧ Onward x name seq (.ack msg) s
          (s.setDurable msg.durable (some (d₀.ack msg.streamSeq))) d d' := by
      by_cases hne : name = msg.durable
      · subst hne
        obtain rfl := Option.some.inj (hd.symm.trans h)
        exact ⟨_, Stream.durables_setDurable_self .., onward_ack msg.streamSeq⟩
      · exact ⟨d, (Stream.durables_setDurable_of_ne hne ..).trans hd, onward_same rfl rfl⟩
    obtain ⟨d', hd', honward⟩ := hleft
    split
    · exact ⟨_, d', rfl, hd', honward.keep nofun _⟩
    · exact ⟨_, d', rfl, hd', honward⟩
  | nak msg hx s d₀ h =>
    by_cases hne : name = msg.durable
    · subst hne
      obtain rfl := Option.some.inj (hd.symm.trans h)
      exact ⟨_, _, rfl, Stream.durables_setDurable_self .., onward_nak hx⟩
    · exact ⟨_, d, rfl, (Stream.durables_setDurable_of_ne hne ..).trans hd, onward_same rfl rfl⟩
  | deleteMsg n s => exact ⟨_, d, rfl, hd, onward_keep _⟩
  | purge subject s => exact ⟨_, d, rfl, hd, onward_keep _⟩
  | expire durable s d₀ h =>
    by_cases hne : name = durable
    · subst hne
      obtain rfl := Option.some.inj (hd.symm.trans h)
      exact ⟨_, _, rfl, Stream.durables_setDurable_self .., onward_expire⟩
    · exact ⟨_, d, rfl, (Stream.durables_setDurable_of_ne hne ..).trans hd, onward_same rfl rfl⟩

/-! ## A round

What the service does once it has a request. The fetch is taken apart from the rest, because it is
only in its answer that the round learns which request it has and for the how manieth time. -/

/-- The message that the prefill service is handed with this answer. -/
def handedMsg : (op : Op) → Except CallError op.Res → Option Msg
  | .fetch stream _, .ok msg => if stream = requestQueue then some msg else none
  | _, _ => none

/-- The answer hands out the request. -/
def worksOn (seq : Nat) (op : Op) (a : Except CallError op.Res) : Bool :=
  (handedMsg op a).any fun msg => msg.streamSeq == seq

/-- The answer hands out the request beyond its `m` attempts. -/
def beyond (m seq : Nat) (op : Op) (a : Except CallError op.Res) : Bool :=
  (handedMsg op a).any fun msg => msg.streamSeq == seq && decide (m < msg.numDelivered)

/-- The call adds a request to those that failed. -/
def addsFailure : Op → Bool
  | .publish subject _ stream => subject == PREFILL_FAILURES_STREAM && stream == failureQueue
  | _ => false

/-- What a round does about the message it was handed: the rest of `prefillOnce`, with the answer
to the fetch filled in. -/
def prefillWith (env : Env) (msg : Msg) : Coro Reply := do
  let handled : Coro Unit := do
    tryCatch (handlePrefill env msg) fun e => do
      request (.nak msg)
      MonadExcept.throw e
    request (.ack msg)
  handled
  return .finished

theorem prefill_program (env : Env) : ∃ k,
    Job.prefill.program env = .await (.fetch requestQueue requestWorker) k ∧
      (∀ msg, k (.ok msg) = prefillWith env msg) ∧ ∀ e, (k (.error e)).Finished := by
  refine ⟨_, rfl, fun msg => ?_, fun e => ?_⟩
  · rfl
  · cases e <;> rfl

/-- The calls of a round that gives a request up, in their order: the addition to the failures, the
two halves of the status update, and the acknowledgement. As predicates, for the record that is
put back depends on what was read. -/
def closing (msg : Msg) : List (Op → Prop) :=
  [fun op => ∃ r, op = .publish PREFILL_FAILURES_STREAM (.simple .udmPreFill r) failureQueue,
    fun op => ∃ name, op = .kvGet .subscriptions name,
    fun op => ∃ name sub, op = .kvPut .subscriptions name sub,
    fun op => op = .ack msg]

variable {env : Env} {m : Nat} {msg : Msg}

/-- The payload is a request, and what is reported of its subscription is taken for a report about
some subscription. -/
def Payload.Reportable : Payload → Prop
  | .prefill r => ∃ other, TakenFor r.subscriptionName other
  | _ => False

instance (payload : Payload) : Decidable payload.Reportable :=
  match payload with
  | .prefill r => inferInstanceAs (Decidable (∃ other, TakenFor r.subscriptionName other))
  | .message _ => .isFalse id
  | .simple _ _ => .isFalse id

/-- **Beyond its attempts a request is given up**, as long as every call is answered. -/
theorem follows_closing (hreport : msg.payload.Reportable)
    (hmax : env.maxPrefillAttempts = m) (hover : m < msg.numDelivered) :
    (prefillWith env msg).Follows (closing msg) := by
  have hlimit : env.maxPrefillAttempts ≠ -1 ∧
      (msg.numDelivered : Int) > env.maxPrefillAttempts := by
    omega
  obtain ⟨r, other, hr, htaken⟩ : ∃ r other, msg.payload = .prefill r ∧
      TakenFor r.subscriptionName other := by
    cases hpayload : msg.payload with
    | prefill r =>
      rw [hpayload] at hreport
      obtain ⟨other, htaken⟩ := hreport
      exact ⟨r, other, rfl, htaken⟩
    | _ =>
      rw [hpayload] at hreport
      exact hreport.elim
  unfold prefillWith handlePrefill validatedPrefill
  rw [hr]
  simp only [pure_eq, bind_eq, bind_pure, if_pos hlimit,
    updateSubscriptionQueueStatus_eq env htaken]
  exact ⟨⟨r, rfl⟩, fun _ => ⟨⟨_, rfl⟩, fun e => ⟨⟨_, _, rfl⟩, fun _ => ⟨rfl, fun _ => rfl⟩⟩⟩⟩

/-- Until then nothing is added to the failures: a round within the limit publishes as well, but to
the queue of the subscription. -/
theorem uses_within (hmax : env.maxPrefillAttempts = m) (hwithin : msg.numDelivered ≤ m) :
    (prefillWith env msg).Uses fun op => addsFailure op = false := by
  have hlimit : ¬ (env.maxPrefillAttempts ≠ -1 ∧
      (msg.numDelivered : Int) > env.maxPrefillAttempts) := by
    omega
  have hstatus : ∀ name status op, StatusCall name status op → addsFailure op = false := by
    intro name status op h
    cases h <;> rfl
  have hfill : ∀ name op, FillCall name op → addsFailure op = false := by
    intro name op h
    cases h with
    | status status _ h => exact hstatus _ status _ h
    | publish m =>
      have hne : prefillSubject name ≠ PREFILL_FAILURES_STREAM :=
        fun heq => ne_prefillSubject (by decide) heq.symm
      simp [addsFailure, hne]
    | _ => rfl
  refine Uses.bind (Uses.bind (Uses.tryCatch ?_ fun e => ?_) fun _ => uses_request rfl)
    fun _ => trivial
  swap
  · exact Uses.bind (uses_request rfl) fun _ => trivial
  unfold handlePrefill validatedPrefill
  cases msg.payload with
  | message _ => trivial
  | simple _ _ => trivial
  | prefill r =>
    simp only [pure_eq, bind_eq, bind_pure, if_neg hlimit]
    refine Uses.bind ((uses_fillQueue r).mono (hfill _)) fun _ => ?_
    exact (uses_updateSubscriptionQueueStatus _ _).mono fun op ⟨_, _, h⟩ => hstatus _ _ op h

/-! ## The other jobs

The number of other jobs is not bounded and neither is what they are, so all that is asked of them
is put on the single call: it may neither take requests nor take the two queues away. A job keeps
to that if no subscription is named like one of the two queues. -/

/-- The call neither takes requests out of the queue nor takes the queues away. -/
structure Outside (op : Op) : Prop where
  requests : op ≠ .deleteStream requestQueue
  failures : op ≠ .deleteStream failureQueue
  worker : op ≠ .deleteConsumer requestQueue requestWorker
  subjects : ∀ config, op = .updateStream config → config.name = failureQueue →
    PREFILL_FAILURES_STREAM ∈ config.subjects
  fetch : ∀ durable, op ≠ .fetch requestQueue durable

/-- No subscription is named like one of the two queues. -/
def Job.LeavesQueues : Job → Prop
  | .create _ sub => sub.name ≠ PREFILL_STREAM ∧ sub.name ≠ PREFILL_FAILURES_STREAM
  | .delete _ _ _ name => name ≠ PREFILL_STREAM ∧ name ≠ PREFILL_FAILURES_STREAM
  | .deleteService name => name ≠ PREFILL_STREAM ∧ name ≠ PREFILL_FAILURES_STREAM
  | .getNext name _ _ => name ≠ PREFILL_STREAM ∧ name ≠ PREFILL_FAILURES_STREAM
  | _ => True

/-- The call takes a message, or changes what queues there are. -/
def Manages : Op → Bool
  | .fetch .. => true
  | .updateStream _ => true
  | .deleteStream _ => true
  | .deleteConsumer .. => true
  | _ => false

/-- Most calls are outside for the plain reason that they do nothing of the kind. -/
theorem outside_plain (h : Manages op = false) : Outside op := by
  refine ⟨fun heq => ?_, fun heq => ?_, fun heq => ?_, fun config heq => ?_, fun durable heq => ?_⟩
  all_goals
    rw [heq] at h
    cases h

theorem outside_update {config : StreamConfig}
    (h : config.name = failureQueue → PREFILL_FAILURES_STREAM ∈ config.subjects) :
    Outside (.updateStream config) := by
  refine ⟨nofun, nofun, nofun, fun config' heq hname => ?_, nofun⟩
  cases heq
  exact h hname

theorem outside_fetch {stream durable : String} (h : stream ≠ PREFILL_STREAM) :
    Outside (.fetch (streamKey stream) durable) := by
  refine ⟨nofun, nofun, nofun, nofun, fun durable' heq => ?_⟩
  injection heq with hstream _
  exact h (streamKey_inj.mp hstream)

theorem outside_auth {username : String} (h : AuthCall username op) : Outside op := by
  cases h <;> exact outside_plain rfl

theorem outside_delete {name : String}
    (hname : name ≠ PREFILL_STREAM ∧ name ≠ PREFILL_FAILURES_STREAM) (h : DeleteCall name op) :
    Outside op := by
  cases h with
  | deleteStream =>
    refine ⟨fun heq => ?_, fun heq => ?_, nofun, nofun, nofun⟩
    · injection heq with hstream
      exact hname.1 (streamKey_inj.mp hstream)
    · injection heq with hstream
      exact hname.2 (streamKey_inj.mp hstream)
  | deleteConsumer =>
    refine ⟨nofun, nofun, fun heq => ?_, nofun, nofun⟩
    injection heq with hstream _
    exact hname.1 (streamKey_inj.mp hstream)
  | _ => exact outside_plain rfl

theorem outside_create {sub : NewSubscription}
    (hname : sub.name ≠ PREFILL_STREAM ∧ sub.name ≠ PREFILL_FAILURES_STREAM)
    (h : CreateCall sub op) : Outside op := by
  cases h with
  | updateStream => exact outside_update fun heq => absurd (streamKey_inj.mp heq) hname.2
  | _ => exact outside_plain rfl

theorem outside_status {name : String} {status : FillQueueStatus} (h : StatusCall name status op) :
    Outside op := by
  cases h <;> exact outside_plain rfl

theorem outside_handle {name : String} (h : HandleCall name op) : Outside op := by
  cases h with
  | status status _ h => exact outside_status h
  | _ => exact outside_plain rfl

theorem outside_mapping (h : MappingCall op) : Outside op := by
  cases h <;> exact outside_plain rfl

/-- After its first call a round only works for its request. -/
theorem outside_prefillWith : (prefillWith env msg).Uses Outside := by
  refine Uses.bind (Uses.bind (Uses.tryCatch ?_ fun e => ?_) fun _ => ?_) fun _ => trivial
  · exact (uses_handlePrefill msg).mono fun _ ⟨_, _, h⟩ => outside_handle h
  · exact Uses.bind (uses_request (outside_plain rfl)) fun _ => trivial
  · exact uses_request (outside_plain rfl)

theorem outside_prepare {queue : String} (h : PrepareCall queue op) : Outside op := by
  cases h with
  | updateStream =>
    apply outside_update
    intro heq
    rw [streamKey_inj.mp heq]
    exact List.mem_singleton_self _
  | _ => exact outside_plain rfl

/-- **Every job but the prefill service keeps outside.** -/
theorem outside_job {job : Job} (h : job.LeavesQueues) (hprefill : job ≠ .prefill) :
    (job.program env).Uses Outside := by
  apply (uses_program env job).mono
  intro op hop
  cases job with
  | create salt sub => exact outside_create h hop
  | delete settings salt credentials name =>
    cases hop with
    | auth hop => exact outside_auth hop
    | delete hop => exact outside_delete h hop
  | deleteService name => exact outside_delete h hop
  | setStatus name status => exact outside_status hop
  | authenticate salt credentials subscriptionName => exact outside_auth hop
  | getNext name rounds pop =>
    cases hop with
    | message hop =>
      cases hop with
      | fetch => exact outside_fetch h.1
      | _ => exact outside_plain rfl
    | _ => exact outside_plain rfl
  | postStatus name seqNum status => cases hop <;> exact outside_plain rfl
  | postEvent message => exact hop ▸ outside_plain rfl
  | prefill => exact absurd rfl hprefill
  | dispatch =>
    cases hop with
    | fetch => exact outside_fetch (by decide)
    | _ => exact outside_plain rfl
  | updateMapping => exact outside_mapping hop
  | dispatcherStart =>
    cases hop with
    | updateStream =>
      exact outside_update fun heq => absurd (streamKey_inj.mp heq) (by decide)
    | mapping hop => exact outside_mapping hop
    | _ => exact outside_plain rfl
  | prefillStart => exact hop.elim outside_prepare outside_prepare
  | transform =>
    cases hop with
    | fetch => exact outside_fetch (by decide)
    | _ => exact outside_plain rfl
  | ackWaitExpires stream durable => exact hop ▸ outside_plain rfl
  | passwordCacheExpires password hash subscription => exact hop ▸ outside_plain rfl
  | idle => exact hop.elim

/-! ## What is promised of a run

The bound, and the two conditions on the steps of the run. `Reachable` is about the services: the
calls of the round beyond the limit are answered, and its delivery does not expire before it is
through. `Answerable` is about the subscription: there is a record that the report is taken for
when it arrives. Without the second one the bound fails, however reachable everything is. -/

/-- How many calls `i` has made. -/
def calls (hist : List (Event Op Op.Res CallError Outage World)) (i : Nat) : Nat :=
  hist.countP (·.tid == i)

/-- How often a round that was handed the request has added to the failures. -/
def failuresFor (seq : Nat) : List (Event Op Op.Res CallError Outage World) → Nat
  | [] => 0
  | ev :: hist => failuresFor seq hist +
    if addsFailure ev.op = true ∧ ev.fault.Lands ∧
      ∃ ev' ∈ hist, ev'.tid = ev.tid ∧ worksOn seq ev'.op ev'.heard = true then 1 else 0

/-- `i` is a round that was handed the request beyond its attempts. -/
def OverLimit (m seq : Nat) (c : System) (i : Nat) : Prop :=
  c.Heard i fun op a => beyond m seq op a = true

instance (m seq : Nat) (c : System) (i : Nat) : Decidable (OverLimit m seq c i) :=
  inferInstanceAs (Decidable (∃ ev ∈ c.hist, _))

/-- The request is delivered once beyond its attempts, that round acknowledges it, within five
calls, and it is among the failures at most once. -/
def RetriesBounded (m seq : Nat) (c : System) : Prop :=
  ∃ d, c.world.durable requestQueue requestWorker = some d ∧ d.numDelivered seq ≤ m + 1 ∧
    failuresFor seq c.hist ≤ 1 ∧
    ∀ i, OverLimit m seq c i → ((c.prog i).Finished ∨ 5 ≤ calls c.hist i) → seq ∈ d.acked

/-- When the request is delivered beyond its attempts, the round hears of it, all its calls are
answered, and until it is past nobody else gives the request back. -/
def Reachable (env : Env) (m seq : Nat) (c : System) (l : Nat × Fault Outage) : Prop :=
  (∀ op ∈ (c.prog l.1).next?, l.2.Lands →
    beyond m seq op (answer env l.1 op c.world).1 = true → l.2.isOk = true) ∧
  (OverLimit m seq c l.1 → l.2.isOk = true) ∧
  ∀ op ∈ (c.prog l.1).next?, releases requestQueue requestWorker seq op = true →
    ∀ ev ∈ c.hist, beyond m seq ev.op ev.heard = true →
      ev.tid = l.1 ∨ (c.prog ev.tid).Finished

/-- Beyond its attempts the request turns out to be one whose status can be reported, and the
subscription that the report is taken for is there when it arrives. -/
def Answerable (env : Env) (m seq : Nat) (c : System) (l : Nat × Fault Outage) : Prop :=
  (∀ op ∈ (c.prog l.1).next?, ∀ msg ∈ handedMsg op (answer env l.1 op c.world).1,
    msg.streamSeq = seq → m < msg.numDelivered → msg.payload.Reportable) ∧
  (OverLimit m seq c l.1 → recordThere c.world (c.prog l.1).next? = true)

/-- The queues are there, and the request has not been delivered beyond its attempts. -/
def QueuesReady (m seq : Nat) (w : World) : Prop :=
  (∃ d, w.durable requestQueue requestWorker = some d ∧ d.numDelivered seq ≤ m) ∧
  ∃ t, w.streams failureQueue = some t ∧ PREFILL_FAILURES_STREAM ∈ t.subjects

/-! ## The invariant -/

/-- The consumer has the acknowledgement of the request. -/
def RequestAcked (seq : Nat) (w : World) : Prop :=
  ∃ d, w.durable requestQueue requestWorker = some d ∧ seq ∈ d.acked

/-- A round that gives the request up: some of its calls are made, the others are to come. Before
the first one nothing has been added to the failures, and after the last one the request is
acknowledged. -/
def GivesUp (seq : Nat) (c : System) (i : Nat) : Prop :=
  ∃ msg done rest, msg.stream = requestQueue ∧ msg.durable = requestWorker ∧
    msg.streamSeq = seq ∧ closing msg = done ++ rest ∧ (c.prog i).Follows rest ∧
    calls c.hist i = done.length + 1 ∧ (done = [] → failuresFor seq c.hist = 0) ∧
    (rest = [] → RequestAcked seq c.world)

/-- Within its attempts there is no such round, and beyond them there is one and the consumer
hands the request to no one else. -/
def Counted (m seq : Nat) (past : Nat → Prop) (w : World) : Prop :=
  ∃ s d, w.streams requestQueue = some s ∧ s.durables requestWorker = some d ∧
    ((d.numDelivered seq ≤ m ∧ ∀ i, ¬ past i) ∨
      (d.numDelivered seq = m + 1 ∧ s.Withheld d seq ∧ ∃ i, past i))

theorem Counted.congr (past : Nat → Prop) {past' : Nat → Prop} {w : World}
    (h : Counted m seq past w) (heq : ∀ i, past' i ↔ past i) : Counted m seq past' w := by
  have hover : past' = past := funext fun i => propext (heq i)
  rw [hover]
  exact h

/-- **The invariant.** Every job is a round that has not begun or keeps outside; a round that works
on the request is beyond the limit or never adds to the failures; a round beyond the limit gives
the request up, and there is at most one. The last three fields are the two counters and the queue
of the failures. -/
structure Limited (env : Env) (m seq : Nat) (c : System) : Prop where
  outside : ∀ i, (c.prog i = Job.prefill.program env ∧ ∀ ev ∈ c.hist, ev.tid ≠ i) ∨
    (c.prog i).Uses Outside
  within : ∀ i, c.Heard i (fun op a => worksOn seq op a = true) →
    OverLimit m seq c i ∨ (c.prog i).Uses fun op => addsFailure op = false
  rounds : ∀ i, OverLimit m seq c i → GivesUp seq c i
  one : ∀ i j, OverLimit m seq c i → OverLimit m seq c j → i = j
  added : failuresFor seq c.hist ≤ 1 ∧
    ((∀ i, ¬ OverLimit m seq c i) → failuresFor seq c.hist = 0)
  failures : ∃ t, c.world.streams failureQueue = some t ∧ PREFILL_FAILURES_STREAM ∈ t.subjects
  queue : Counted m seq (OverLimit m seq c) c.world

/-- A round that gives the request up and is over has acknowledged it. -/
theorem GivesUp.acked {c : System} {i : Nat} (h : GivesUp seq c i)
    (hover : (c.prog i).Finished ∨ 5 ≤ calls c.hist i) : RequestAcked seq c.world := by
  obtain ⟨msg, done, rest, -, -, -, hsplit, hfollows, hcalls, -, hacked⟩ := h
  cases rest with
  | nil => exact hacked rfl
  | cons P rest =>
    rcases hover with hfin | hfive
    · obtain ⟨op, hop, -⟩ := hfollows.of_next?
      rw [hfin] at hop
      cases hop
    · have hlength := congrArg List.length hsplit
      simp only [closing, List.length_cons, List.length_nil, List.length_append] at hlength
      omega

/-- The calls of such a round are the four of `closing`. -/
theorem GivesUp.next {c : System} {i : Nat} {k : Except CallError op.Res → Coro Reply}
    (h : GivesUp seq c i) (hp : c.prog i = .await op k) :
    (∃ r, op = .publish PREFILL_FAILURES_STREAM (.simple .udmPreFill r) failureQueue) ∨
      (∃ name, op = .kvGet .subscriptions name) ∨
      (∃ name sub, op = .kvPut .subscriptions name sub) ∨
      ∃ msg : Msg, op = .ack msg := by
  obtain ⟨msg, done, rest, -, -, -, hsplit, hfollows, -, -, -⟩ := h
  cases rest with
  | nil =>
    rw [hp] at hfollows
    cases hfollows
  | cons P rest =>
    rw [hp] at hfollows
    have hmem : P ∈ closing msg := by
      rw [hsplit]
      exact List.mem_append_right _ List.mem_cons_self
    have hP := hfollows.1
    simp only [closing, List.mem_cons, List.not_mem_nil, or_false] at hmem
    rcases hmem with rfl | rfl | rfl | rfl
    · exact Or.inl hP
    · exact Or.inr (Or.inl hP)
    · exact Or.inr (Or.inr (Or.inl hP))
    · exact Or.inr (Or.inr (Or.inr ⟨msg, hP⟩))

/-- None of its calls gives the request back. -/
theorem GivesUp.keeps {c : System} {i : Nat} {k : Except CallError op.Res → Coro Reply}
    (h : GivesUp seq c i) (hp : c.prog i = .await op k) :
    releases requestQueue requestWorker seq op = false := by
  rcases h.next hp with ⟨r, rfl⟩ | ⟨name, rfl⟩ | ⟨name, sub, rfl⟩ | ⟨msg, rfl⟩ <;> rfl

/-! ## One step

A step is looked at from two sides. From the queue it is one of the changes above, lost or not;
from a round it is a call of that round or of another one. -/

section Step

variable {w : World} {i : Nat} {f : Fault Outage}

theorem onward_left (env : Env) (i : Nat) (f : Fault Outage) (seq : Nat)
    (hs : w.streams requestQueue = some s) (hd : s.durables requestWorker = some d)
    (hstream : op ≠ .deleteStream requestQueue)
    (hconsumer : op ≠ .deleteConsumer requestQueue requestWorker) :
    ∃ t d', ((serve env).left i op w f).streams requestQueue = some t ∧
      t.durables requestWorker = some d' ∧ Onward requestQueue requestWorker seq op s t d d' := by
  by_cases hf : f.Lands
  · rw [Server.left_of_lands hf, serve_answer]
    rcases streams_answer env i op w requestQueue with hsame | hchange
    · exact ⟨s, d, hsame.trans hs, hd, onward_same rfl rfl⟩
    · rw [hs] at hchange
      exact hchange.onward hd hstream hconsumer
  · rw [Server.left_of_not_lands hf]
    exact ⟨s, d, hs, hd, onward_same rfl rfl⟩

/-- An acknowledgement survives everything but the loss of the queue or its consumer. -/
theorem acked_left (env : Env) (i : Nat) (f : Fault Outage) (h : RequestAcked seq w)
    (hstream : op ≠ .deleteStream requestQueue)
    (hconsumer : op ≠ .deleteConsumer requestQueue requestWorker) :
    RequestAcked seq ((serve env).left i op w f) := by
  obtain ⟨d, hdurable, hacked⟩ := h
  obtain ⟨s, hs, hd⟩ := Option.bind_eq_some_iff.mp hdurable
  obtain ⟨t, d', ht, hd', honward⟩ := onward_left env i f seq hs hd hstream hconsumer
  exact ⟨d', Option.bind_eq_some_iff.mpr ⟨t, ht, hd'⟩, honward.acked seq hacked⟩

/-- The queue of the failures stays open. -/
theorem failures_left (env : Env) (i : Nat) (f : Fault Outage)
    (h : ∃ t, w.streams failureQueue = some t ∧ PREFILL_FAILURES_STREAM ∈ t.subjects)
    (hstream : op ≠ .deleteStream failureQueue)
    (hsubjects : ∀ config, op = .updateStream config → config.name = failureQueue →
      PREFILL_FAILURES_STREAM ∈ config.subjects) :
    ∃ t, ((serve env).left i op w f).streams failureQueue = some t ∧
      PREFILL_FAILURES_STREAM ∈ t.subjects := by
  refine Server.left_preserves (P := fun w : World => ∃ t, w.streams failureQueue = some t ∧
    PREFILL_FAILURES_STREAM ∈ t.subjects) h fun _ => ?_
  obtain ⟨t, ht, hmem⟩ := h
  rw [serve_answer]
  rcases streams_answer env i op w failureQueue with hsame | hchange
  · exact ⟨t, hsame.trans ht, hmem⟩
  · rw [ht] at hchange
    generalize (answer env i op w).2.streams failureQueue = after at hchange
    cases hchange with
    | update config h => exact ⟨_, rfl, hsubjects config rfl h⟩
    | remove => exact absurd rfl hstream
    | ack msg hx t d h =>
      refine ⟨_, rfl, ?_⟩
      split <;> exact hmem
    | _ => exact ⟨_, rfl, hmem⟩

end Step

section Steps

variable {c : System} {i : Nat} {f : Fault Outage} {k : Except CallError op.Res → Coro Reply}

theorem calls_next_self :
    calls (c.next (serve env) i f op k).hist i = calls c.hist i + 1 := by
  simp [calls]

theorem calls_next_of_ne {j : Nat} (h : j ≠ i) :
    calls (c.next (serve env) i f op k).hist j = calls c.hist j := by
  simp [calls, Ne.symm h]

/-- Only a round that has the request in hand adds to its failures. -/
theorem failuresFor_next (h : ¬ (addsFailure op = true ∧ f.Lands ∧
      c.Heard i fun op a => worksOn seq op a = true)) :
    failuresFor seq (c.next (serve env) i f op k).hist = failuresFor seq c.hist := by
  rw [Config.next_hist, failuresFor]
  split
  · next hadds => exact absurd hadds h
  · rfl

theorem failuresFor_next_le (env : Env) (seq : Nat) (c : System) (i : Nat) (f : Fault Outage)
    (k : Except CallError op.Res → Coro Reply) :
    failuresFor seq (c.next (serve env) i f op k).hist ≤ failuresFor seq c.hist + 1 := by
  rw [Config.next_hist, failuresFor]
  split <;> omega

/-- Another round stays as it is. -/
theorem GivesUp.other {j : Nat} (h : GivesUp seq c j) (hji : j ≠ i)
    (hfailures : failuresFor seq c.hist = 0 →
      failuresFor seq (c.next (serve env) i f op k).hist = 0)
    (hstream : op ≠ .deleteStream requestQueue)
    (hconsumer : op ≠ .deleteConsumer requestQueue requestWorker) :
    GivesUp seq (c.next (serve env) i f op k) j := by
  obtain ⟨msg, done, rest, hx, hname, hseq, hsplit, hfollows, hcalls, hnone, hacked⟩ := h
  refine ⟨msg, done, rest, hx, hname, hseq, hsplit, ?_, ?_, fun hdone => hfailures (hnone hdone),
    fun hrest => acked_left env i f (hacked hrest) hstream hconsumer⟩
  · rw [Config.next_prog_of_ne hji]
    exact hfollows
  · rw [calls_next_of_ne hji]
    exact hcalls

/-- A call of the round itself is answered, and it goes on to the next one. -/
theorem GivesUp.self (h : GivesUp seq c i) (hp : c.prog i = .await op k)
    {a : op.Res} (hans : (answer env i op c.world).1 = .ok a)
    (hack : ∀ msg : Msg, op = .ack msg → msg.stream = requestQueue → msg.durable = requestWorker →
      msg.streamSeq = seq → RequestAcked seq (answer env i op c.world).2) :
    GivesUp seq (c.next (serve env) i .ok op k) i := by
  obtain ⟨msg, done, rest, hx, hname, hseq, hsplit, hfollows, hcalls, hnone, hacked⟩ := h
  rw [hp] at hfollows
  cases rest with
  | nil => cases hfollows
  | cons P rest =>
    refine ⟨msg, done ++ [P], rest, hx, hname, hseq, by simpa using hsplit, ?_, ?_, by simp, ?_⟩
    · rw [Config.next_prog_self, Server.heard_ok, serve_answer, hans]
      exact hfollows.2 a
    · rw [calls_next_self, hcalls, List.length_append, List.length_singleton]
    · intro hrest
      subst hrest
      have hlast : P = fun op => op = .ack msg := by
        have hget := congrArg List.getLast? hsplit
        simpa [closing] using hget.symm
      have hop : op = .ack msg := by
        have hP := hfollows.1
        rw [hlast] at hP
        exact hP
      exact hack msg hop hx hname hseq

/-- The acknowledgement counts, provided that the consumer is still there. -/
theorem acked_ack {w : World} {msg : Msg} (hx : msg.stream = requestQueue)
    (hname : msg.durable = requestWorker) (hseq : msg.streamSeq = seq)
    (h : (w.durable requestQueue requestWorker).isSome = true) :
    RequestAcked seq (answer env i (.ack msg) w).2 := by
  obtain ⟨d, hdurable⟩ := Option.isSome_iff_exists.mp h
  obtain ⟨s, hs, hd⟩ := Option.bind_eq_some_iff.mp hdurable
  refine ⟨d.ack seq, Option.bind_eq_some_iff.mpr ?_, List.mem_cons_self⟩
  simp only [answer, World.settle, hx, hname, hseq, hs, hd]
  refine ⟨_, World.streams_setStream_self .., ?_⟩
  split
  · rw [Stream.durables_keep]
    exact Stream.durables_setDurable_self ..
  · exact Stream.durables_setDurable_self ..

/-- Under the two conditions no call of the round is refused. Only the reading can be, for the
record may have been deleted meanwhile. -/
theorem GivesUp.answered (env : Env) (h : GivesUp seq c i) (hp : c.prog i = .await op k)
    (hfailures : ∃ t, c.world.streams failureQueue = some t ∧
      PREFILL_FAILURES_STREAM ∈ t.subjects)
    (hthere : recordThere c.world (some op) = true) :
    ∃ a, (answer env i op c.world).1 = .ok a := by
  rcases h.next hp with ⟨r, rfl⟩ | ⟨name, rfl⟩ | ⟨name, sub, rfl⟩ | ⟨msg, rfl⟩
  · obtain ⟨t, ht, hmem⟩ := hfailures
    exact ⟨t.last + 1, by simp only [answer, ht, if_pos hmem]⟩
  · have hsome : (c.world.record name).isSome = true := hthere
    obtain ⟨sub, hrecord⟩ := Option.isSome_iff_exists.mp hsome
    obtain ⟨e, he, -⟩ := Bucket.value?_eq_some hrecord
    exact ⟨e, by simp only [answer, he]⟩
  · exact ⟨(), rfl⟩
  · exact ⟨(), rfl⟩

theorem handedMsg_outside (hop : Outside op) (a : Except CallError op.Res) :
    handedMsg op a = none := by
  unfold handedMsg
  split
  · next stream durable msg =>
    exact if_neg fun heq => hop.fetch durable (by rw [heq])
  · rfl

/-- Outside, nobody is handed the request. -/
theorem heard_outside (hop : Outside op) {j : Nat} {M : Msg → Bool} :
    ((c.next (serve env) i f op k).Heard j fun op a => (handedMsg op a).any M = true) ↔
      c.Heard j fun op a => (handedMsg op a).any M = true := by
  rw [Config.heard_next]
  apply or_iff_right
  intro hnow
  rw [handedMsg_outside hop] at hnow
  cases hnow.2

/-- The uses of the programs after a step. -/
theorem outside_next (h : Limited env m seq c) (hp : c.prog i = .await op k)
    (hself : ∀ r, (k r).Uses Outside) (j : Nat) :
    ((c.next (serve env) i f op k).prog j = Job.prefill.program env ∧
      ∀ ev ∈ (c.next (serve env) i f op k).hist, ev.tid ≠ j) ∨
    ((c.next (serve env) i f op k).prog j).Uses Outside := by
  by_cases hji : j = i
  · subst hji
    rw [Config.next_prog_self]
    exact Or.inr (hself _)
  · rw [Config.next_prog_of_ne hji]
    rcases h.outside j with ⟨hstart, hnone⟩ | huses
    · refine Or.inl ⟨hstart, fun ev hev => ?_⟩
      rcases List.mem_cons.mp hev with rfl | hev
      · exact fun heq => hji heq.symm
      · exact hnone ev hev
    · exact Or.inr huses

/-- A call that adds to the failures is the first one of its round. -/
theorem GivesUp.first (h : GivesUp seq c i) (hp : c.prog i = .await op k)
    (hadds : addsFailure op = true) : failuresFor seq c.hist = 0 := by
  obtain ⟨msg, done, rest, -, -, -, hsplit, hfollows, -, hnone, -⟩ := h
  cases done with
  | nil => exact hnone rfl
  -- past the first call what remains is among the last three, and none of them publishes
  | cons P done =>
    rw [hp] at hfollows
    cases rest with
    | nil => cases hfollows
    | cons Q rest =>
      have hmem : Q ∈ (closing msg).tail := by
        rw [hsplit]
        exact List.mem_append_right _ List.mem_cons_self
      have hQ := hfollows.1
      simp only [closing, List.tail_cons, List.mem_cons, List.not_mem_nil, or_false] at hmem
      rcases hmem with rfl | rfl | rfl
      · obtain ⟨name, rfl⟩ := hQ
        cases hadds
      · obtain ⟨name, sub, rfl⟩ := hQ
        cases hadds
      · rw [hQ] at hadds
        cases hadds

/-- A round that was at work on the request before the step is in its limits after it. -/
theorem Limited.within_next (h : Limited env m seq c) (hp : c.prog i = .await op k) {j : Nat}
    (hj : c.Heard j fun op a => worksOn seq op a = true) :
    OverLimit m seq c j ∨
      ((c.next (serve env) i f op k).prog j).Uses fun op => addsFailure op = false := by
  apply (h.within j hj).imp_right
  intro huses
  by_cases hji : j = i
  · subst hji
    rw [Config.next_prog_self]
    rw [hp] at huses
    exact huses.2 _
  · rw [Config.next_prog_of_ne hji]
    exact huses

/-- Only the round that gives the request up adds to the failures. -/
theorem Limited.adds (h : Limited env m seq c) (hp : c.prog i = .await op k)
    (hadd : addsFailure op = true) (hworks : c.Heard i fun op a => worksOn seq op a = true) :
    OverLimit m seq c i := by
  rcases h.within i hworks with hi | hnot
  · exact hi
  · rw [hp] at hnot
    rw [hnot.1] at hadd
    cases hadd

/-- The rounds that give the request up go on, or another one does something. -/
theorem Limited.rounds_outside (h : Limited env m seq c) (hp : c.prog i = .await op k)
    (hop : Outside op) (hreach : Reachable env m seq c (i, f))
    (hans : Answerable env m seq c (i, f)) {j : Nat} (hj : OverLimit m seq c j) :
    GivesUp seq (c.next (serve env) i f op k) j := by
  by_cases hji : j = i
  · subst hji
    obtain rfl := Fault.eq_ok (hreach.2.1 hj)
    have hthere := hans.2 hj
    rw [hp, next?_await] at hthere
    obtain ⟨a, ha⟩ := (h.rounds j hj).answered env hp h.failures hthere
    obtain ⟨s, d, hs, hd, -⟩ := h.queue
    apply (h.rounds j hj).self hp ha
    intro msg hmsg hx hname hseq
    subst hmsg
    exact acked_ack hx hname hseq (by rw [World.durable, hs, Option.bind_some, hd]; rfl)
  · have hadds : ¬ (addsFailure op = true ∧ f.Lands ∧
        c.Heard i fun op a => worksOn seq op a = true) := by
      intro hadd
      exact hji (h.one j i hj (h.adds hp hadd.1 hadd.2.2))
    refine (h.rounds j hj).other hji (fun hnone => ?_) hop.requests hop.worker
    rw [failuresFor_next hadds, hnone]

/-- The failures for the request after the call. -/
theorem Limited.added_outside (h : Limited env m seq c) (hp : c.prog i = .await op k) :
    failuresFor seq (c.next (serve env) i f op k).hist ≤ 1 ∧
      ((∀ j, ¬ OverLimit m seq c j) →
        failuresFor seq (c.next (serve env) i f op k).hist = 0) := by
  by_cases hadd : addsFailure op = true ∧ f.Lands ∧
    c.Heard i fun op a => worksOn seq op a = true
  · have hi := h.adds hp hadd.1 hadd.2.2
    -- It is the first thing that round does.
    have hfirst := (h.rounds i hi).first hp hadd.1
    have hle := failuresFor_next_le env seq c i f k
    exact ⟨by omega, fun hnone => absurd hi (hnone i)⟩
  · rw [failuresFor_next hadd]
    exact h.added

/-- The queue after the call. -/
theorem Limited.counted_outside (h : Limited env m seq c) (hp : c.prog i = .await op k)
    (hop : Outside op) (hreach : Reachable env m seq c (i, f)) :
    Counted m seq (OverLimit m seq c) ((serve env).left i op c.world f) := by
  have hnext : (c.prog i).next? = some op := next?_of_await hp
  obtain ⟨s, d, hs, hd, hcount⟩ := h.queue
  obtain ⟨t, d', ht, hd', honward⟩ := onward_left env i f seq hs hd hop.requests hop.worker
  have hsame : d'.numDelivered seq = d.numDelivered seq := by
    rcases honward.delivered with hsame | ⟨heq, -⟩
    · exact hsame
    · exact absurd heq (hop.fetch _)
  refine ⟨t, d', ht, hd', ?_⟩
  rw [hsame]
  rcases hcount with ⟨hle, hnone⟩ | ⟨heq, hwithheld, j, hj⟩
  · exact Or.inl ⟨hle, hnone⟩
  · refine Or.inr ⟨heq, honward.withheld hwithheld fun hrel => ?_, j, hj⟩
    -- It is given back only once the round that gives it up is over.
    have hgives := h.rounds j hj
    obtain ⟨ev, hev, htid, hbeyond⟩ := hj
    rcases hreach.2.2 op hnext hrel ev hev hbeyond with hself | hfin
    · obtain rfl : j = i := htid.symm.trans hself
      rw [hgives.keeps hp] at hrel
      cases hrel
    · obtain ⟨d₀, hd₀, hacked⟩ := hgives.acked (Or.inl (htid ▸ hfin))
      rw [World.durable, hs, Option.bind_some, hd] at hd₀
      exact Option.some.inj hd₀ ▸ hacked

/-- Any call but the taking of a request. -/
theorem Limited.outside_step (h : Limited env m seq c) (hp : c.prog i = .await op k)
    (hout : (Prog.await op k).Uses Outside) (hreach : Reachable env m seq c (i, f))
    (hans : Answerable env m seq c (i, f)) :
    Limited env m seq (c.next (serve env) i f op k) := by
  have hop : Outside op := hout.1
  have hover : ∀ j, OverLimit m seq (c.next (serve env) i f op k) j ↔ OverLimit m seq c j :=
    fun j => heard_outside hop
  have hworks : ∀ j, ((c.next (serve env) i f op k).Heard j fun op a => worksOn seq op a = true) ↔
      c.Heard j fun op a => worksOn seq op a = true := fun j => heard_outside hop
  refine ⟨outside_next h hp hout.2, fun j hj => ?_, fun j hj => ?_, fun j j' hj hj' => ?_, ?_,
    failures_left env i f h.failures hop.failures hop.subjects,
    Counted.congr (OverLimit m seq c) (h.counted_outside hp hop hreach) hover⟩
  · rw [hover]
    exact h.within_next hp ((hworks j).mp hj)
  · exact h.rounds_outside hp hop hreach hans ((hover j).mp hj)
  · exact h.one j j' ((hover j).mp hj) ((hover j').mp hj')
  · obtain ⟨hle, hzero⟩ := h.added_outside (f := f) hp
    exact ⟨hle, fun hnone => hzero fun j hj => hnone j ((hover j).mpr hj)⟩

/-- A message as the round is handed it. -/
def handOut (d : Durable) (stored : Stored Payload) : Msg :=
  ⟨requestQueue, requestWorker, stored.subject, stored.payload, stored.seq,
    (d.deliver stored.seq).numDelivered stored.seq, stored.origin⟩

theorem answer_fetch (env : Env) (i : Nat) {w : World} {stored : Stored Payload}
    (hs : w.streams requestQueue = some s) (hd : s.durables requestWorker = some d)
    (hm : s.fetch d = some stored) :
    answer env i (.fetch requestQueue requestWorker) w = (.ok (handOut d stored),
      w.setStream requestQueue
        (some (s.setDurable requestWorker (some (d.deliver stored.seq))))) := by
  simp only [answer, hs, hd, hm, handOut]

theorem answer_fetch_none (env : Env) (i : Nat) {w : World}
    (hs : w.streams requestQueue = some s) (hd : s.durables requestWorker = some d)
    (hm : s.fetch d = none) :
    answer env i (.fetch requestQueue requestWorker) w = (.error .timeout, w) := by
  simp only [answer, hs, hd, hm]

theorem handedMsg_fetch (msg : Msg) :
    handedMsg (.fetch requestQueue requestWorker) (.ok msg) = some msg := by
  simp [handedMsg]

end Steps

/-! ### Taking the request

The one step that the other jobs cannot make. Four things can come of it: the fetch is lost before
it is served or after, it finds nothing, it is handed another request, or it is handed this one.
Only the last begins a round. A fetch that is lost *after* it was served is the awkward one: the
count goes up and no round hears of it. Beyond the limit `Reachable` excludes that, and within the
limit the count is all there is to check. -/
section Fetch

variable {c : System} {i : Nat} {f : Fault Outage}
  {k : Except CallError (Op.fetch requestQueue requestWorker).Res → Coro Reply}

theorem worksOn_of_beyond {a : Except CallError op.Res} (h : beyond m seq op a = true) :
    worksOn seq op a = true := by
  unfold beyond at h
  unfold worksOn
  cases hm : handedMsg op a with
  | none =>
    rw [hm] at h
    cases h
  | some msg =>
    rw [hm] at h
    simp only [Option.any_some, Bool.and_eq_true] at h ⊢
    exact h.1

/-- A round begins that gives the request up. -/
theorem GivesUp.begins {op : Op} {k : Except CallError op.Res → Coro Reply} {msg : Msg}
    (hfresh : ∀ ev ∈ c.hist, ev.tid ≠ i) (hstream : msg.stream = requestQueue)
    (hdurable : msg.durable = requestWorker) (hseq : msg.streamSeq = seq)
    (hfollows : ((c.next (serve env) i f op k).prog i).Follows (closing msg))
    (hfailures : failuresFor seq (c.next (serve env) i f op k).hist = 0) :
    GivesUp seq (c.next (serve env) i f op k) i := by
  refine ⟨msg, [], closing msg, hstream, hdurable, hseq, rfl, hfollows, ?_, fun _ => hfailures,
    nofun⟩
  rw [calls_next_self, calls, List.countP_eq_zero.mpr]
  · rfl
  · intro ev hev
    simpa using hfresh ev hev

/-- The queue after a fetch that is not answered, or not with this request. -/
theorem Limited.counted_nothing (h : Limited env m seq c)
    (hp : c.prog i = .await (.fetch requestQueue requestWorker) k)
    (hnothing : worksOn seq (.fetch requestQueue requestWorker)
      ((serve env).heard i (.fetch requestQueue requestWorker) c.world f) = false)
    (hreach : Reachable env m seq c (i, f)) :
    Counted m seq (OverLimit m seq c)
      ((serve env).left i (.fetch requestQueue requestWorker) c.world f) := by
  have hnext : (c.prog i).next? = some (.fetch requestQueue requestWorker) := next?_of_await hp
  obtain ⟨s, d, hs, hd, hcount⟩ := h.queue
  apply Server.left_preserves (P := Counted m seq (OverLimit m seq c)) h.queue
  intro hf
  rw [serve_answer]
  cases hm : s.fetch d with
  | none =>
    rw [answer_fetch_none env i hs hd hm]
    exact ⟨s, d, hs, hd, hcount⟩
  | some stored =>
    have hanswer := answer_fetch env i hs hd hm
    rw [hanswer]
    refine ⟨_, _, World.streams_setStream_self .., Stream.durables_setDurable_self .., ?_⟩
    have honward : Onward requestQueue requestWorker seq (.fetch requestQueue requestWorker) s
        (s.setDurable requestWorker (some (d.deliver stored.seq))) d (d.deliver stored.seq) :=
      onward_fetch hm
    -- Within the limit the count may go up by one; beyond it the request is withheld.
    rcases hcount with ⟨hle, hnone⟩ | ⟨heq, hwithheld, j, hj⟩
    · refine Or.inl ⟨?_, hnone⟩
      rcases honward.delivered with hkept | ⟨-, hmore, -, stored', hm', hseq⟩
      · exact hkept ▸ hle
      · -- The last attempt would have been heard of.
        by_contra hlast
        obtain rfl := Option.some.inj (hm.symm.trans hm')
        have hbeyond : beyond m seq (.fetch requestQueue requestWorker)
            (answer env i (.fetch requestQueue requestWorker) c.world).1 = true := by
          rw [hanswer, beyond, handedMsg_fetch]
          simp only [Option.any_some, Bool.and_eq_true, beq_iff_eq, decide_eq_true_eq]
          refine ⟨hseq, ?_⟩
          show m < (d.deliver stored.seq).numDelivered stored.seq
          rw [hseq] at hlast ⊢
          omega
        obtain rfl := Fault.eq_ok (hreach.1 _ hnext hf hbeyond)
        rw [Server.heard_ok, serve_answer, worksOn_of_beyond hbeyond] at hnothing
        cases hnothing
    · refine Or.inr ⟨?_, honward.withheld hwithheld nofun, j, hj⟩
      rcases honward.delivered with hkept | ⟨-, -, -, stored', hm', hseq⟩
      · exact hkept.trans heq
      · exact absurd hseq (hwithheld.ne_of_fetch hm')

/-- The fetch is not answered, or not with this request. If it is lost, it was within the
attempts. -/
theorem Limited.fetch_nothing (h : Limited env m seq c)
    (hp : c.prog i = .await (.fetch requestQueue requestWorker) k)
    (hnothing : worksOn seq (.fetch requestQueue requestWorker)
      ((serve env).heard i (.fetch requestQueue requestWorker) c.world f) = false)
    (hself : ∀ r, (k r).Uses Outside) (hreach : Reachable env m seq c (i, f)) :
    Limited env m seq (c.next (serve env) i f (.fetch requestQueue requestWorker) k) := by
  -- Nothing the theorem speaks of is heard here, so who works and who is over the limit stays.
  have hworks : ∀ j, ((c.next (serve env) i f (.fetch requestQueue requestWorker) k).Heard j
      fun op a => worksOn seq op a = true) ↔ c.Heard j fun op a => worksOn seq op a = true := by
    intro j
    rw [Config.heard_next, hnothing]
    exact or_iff_right fun hnow => Bool.false_ne_true hnow.2
  have hover : ∀ j,
      OverLimit m seq (c.next (serve env) i f (.fetch requestQueue requestWorker) k) j ↔
        OverLimit m seq c j := by
    intro j
    refine (Config.heard_next).trans (or_iff_right fun hnow => ?_)
    rw [worksOn_of_beyond hnow.2] at hnothing
    cases hnothing
  have hidle : ∀ j, OverLimit m seq c j → j ≠ i := by
    intro j hj hji
    subst hji
    rcases (h.rounds j hj).next hp with ⟨r, heq⟩ | ⟨name, heq⟩ | ⟨name, sub, heq⟩ | ⟨msg, heq⟩ <;>
      cases heq
  have hsame : failuresFor seq (c.next (serve env) i f (.fetch requestQueue requestWorker) k).hist =
      failuresFor seq c.hist := failuresFor_next fun hadd => Bool.false_ne_true hadd.1
  refine ⟨outside_next h hp hself, fun j hj => ?_, fun j hj => ?_,
    fun j j' hj hj' => h.one j j' ((hover j).mp hj) ((hover j').mp hj'), ?_,
    failures_left env i f h.failures nofun nofun,
    Counted.congr (OverLimit m seq c) (h.counted_nothing hp hnothing hreach) hover⟩
  · rw [hover]
    exact h.within_next hp ((hworks j).mp hj)
  · rw [hover] at hj
    exact (h.rounds j hj).other (hidle j hj) (fun hnone => hsame.trans hnone) nofun nofun
  · rw [hsame]
    exact ⟨h.added.1, fun hnone => h.added.2 fun j hj => hnone j ((hover j).mpr hj)⟩

/-- The fetch is answered with this request. Beyond its attempts, the round is the one that gives
it up. -/
theorem Limited.fetch_request (h : Limited env m seq c) (hmax : env.maxPrefillAttempts = m)
    (hp : c.prog i = .await (.fetch requestQueue requestWorker) k)
    (hfresh : ∀ ev ∈ c.hist, ev.tid ≠ i) (hk : ∀ msg, k (.ok msg) = prefillWith env msg)
    {s : Store.Stream Payload} {d : Durable} {stored : Stored Payload}
    (hs : c.world.streams requestQueue = some s) (hd : s.durables requestWorker = some d)
    (hm : s.fetch d = some stored) (hseq : stored.seq = seq)
    (hself : ∀ r, (k r).Uses Outside) (hans : Answerable env m seq c (i, .ok)) :
    Limited env m seq (c.next (serve env) i .ok (.fetch requestQueue requestWorker) k) := by
  have hnext : (c.prog i).next? = some (.fetch requestQueue requestWorker) := next?_of_await hp
  have hanswer := answer_fetch env i hs hd hm
  obtain ⟨s₀, d₀, hs₀, hd₀, hcount⟩ := h.queue
  obtain rfl := Option.some.inj (hs.symm.trans hs₀)
  obtain rfl := Option.some.inj (hd.symm.trans hd₀)
  -- The request was at hand, so this is one of its attempts, or the first one beyond them.
  obtain ⟨hle, hnone⟩ : d.numDelivered seq ≤ m ∧ ∀ j, ¬ OverLimit m seq c j := by
    rcases hcount with hwithin | ⟨-, hwithheld, -⟩
    · exact hwithin
    · exact absurd hseq (hwithheld.ne_of_fetch hm)
  have hdelivered : (handOut d stored).numDelivered = d.numDelivered seq + 1 := by
    rw [← hseq]
    exact d.numDelivered_deliver_self stored.seq
  have hbeyond : beyond m seq (.fetch requestQueue requestWorker) (.ok (handOut d stored)) =
      decide (m < d.numDelivered seq + 1) := by
    rw [beyond, handedMsg_fetch, Option.any_some, hdelivered]
    simp [handOut, hseq]
  have hover : ∀ j, OverLimit m seq
      (c.next (serve env) i .ok (.fetch requestQueue requestWorker) k) j ↔
        i = j ∧ m < d.numDelivered seq + 1 := by
    intro j
    refine (Config.heard_next).trans ((or_iff_left (hnone j)).trans (and_congr_right fun _ => ?_))
    rw [Server.heard_ok, serve_answer, hanswer, hbeyond, decide_eq_true_eq]
  have hprog : (c.next (serve env) i .ok (.fetch requestQueue requestWorker) k).prog i =
      prefillWith env (handOut d stored) := by
    rw [Config.next_prog_self, Server.heard_ok, serve_answer, hanswer, hk]
  have hsame : failuresFor seq
      (c.next (serve env) i .ok (.fetch requestQueue requestWorker) k).hist =
      failuresFor seq c.hist := failuresFor_next fun hadd => Bool.false_ne_true hadd.1
  have hfailures := hsame.trans (h.added.2 hnone)
  refine ⟨outside_next h hp hself, fun j hj => ?_, fun j hj => ?_, fun j j' hj hj' => ?_,
    ⟨by omega, fun _ => hfailures⟩, failures_left env i .ok h.failures nofun nofun, ?_⟩
  · rw [hover]
    by_cases hji : j = i
    · subst hji
      rw [hprog]
      by_cases hlast : m < d.numDelivered seq + 1
      · exact Or.inl ⟨rfl, hlast⟩
      · exact Or.inr (uses_within hmax (by omega))
    · rw [Config.next_prog_of_ne hji]
      rcases Config.heard_next.mp hj with ⟨heq, -⟩ | hj
      · exact absurd heq.symm hji
      · exact Or.inr ((h.within j hj).resolve_left (hnone j))
  · obtain ⟨rfl, hlast⟩ := (hover j).mp hj
    have hpayload := hans.1 _ hnext (handOut d stored)
      (by rw [hanswer]; exact handedMsg_fetch _) hseq (by omega)
    exact .begins hfresh rfl rfl hseq (hprog ▸ follows_closing hpayload hmax (by omega)) hfailures
  · exact ((hover j).mp hj).1.symm.trans ((hover j').mp hj').1
  · refine Counted.congr (fun j => i = j ∧ m < d.numDelivered seq + 1) ?_ hover
    rw [Config.next_world, Server.left_ok, serve_answer, hanswer]
    refine ⟨_, _, World.streams_setStream_self .., Stream.durables_setDurable_self .., ?_⟩
    rw [hseq, Durable.numDelivered_deliver_self]
    by_cases hlast : m < d.numDelivered seq + 1
    · refine Or.inr ⟨by omega, ⟨?_, Or.inl rfl⟩, i, rfl, hlast⟩
      rw [← hseq]
      exact s.bounded stored (Stream.mem_of_oldest (Stream.oldest_of_fetch hm))
    · exact Or.inl ⟨by omega, fun j hj => hlast hj.2⟩

end Fetch

/-- **Every step keeps the limit.** The job that moves has not begun or keeps outside, and in the
first case its call is the fetch. -/
theorem Limited.step {c d : System} {l : Nat × Fault Outage} (h : Limited env m seq c)
    (hmax : env.maxPrefillAttempts = m) (hreach : Reachable env m seq c l)
    (hans : Answerable env m seq c l) (hs : c.step (serve env) l = some d) :
    Limited env m seq d := by
  obtain ⟨op, k, hp, rfl⟩ := Config.step_cases hs
  obtain ⟨i, f⟩ := l
  -- A service that is still at its fetch may be handed the request. All other calls keep outside.
  rcases h.outside i with ⟨hstart, hfresh⟩ | hout
  · obtain ⟨k', hprogram, hk, hover⟩ := prefill_program env
    cases hp.symm.trans (hstart.trans hprogram)
    have hself : ∀ r, (k' r).Uses Outside := by
      intro r
      cases r with
      | ok msg =>
        rw [hk]
        exact outside_prefillWith
      | error e => exact uses_of_finished (hover e)
    cases hworks : worksOn seq (.fetch requestQueue requestWorker)
        ((serve env).heard i (.fetch requestQueue requestWorker) c.world f) with
    | false => exact h.fetch_nothing hp hworks hself hreach
    | true =>
      obtain ⟨s, d, hstream, hd, -⟩ := h.queue
      have hlost : ∀ e, ¬ worksOn seq (.fetch requestQueue requestWorker) (.error e) = true := nofun
      obtain ⟨rfl, hserved⟩ := Server.heard_answered
        (M := fun a => worksOn seq (.fetch requestQueue requestWorker) a = true)
        (fun e => hlost _) hworks
      rw [serve_answer] at hserved
      cases hm : s.fetch d with
      | none =>
        rw [answer_fetch_none env i hstream hd hm] at hserved
        cases hserved
      | some stored =>
        rw [answer_fetch env i hstream hd hm, worksOn, handedMsg_fetch] at hserved
        exact h.fetch_request hmax hp hfresh hk hstream hd hm (beq_iff_eq.mp hserved) hself hans
  · rw [hp] at hout
    exact h.outside_step hp hout hreach hans

/-- In the beginning nobody has heard anything. -/
theorem limited_start {w : World} {jobs : Nat → Job} (hjobs : ∀ i, (jobs i).LeavesQueues)
    (hready : QueuesReady m seq w) : Limited env m seq (System.start env w jobs) := by
  have hnone : ∀ i, ¬ OverLimit m seq (System.start env w jobs) i :=
    fun i => Config.not_heard_init _ _
  refine ⟨fun i => ?_, fun i hi => absurd hi (Config.not_heard_init _ _),
    fun i hi => absurd hi (hnone i), fun i j hi => absurd hi (hnone i),
    ⟨Nat.zero_le 1, fun _ => rfl⟩, hready.2, ?_⟩
  · by_cases hjob : jobs i = .prefill
    · refine Or.inl ⟨?_, fun ev hev => absurd hev List.not_mem_nil⟩
      rw [System.start_prog, hjob]
    · exact Or.inr (outside_job (hjobs i) hjob)
  · obtain ⟨d, hdurable, hle⟩ := hready.1
    obtain ⟨s, hs, hd⟩ := Option.bind_eq_some_iff.mp hdurable
    exact ⟨s, d, hs, hd, Or.inl ⟨hle, hnone⟩⟩

/-- What the invariant says is more than the bound. -/
theorem Limited.bounded {c : System} (h : Limited env m seq c) : RetriesBounded m seq c := by
  obtain ⟨s, d, hs, hd, hcount⟩ := h.queue
  have hdurable : c.world.durable requestQueue requestWorker = some d :=
    Option.bind_eq_some_iff.mpr ⟨s, hs, hd⟩
  refine ⟨d, hdurable, ?_, h.added.1, fun i hi hover => ?_⟩
  · rcases hcount with ⟨hle, -⟩ | ⟨heq, -⟩
    · exact Nat.le_succ_of_le hle
    · exact Nat.le_of_eq heq
  · obtain ⟨d₀, hd₀, hacked⟩ := (h.rounds i hi).acked hover
    exact Option.some.inj (hdurable.symm.trans hd₀) ▸ hacked

/-- **The limit binds.** In any run of any jobs that leave the queues of the prefill service
alone: where the services are reachable when the request is delivered beyond its attempts, and it
can be answered for then, it is delivered at most once beyond them, that round acknowledges it,
and it is added to the failures at most once. -/
theorem retries_bounded (env : Env) (m seq : Nat) (hmax : env.maxPrefillAttempts = m) (w : World)
    (jobs : Nat → Job) (ls : Schedule) (hready : QueuesReady m seq w)
    (hjobs : ∀ i, (jobs i).LeavesQueues)
    (hreach : (System.start env w jobs).Along (serve env) (Reachable env m seq) ls)
    (hans : (System.start env w jobs).Along (serve env) (Answerable env m seq) ls) :
    (System.start env w jobs).Always (serve env) (RetriesBounded m seq) ls := by
  have halong := Config.along_and hreach hans
  have hstep : ∀ c l d, Limited env m seq c →
      (Reachable env m seq c l ∧ Answerable env m seq c l) →
      c.step (serve env) l = some d → Limited env m seq d :=
    fun c l d hc hl hs => hc.step hmax hl.1 hl.2 hs
  exact (Config.always_of_invariant hstep (limited_start hjobs hready) halong).mono
    fun c hc => hc.bounded

/-! ## A request whose subscription is gone -/

instance (env : Env) (m seq : Nat) (c : System) (l : Nat × Fault Outage) :
    Decidable (Reachable env m seq c l) :=
  inferInstanceAs (Decidable (_ ∧ _ ∧ _))

instance (env : Env) (m seq : Nat) (c : System) (l : Nat × Fault Outage) :
    Decidable (Answerable env m seq c l) :=
  inferInstanceAs (Decidable (_ ∧ _))

-- The reports of the runs below are requests that the app evaluates.
attribute [local semireducible] receive

/-- So many attempts at a prefill. -/
def Env.attempts (m : Nat) : Env := { Env.sample with maxPrefillAttempts := m }

theorem queuesReady_registered (m : Nat) : QueuesReady m 1 .registered :=
  ⟨⟨_, rfl, Nat.zero_le m⟩, _, rfl, List.mem_cons_self⟩

/-- One attempt fails, and the next delivery is beyond the limit. -/
theorem retries_bounded_once :
    (System.start (.attempts 1) .registered (Job.pool [.prefill, .prefill])).Always
      (serve (.attempts 1)) (RetriesBounded 1 1)
      ([(0, .ok), (0, .before .timeout), (0, .ok)] ++ List.replicate 5 (1, .ok)) :=
  retries_bounded (.attempts 1) 1 1 rfl .registered _ _ (queuesReady_registered 1)
    (Job.pool_forall (P := Job.LeavesQueues) (by simp [Job.LeavesQueues]) trivial)
    (by decide +kernel) (by decide +kernel)

def goneJobs : List Job := [.deleteService "a", .prefill, .prefill]

def goneSteps : Schedule :=
  List.replicate 5 (0, .ok) ++ List.replicate 4 (1, .ok) ++ List.replicate 4 (2, .ok)

/-- The subscription was deleted: every attempt adds the request to the failures again, is refused
the status update and gives the request back. -/
theorem not_retries_bounded : ¬ ∀ (env : Env) (m seq : Nat), env.maxPrefillAttempts = m →
    ∀ (w : World) (jobs : Nat → Job) (ls : Schedule), QueuesReady m seq w →
    (∀ i, (jobs i).LeavesQueues) →
    (System.start env w jobs).Along (serve env) (Reachable env m seq) ls →
    (System.start env w jobs).Always (serve env) (RetriesBounded m seq) ls := by
  intro h
  have hjobs : ∀ i, (Job.pool goneJobs i).LeavesQueues :=
    Job.pool_forall (P := Job.LeavesQueues) (by simp [goneJobs, Job.LeavesQueues]; decide) trivial
  have halways := h (.attempts 0) 0 1 rfl .registered _ goneSteps (queuesReady_registered 0) hjobs
    (by decide +kernel)
  obtain ⟨d, hrun, htwice⟩ : ∃ d,
      (System.start (.attempts 0) .registered (Job.pool goneJobs)).run (serve (.attempts 0))
        goneSteps = some d ∧ failuresFor 1 d.hist = 2 :=
    ⟨_, rfl, by decide +kernel⟩
  obtain ⟨-, -, -, honce, -⟩ := halways.run hrun
  omega

end Provisioning
