import Provisioning.Properties.SubscriptionFrame

/-!
# Live messages stay

The stream of a subscription is shared by five parties: the dispatcher publishes to it, the prefill
service clears its share of it and publishes to it, the API fetches from it, acknowledges and
deletes, and a registration that is repeated configures it anew. A live message is meant to wait
there until the consumer reports that it has dealt with it.

It does, because the stream keeps what is acknowledged, because the prefill service only clears the
other subject, and because nobody gives the stream the configuration of a work queue, unless the
subscription is named like an internal queue.

## One call at a time

The invariant is one message in one stream, and the retention of that stream is part of it
(`KeptIn`): were it a work queue, an acknowledgement would take the message out. Where the name is
no internal queue's, no call gives the stream this retention, since a registration asks for the
other one and all other jobs configure streams of their own. That leaves two calls that withdraw the
message, and they do so always, which is why the result is an equivalence.
-/

namespace Provisioning

open Await Store Prog

variable {jobs : Nat → Job} {name : String} {m : Stored Payload} {w : World} {op : Op}

/-- The job deletes the subscription. -/
def Job.Deletes (name : String) : Job → Prop
  | .delete _ _ _ n => n = name
  | .deleteService n => n = name
  | _ => False

/-- The message is in the stream of the subscription, and stays there when it is acknowledged. -/
def KeptIn (w : World) (name : String) (m : Stored Payload) : Prop :=
  ∃ s, w.streams (streamKey name) = some s ∧ s.workQueue = false ∧ m ∈ s.msgs

/-- The call, of job `i`, withdraws the message: a status report with its number, or a deletion of
the subscription. -/
inductive Withdraws (jobs : Nat → Job) (name : String) (seq : Nat) (i : Nat) : Op → Prop where
  | report (status : MessageProcessingStatus) (h : jobs i = .postStatus name seq status) :
      Withdraws jobs name seq i (.deleteMsg (streamKey name) seq)
  | deletion (h : (jobs i).Deletes name) :
      Withdraws jobs name seq i (.deleteStream (streamKey name))

/-- The call neither makes a work queue of the stream nor clears it of live messages. -/
def SparesLive (name : String) : Op → Prop
  | .addStream config => config.name = streamKey name → config.workQueue = false
  | .updateStream config => config.name = streamKey name → config.workQueue = false
  | .purgeStream _ subject => subject ≠ mainSubject name
  | _ => True

/-- An internal queue has another name than the stream of a subscription. -/
theorem internal_ne {queue : String} (hname : name ∉ internalQueues)
    (hqueue : queue ∈ internalQueues) : streamKey queue ≠ streamKey name := by
  intro heq
  rw [streamKey_inj.mp heq] at hqueue
  exact hname hqueue

theorem sparesLive_prepare {queue : String} (hname : name ∉ internalQueues)
    (hqueue : queue ∈ internalQueues) (hop : PrepareCall queue op) : SparesLive name op := by
  cases hop with
  | addStream => exact fun heq => absurd heq (internal_ne hname hqueue)
  | updateStream => exact fun heq => absurd heq (internal_ne hname hqueue)
  | _ => trivial

/-- Where the name is no internal queue's, no job does. -/
theorem sparesLive_call (hname : name ∉ internalQueues) {job : Job} (hop : JobCall job op) :
    SparesLive name op := by
  cases job with
  | create salt sub =>
    cases hop with
    | addStream => exact fun _ => rfl
    | updateStream => exact fun _ => rfl
    | _ => trivial
  | delete settings salt credentials name =>
    cases hop with
    | auth hop => cases hop <;> trivial
    | delete hop => cases hop <;> trivial
  | deleteService name => cases hop <;> trivial
  | setStatus name status => cases hop <;> trivial
  | authenticate salt credentials subscriptionName => cases hop <;> trivial
  | getNext name rounds pop =>
    cases hop with
    | message hop => cases hop <;> trivial
    | _ => trivial
  | postStatus name seqNum status => cases hop <;> trivial
  | postEvent message => exact hop ▸ trivial
  | prefill =>
    cases hop with
    | handle other hop =>
      cases hop with
      | purge => exact (mainSubject_ne_prefillSubject name other).symm
      | status status htaken hop => cases hop <;> trivial
      | _ => trivial
    | _ => trivial
  | dispatch => cases hop <;> trivial
  | updateMapping => cases hop <;> trivial
  | dispatcherStart =>
    cases hop with
    | mapping hop => cases hop <;> trivial
    | addStream => exact fun heq => absurd heq (internal_ne hname (by decide))
    | updateStream => exact fun heq => absurd heq (internal_ne hname (by decide))
    | _ => trivial
  | prefillStart =>
    rcases hop with hop | hop
    · exact sparesLive_prepare hname (by decide) hop
    · exact sparesLive_prepare hname (by decide) hop
  | transform => cases hop <;> trivial
  | ackWaitExpires stream durable => exact hop ▸ trivial
  | passwordCacheExpires password hash subscription => exact hop ▸ trivial
  | idle => exact hop.elim

/-- Only a status report deletes a message, and only a deletion a stream. -/
theorem withdraws_of_call {i seq : Nat} (hop : JobCall (jobs i) op)
    (h : op = .deleteMsg (streamKey name) seq ∨ op = .deleteStream (streamKey name)) :
    Withdraws jobs name seq i op := by
  generalize hjob : jobs i = job at hop
  -- All jobs but these make neither call.
  cases job with
  | delete settings salt credentials n =>
    cases hop with
    | auth hop => rcases h with rfl | rfl <;> cases hop
    | delete hop =>
      rcases h with rfl | rfl
      · cases hop
      · generalize hx : streamKey name = x at hop
        cases hop
        rw [← hx]
        exact .deletion (by rw [hjob]; exact (streamKey_inj.mp hx).symm)
  | deleteService n =>
    rcases h with rfl | rfl
    · cases hop
    · generalize hx : streamKey name = x at hop
      cases hop
      rw [← hx]
      exact .deletion (by rw [hjob]; exact (streamKey_inj.mp hx).symm)
  | postStatus n seqNum status =>
    rcases h with rfl | rfl
    · generalize hx : streamKey name = x at hop
      cases hop
      rw [← hx]
      exact .report status (by rw [hjob, streamKey_inj.mp hx])
    · cases hop
  | getNext n rounds pop =>
    rcases h with rfl | rfl <;> cases hop with
    | message hop => cases hop
  | prefill =>
    rcases h with rfl | rfl <;> cases hop with
    | handle other hop =>
      cases hop with
      | status status htaken hop => cases hop
  | dispatcherStart =>
    rcases h with rfl | rfl <;> cases hop with
    | mapping hop => cases hop
  | prefillStart => rcases h with rfl | rfl <;> rcases hop with hop | hop <;> cases hop
  | idle => exact hop.elim
  | _ => rcases h with rfl | rfl <;> cases hop

/-- **One call.** A live message is still there exactly if the call is none that withdraws it. -/
theorem keptIn_answer (env : Env) (tid : Nat) (h : KeptIn w name m)
    (hsubject : m.subject = mainSubject name) (hop : SparesLive name op) :
    KeptIn (answer env tid op w).2 name m ↔
      op ≠ .deleteMsg (streamKey name) m.seq ∧ op ≠ .deleteStream (streamKey name) := by
  obtain ⟨s, hs, hlimits, hm⟩ := h
  constructor
  · -- Both calls take the message away.
    intro hkept
    obtain ⟨t, ht, -, hmem⟩ := hkept
    constructor
    · intro heq
      subst heq
      simp only [answer, hs, Stream.stored_of_mem hm, if_pos] at ht
      rw [World.streams_setStream_self] at ht
      cases ht
      exact ((Stream.mem_keep_seq_ne hm).mp hmem).2 rfl
    · intro heq
      subst heq
      simp only [answer, hs] at ht
      rw [World.streams_setStream_self] at ht
      cases ht
  · -- No other change of the stream does: the purge is of another subject, and the retention keeps
    -- what is acknowledged.
    intro hnot
    obtain ⟨hdelete, hremove⟩ := hnot
    unfold KeptIn
    rcases streams_answer env tid op w (streamKey name) with hsame | hchange
    · exact ⟨s, hsame.trans hs, hlimits, hm⟩
    · rw [hs] at hchange
      generalize (answer env tid op w).2.streams (streamKey name) = after at hchange
      cases hchange with
      | update config hconfig => exact ⟨_, rfl, hop hconfig, hm⟩
      | remove => exact absurd rfl hremove
      | publish subject payload => exact ⟨_, rfl, hlimits, List.mem_append_left _ hm⟩
      | ack msg hx s d hd =>
        have hlimits' :
            ¬ (s.setDurable msg.durable (some (d.ack msg.streamSeq))).workQueue = true :=
          Bool.eq_false_iff.mp hlimits
        refine ⟨_, rfl, ?_⟩
        rw [if_neg hlimits']
        exact ⟨hlimits, hm⟩
      | deleteMsg seq =>
        refine ⟨_, rfl, hlimits, List.mem_filter.mpr ⟨hm, bne_iff_ne.mpr fun hseq => ?_⟩⟩
        exact hdelete (by rw [hseq])
      | purge subject =>
        refine ⟨_, rfl, hlimits, List.mem_filter.mpr ⟨hm, bne_iff_ne.mpr fun heq => hop ?_⟩⟩
        rw [← heq, hsubject]
      | _ => exact ⟨_, rfl, hlimits, hm⟩

/-- The step does not carry out a call that withdraws the message. -/
def LeavesMessage (jobs : Nat → Job) (name : String) (seq : Nat) (c : System)
    (l : Nat × Fault Outage) : Prop :=
  l.2.Lands → ∀ op, (c.prog l.1).next? = some op → ¬ Withdraws jobs name seq l.1 op

/-- **A live message is in its stream as long as nobody withdraws it.** Whatever runs: as long as
the subscription's name is no internal queue's, the message stays in the stream through every
fetch, acknowledgement, redelivery, prefill and repeated registration, and leaves it exactly when a
status report with its number or a deletion of the subscription gets through. -/
theorem live_message_kept_iff (env : Env) (w : World) (jobs : Nat → Job) (ls : Schedule)
    (hname : name ∉ internalQueues) (hsubject : m.subject = mainSubject name)
    (hm : KeptIn w name m) :
    (System.start env w jobs).Always (serve env) (fun c => KeptIn c.world name m) ls ↔
      (System.start env w jobs).Along (serve env) (LeavesMessage jobs name m.seq) ls := by
  refine Config.always_iff_along (I := fun c : System => ∀ i, (c.prog i).Uses (JobCall (jobs i)))
    (fun c l d hc hs => Config.step_uses hc hs) (fun c l hs => ?_) (fun c l d hc hkept hs => ?_)
    (fun i => uses_program env (jobs i)) hm
  · intro _ op hop
    cases (Config.finished_of_stuck hs).symm.trans hop
  · obtain ⟨op, k, hp, rfl⟩ := Config.step_cases hs
    have hcall : JobCall (jobs l.1) op := (hp ▸ hc l.1 : (Prog.await op k).Uses _).1
    have hnext : (c.prog l.1).next? = some op := next?_of_await hp
    rw [Config.next_world]
    -- A call that is not carried out withdraws nothing and changes nothing.
    by_cases hlands : l.2.Lands
    · rw [Server.left_of_lands hlands, serve_answer,
        keptIn_answer env l.1 hkept hsubject (sparesLive_call hname hcall)]
      constructor
      · intro ⟨hdelete, hremove⟩ _ op' hop' hwithdraws
        obtain rfl := Option.some.inj (hnext.symm.trans hop')
        cases hwithdraws with
        | report => exact hdelete rfl
        | deletion => exact hremove rfl
      · intro h
        have hnot := h hlands op hnext
        exact ⟨fun heq => hnot (withdraws_of_call hcall (Or.inl heq)),
          fun heq => hnot (withdraws_of_call hcall (Or.inr heq))⟩
    · rw [Server.left_of_not_lands hlands]
      exact ⟨fun _ h => absurd h hlands, fun _ => hkept⟩

/-! ## A message that is polled twice and then reported -/

/-- The message that waits in the stream of "a". -/
def waitingMessage : Stored Payload := ⟨1, mainSubject "a", .message .sample, 0⟩

/-- Its delivery is not acknowledged in time; it is delivered again and acknowledged, and then
reported. -/
def polledJobs : List Job :=
  [.getNext "a" 0 false, .ackWaitExpires (streamKey "a") (durableKey "a"), .getNext "a" 0 true,
    .postStatus "a" 1 .ok]

def polls : Schedule :=
  List.replicate 6 (0, .ok) ++ [(1, .ok)] ++ List.replicate 7 (2, .ok)

def reports : Schedule := List.replicate 2 (3, .ok)

/-- The message has outlived both polls, and is gone with the report. -/
theorem live_message_kept_iff_sample : ∃ c d,
    (System.start .sample .withMessage (Job.pool polledJobs)).run (serve .sample) polls = some c ∧
    KeptIn c.world "a" waitingMessage ∧
    c.run (serve .sample) reports = some d ∧ ¬ KeptIn d.world "a" waitingMessage ∧
    ((System.start .sample .withMessage (Job.pool polledJobs)).Always (serve .sample)
        (fun c => KeptIn c.world "a" waitingMessage) (polls ++ reports) ↔
      (System.start .sample .withMessage (Job.pool polledJobs)).Along (serve .sample)
        (LeavesMessage (Job.pool polledJobs) "a" 1) (polls ++ reports)) := by
  have hstart : KeptIn .withMessage "a" waitingMessage := ⟨_, rfl, rfl, List.mem_cons_self⟩
  refine ⟨_, _, rfl, ⟨_, rfl, rfl, List.mem_cons_self⟩, rfl, ?_,
    live_message_kept_iff .sample .withMessage _ (polls ++ reports) (by decide) rfl hstart⟩
  intro hkept
  obtain ⟨s, hs, -, hm⟩ := hkept
  cases hs
  cases hm

end Provisioning
