import Provisioning.Model.Calls

/-!
# Retrying a registration

A registration writes the hash and the record, ensures the stream and the consumer, and queues the
request for a prefill, in this order; and it asks only for the record whether the name is
registered. Once the record is written, a retry of the same request is answered 200 without
looking at the rest.

**`registration_complete_iff`** says that an attempt which wrote the record and was cut before the
rest was there is the only way in which an accepted registration can be incomplete. In particular
one that is cut before the record does no harm, although it may have written a hash.

## What an attempt is

An attempt runs the code against the server under a plan, which says of each call whether it is
answered, is lost before or after it was served, or is the one at which the process dies. So the
list `landed` of the calls that had an effect is not the list of the calls the code has seen
answered, and both occur: completeness is about what has landed, acceptance about what was seen.

## How the two are connected

For each part of a complete registration there is one fact in two versions. Of a call it says that
the part is there afterwards if and only if it was there before or the call put it there; summed up
over an attempt by `attempt_fact`, the part is there at the end if and only if it was at the
beginning or the call is in `landed`. That turns `Complete` into a statement about `landed`, which
is what `RegistersAll` is. The facts are equivalences, for the theorem is one; with implications
only the sufficiency would come out.

The other direction of the argument is `Guarded`: an accepted registration has *seen* an answer
that shows the part. For the consumer that answer may be the one to the look at it, when it was
there already, and nothing has landed then.
-/

namespace Provisioning

open Await Store Prog

/-- `name` has a stream with both of its subjects. That is all a publication asks of it; what the
stream is configured with besides is left open. -/
def TakesBoth (w : World) (name : String) : Prop :=
  ∃ s, w.streams (streamKey name) = some s ∧ mainSubject name ∈ s.subjects ∧
    prefillSubject name ∈ s.subjects

/-- A request to prefill the queue of `name` has been published. -/
def Queued (w : World) (name : String) : Prop :=
  ∃ s, w.streams (streamKey PREFILL_STREAM) = some s ∧
    ∃ m ∈ s.msgs, ∃ r, m.payload = .prefill r ∧ r.subscriptionName = name

/-- All that a registration is to bring about. -/
structure Complete (w : World) (sub : NewSubscription) : Prop where
  hash : w.credential sub.name ≠ none
  record : w.record sub.name ≠ none
  stream : TakesBoth w sub.name
  consumer : w.durable (streamKey sub.name) (durableKey sub.name) ≠ none
  request : sub.requestPrefill = true → Queued w sub.name

/-- If the attempt wrote the record, it was not cut before the stream, the consumer and the
request, except for what was there when it began. -/
def RegistersAll (sub : NewSubscription) (w : World) (a : Attempt Op Exc World Nat) : Prop :=
  .kvPut .subscriptions sub.name (newSubInfo sub) ∈ a.landed →
    (TakesBoth w sub.name ∨ .addStream (subscriptionStream sub.name) ∈ a.landed ∨
      .updateStream (subscriptionStream sub.name) ∈ a.landed) ∧
    (w.durable (streamKey sub.name) (durableKey sub.name) ≠ none ∨
      .addConsumer (streamKey sub.name) (durableKey sub.name) ∈ a.landed) ∧
    (sub.requestPrefill = true → Queued w sub.name ∨
      .publish PREFILL_STREAM (.prefill (prefillRequest sub)) (streamKey PREFILL_STREAM) ∈
        a.landed)

variable {env : Env} {salt : String} {sub : NewSubscription} {tid : Nat} {op : Op} {w : World}

/-! ## One call -/

/-! Each of the lemmas has two halves. Where the stream has changed, the change is one that a
registration makes and is named by `create_streams`. Where it has not, an answer of success needs
an explanation all the same: the part was there before. -/

/-- A registration's calls leave no subjects but its own on its stream. -/
theorem takesBoth_answer (env : Env) (tid : Nat) (w : World) (hop : CreateCall sub op) :
    TakesBoth (answer env tid op w).2 sub.name ↔ TakesBoth w sub.name ∨
      ((op = .addStream (subscriptionStream sub.name) ∨
        op = .updateStream (subscriptionStream sub.name)) ∧
        ∃ r, (answer env tid op w).1 = .ok r) := by
  rcases create_streams env tid w hop (streamKey sub.name) with hsame | hchange
  · -- Nothing changed; an addition that was answered ok found what it was to add.
    have hkeep : TakesBoth (answer env tid op w).2 sub.name ↔ TakesBoth w sub.name := by
      unfold TakesBoth
      rw [hsame]
    rw [hkeep]
    refine ⟨Or.inl, ?_⟩
    intro h
    rcases h with h | ⟨rfl | rfl, r, hr⟩
    · exact h
    · -- Adding where there is no stream would have changed something.
      cases hs : w.streams (subscriptionStream sub.name).name with
      | none =>
        have hadd : (answer env tid (.addStream (subscriptionStream sub.name)) w).2.streams
            (streamKey sub.name) = some (.new (subscriptionStream sub.name).subjects false) := by
          simp only [answer, hs]
          exact World.streams_setStream_self ..
        rw [hsame] at hadd
        rw [show w.streams (streamKey sub.name) = none from hs] at hadd
        cases hadd
      | some s =>
        simp only [answer, hs] at hr
        split at hr
        · next hconfig =>
          refine ⟨s, hs, ?_⟩
          rw [hconfig.1]
          simp [subscriptionStream]
        · cases hr
    · -- An update that found a stream has left it with the subjects, changed or not.
      cases hs : w.streams (subscriptionStream sub.name).name with
      | none =>
        simp only [answer, hs] at hr
        cases hr
      | some s =>
        have hupdate : (answer env tid (.updateStream (subscriptionStream sub.name)) w).2.streams
            (streamKey sub.name) = some (s.reconfigure (subscriptionStream sub.name).subjects
              false) := by
          simp only [answer, hs]
          exact World.streams_setStream_self ..
        rw [hsame] at hupdate
        refine ⟨_, hupdate, ?_⟩
        simp [subscriptionStream]
  · unfold TakesBoth
    generalize hbefore : w.streams (streamKey sub.name) = before at hchange
    generalize (answer env tid op w).2.streams (streamKey sub.name) = after at hchange
    cases hchange with
    | add =>
      have hnone : w.streams (subscriptionStream sub.name).name = none := hbefore
      exact ⟨fun _ => Or.inr ⟨Or.inl rfl, (), by simp only [answer, hnone]⟩,
        fun _ => ⟨_, rfl, by simp⟩⟩
    | update _ s =>
      have hsome : w.streams (subscriptionStream sub.name).name = some s := hbefore
      exact ⟨fun _ => Or.inr ⟨Or.inr rfl, (), by simp only [answer, hsome]⟩,
        fun _ => ⟨_, rfl, by simp⟩⟩
    | addConsumer => simp
    | publish => simp

/-- The consumer is there after a call if it was before or is added by it. -/
theorem consumer_answer (env : Env) (tid : Nat) (w : World) (hop : CreateCall sub op) :
    (answer env tid op w).2.durable (streamKey sub.name) (durableKey sub.name) ≠ none ↔
      w.durable (streamKey sub.name) (durableKey sub.name) ≠ none ∨
        (op = .addConsumer (streamKey sub.name) (durableKey sub.name) ∧
          ∃ r, (answer env tid op w).1 = .ok r) := by
  unfold World.durable
  rcases create_streams env tid w hop (streamKey sub.name) with hsame | hchange
  · rw [hsame]
    refine ⟨Or.inl, ?_⟩
    intro h
    rcases h with h | ⟨rfl, r, hr⟩
    · exact h
    · -- It was there already, or it would have been added.
      cases hs : w.streams (streamKey sub.name) with
      | none =>
        simp only [answer, hs] at hr
        cases hr
      | some s =>
        cases hd : s.durables (durableKey sub.name) with
        | some d => simp [hd]
        | none =>
          simp only [answer, hs, hd, World.streams_setStream_self, Option.some.injEq] at hsame
          have hfresh : s.durables (durableKey sub.name) = some .fresh := by
            rw [← hsame]
            exact Stream.durables_setDurable_self ..
          rw [hd] at hfresh
          cases hfresh
  · generalize hbefore : w.streams (streamKey sub.name) = before at hchange
    generalize (answer env tid op w).2.streams (streamKey sub.name) = after at hchange
    cases hchange with
    | add => simp [Stream.new]
    | update => simp
    | addConsumer _ s hd =>
      refine ⟨fun _ => Or.inr ⟨rfl, (), by simp only [answer, hbefore, hd]⟩, fun _ => ?_⟩
      simp
    | publish => simp

/-- The request is queued after a call if it was before or is published by it. -/
theorem queued_answer (env : Env) (tid : Nat) (w : World) (hop : CreateCall sub op) :
    Queued (answer env tid op w).2 sub.name ↔ Queued w sub.name ∨
      (op = .publish PREFILL_STREAM (.prefill (prefillRequest sub)) (streamKey PREFILL_STREAM) ∧
        ∃ r, (answer env tid op w).1 = .ok r) := by
  unfold Queued
  rcases create_streams env tid w hop (streamKey PREFILL_STREAM) with hsame | hchange
  · rw [hsame]
    refine ⟨Or.inl, ?_⟩
    intro h
    rcases h with h | ⟨rfl, r, hr⟩
    · exact h
    · -- A served publication is not without effect.
      cases hs : w.streams (streamKey PREFILL_STREAM) with
      | none =>
        simp only [answer, hs] at hr
        cases hr
      | some s =>
        simp only [answer, hs] at hr hsame
        split at hr
        · next hsub =>
          simp only [if_pos hsub, World.streams_setStream_self, Option.some.injEq] at hsame
          have hlength := congrArg (fun s => s.msgs.length) hsame
          simp at hlength
        · cases hr
  · generalize hbefore : w.streams (streamKey PREFILL_STREAM) = before at hchange
    generalize hafter : (answer env tid op w).2.streams (streamKey PREFILL_STREAM) = after
      at hchange
    cases hchange with
    | add => simp
    | update => simp
    | addConsumer => simp
    | publish _ s =>
      have hsub : PREFILL_STREAM ∈ s.subjects := by
        by_contra hsub
        simp only [answer, hbefore, if_neg hsub] at hafter
        have hlength := congrArg (fun s => s.map fun s => s.msgs.length) hafter
        simp at hlength
      refine ⟨fun _ => Or.inr ⟨rfl, s.last + 1, by simp only [answer, hbefore, if_pos hsub]⟩,
        fun _ => ⟨_, rfl, ?_⟩⟩
      exact ⟨_, List.mem_append_right _ (List.mem_singleton_self _), _, rfl, rfl⟩

/-! ## What an accepted registration has heard -/

/-! None of these theorems looks at the server. They are facts about the program: whatever it is
answered, it does not end with 200 or 201 unless one of the answers was of this kind. -/

/-- The answers that show a stream with the subjects of the subscription. -/
def SeesStream (sub : NewSubscription) (op : Op) (r : Except CallError op.Res) : Prop :=
  (op = .addStream (subscriptionStream sub.name) ∨
    op = .updateStream (subscriptionStream sub.name)) ∧ ∃ a, r = .ok a

/-- The answers that show its consumer. -/
def SeesConsumer (sub : NewSubscription) (op : Op) (r : Except CallError op.Res) : Prop :=
  (op = .consumerInfo (streamKey sub.name) (durableKey sub.name) ∨
    op = .addConsumer (streamKey sub.name) (durableKey sub.name)) ∧ ∃ a, r = .ok a

/-- The answer that shows its request. -/
def SeesRequest (sub : NewSubscription) (op : Op) (r : Except CallError op.Res) : Prop :=
  op = .publish PREFILL_STREAM (.prefill (prefillRequest sub)) (streamKey PREFILL_STREAM) ∧
    ∃ a, r = .ok a

/-- The statuses a registration is accepted with. -/
abbrev Accepted (x : Except Exc Nat) : Prop := answered [200, 201] x = true

theorem not_accepted_call (e : CallError) : ¬ Accepted (.error (.call e)) := nofun

/-- The record was put: the second call of the way. -/
theorem registerNew_sees_record (env : Env) (salt : String) (sub : NewSubscription) :
    (registerNew env salt sub).Guarded
      (fun op r => op = .kvPut .subscriptions sub.name (newSubInfo sub) ∧ ∃ a, r = .ok a)
      (fun _ => False) Accepted := by
  refine guarded_request_bind.mpr ⟨id, fun _ _ => ?_, fun _ _ => not_accepted_call _⟩
  refine guarded_request_bind.mpr ⟨id, fun a ha => ?_, fun _ _ => not_accepted_call _⟩
  exact absurd ⟨rfl, a, rfl⟩ ha

/-- The stream was added or updated. A look at it alone does not suffice, because `ensureStream`
updates what it finds. -/
theorem registerNew_sees_stream (env : Env) (salt : String) (sub : NewSubscription) :
    (registerNew env salt sub).Guarded (SeesStream sub) (fun _ => False) Accepted := by
  refine guarded_request_bind.mpr ⟨id, fun _ _ => ?_, fun _ _ => not_accepted_call _⟩
  refine guarded_request_bind.mpr ⟨id, fun _ _ => ?_, fun _ _ => not_accepted_call _⟩
  refine guarded_ensureStream_bind id ?_ ?_ not_accepted_call
  · refine guarded_request_bind.mpr ⟨id, fun a ha => ?_, fun _ _ => not_accepted_call _⟩
    exact absurd ⟨Or.inr rfl, a, rfl⟩ ha
  · refine guarded_request_bind.mpr ⟨id, fun a ha => ?_, fun _ _ => not_accepted_call _⟩
    exact absurd ⟨Or.inl rfl, a, rfl⟩ ha

/-- The consumer was found or added. -/
theorem registerNew_sees_consumer (env : Env) (salt : String) (sub : NewSubscription) :
    (registerNew env salt sub).Guarded (SeesConsumer sub) (fun _ => False) Accepted := by
  have hconsumer : ∀ f : Unit → Coro Nat,
      ((ensureConsumer sub.name).bind f).Guarded (SeesConsumer sub) (fun _ => False) Accepted := by
    intro f
    refine guarded_catching_bind.mpr
      ⟨id, fun a ha => ?_, fun _ => ?_, fun _ _ _ => not_accepted_call _⟩
    · exact absurd ⟨Or.inl rfl, a, rfl⟩ ha
    · refine guarded_request_bind.mpr ⟨id, fun a ha => ?_, fun _ _ => not_accepted_call _⟩
      exact absurd ⟨Or.inr rfl, a, rfl⟩ ha
  refine guarded_request_bind.mpr ⟨id, fun _ _ => ?_, fun _ _ => not_accepted_call _⟩
  refine guarded_request_bind.mpr ⟨id, fun _ _ => ?_, fun _ _ => not_accepted_call _⟩
  refine guarded_ensureStream_bind id ?_ ?_ not_accepted_call
  · exact guarded_request_bind.mpr ⟨id, fun _ _ => hconsumer _, fun _ _ => not_accepted_call _⟩
  · exact guarded_request_bind.mpr ⟨id, fun _ _ => hconsumer _, fun _ _ => not_accepted_call _⟩

/-- The request was published, where one was asked for. -/
theorem registerNew_sees_request (env : Env) (salt : String) {sub : NewSubscription}
    (hp : sub.requestPrefill = true) :
    (registerNew env salt sub).Guarded (SeesRequest sub) (fun _ => False) Accepted := by
  have hrequest : ∀ _ : Unit, ((ensureConsumer sub.name).bind fun _ =>
      (sendRequestToPrefill sub).bind fun _ => .pure 201).Guarded (SeesRequest sub)
      (fun _ => False) Accepted := by
    intro _
    have hsend : ∀ _ : Unit, ((sendRequestToPrefill sub).bind fun _ => .pure 201).Guarded
        (SeesRequest sub) (fun _ => False) Accepted := by
      intro _
      unfold sendRequestToPrefill addMessage
      rw [bind_eq, bind_assoc]
      refine guarded_request_bind.mpr ⟨id, fun a ha => ?_, fun _ _ => not_accepted_call _⟩
      exact absurd ⟨rfl, a, rfl⟩ ha
    refine guarded_catching_bind.mpr
      ⟨id, fun _ _ => hsend (), fun _ => ?_, fun _ _ _ => not_accepted_call _⟩
    exact guarded_request_bind.mpr ⟨id, fun _ _ => hsend (), fun _ _ => not_accepted_call _⟩
  unfold registerNew
  rw [if_pos hp]
  refine guarded_request_bind.mpr ⟨id, fun _ _ => ?_, fun _ _ => not_accepted_call _⟩
  refine guarded_request_bind.mpr ⟨id, fun _ _ => ?_, fun _ _ => not_accepted_call _⟩
  refine guarded_ensureStream_bind id ?_ ?_ not_accepted_call
  · exact guarded_request_bind.mpr ⟨id, fun _ _ => hrequest (), fun _ _ => not_accepted_call _⟩
  · exact guarded_request_bind.mpr ⟨id, fun _ _ => hrequest (), fun _ _ => not_accepted_call _⟩

/-- The hash is written before the record. -/
theorem hash_before_record_put (env : Env) (salt : String) (sub : NewSubscription) :
    (createSubscription env salt sub).Guarded
      (fun op r => op = .kvPut .credentials sub.name (env.hash salt sub.password) ∧ ∃ a, r = .ok a)
      (· = .kvPut .subscriptions sub.name (newSubInfo sub)) fun _ => False := by
  rw [createSubscription_eq]
  refine guarded_getValue_bind.mpr ⟨nofun, fun e _ => ?_, fun _ => ?_, fun _ _ _ => id⟩
  · exact (uses_registerAgain env sub e.value).guarded fun op hop => by subst hop; nofun
  · show (ite _ _ _ : Coro Nat).Guarded _ _ _
    split
    · exact id
    · refine guarded_request_bind.mpr ⟨nofun, fun a ha => ?_, fun _ _ => id⟩
      exact absurd ⟨rfl, a, rfl⟩ ha

/-! ## What one attempt leaves -/

/-! `attempt_fact` for each part, in the order of `Complete`. -/

section Attempt

variable (env salt tid w) (plan : List (Fault Outage)) (sub)

theorem record_after :
    ((createSubscription env salt sub).attempt (serve env) tid plan w).world.record sub.name ≠
        none ↔
      w.record sub.name ≠ none ∨ .kvPut .subscriptions sub.name (newSubInfo sub) ∈
        ((createSubscription env salt sub).attempt (serve env) tid plan w).landed := by
  have h := attempt_fact (S := serve env) tid (fun w => w.record sub.name ≠ none)
    (· = .kvPut .subscriptions sub.name (newSubInfo sub)) (uses_createSubscription env salt sub)
    (fun op w hop => ?_) plan w
  · simpa using h
  · refine (value_some_answer env tid w (fun heq => by subst heq; cases hop)).trans ?_
    refine or_congr_right (and_congr_left fun _ => ⟨?_, fun heq => ⟨_, heq⟩⟩)
    intro h
    obtain ⟨sub', rfl⟩ := h
    cases hop
    rfl

theorem hash_after :
    ((createSubscription env salt sub).attempt (serve env) tid plan w).world.credential sub.name ≠
        none ↔
      w.credential sub.name ≠ none ∨
        ∃ op ∈ ((createSubscription env salt sub).attempt (serve env) tid plan w).landed,
          ∃ hash, op = .kvPut .credentials sub.name hash :=
  attempt_fact (S := serve env) tid (fun w => w.credential sub.name ≠ none)
    (fun op => ∃ hash, op = .kvPut .credentials sub.name hash)
    (uses_createSubscription env salt sub)
    (fun op w hop => value_some_answer env tid w fun heq => by subst heq; cases hop) plan w

theorem takesBoth_after :
    TakesBoth ((createSubscription env salt sub).attempt (serve env) tid plan w).world sub.name ↔
      TakesBoth w sub.name ∨
        .addStream (subscriptionStream sub.name) ∈
          ((createSubscription env salt sub).attempt (serve env) tid plan w).landed ∨
        .updateStream (subscriptionStream sub.name) ∈
          ((createSubscription env salt sub).attempt (serve env) tid plan w).landed := by
  have h := attempt_fact (S := serve env) tid (fun w => TakesBoth w sub.name)
    (fun op => op = .addStream (subscriptionStream sub.name) ∨
      op = .updateStream (subscriptionStream sub.name)) (uses_createSubscription env salt sub)
    (fun op w hop => takesBoth_answer env tid w hop) plan w
  rw [h]
  simp only [and_or_left, exists_or, exists_eq_right]

theorem consumer_after :
    ((createSubscription env salt sub).attempt (serve env) tid plan w).world.durable
        (streamKey sub.name) (durableKey sub.name) ≠ none ↔
      w.durable (streamKey sub.name) (durableKey sub.name) ≠ none ∨
        .addConsumer (streamKey sub.name) (durableKey sub.name) ∈
          ((createSubscription env salt sub).attempt (serve env) tid plan w).landed := by
  have h := attempt_fact (S := serve env) tid
    (fun w => w.durable (streamKey sub.name) (durableKey sub.name) ≠ none)
    (· = .addConsumer (streamKey sub.name) (durableKey sub.name))
    (uses_createSubscription env salt sub)
    (fun op w hop => consumer_answer env tid w hop) plan w
  simpa using h

theorem queued_after :
    Queued ((createSubscription env salt sub).attempt (serve env) tid plan w).world sub.name ↔
      Queued w sub.name ∨
        .publish PREFILL_STREAM (.prefill (prefillRequest sub)) (streamKey PREFILL_STREAM) ∈
          ((createSubscription env salt sub).attempt (serve env) tid plan w).landed := by
  have h := attempt_fact (S := serve env) tid (fun w => Queued w sub.name)
    (· = .publish PREFILL_STREAM (.prefill (prefillRequest sub)) (streamKey PREFILL_STREAM))
    (uses_createSubscription env salt sub) (fun op w hop => queued_answer env tid w hop) plan w
  simpa using h

/-- Where the attempt has written the record, what is missing is what it did not get to. -/
theorem complete_iff_registersAll (hnone : w.record sub.name = none)
    (hrecord : ((createSubscription env salt sub).attempt (serve env) tid plan w).world.record
      sub.name ≠ none) :
    Complete ((createSubscription env salt sub).attempt (serve env) tid plan w).world sub ↔
      RegistersAll sub w ((createSubscription env salt sub).attempt (serve env) tid plan w) := by
  have hput : .kvPut .subscriptions sub.name (newSubInfo sub) ∈
      ((createSubscription env salt sub).attempt (serve env) tid plan w).landed := by
    rcases (record_after env salt sub tid w plan).mp hrecord with h | h
    · exact absurd hnone h
    · exact h
  have hhash := (hash_after env salt sub tid w plan).mpr (Or.inr (by
    -- the record has landed, so the put of the hash before it was answered
    obtain ⟨op, hmem, rfl⟩ := attempt_guard_landed tid
      (· = .kvPut .credentials sub.name (env.hash salt sub.password))
      (hash_before_record_put env salt sub) plan w hput (by rfl)
    exact ⟨_, hmem, _, rfl⟩))
  constructor
  · intro h _
    exact ⟨(takesBoth_after ..).mp h.stream, (consumer_after ..).mp h.consumer,
      fun hp => (queued_after ..).mp (h.request hp)⟩
  · intro h
    obtain ⟨hstream, hconsumer, hrequest⟩ := h hput
    exact ⟨hhash, hrecord, (takesBoth_after ..).mpr hstream, (consumer_after ..).mpr hconsumer,
      fun hp => (queued_after ..).mpr (hrequest hp)⟩

variable {env salt tid w plan sub}

/-- An accepted first registration has written its record. -/
theorem registerNew_accepted_record {x : Except Exc Nat}
    (hx : ((registerNew env salt sub).attempt (serve env) tid plan w).outcome = some x)
    (hacc : Accepted x) :
    ((registerNew env salt sub).attempt (serve env) tid plan w).world.record sub.name ≠ none := by
  have hdel : ∀ {op}, CreateCall sub op → op ≠ .kvDelete .subscriptions sub.name := by
    intro op hop heq
    subst heq
    cases hop
  refine attempt_guarded (G := fun w => w.record sub.name ≠ none) (uses_registerNew env salt sub)
    (registerNew_sees_record env salt sub) ?_ ?_ ?_ plan w hx hacc
  · exact fun op w hop h => (value_some_answer env tid w (hdel hop)).mpr (Or.inl h)
  · intro op w hop h
    obtain ⟨rfl, hr⟩ := h
    exact (value_some_answer env tid w (hdel hop)).mpr (Or.inr ⟨⟨_, rfl⟩, hr⟩)
  · intro op e h
    obtain ⟨-, a, ha⟩ := h
    cases ha

/-- …and found or made all the rest. -/
theorem registerNew_accepted {x : Except Exc Nat}
    (hx : ((registerNew env salt sub).attempt (serve env) tid plan w).outcome = some x)
    (hacc : Accepted x) :
    TakesBoth ((registerNew env salt sub).attempt (serve env) tid plan w).world sub.name ∧
      ((registerNew env salt sub).attempt (serve env) tid plan w).world.durable
        (streamKey sub.name) (durableKey sub.name) ≠ none ∧
      (sub.requestPrefill = true →
        Queued ((registerNew env salt sub).attempt (serve env) tid plan w).world sub.name) := by
  refine ⟨?_, ?_, fun hp => ?_⟩
  · refine attempt_guarded (G := fun w => TakesBoth w sub.name) (uses_registerNew env salt sub)
      (registerNew_sees_stream env salt sub) ?_ ?_ ?_ plan w hx hacc
    · exact fun op w hop h => (takesBoth_answer env tid w hop).mpr (Or.inl h)
    · exact fun op w hop h => (takesBoth_answer env tid w hop).mpr (Or.inr h)
    · intro op e h
      obtain ⟨-, a, ha⟩ := h
      cases ha
  · refine attempt_guarded (G := fun w => w.durable (streamKey sub.name) (durableKey sub.name) ≠
        none) (uses_registerNew env salt sub) (registerNew_sees_consumer env salt sub) ?_ ?_ ?_
      plan w hx hacc
    · exact fun op w hop h => (consumer_answer env tid w hop).mpr (Or.inl h)
    · intro op w hop h
      rcases h with ⟨rfl | rfl, r, hr⟩
      · -- The consumer was looked up and found.
        refine (consumer_answer env tid w hop).mpr (Or.inl fun hnone => ?_)
        simp only [serve_answer, answer, hnone] at hr
        cases hr
      · exact (consumer_answer env tid w hop).mpr (Or.inr ⟨rfl, r, hr⟩)
    · intro op e h
      obtain ⟨-, a, ha⟩ := h
      cases ha
  · refine attempt_guarded (G := fun w => Queued w sub.name) (uses_registerNew env salt sub)
      (registerNew_sees_request env salt hp) ?_ ?_ ?_ plan w hx hacc
    · exact fun op w hop h => (queued_answer env tid w hop).mpr (Or.inl h)
    · exact fun op w hop h => (queued_answer env tid w hop).mpr (Or.inr h)
    · intro op e h
      obtain ⟨-, a, ha⟩ := h
      cases ha

/-- An accepted attempt at a name that had no record has registered all of it. -/
theorem createSubscription_accepted (hnone : w.record sub.name = none)
    (h : ((createSubscription env salt sub).attempt (serve env) tid plan w).outcome.any
      (answered [200, 201]) = true) :
    Complete ((createSubscription env salt sub).attempt (serve env) tid plan w).world sub := by
  have hvalue : (w.bucket .subscriptions).value? sub.name = none := hnone
  -- What was read is that there is no record, so the rest is a first registration.
  have hrest : ((createSubscription env salt sub).attempt (serve env) tid plan w).outcome.any
        (answered [200, 201]) = true →
      ((createSubscription env salt sub).attempt (serve env) tid plan w).world.record sub.name ≠
        none ∧
      TakesBoth ((createSubscription env salt sub).attempt (serve env) tid plan w).world
        sub.name ∧
      ((createSubscription env salt sub).attempt (serve env) tid plan w).world.durable
        (streamKey sub.name) (durableKey sub.name) ≠ none ∧
      (sub.requestPrefill = true →
        Queued ((createSubscription env salt sub).attempt (serve env) tid plan w).world
          sub.name) := by
    rw [createSubscription_eq]
    refine attempt_getValue (P := fun a => a.outcome.any (answered [200, 201]) = true →
      a.world.record sub.name ≠ none ∧ TakesBoth a.world sub.name ∧
      a.world.durable (streamKey sub.name) (durableKey sub.name) ≠ none ∧
      (sub.requestPrefill = true → Queued a.world sub.name)) plan nofun
      (fun fs h => ?_) (fun e => nofun) fun e => ?_
    · rw [Attempt.after_outcome] at h
      rw [Attempt.after_world]
      simp only [hvalue] at h ⊢
      by_cases hrefused : env.refuses sub.password = true
      · rw [if_pos hrefused] at h
        cases h
      · rw [if_neg hrefused] at h ⊢
        obtain ⟨x, hx, hacc⟩ := (Option.any_eq_true _ _).mp h
        exact ⟨registerNew_accepted_record hx hacc, registerNew_accepted hx hacc⟩
    · rw [Attempt.after_outcome]
      nofun
  obtain ⟨hrecord, hstream, hconsumer, hrequest⟩ := hrest h
  exact (complete_iff_registersAll env salt sub tid w plan hnone hrecord).mpr fun _ =>
    ⟨(takesBoth_after ..).mp hstream, (consumer_after ..).mp hconsumer,
      fun hp => (queued_after ..).mp (hrequest hp)⟩

/-- An attempt at a name that has a record changes nothing. -/
theorem attempt_of_record (hrecord : w.record sub.name ≠ none) :
    ((createSubscription env salt sub).attempt (serve env) tid plan w).world = w ∧
      .kvPut .subscriptions sub.name (newSubInfo sub) ∉
        ((createSubscription env salt sub).attempt (serve env) tid plan w).landed := by
  obtain ⟨existingSub, hsub⟩ := Option.ne_none_iff_exists'.mp hrecord
  have hvalue : (w.bucket .subscriptions).value? sub.name = some existingSub := hsub
  have hnot : ∀ (a : Attempt Op Exc World Nat) (r : Except CallError (Store.Entry Subscription)),
      .kvPut .subscriptions sub.name (newSubInfo sub) ∉ a.landed →
      .kvPut .subscriptions sub.name (newSubInfo sub) ∉
        (a.after (.kvGet .subscriptions sub.name) r).landed := by
    intro a r ha
    cases r with
    | ok e => simpa using ha
    | error e => exact ha
  rw [createSubscription_eq]
  refine attempt_getValue (P := fun a => a.world = w ∧
    .kvPut .subscriptions sub.name (newSubInfo sub) ∉ a.landed) plan ⟨rfl, nofun⟩
    (fun fs => ?_) (fun e => ⟨rfl, nofun⟩) fun e => ⟨Attempt.after_world .., hnot _ _ nofun⟩
  rw [Attempt.after_world, hvalue]
  refine ⟨?_, hnot _ _ fun hmem => ?_⟩
  · refine attempt_invariant (I := fun v => v = w) (uses_registerAgain env sub existingSub) ?_ fs
      rfl
    intro op v heq heq'
    subst heq
    subst heq'
    rw [serve_answer, kvGet_world]
  · cases attempt_uses tid (uses_registerAgain env sub existingSub) fs w _ hmem

end Attempt

/-! ## Retrying -/

/-! The induction is on the plans, one for each attempt, and splits on what the attempt has left.
Accepted, it is the last one and has everything. Rejected without a record, the next one starts
from a state with the same hypothesis, which is the induction. Rejected with a record, no later
attempt does anything any more, and what is missing now is missing at the end. -/

/-- **When retrying a registration converges.** From any state in which the name has no record,
with a fresh salt for each attempt and in whatever way the attempts before the accepted one were
cut: everything is there when an attempt is accepted if and only if no attempt that wrote the
record was cut before the stream, the consumer and the request were there. -/
theorem registration_complete_iff (env : Env) (salts : Nat → String) (sub : NewSubscription)
    (w : World) (plans : List (List (Fault Outage))) (a : Attempt Op Exc World Nat)
    (hnone : w.record sub.name = none)
    (hretry : retry (serve env) (fun i => createSubscription env (salts i) sub)
      (answered [200, 201]) plans w = some a) :
    Complete a.world sub ↔
      EachRejected (serve env) (fun i => createSubscription env (salts i) sub)
        (answered [200, 201]) (RegistersAll sub) plans w := by
  induction plans generalizing w with
  | nil => cases hretry
  | cons plan plans ih =>
    let b := (createSubscription env (salts plans.length) sub).attempt (serve env) plans.length
      plan w
    rcases retry_cons hretry with ⟨hb, hacc⟩ | ⟨hrej, hrest⟩
    · -- The first attempt is the accepted one.
      have hab : a = b := hb.symm
      have hacc : b.outcome.any (answered [200, 201]) = true := hab ▸ hacc
      rw [hab]
      refine ⟨fun _ hrej => ?_, fun _ => createSubscription_accepted hnone hacc⟩
      rw [hacc] at hrej
      cases hrej
    · by_cases hrecord : b.world.record sub.name = none
      · -- The record was not written: start over.
        have hnot : .kvPut .subscriptions sub.name (newSubInfo sub) ∉ b.landed :=
          fun hmem => (record_after ..).mpr (Or.inr hmem) hrecord
        rw [ih b.world hrecord hrest]
        exact ⟨fun h _ => ⟨fun hmem => absurd hmem hnot, h⟩, fun h => (h hrej).2⟩
      · -- It was, and no later attempt looks at anything else.
        have hsame : a.world = b.world :=
          retry_accepted (I := fun v => v = b.world) (Q := fun a => a.world = b.world)
            (fun _ _ _ hv _ => by subst hv; exact (attempt_of_record hrecord).1)
            (fun _ _ _ hv _ => by subst hv; exact (attempt_of_record hrecord).1) rfl hrest
        have hlater : EachRejected (serve env) (fun i => createSubscription env (salts i) sub)
            (answered [200, 201]) (RegistersAll sub) plans b.world := by
          refine eachRejected_of_invariant (I := fun v => v = b.world) ?_ ?_ rfl
          · intro i plan v heq _
            subst heq
            exact (attempt_of_record hrecord).1
          · intro i plan v heq hmem
            subst heq
            exact absurd hmem (attempt_of_record hrecord).2
        rw [hsame, complete_iff_registersAll _ _ _ _ _ _ hnone hrecord]
        exact ⟨fun h _ => ⟨h, hlater⟩, fun h => (h hrej).1⟩

/-- Cut after its third call and repeated, the registration is answered 200; the stream is
missing, and so are the consumer and the request. -/
theorem accepted_without_stream : ∃ a,
    retry (serve .sample) (fun _ => createSubscription .sample "s" .sample) (answered [200, 201])
      [[.ok, .ok, .ok], [.ok, .ok]] .prepared = some a ∧
    a.outcome.map statusOf = some 200 ∧ a.world.streams (streamKey "a") = none :=
  ⟨_, rfl, by decide, rfl⟩

/-- So not every accepted registration is complete. -/
theorem not_registration_complete : ¬ ∀ (env : Env) (salts : Nat → String)
    (sub : NewSubscription) (w : World) (plans : List (List (Fault Outage)))
    (a : Attempt Op Exc World Nat), w.record sub.name = none →
    retry (serve env) (fun i => createSubscription env (salts i) sub) (answered [200, 201])
      plans w = some a → Complete a.world sub := by
  intro h
  obtain ⟨a, hretry, -, hstream⟩ := accepted_without_stream
  obtain ⟨s, hs, -⟩ := (h .sample (fun _ => "s") .sample .prepared _ a rfl hretry).stream
  rw [show NewSubscription.sample.name = "a" from rfl, hstream] at hs
  cases hs

/-- Cut before the record is written, the repeated registration is complete. -/
theorem registration_complete_iff_sample : ∃ a,
    retry (serve .sample) (fun _ => createSubscription .sample "s" .sample) (answered [200, 201])
      [[.ok, .ok], [.ok, .ok, .ok, .ok, .ok, .ok, .ok, .ok]] .prepared = some a ∧
    (Complete a.world .sample ↔
      EachRejected (serve .sample) (fun _ => createSubscription .sample "s" .sample)
        (answered [200, 201]) (RegistersAll .sample)
        [[.ok, .ok], [.ok, .ok, .ok, .ok, .ok, .ok, .ok, .ok]] .prepared) :=
  ⟨_, rfl, registration_complete_iff .sample (fun _ => "s") .sample .prepared _ _ rfl rfl⟩

end Provisioning
