import Provisioning.Properties.PrefillRounds

/-!
# A request to the prefill service and the registration that sent it

A request names the subscription and the topics. Deleting the subscription leaves the request in
the queue of the prefill service, and registering the name again adds a second one. The service
cannot tell them apart: it takes the older one first, fills the queue of the new subscription with
the old topics and sets its status to `done`.

`acts_on_own_request` says that this takes a request of an earlier registration that is still
around when the name is registered again. Where there is none, neither queued nor in work nor
still to be sent, what the service does for a name is what the present registration asked for;
unless a request is served meanwhile for another name that is taken for this one.

## Four places

A request of an earlier registration may be still to be sent, in the queue, in the hands of a round,
or its traces in the record. `OwnRequests` has one field for each place, and says in each that what
is there belongs to the present registration. A step moves a request from one place to the next, so
each field is kept by the one before it.

The step that registers the name changes what the present registration is, and then all four places
have to be empty; this is what `RegistersAfresh` asks, of the state before the step.

## What the programs give

That a round acts only on what it was handed, and calls it done only when all is published, does not
depend on the run. It comes from the guards of the programs and is kept apart (`Disciplined`); these
guards are used up when a round hears an answer, so the invariant has for each the alternative that
it was heard.
-/

namespace Provisioning

open Await Store Prog

/-! ## Who has registered a name -/

/-- The call writes the record of a new registration of `name`: who registers what. -/
def registrationOf (jobs : Nat → Job) (name : String) (tid : Nat) (op : Op)
    (fault : Fault Outage) : Option (Nat × NewSubscription) :=
  match jobs tid, op with
  | .create _ sub, .kvPut .subscriptions key _ =>
    if key = name ∧ fault.Lands then some (tid, sub) else none
  | _, _ => none

/-- The last registration of `name` that has written its record. -/
def present (jobs : Nat → Job) (name : String) (c : System) : Option (Nat × NewSubscription) :=
  c.hist.findSome? fun ev => registrationOf jobs name ev.tid ev.op ev.fault

/-- The requests for `name` in the queue of the prefill service. -/
def queuedRequests (w : World) (name : String) : List (Stored Payload) :=
  ((w.streams (streamKey PREFILL_STREAM)).elim [] (·.msgs)).filter fun m =>
    match m.payload with
    | .prefill r => r.subscriptionName == name
    | _ => false

/-- A new registration of `name` finds no request of an earlier one: none is queued, none is being
worked on, and none is still to be sent. -/
def RegistersAfresh (jobs : Nat → Job) (name : String) (c : System) (l : Nat × Fault Outage) :
    Prop :=
  ∀ op ∈ (c.prog l.1).next?, (registrationOf jobs name l.1 op l.2).isSome = true →
    (queuedRequests c.world name).isEmpty = true ∧
    (∀ ev ∈ c.hist, HandsAny name ev.op ev.heard → (c.prog ev.tid).Finished) ∧
    ∀ o ∈ present jobs name c, o.2.requestPrefill = true → o.1 = l.1 ∨ (c.prog o.1).Finished

instance (jobs : Nat → Job) (name : String) (c : System) (l : Nat × Fault Outage) :
    Decidable (RegistersAfresh jobs name c l) :=
  inferInstanceAs (Decidable (∀ op ∈ (c.prog l.1).next?, _ → _))

/-- The step hands out no request for another name whose reports are taken for ones about
`name`. -/
def HandsNoAlias (env : Env) (name : String) (c : System) (l : Nat × Fault Outage) : Prop :=
  ∀ op ∈ (c.prog l.1).next?, ¬ HandsAlias name op ((serve env).heard l.1 op c.world l.2)

instance (env : Env) (name : String) (c : System) (l : Nat × Fault Outage) :
    Decidable (HandsNoAlias env name c l) :=
  inferInstanceAs (Decidable (∀ op ∈ (c.prog l.1).next?, _))

/-! ## What the service does for a registration -/

/-- Whoever touches the subscription has been handed the request of the present registration. -/
def ActsOnOwnRequest (jobs : Nat → Job) (name : String) (c : System) (l : Nat × Fault Outage) :
    Prop :=
  ∀ op, (c.prog l.1).next? = some op → Touches jobs name l.1 op →
    ∀ o sub, present jobs name c = some (o, sub) → c.Heard l.1 (Hands name o (prefillRequest sub))

/-- What the record says has come of the request of the present registration: its status has
changed only by somebody who was handed that request, and it is `done` only where all was
published that the request asks for. -/
def StatusEarned (env : Env) (jobs : Nat → Job) (name : String) (c : System) : Prop :=
  ∀ o sub, present jobs name c = some (o, sub) → ∀ record, c.world.record name = some record →
    record.prefillQueueStatus ≠ (newSubInfo sub).prefillQueueStatus →
      ∃ j, c.Heard j (Hands name o (prefillRequest sub)) ∧
        (record.prefillQueueStatus = .done →
          ∀ m, Asks env (prefillRequest sub) m → c.Heard j (Published name m))

variable {env : Env} {jobs : Nat → Job} {name : String}

/-! ## What a registration leaves behind -/

section Registrations

variable {w : World} {i tid o : Nat} {sub : NewSubscription} {op : Op} {fault : Fault Outage}
  {c d : System}

theorem registrationOf_some (h : registrationOf jobs name tid op fault = some (i, sub)) :
    i = tid ∧ fault.Lands ∧ ∃ salt record, jobs tid = .create salt sub ∧
      op = .kvPut .subscriptions name record := by
  unfold registrationOf at h
  split at h
  · next _ _ salt sub' key record hjob =>
    split at h
    · next hkey =>
      obtain ⟨rfl, rfl⟩ := Prod.ext_iff.mp (Option.some.inj h)
      obtain ⟨rfl, hlands⟩ := hkey
      exact ⟨rfl, hlands, salt, record, hjob, rfl⟩
    · cases h
  · cases h

theorem registrationOf_create {salt : String} {record : Subscription}
    (hjob : jobs tid = .create salt sub) (hlands : fault.Lands) :
    registrationOf jobs name tid (.kvPut .subscriptions name record) fault = some (tid, sub) := by
  unfold registrationOf
  rw [hjob]
  exact if_pos ⟨rfl, hlands⟩

theorem present_next {k : Except CallError op.Res → Coro Reply} :
    present jobs name (c.next (serve env) i fault op k) =
      (registrationOf jobs name i op fault).or (present jobs name c) := by
  unfold present
  rw [Config.next_hist, List.findSome?_cons]
  cases registrationOf jobs name i op fault <;> rfl

theorem not_requestQueued (h : (queuedRequests w name).isEmpty = true) (m : Stored Payload) :
    ¬ RequestQueued w name m := by
  intro ⟨s, hs, hm, r, hpayload, hname⟩
  have hmem : m ∈ queuedRequests w name := by
    unfold queuedRequests
    rw [hs]
    refine List.mem_filter.mpr ⟨hm, ?_⟩
    rw [hpayload]
    exact beq_iff_eq.mpr hname
  rw [List.isEmpty_iff.mp h] at hmem
  cases hmem

/-- A request that is handed out was in the queue. -/
theorem requestQueued_handed {r : PrefillMessage}
    (h : handed op ((serve env).heard tid op w fault) = some (o, r)) :
    ∃ m, RequestQueued w r.subscriptionName m ∧ m.origin = o ∧ m.payload = .prefill r := by
  unfold handed at h
  split at h
  · next stream durable msg hheard =>
    have hans : (answer env tid (.fetch stream durable) w).1 = .ok msg :=
      (Server.heard_eq_ok hheard).2
    split at h
    · next hstream =>
      subst hstream
      split at h
      · next r' hpayload =>
        obtain ⟨rfl, rfl⟩ := Prod.ext_iff.mp (Option.some.inj h)
        obtain ⟨m, hqueued, horigin, hm⟩ := requestQueued_fetch hans hpayload
        exact ⟨m, hqueued, horigin, hm.trans hpayload⟩
      · cases h
    · cases h
  · cases h

/-- Only a registration sends a request, and it sends its own. -/
theorem create_of_sends {subject stream : String} {r : PrefillMessage}
    (h : CallOf (jobs i) (.publish subject (.prefill r) stream)) :
    ∃ salt sub, jobs i = .create salt sub ∧ sub.requestPrefill = true ∧
      r = prefillRequest sub := by
  cases hjob : jobs i with
  | create salt sub =>
    rw [hjob] at h
    cases h with
    | publish hprefill => exact ⟨salt, sub, rfl, hprefill, rfl⟩
  | prefill =>
    rw [hjob] at h
    cases h with
    | handle other h =>
      cases h with
      | status status htaken h => cases h
  | _ =>
    rw [hjob] at h
    exact absurd ⟨subject, r, stream, rfl⟩ h.request

/-- Only the prefill service touches what it is there to fill. -/
theorem prefill_of_touches (h : CallOf (jobs i) op) (htouch : Touches jobs name i op) :
    jobs i = .prefill := by
  cases hjob : jobs i with
  | prefill => rfl
  | create salt sub =>
    rw [hjob] at h
    rcases htouch with ⟨-, hne⟩ | ⟨payload, stream, rfl⟩
    · exact absurd hjob (hne salt sub)
    · generalize hsubject : prefillSubject name = subject at h
      cases h
      exact absurd hsubject.symm (ne_prefillSubject (by decide))
  | _ =>
    rw [hjob] at h
    rcases htouch with ⟨hput, -⟩ | ⟨payload, stream, hpub⟩
    · exact absurd hput (h.record name)
    · exact absurd ⟨name, payload, stream, hpub⟩ h.prefill

end Registrations

/-! ## One step -/

section Step

variable {c d : System} {l : Nat × Fault Outage} {o : Nat} {sub : NewSubscription}

/-- What holds of the jobs in any run: whom the service has heard of before it acts. -/
structure Disciplined (env : Env) (jobs : Nat → Job) (name : String) (c : System) : Prop where
  uses : ∀ i, (c.prog i).Uses (CallOf (jobs i))
  informed : ∀ i, ¬ c.Heard i (Misinforms env)
  unaliased : ∀ i, ¬ c.Heard i (HandsAlias name)
  touches : ∀ i, jobs i = .prefill →
    (c.prog i).Guarded (fun op a => HandsAny name op a ∨ HandsAlias name op a)
      (Touches jobs name i) (fun _ => False) ∨
        c.Heard i fun op a => HandsAny name op a ∨ HandsAlias name op a
  done : ∀ i, jobs i = .prefill → ∀ r m, r.subscriptionName = name → Asks env r m →
    (c.prog i).Guarded (Excuses env name r m) (SetsDone name) (fun _ => False) ∨
      c.Heard i (Excuses env name r m)

theorem Disciplined.step (h : Disciplined env jobs name c) (halias : HandsNoAlias env name c l)
    (hs : c.step (serve env) l = some d) : Disciplined env jobs name d := by
  refine ⟨Config.step_uses h.uses hs, fun i hheard => ?_, fun i hheard => ?_,
    fun i hi => Config.step_guarded (h.touches i hi) hs,
    fun i hi r m hname hasks => Config.step_guarded (h.done i hi r m hname hasks) hs⟩
  · obtain ⟨op, k, hp, rfl⟩ := Config.step_cases hs
    rcases Config.heard_next.mp hheard with ⟨-, hnow⟩ | hbefore
    · exact not_misinforms _ _ _ _ hnow
    · exact h.informed i hbefore
  · obtain ⟨op, k, hp, rfl⟩ := Config.step_cases hs
    rcases Config.heard_next.mp hheard with ⟨-, hnow⟩ | hbefore
    · exact halias op (next?_of_await hp) hnow
    · exact h.unaliased i hbefore

theorem disciplined_start {w : World} (hjobs : ∀ i, (jobs i).LeavesStatus) :
    Disciplined env jobs name (System.start env w jobs) := by
  refine ⟨fun i => uses_job (hjobs i), fun i => Config.not_heard_init _ _,
    fun i => Config.not_heard_init _ _, fun i hi => Or.inl ?_,
    fun i hi r m hname hasks => Or.inl ?_⟩
  · rw [System.start_prog, hi]
    exact guarded_touches i
  · rw [System.start_prog, hi]
    exact guarded_done hname hasks

/-- Every request that is around is the one of the present registration. -/
structure OwnRequests (env : Env) (jobs : Nat → Job) (name : String) (c : System) : Prop where
  /-- A registration that has its request still to send is the present one. -/
  sends : ∀ i salt sub, jobs i = .create salt sub → sub.name = name → sub.requestPrefill = true →
    (c.prog i).Guarded (ConfirmsRecord name) SendsRequest (fun _ => False) ∨
      (c.prog i).Finished ∨ present jobs name c = some (i, sub)
  queued : ∀ o sub, present jobs name c = some (o, sub) → ∀ m, RequestQueued c.world name m →
    m.origin = o ∧ m.payload = .prefill (prefillRequest sub)
  held : ∀ o sub, present jobs name c = some (o, sub) → ∀ i origin r,
    c.Heard i (Hands name origin r) →
      (c.prog i).Finished ∨ (origin = o ∧ r = prefillRequest sub)
  earned : StatusEarned env jobs name c

theorem not_finished {p : Coro Reply} {op : Op} (h : p.next? = some op) : ¬ p.Finished := by
  intro hfin
  rw [hfin] at h
  cases h

/-- **Whoever touches what the service fills** is a round of the service that was handed the
request of the present registration. -/
theorem OwnRequests.handed_of_touches (h : OwnRequests env jobs name c)
    (hd : Disciplined env jobs name c) {i : Nat} {op : Op} (hop : (c.prog i).next? = some op)
    (htouch : Touches jobs name i op) (hpresent : present jobs name c = some (o, sub)) :
    jobs i = .prefill ∧ c.Heard i (Hands name o (prefillRequest sub)) := by
  have hjob := prefill_of_touches ((hd.uses i).of_next? hop) htouch
  refine ⟨hjob, ?_⟩
  rcases hd.touches i hjob with hg | ⟨ev, hev, htid, hany | halias⟩
  · exact absurd htouch (hg.of_next? hop)
  · obtain ⟨origin, r, hhands⟩ := handsAny_iff.mp hany
    have hheard : c.Heard i (Hands name origin r) := ⟨ev, hev, htid, hhands⟩
    rcases h.held o sub hpresent i origin r hheard with hfin | ⟨rfl, rfl⟩
    · exact absurd hfin (not_finished hop)
    · exact hheard
  · exact absurd ⟨ev, hev, htid, halias⟩ (hd.unaliased i)

/-- **Whoever sets the status to `done`** has published everything that was asked for. -/
theorem OwnRequests.published_of_done (h : OwnRequests env jobs name c)
    (hd : Disciplined env jobs name c) {i : Nat} {op : Op} (hop : (c.prog i).next? = some op)
    (hdone : SetsDone name op) (hjob : jobs i = .prefill)
    (hheard : c.Heard i (Hands name o (prefillRequest sub)))
    (hpresent : present jobs name c = some (o, sub)) {m : Message}
    (hasks : Asks env (prefillRequest sub) m) : c.Heard i (Published name m) := by
  have hname : (prefillRequest sub).subscriptionName = name := by
    obtain ⟨ev, -, -, hhands⟩ := hheard
    exact hhands.2
  rcases hd.done i hjob _ m hname hasks with hg | ⟨ev, hev, htid, hexcuse⟩
  · exact absurd hdone (hg.of_next? hop)
  · rcases hexcuse with ⟨origin, other, hne, hhands⟩ | halias | hwrong | hpublished
    · rcases h.held o sub hpresent i origin other ⟨ev, hev, htid, hhands⟩ with hfin | ⟨-, hsame⟩
      · exact absurd hfin (not_finished hop)
      · exact absurd hsame hne
    · exact absurd ⟨ev, hev, htid, halias⟩ (hd.unaliased i)
    · exact absurd ⟨ev, hev, htid, hwrong⟩ (hd.informed i)
    · exact ⟨ev, hev, htid, hpublished⟩

variable {op : Op} {k : Except CallError op.Res → Coro Reply}

/-- **A step that registers the name** finds nothing of an earlier registration. -/
theorem OwnRequests.register (h : OwnRequests env jobs name c) (hd : Disciplined env jobs name c)
    (hp : c.prog l.1 = .await op k) (hmeets : RegistersAfresh jobs name c l)
    (hreg : registrationOf jobs name l.1 op l.2 = some (o, sub)) :
    OwnRequests env jobs name (c.next (serve env) l.1 l.2 op k) := by
  have hnext : (c.prog l.1).next? = some op := next?_of_await hp
  have hcall := (hd.uses l.1).of_next? hnext
  obtain ⟨hqueue, hfinished, hlast⟩ := hmeets op hnext (by rw [hreg]; rfl)
  have hpresent : present jobs name (c.next (serve env) l.1 l.2 op k) = some (o, sub) := by
    rw [present_next, hreg]
    rfl
  have honly : ∀ {o' sub'}, present jobs name (c.next (serve env) l.1 l.2 op k) =
      some (o', sub') → o' = o ∧ sub' = sub := by
    intro o' sub' h'
    obtain ⟨ho, hsub⟩ := Prod.ext_iff.mp (Option.some.inj (hpresent.symm.trans h'))
    exact ⟨ho.symm, hsub.symm⟩
  obtain ⟨rfl, hlands, salt, record, hjob, rfl⟩ := registrationOf_some hreg
  have hrecord : record = newSubInfo sub := by
    rw [hjob] at hcall
    cases hcall
    rfl
  refine ⟨fun i salt' sub' hi hname hprefill => ?_, fun o' sub' h' m hm => ?_,
    fun o' sub' h' i origin r hheard => ?_, fun o' sub' h' record' hrecord' hne => ?_⟩
  · -- The registration itself is the present one now, and those before it were finished.
    by_cases heq : i = l.1
    · subst heq
      rw [hjob] at hi
      injection hi with _ hsub
      rw [← hsub]
      exact Or.inr (Or.inr hpresent)
    · rw [Config.next_prog_of_ne heq]
      rcases h.sends i salt' sub' hi hname hprefill with hg | hfin | hbefore
      · exact Or.inl hg
      · exact Or.inr (Or.inl hfin)
      · refine Or.inr (Or.inl ?_)
        exact (hlast _ hbefore hprefill).resolve_left heq
  · -- The queue held no request of the name, and a registration's first call queues none.
    rw [Config.next_world, Server.left_of_lands hlands, serve_answer] at hm
    rcases requestQueued_answer hm with hold | ⟨subject, r, hpub, -⟩
    · exact absurd hold (not_requestQueued hqueue m)
    · cases hpub
  · rcases Config.heard_next.mp hheard with ⟨-, hnow⟩ | ⟨ev, hev, htid, hbefore⟩
    · cases hnow.1
    · refine Or.inl ?_
      have hfin := hfinished ev hev (handsAny_iff.mpr ⟨origin, r, hbefore⟩)
      rw [htid] at hfin
      have hne : i ≠ l.1 := fun heq => not_finished hnext (heq ▸ hfin)
      rw [Config.next_prog_of_ne hne]
      exact hfin
  · obtain ⟨-, rfl⟩ := honly h'
    have hstored : (c.next (serve env) l.1 l.2 (.kvPut .subscriptions name record) k).world.record
        name = some record := by
      rw [Config.next_world, Server.left_of_lands hlands]
      exact Bucket.value?_put_self ..
    rw [hstored] at hrecord'
    rw [← Option.some.inj hrecord', hrecord] at hne
    exact absurd rfl hne

theorem present_keep (hreg : registrationOf jobs name l.1 op l.2 = none) :
    present jobs name (c.next (serve env) l.1 l.2 op k) = present jobs name c := by
  rw [present_next, hreg]
  rfl

/-- A registration goes on. -/
theorem OwnRequests.sends_keep (h : OwnRequests env jobs name c) (hp : c.prog l.1 = .await op k)
    (hreg : registrationOf jobs name l.1 op l.2 = none) {i : Nat} {salt : String}
    (hi : jobs i = .create salt sub) (hname : sub.name = name)
    (hprefill : sub.requestPrefill = true) :
    ((c.next (serve env) l.1 l.2 op k).prog i).Guarded (ConfirmsRecord name) SendsRequest
        (fun _ => False) ∨
      ((c.next (serve env) l.1 l.2 op k).prog i).Finished ∨
      present jobs name c = some (i, sub) := by
  have hnext : (c.prog l.1).next? = some op := next?_of_await hp
  by_cases heq : i = l.1
  · subst heq
    rcases h.sends l.1 salt sub hi hname hprefill with hg | hfin | hbefore
    · refine Or.inl ?_
      rw [Config.next_prog_self]
      rw [hp] at hg
      apply hg.2 _
      intro hM
      obtain ⟨⟨record, rfl⟩, x, hx⟩ := hM
      rw [registrationOf_create hi ((Server.heard_eq_ok hx).1 ▸ Fault.lands_ok)] at hreg
      cases hreg
    · exact absurd hfin (not_finished hnext)
    · exact Or.inr (Or.inr hbefore)
  · rw [Config.next_prog_of_ne heq]
    exact h.sends i salt sub hi hname hprefill

/-- A request that is being sent is the one of the present registration. -/
theorem OwnRequests.queued_keep (h : OwnRequests env jobs name c)
    (hd : Disciplined env jobs name c) (hp : c.prog l.1 = .await op k)
    (hpresent : present jobs name c = some (o, sub)) {m : Stored Payload}
    (hm : RequestQueued (c.next (serve env) l.1 l.2 op k).world name m) :
    m.origin = o ∧ m.payload = .prefill (prefillRequest sub) := by
  have hnext : (c.prog l.1).next? = some op := next?_of_await hp
  have hcall := (hd.uses l.1).of_next? hnext
  rw [Config.next_world] at hm
  rcases Server.left_cases (serve env) l.1 op c.world l.2 with hsame | ⟨-, hserved⟩
  · rw [hsame] at hm
    exact h.queued o sub hpresent m hm
  · rw [hserved] at hm
    rcases requestQueued_answer hm with hold | ⟨subject, r, rfl, horigin, hpayload, hname⟩
    · exact h.queued o sub hpresent m hold
    · obtain ⟨salt, sub', hjob, hprefill, rfl⟩ := create_of_sends hcall
      rcases h.sends l.1 salt sub' hjob hname hprefill with hg | hfin | hbefore
      · exact absurd ⟨subject, _, _, rfl⟩ (hg.of_next? hnext)
      · exact absurd hfin (not_finished hnext)
      · obtain ⟨rfl, rfl⟩ := Prod.ext_iff.mp (Option.some.inj (hbefore.symm.trans hpresent))
        exact ⟨horigin, hpayload⟩

/-- What is handed out was in the queue. -/
theorem OwnRequests.held_keep (h : OwnRequests env jobs name c) (hp : c.prog l.1 = .await op k)
    (hpresent : present jobs name c = some (o, sub)) {i origin : Nat} {r : PrefillMessage}
    (hheard : (c.next (serve env) l.1 l.2 op k).Heard i (Hands name origin r)) :
    ((c.next (serve env) l.1 l.2 op k).prog i).Finished ∨
      (origin = o ∧ r = prefillRequest sub) := by
  have hnext : (c.prog l.1).next? = some op := next?_of_await hp
  rcases Config.heard_next.mp hheard with ⟨-, hhands, hname⟩ | hbefore
  · obtain ⟨m, hqueued, horigin, hpayload⟩ := requestQueued_handed hhands
    rw [hname] at hqueued
    obtain ⟨horigin', hpayload'⟩ := h.queued o sub hpresent m hqueued
    refine Or.inr ⟨horigin.symm.trans horigin', ?_⟩
    exact Payload.prefill.inj (hpayload.symm.trans hpayload')
  · rcases h.held o sub hpresent i origin r hbefore with hfin | hown
    · refine Or.inl ?_
      have hne : i ≠ l.1 := fun heq => not_finished hnext (heq ▸ hfin)
      rw [Config.next_prog_of_ne hne]
      exact hfin
    · exact Or.inr hown

/-- The status is set by the service, with the request of the present registration in hand. -/
theorem OwnRequests.earned_keep (h : OwnRequests env jobs name c)
    (hd : Disciplined env jobs name c) (hp : c.prog l.1 = .await op k)
    (hreg : registrationOf jobs name l.1 op l.2 = none)
    (hpresent : present jobs name c = some (o, sub)) {record : Subscription}
    (hrecord : (c.next (serve env) l.1 l.2 op k).world.record name = some record)
    (hne : record.prefillQueueStatus ≠ (newSubInfo sub).prefillQueueStatus) :
    ∃ j, (c.next (serve env) l.1 l.2 op k).Heard j (Hands name o (prefillRequest sub)) ∧
      (record.prefillQueueStatus = .done → ∀ m, Asks env (prefillRequest sub) m →
        (c.next (serve env) l.1 l.2 op k).Heard j (Published name m)) := by
  have hnext : (c.prog l.1).next? = some op := next?_of_await hp
  have hold (hrecord : c.world.record name = some record) :
      ∃ j, (c.next (serve env) l.1 l.2 op k).Heard j (Hands name o (prefillRequest sub)) ∧
        (record.prefillQueueStatus = .done → ∀ m, Asks env (prefillRequest sub) m →
          (c.next (serve env) l.1 l.2 op k).Heard j (Published name m)) := by
    obtain ⟨j, hheard, hpublished⟩ := h.earned o sub hpresent record hrecord hne
    exact ⟨j, hheard.next, fun hdone m hasks => (hpublished hdone m hasks).next⟩
  rw [Config.next_world] at hrecord
  rcases Server.left_cases (serve env) l.1 op c.world l.2 with hsame | ⟨hlands, hserved⟩
  · rw [hsame] at hrecord
    exact hold hrecord
  · rw [hserved] at hrecord
    rcases record_answer env l.1 op c.world name with hsame | ⟨v, rfl, hv⟩ | ⟨-, hnone⟩
    · exact hold (hsame.symm.trans hrecord)
    · -- The record is written, and not by a registration.
      obtain rfl := Option.some.inj (hv.symm.trans hrecord)
      have hnew : ∀ salt sub, jobs l.1 ≠ .create salt sub := by
        intro salt sub hjob
        rw [registrationOf_create hjob hlands] at hreg
        cases hreg
      obtain ⟨hjob, hheard⟩ :=
        h.handed_of_touches hd hnext (Or.inl ⟨⟨v, rfl⟩, hnew⟩) hpresent
      refine ⟨l.1, hheard.next, fun hdone m hasks => ?_⟩
      exact (h.published_of_done hd hnext ⟨v, hdone, rfl⟩ hjob hheard hpresent hasks).next
    · have hgone : (none : Option Subscription) = some record := hnone.symm.trans hrecord
      cases hgone

/-- **Any other step** is one of the present registration, or of the service with its request. -/
theorem OwnRequests.keep (h : OwnRequests env jobs name c) (hd : Disciplined env jobs name c)
    (hp : c.prog l.1 = .await op k) (hreg : registrationOf jobs name l.1 op l.2 = none) :
    OwnRequests env jobs name (c.next (serve env) l.1 l.2 op k) := by
  have hpresent : present jobs name (c.next (serve env) l.1 l.2 op k) = present jobs name c :=
    present_keep hreg
  refine ⟨fun i salt sub hi hname hprefill => ?_, fun o sub h' m hm => ?_,
    fun o sub h' i origin r hheard => ?_, fun o sub h' record hrecord hne => ?_⟩
  · rw [hpresent]
    exact h.sends_keep hp hreg hi hname hprefill
  · exact h.queued_keep hd hp (hpresent ▸ h') hm
  · exact h.held_keep hp (hpresent ▸ h') hheard
  · exact h.earned_keep hd hp hreg (hpresent ▸ h') hrecord hne

theorem OwnRequests.step (h : OwnRequests env jobs name c) (hd : Disciplined env jobs name c)
    (hmeets : RegistersAfresh jobs name c l) (hs : c.step (serve env) l = some d) :
    OwnRequests env jobs name d := by
  obtain ⟨op, k, hp, rfl⟩ := Config.step_cases hs
  cases hreg : registrationOf jobs name l.1 op l.2 with
  | none => exact h.keep hd hp hreg
  | some q => exact h.register hd hp hmeets hreg

theorem ownRequests_start (w : World) : OwnRequests env jobs name (System.start env w jobs) := by
  refine ⟨fun i salt sub hi hname _ => Or.inl ?_, fun _ _ => nofun, fun _ _ => nofun,
    fun _ _ => nofun⟩
  rw [System.start_prog, hi, ← hname]
  exact guarded_create salt sub

end Step

/-! ## Every run -/

/-- **When a request acts only on the registration that issued it.** In every run, under any
interleaving of any jobs and any lost calls: where every new registration of `name` finds no
request of an earlier one, and no request is handed out for another name that is taken for `name`,
whoever touches the record or the prefill of `name` was handed the
request of the present registration, and the status of the record is `done` only once everything
is published that this request asks for. -/
theorem acts_on_own_request (env : Env) (w : World) (jobs : Nat → Job) (name : String)
    (ls : Schedule) (hjobs : ∀ i, (jobs i).LeavesStatus)
    (hmeets : (System.start env w jobs).Along (serve env)
      (fun c l => RegistersAfresh jobs name c l ∧ HandsNoAlias env name c l) ls) :
    (System.start env w jobs).Along (serve env) (ActsOnOwnRequest jobs name) ls ∧
      (System.start env w jobs).Always (serve env) (StatusEarned env jobs name) ls := by
  have hstep : ∀ c l d, (Disciplined env jobs name c ∧ OwnRequests env jobs name c) →
      RegistersAfresh jobs name c l ∧ HandsNoAlias env name c l → c.step (serve env) l = some d →
      Disciplined env jobs name d ∧ OwnRequests env jobs name d :=
    fun c l d hc hmeets hs => ⟨hc.1.step hmeets.2 hs, hc.2.step hc.1 hmeets.1 hs⟩
  have hstart : Disciplined env jobs name (System.start env w jobs) ∧
      OwnRequests env jobs name (System.start env w jobs) :=
    ⟨disciplined_start hjobs, ownRequests_start w⟩
  have halways := Config.always_of_invariant hstep hstart hmeets
  refine ⟨halways.along fun c l hc op hop htouch o sub hpresent => ?_,
    halways.mono fun c hc => hc.2.earned⟩
  exact (hc.2.handed_of_touches hc.1 hop htouch hpresent).2

/-! ## A request that outlives its subscription -/

-- The reports of the runs below are requests that the app evaluates.
attribute [local semireducible] receive

/-- The same name, with other topics. -/
def NewSubscription.groups : NewSubscription :=
  { sample with realmsTopics := [⟨"udm", "groups/group"⟩] }

/-- So many steps of each job, one job after the other. -/
def inTurn (steps : List (Nat × Nat)) : Schedule :=
  steps.flatMap fun (i, count) => List.replicate count (i, .ok)

/-- "a" is registered, served, deleted, registered with other topics and served again. -/
def servedJobs : List Job :=
  [.create "s" .sample, .prefill, .delete .sample "s" .admin "a", .create "s" .groups, .prefill]

def servedSteps : Schedule := inTurn [(0, 8), (1, 11), (2, 5), (3, 8), (4, 9)]

theorem acts_on_own_request_sample : ∃ d,
    (System.start .sample .prepared (Job.pool servedJobs)).run (serve .sample) servedSteps =
      some d ∧ StatusEarned .sample (Job.pool servedJobs) "a" d :=
  ⟨_, rfl, (acts_on_own_request .sample .prepared (Job.pool servedJobs) "a" servedSteps
    (Job.pool_forall (P := Job.LeavesStatus) (by simp [servedJobs, Job.LeavesStatus]) trivial)
    (by decide +kernel)).2.run rfl⟩

/-- The same, but the prefill service gets to work only after the second registration. -/
def staleJobs : List Job :=
  [.create "s" .sample, .delete .sample "s" .admin "a", .create "s" .groups, .prefill]

def staleSteps : Schedule := inTurn [(0, 8), (1, 5), (2, 8), (3, 11)]

/-- The status is `done`, and nobody has been handed the request of the second registration. -/
theorem done_by_stale_request : ∃ d record,
    (System.start .sample .prepared (Job.pool staleJobs)).run (serve .sample) staleSteps = some d ∧
    present (Job.pool staleJobs) "a" d = some (2, .groups) ∧ d.world.record "a" = some record ∧
    record.prefillQueueStatus = .done ∧
    (d.hist.all fun ev => (handed ev.op ev.heard).all (·.1 != 2)) = true :=
  ⟨_, _, rfl, rfl, rfl, rfl, rfl⟩

theorem not_acts_on_own_request : ¬ ∀ (env : Env) (w : World) (jobs : Nat → Job) (name : String)
    (ls : Schedule), (∀ i, (jobs i).LeavesStatus) → (∀ m, ¬ RequestQueued w name m) →
    (System.start env w jobs).Along (serve env) (ActsOnOwnRequest jobs name) ls ∧
      (System.start env w jobs).Always (serve env) (StatusEarned env jobs name) ls := by
  intro h
  obtain ⟨d, record, hrun, hpresent, hrecord, hdone, hstale⟩ := done_by_stale_request
  have hjobs : ∀ i, (Job.pool staleJobs i).LeavesStatus :=
    Job.pool_forall (P := Job.LeavesStatus) (by simp [staleJobs, Job.LeavesStatus]) trivial
  have hearned := (h .sample .prepared (Job.pool staleJobs) "a" staleSteps hjobs
    (not_requestQueued rfl)).2.run hrun
  obtain ⟨j, ⟨ev, hev, -, hhands, -⟩, -⟩ :=
    hearned 2 .groups hpresent record hrecord (by rw [hdone]; decide)
  have hnot := List.all_eq_true.mp hstale ev hev
  rw [hhands] at hnot
  exact absurd hnot (by decide)

end Provisioning
