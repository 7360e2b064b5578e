import Provisioning.Model.Effects
import Provisioning.Model.Calls

/-!
# The record and the stream of a subscription

The dispatcher sends to every name that has a record, so every name that has a record should have
its stream. Registering writes the record first and makes the stream two calls later; deleting
removes the record first and the stream one call later. So the invariant is broken by every first
registration and, where a registration overlaps a deletion, again by the deletion.

`always_hasStream_iff` says that nothing else breaks it.

## What breaks the invariant

Only three calls can: writing a record, deleting a stream, and giving a stream other subjects. For
each of them `FindsStream` asks of the state before the call just what makes it harmless, and for a
state that satisfies the invariant this is not only enough but necessary
(`findsStream_of_dispatchable`). So the equivalence is one about single steps, and the run lemma of
the pool makes one about runs of it.

That a record without a stream is noticed by the dispatcher is not part of the invariant. It
follows: publishing succeeds exactly where the stream is there and takes the subject.
-/

namespace Provisioning

open Await Store

/-- `name` has a stream which takes what the dispatcher sends. -/
def HasStream (w : World) (name : String) : Prop :=
  ∃ s, w.streams (streamKey name) = some s ∧ mainSubject name ∈ s.subjects

/-- Every subscription the dispatcher can read from the bucket has its stream, so that sending
to it succeeds. -/
def Dispatchable (env : Env) (w : World) : Prop :=
  ∀ name, w.record name ≠ none → HasStream w name ∧ ∀ tid payload, ∃ seq,
    (answer env tid (.publish (mainSubject name) payload (streamKey name)) w).1 = .ok seq

/-- The jobs of the API that create and delete subscriptions, and those of the dispatcher. -/
def Job.RegistersOrDispatches : Job → Prop
  | .create .. => True
  | .delete .. => True
  | .dispatch => True
  | .updateMapping => True
  | .dispatcherStart => True
  | .idle => True
  | _ => False

/-- What a served call has to find. -/
def FindsStream (op : Op) (w : World) : Prop :=
  match op with
  -- A registration writes the record where the stream is there already.
  | .kvPut .subscriptions name _ => HasStream w name
  -- A deletion removes the stream where no registration has written the record again.
  | .deleteStream stream => ∀ name, stream = streamKey name → w.record name = none
  -- A starting dispatcher sets the subjects of its own stream, which may be a subscription's.
  | .updateStream config =>
    config.subjects = [DISPATCHER_STREAM] → w.record DISPATCHER_STREAM = none
  | _ => True

/-- The step finds it. -/
def MeetsStream (c : System) (l : Nat × Fault Outage) : Prop :=
  ∀ op, (c.prog l.1).next? = some op → l.2.Lands → FindsStream op c.world

/-! ## What the jobs call -/

/-- The calls of these jobs, as far as they matter to records and streams. -/
inductive RegistryCall : Op → Prop where
  | create {sub : NewSubscription} {op : Op} (h : CreateCall sub op) : RegistryCall op
  | delete {name username : String} {op : Op} (h : DeleteRouteCall name username op) :
      RegistryCall op
  | dispatch {op : Op} (h : DispatchCall op) : RegistryCall op
  | start {op : Op} (h : DispatcherStartCall op) : RegistryCall op

theorem uses_registersOrDispatches {env : Env} {job : Job} (h : job.RegistersOrDispatches) :
    (job.program env).Uses RegistryCall := by
  apply (uses_program env job).mono
  intro op hop
  cases job with
  | create salt sub => exact .create hop
  | delete settings salt credentials name => exact .delete hop
  | dispatch => exact .dispatch hop
  | updateMapping => exact .start (.mapping hop)
  | dispatcherStart => exact .start hop
  | idle => exact hop.elim
  | _ => exact h.elim

/-- An update of a stream by these jobs keeps the main subject of the subscription of that name,
unless it is the dispatcher's own. -/
theorem RegistryCall.updateStream {config : StreamConfig}
    (h : RegistryCall (.updateStream config)) {name : String}
    (hname : config.name = streamKey name) :
    mainSubject name ∈ config.subjects ∨
      (name = DISPATCHER_STREAM ∧ config.subjects = [DISPATCHER_STREAM]) := by
  cases h with
  | create h =>
    cases h with
    | updateStream =>
      rw [← streamKey_inj.mp hname]
      exact Or.inl List.mem_cons_self
  | delete h =>
    cases h with
    | auth h => cases h
    | delete h => cases h
  | dispatch h => cases h
  | start h =>
    cases h with
    | updateStream => exact Or.inr ⟨(streamKey_inj.mp hname).symm, rfl⟩
    | mapping h => cases h

theorem mainSubject_dispatcher_not_mem : mainSubject DISPATCHER_STREAM ∉ [DISPATCHER_STREAM] := by
  decide

/-! ## One step -/

variable {env : Env} {tid : Nat} {op : Op} {w : World}

theorem publish_of_hasStream {name : String} (h : HasStream w name) (tid : Nat)
    (payload : Payload) : ∃ seq,
      (answer env tid (.publish (mainSubject name) payload (streamKey name)) w).1 = .ok seq := by
  obtain ⟨s, hs, hmem⟩ := h
  exact ⟨s.last + 1, by simp only [answer, hs, if_pos hmem]⟩

theorem dispatchable_iff : Dispatchable env w ↔ ∀ name, w.record name ≠ none → HasStream w name :=
  ⟨fun h name hr => (h name hr).1,
    fun h name hr => ⟨h name hr, publish_of_hasStream (h name hr)⟩⟩

/-- A stream with its main subject keeps both, unless it is removed or given other subjects. -/
theorem hasStream_answer (env : Env) (tid : Nat) (op : Op) {name : String}
    (h : HasStream w name) :
    HasStream (answer env tid op w).2 name ∨ op = .deleteStream (streamKey name) ∨
      ∃ config, op = .updateStream config ∧ config.name = streamKey name ∧
        mainSubject name ∉ config.subjects := by
  obtain ⟨s, hs, hmem⟩ := h
  rcases streams_answer env tid op w (streamKey name) with
    hsame | hchange
  · exact Or.inl ⟨s, by rw [hsame, hs], hmem⟩
  · unfold HasStream
    rw [hs] at hchange
    generalize (answer env tid op w).2.streams (streamKey name) = after at hchange
    cases hchange with
    | update config hname =>
      by_cases hsub : mainSubject name ∈ config.subjects
      · exact Or.inl ⟨_, rfl, hsub⟩
      · exact Or.inr (Or.inr ⟨config, rfl, hname, hsub⟩)
    | remove => exact Or.inr (Or.inl rfl)
    | ack msg hx s d h =>
      refine Or.inl ⟨_, rfl, ?_⟩
      split
      · exact hmem
      · exact hmem
    | _ => exact Or.inl ⟨_, rfl, hmem⟩

/-- A write to a bucket touches no stream. -/
theorem hasStream_kvPut {name name' : String} {b : Bucket} {v : b.Val} :
    HasStream (answer env tid (.kvPut b name' v) w).2 name ↔ HasStream w name := Iff.rfl

/-- Removing or updating a stream touches no record. -/
theorem record_deleteStream {name stream : String} :
    (answer env tid (.deleteStream stream) w).2.record name = w.record name := by
  rcases record_answer env tid (.deleteStream stream) w name with h | ⟨v, h, -⟩ | ⟨h, -⟩
  · exact h
  · cases h
  · cases h

theorem record_updateStream {name : String} {config : StreamConfig} :
    (answer env tid (.updateStream config) w).2.record name = w.record name := by
  rcases record_answer env tid (.updateStream config) w name with h | ⟨v, h, -⟩ | ⟨h, -⟩
  · exact h
  · cases h
  · cases h

/-- A served call that finds what it has to find keeps the invariant. -/
theorem dispatchable_answer (hop : RegistryCall op)
    (h : ∀ name, w.record name ≠ none → HasStream w name) (hfinds : FindsStream op w)
    {name : String} (hr : (answer env tid op w).2.record name ≠ none) :
    HasStream (answer env tid op w).2 name := by
  -- Either the call has just written the record, or the record was there before.
  rcases record_answer env tid op w name with
    hsame | ⟨v, rfl, -⟩ | ⟨rfl, hgone⟩
  · have hrecord : w.record name ≠ none := hsame ▸ hr
    rcases hasStream_answer env tid op (h name hrecord) with
      hkeep | rfl | ⟨config, rfl, hname, hsub⟩
    · exact hkeep
    · exact absurd (hfinds name rfl) hrecord
    · rcases hop.updateStream hname with hmem | ⟨rfl, hconfig⟩
      · exact absurd hmem hsub
      · exact absurd (hfinds hconfig) hrecord
  · exact hasStream_kvPut.mpr hfinds
  · exact absurd hgone hr

/-- …and one that does not breaks it. -/
theorem findsStream_of_dispatchable (hop : RegistryCall op)
    (h : ∀ name, w.record name ≠ none → HasStream w name)
    (hafter : ∀ name, (answer env tid op w).2.record name ≠ none →
      HasStream (answer env tid op w).2 name) : FindsStream op w := by
  cases op with
  | kvPut b name v =>
    cases b with
    | subscriptions =>
      refine hasStream_kvPut.mp (hafter name ?_)
      simp [World.record, answer]
    | _ => trivial
  | deleteStream stream =>
    intro name hname
    subst hname
    by_contra hr
    -- The stream was there, and now it is not.
    obtain ⟨s, hs, -⟩ := h name hr
    obtain ⟨s', hs', -⟩ := hafter name (by rw [record_deleteStream]; exact hr)
    simp [answer, hs] at hs'
  | updateStream config =>
    intro hconfig
    by_contra hr
    obtain ⟨s, hs, -⟩ := h DISPATCHER_STREAM hr
    obtain ⟨s', hs', hmem⟩ := hafter DISPATCHER_STREAM (by rw [record_updateStream]; exact hr)
    have hname : config.name = streamKey DISPATCHER_STREAM := by
      cases hop with
      | create h =>
        cases h with
        | updateStream => simp [subscriptionStream] at hconfig
      | delete h =>
        cases h with
        | auth h => cases h
        | delete h => cases h
      | dispatch h => cases h
      | start h =>
        cases h with
        | updateStream => rfl
        | mapping h => cases h
    -- Its subjects are now the dispatcher's alone.
    simp only [answer, hname, hs, World.streams_setStream_self, Option.some.injEq] at hs'
    rw [← hs', Stream.subjects_reconfigure, hconfig] at hmem
    exact mainSubject_dispatcher_not_mem hmem
  | _ => trivial

/-! ## Every run -/

/-- **When the dispatcher can rely on the streams.** In a run of registrations, deletions and
dispatcher rounds, under any interleaving and any lost calls, every recorded name has its stream
all the time if and only if every call that matters meets what `MeetsStream` asks. -/
theorem always_hasStream_iff (env : Env) (w : World) (jobs : Nat → Job) (ls : Schedule)
    (hjobs : ∀ i, (jobs i).RegistersOrDispatches) (hw : Dispatchable env w) :
    (System.start env w jobs).Always (serve env) (fun c => Dispatchable env c.world) ls ↔
      (System.start env w jobs).Along (serve env) MeetsStream ls := by
  refine Config.always_iff_along (I := fun c => ∀ i, (c.prog i).Uses RegistryCall)
    (fun c l d hi hs => Config.step_uses hi hs) ?_ ?_
    (fun i => uses_registersOrDispatches (hjobs i)) hw
  · -- A finished program has no call.
    intro c l hs op hop
    cases (Config.finished_of_stuck hs).symm.trans hop
  · intro c l d hi hP hs
    obtain ⟨op, k, hp, rfl⟩ := Config.step_cases hs
    have hop : RegistryCall op := (hp ▸ hi l.1 : (Prog.await op k).Uses RegistryCall).1
    have hmeets : MeetsStream c l ↔ (l.2.Lands → FindsStream op c.world) := by
      unfold MeetsStream
      rw [hp]
      exact ⟨fun h => h op rfl, fun h op' hop' => Option.some.inj hop' ▸ h⟩
    rw [hmeets, Config.next_world]
    rw [dispatchable_iff] at hP ⊢
    -- A call that is carried out keeps it if and only if it finds the stream it presumes; another
    -- one changes nothing.
    by_cases hl : l.2.Lands
    · rw [Server.left_of_lands hl]
      exact ⟨fun h _ => findsStream_of_dispatchable hop hP h,
        fun h name hr => dispatchable_answer hop hP (h hl) hr⟩
    · rw [Server.left_of_not_lands hl]
      exact ⟨fun _ hl' => absurd hl' hl, fun _ => hP⟩

/-- The third call of a first registration leaves a record without a stream. -/
theorem record_before_stream : ∃ d,
    (System.start .sample .prepared
        (Job.pool [.create "s" .sample])).run
      (serve .sample) [(0, .ok), (0, .ok), (0, .ok)] = some d ∧
    d.world.record "a" ≠ none ∧ d.world.streams (streamKey "a") = none :=
  ⟨_, rfl, by decide, rfl⟩

theorem dispatchable_prepared (env : Env) : Dispatchable env .prepared :=
  fun _ h => absurd rfl h

theorem not_always_hasStream : ¬ ∀ (env : Env) (w : World) (jobs : Nat → Job) (ls : Schedule),
    (∀ i, (jobs i).RegistersOrDispatches) → Dispatchable env w →
    (System.start env w jobs).Always (serve env) (fun c => Dispatchable env c.world) ls := by
  intro h
  obtain ⟨d, hrun, hrecord, hstream⟩ := record_before_stream
  have hend := (h .sample .prepared _ [(0, .ok), (0, .ok), (0, .ok)]
    (Job.pool_forall (by simp [Job.RegistersOrDispatches]) trivial)
    (dispatchable_prepared _)).run hrun
  obtain ⟨⟨s, hs, -⟩, -⟩ := hend "a" hrecord
  rw [hstream] at hs
  cases hs

/-- "a" is registered, and an event is waiting. -/
def World.eventWaiting : World :=
  (answer .sample 0 (.publish DISPATCHER_STREAM (.message .sample) eventQueue) .registered).2

theorem dispatchable_eventWaiting (env : Env) : Dispatchable env .eventWaiting := by
  refine dispatchable_iff.mpr fun name hrecord => ?_
  have hbucket : World.eventWaiting.bucket .subscriptions =
      (World.prepared.bucket .subscriptions).put "a" (newSubInfo .sample) := rfl
  by_cases hname : name = "a"
  · subst hname
    exact ⟨_, rfl, by decide⟩
  · refine absurd ?_ hrecord
    rw [World.record, hbucket, Bucket.value?_put, if_neg hname]
    rfl

/-- A deletion dies when it has removed the record; the stream is left over. The name is registered
again, and the event that is waiting is sent to it. -/
def againJobs : List Job :=
  [.delete .sample "s" .admin "a", .create "s" .sample, .updateMapping, .dispatch]

def againSchedule : Schedule :=
  List.replicate 3 (0, .ok) ++ List.replicate 7 (1, .ok) ++ List.replicate 3 (2, .ok) ++
    List.replicate 4 (3, .ok)

theorem always_hasStream_iff_sample : ∃ d st,
    (System.start .sample .eventWaiting (Job.pool againJobs)).run (serve .sample) againSchedule =
      some d ∧
    d.world.record "a" ≠ none ∧ d.world.streams (streamKey "a") = some st ∧ st.msgs.length = 1 ∧
    ((System.start .sample .eventWaiting (Job.pool againJobs)).Always (serve .sample)
        (fun c => Dispatchable .sample c.world) againSchedule ↔
      (System.start .sample .eventWaiting (Job.pool againJobs)).Along (serve .sample) MeetsStream
        againSchedule) :=
  ⟨_, _, rfl, by decide, rfl, rfl, always_hasStream_iff .sample .eventWaiting _ againSchedule
    (Job.pool_forall (by simp [againJobs, Job.RegistersOrDispatches]) trivial)
    (dispatchable_eventWaiting _)⟩

end Provisioning
