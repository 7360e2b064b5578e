import Provisioning.Properties.DirectoryReplica

/-!
# The transformer catches up

`replica_follows_directory` would hold of a transformer that does nothing. This is the other half:
from whatever state it has come to, as soon as nothing happens to its calls any more it takes one
change after the other off the queue, provided that it can compute their objects and that the queue
of the events is there. **Nothing it leaves behind when it is cut**, neither in the cache nor in
the queue, **keeps it from that**.

## How it is proved

Two arguments meet in a quiet round. That it *ends* is a count: `within_transformEvent` bounds its
calls whatever it is answered, and a plan with that many answered calls runs it to its outcome.
What it ends *with* is a computation: `finish_transformEvent` runs it from the state the invariant
allows. Once it has returned, the acknowledgement is among its calls (`acked_of_returned`), and of
the two ways in which `behind_turn` lets a turn end only one is left.

The invariant `Behind` is taken over as it stands. It speaks of a copy that is `k` changes behind
with the change after them possibly half done, so nothing has to be known here about the place at
which the transformer was cut.
-/

namespace Provisioning

open Await Store Prog Replica

variable {env : Env} {start directory : Directory} {scene : Scene start} {w : World} {k : Nat}
  {change : Change} {old : Obj} {msg : Msg} {plan : List (Fault Outage)}

/-! ## Alone -/

/-! Other writers reach the state through the script of a scene. With an empty script the server of
the run is the plain one, and the computations can be made there. -/

/-- Without a script there is nothing that comes in between. -/
theorem meanwhile_quiet (h : scene.script = []) : scene.meanwhile env = scene := by
  cases scene with
  | mk world chronicle script =>
    cases h
    rfl

/-- With nobody else at work the server is as ever. -/
theorem finish_quiet {α : Type} (p : Coro α) (h : scene.script = []) :
    (p.finish (amid env) 0 scene).1 = (p.finish (serve env) 0 scene.world).1 := by
  induction p generalizing scene with
  | pure a => rfl
  | throw e => rfl
  | await op k ih =>
    rw [finish_await, finish_await, amid_answer, meanwhile_quiet h]
    exact ih _ h

/-- The queue of the events is there. The transformer does not create it; the dispatcher does, when
it starts. -/
def TakesEvents (w : World) : Prop :=
  ∃ s, w.streams (streamKey DISPATCHER_STREAM) = some s ∧ DISPATCHER_STREAM ∈ s.subjects

/-- The calls of the transformer keep it there. -/
theorem TakesEvents.answer {op : Op} (h : TakesEvents w) (hop : TransformerCall op) :
    TakesEvents (answer env 0 op w).2 := by
  obtain ⟨s, hs, hsubject⟩ := h
  rcases streams_answer env 0 op w (streamKey DISPATCHER_STREAM) with hsame | hchange
  · exact ⟨s, hsame.trans hs, hsubject⟩
  · rw [hs] at hchange
    unfold TakesEvents
    generalize (Provisioning.answer env 0 op w).2.streams (streamKey DISPATCHER_STREAM) = after
      at hchange
    cases hchange with
    | publish subject payload s h => exact ⟨_, rfl, hsubject⟩
    | fetch durable s d h m hm => exact ⟨_, rfl, hsubject⟩
    | nak msg hx s d h => exact ⟨_, rfl, hsubject⟩
    | ack msg hx s d h =>
      refine ⟨_, rfl, ?_⟩
      split
      · exact hsubject
      · exact hsubject
    | _ => cases hop

/-! ## What is done when nothing happens -/

/-! The outcome of each part of the handling, from the state it starts in. `Handled` lists the ways
in which a handling can look; in each of them it ends well if there is an object and a queue to
tell it to. -/

/-- An event can be sent. -/
theorem finish_sending (m : Message) (h : TakesEvents w) :
    ∃ w', (internalRequest (createNewMessage m)).finish (serve env) 0 w = (.ok (), w') := by
  obtain ⟨s, hs, hsubject⟩ := h
  have hanswer : ((serve env).answer 0 (sending m) w).1 = .ok (s.last + 1) := by
    simp only [serve_answer, answer, hs, if_pos hsubject]
  rw [internalRequest_createNewMessage, finish_await, hanswer]
  exact ⟨_, rfl⟩

/-- A handling that ends well is acknowledged, and that is answered. -/
theorem finish_settled {handling : Coro Unit}
    (h : ∃ w', handling.finish (serve env) 0 w = (.ok (), w')) :
    ∃ w', (settled msg handling).finish (serve env) 0 w = (.ok (), w') := by
  obtain ⟨w', hw'⟩ := h
  have hcaught : (tryCatch handling fun e => do
      request (.nak msg)
      MonadExcept.throw e : Coro Unit).finish (serve env) 0 w = (.ok (), w') := finish_tryCatch hw'
  unfold settled
  rw [finish_bind hcaught]
  exact ⟨_, finish_call rfl⟩

/-- The handling ends well in each of its shapes. The failing one is excluded by the object. -/
theorem Handled.finish {handling : Coro Unit} (h : Handled env change old handling)
    (hnew : ∃ new, newObject env change.message.body = .ok new) (hopen : TakesEvents w) :
    ∃ w', handling.finish (serve env) 0 w = (.ok (), w') := by
  cases h with
  | fails e herror =>
    obtain ⟨new, hnew⟩ := hnew
    rw [herror] at hnew
    cases hnew
  | told obj m hvalue hobj hbody =>
    have hput : (request (.kvPut .cache change.uuid obj)).finish (serve env) 0 w =
        (.ok (), (answer env 0 (.kvPut .cache change.uuid obj) w).2) := finish_call rfl
    rw [finish_bind hput]
    exact finish_sending m (hopen.answer (.put _ _))
  | withdrawn m hvalue hbody => exact finish_sending m hopen
  | silent hvalue hold => exact ⟨w, rfl⟩

/-- **A change whose object can be computed is done with.** -/
theorem finish_transformEvent (henv : Represents env) (hvalid : change.Valid directory)
    (hcached : cached w change.uuid = [] ∨ Identified change.uuid (cached w change.uuid))
    (hmsg : msg.payload = .message change.message)
    (hnew : ∃ new, newObject env change.message.body = .ok new) (hopen : TakesEvents w) :
    ∃ w', (transformEvent env msg).finish (serve env) 0 w = (.ok (), w') := by
  have hfrom : ∀ old, old = [] ∨ Identified change.uuid old →
      ∃ w', (transformFrom env change.message.body msg old).finish (serve env) 0 w =
        (.ok (), w') := fun old hold =>
    finish_settled ((handleNew_handled henv hvalid hold).finish hnew hopen)
  by_cases hold : change.message.body.old = []
  · rw [transformEvent_new hmsg hold]
    exact hfrom [] (Or.inl rfl)
  · rw [transformEvent_old hmsg hold ((ofEntry_message hvalid).old hold), finish_await,
      serve_answer, kvGet_world]
    simp only [answer]
    unfold cached Store.Bucket.value? at hcached
    cases hget : (w.bucket .cache).get? change.uuid with
    | some e =>
      rw [hget] at hcached
      exact hfrom e.value hcached
    | none => exact hfrom [] (Or.inl rfl)

/-! ## How long it takes -/

/-! Bounds on the number of calls, compositional in the code: two for what is handled, one for the
acknowledgement or its refusal, and one for the reading that precedes them. -/

theorem within_ofExcept {α : Type} (x : Except Exc α) : (ofExcept x).Within 0 := by
  cases x <;> trivial

theorem within_handleNew (body : Body) (old : Obj) : (handleNew env body old).Within 2 := by
  have hsend : ∀ new, (sendEvent env new old).Within 1 := by
    intro new
    unfold sendEvent
    split
    · trivial
    · dsimp only
      generalize (if (orEmpty new).truthy then (orEmpty new).get "objectType"
        else old.get "objectType") = objectType
      split
      · split <;> trivial
      · split
        · rw [internalRequest_createNewMessage]
          exact ⟨0, rfl, fun r => by cases r <;> trivial⟩
        · trivial
  have hstore : ∀ obj, (store obj).Within 1 := by
    intro obj
    unfold store
    split
    · unfold putValue
      split
      · exact within_call ..
      · exact within_call ..
    · trivial
  unfold handleNew
  refine (Within.bind (within_ofExcept _) fun new => ?_).mono (Nat.le_of_eq (Nat.zero_add 2))
  split
  · exact Within.bind (hstore _) fun _ => hsend new
  · exact (hsend new).mono (Nat.le_succ 1)

/-- What raises gives the message back first. -/
theorem within_refused (msg : Msg) (e : Exc) :
    ((request (.nak msg)).bind fun _ => Prog.throw e : Coro Unit).Within 1 :=
  Within.bind (n := 0) (within_call ..) fun _ => trivial

theorem within_transformFrom (body : Body) (old : Obj) :
    (transformFrom env body msg old).Within 4 :=
  Within.bind (Within.tryCatch (within_handleNew body old) (within_refused msg)) fun _ =>
    within_call ..

theorem within_transformEvent {uuid : String} {m : Message} (hmsg : msg.payload = .message m)
    (huuid : m.body.old ≠ [] → firstValue m.body.old "entryUUID" = .ok uuid) :
    (transformEvent env msg).Within 5 := by
  by_cases hold : m.body.old = []
  · rw [transformEvent_new hmsg hold]
    exact (within_transformFrom ..).mono (Nat.le_succ 4)
  · rw [transformEvent_old hmsg hold (huuid hold)]
    refine ⟨4, rfl, fun r => ?_⟩
    cases r with
    | ok e => exact within_transformFrom ..
    | error x =>
      dsimp only
      split
      · exact within_transformFrom ..
      · exact (within_refused msg _).mono (Nat.le_add_left 1 3)

/-- What returns has been acknowledged. -/
theorem acked_of_returned {m : Message} (hmsg : msg.payload = .message m)
    (h : ((transformEvent env msg).attempt (amid env) 0 plan scene).outcome = some (.ok ())) :
    .ack msg ∈ ((transformEvent env msg).attempt (amid env) 0 plan scene).landed := by
  have hsplit : transformEvent env msg =
      (handleChange env m.body msg).bind fun _ => request (.ack msg) := by
    unfold transformEvent
    rw [hmsg]
    rfl
  rw [hsplit] at h ⊢
  obtain ⟨_, rest, scene', l, -, hack, hlanded⟩ := attempt_bind_ok h
  obtain ⟨_, fs, -, -, hlast⟩ := attempt_await_ok hack fun e => ⟨_, rfl⟩
  rw [hlanded]
  refine List.mem_append_right l ?_
  show _ ∈ ((Prog.await _ _).attempt _ _ _ _).landed
  rw [hlast]
  exact List.mem_cons_self

/-! ## A round that nothing happens to

A delivery that is still out from the round before would leave nothing to be fetched. So a quiet
round is preceded by the end of the ack wait, after which no delivery is out. -/

/-- No delivery is out. -/
def NothingOut (w : World) : Prop :=
  ∀ d, w.durable (streamKey LDAP_STREAM) (durableKey LDAP_STREAM) = some d → d.pending = none

/-- After the ack wait no delivery is out, whether the consumer was there or not. -/
theorem nothingOut_expired (tid : Nat) (w : World) : NothingOut (answer env tid
    (.ackWaitExpires (streamKey LDAP_STREAM) (durableKey LDAP_STREAM)) w).2 := by
  intro d hd
  simp only [answer] at hd
  split at hd
  · next hs =>
    unfold World.durable at hd
    rw [hs] at hd
    cases hd
  · next s hs =>
    split at hd
    · next hnone =>
      unfold World.durable at hd
      rw [hs] at hd
      cases hnone.symm.trans hd
    · next d' hd' =>
      unfold World.durable at hd
      rw [World.streams_setStream_self] at hd
      cases (Store.Stream.durables_setDurable_self ..).symm.trans hd
      rfl

/-- With a change waiting and no delivery out there is something to fetch. -/
theorem fetched_of_nothingOut {m : Stored Payload} {rest : List (Stored Payload)}
    (h : Backlog w (m :: rest)) (hout : NothingOut w) : ∃ msg,
    (answer env 0 (.fetch (streamKey LDAP_STREAM) (durableKey LDAP_STREAM)) w).1 = .ok msg := by
  obtain ⟨s, hs, -, hqueue, hmsgs⟩ := h
  obtain ⟨d, hd⟩ := hqueue.served
  have hdurable : w.durable (streamKey LDAP_STREAM) (durableKey LDAP_STREAM) = some d := by
    unfold World.durable
    rw [hs]
    exact hd
  have hm := hqueue.fetch_front hd (hout d hdurable) hmsgs
  simp only [answer, hs, hd, hm]
  exact ⟨_, rfl⟩

/-- What is kept while nobody else is at work. -/
structure Undisturbed (scene scene' : Scene start) : Prop where
  script : scene'.script = []
  chronicle : scene'.chronicle = scene.chronicle
  takesEvents : TakesEvents scene'.world

/-- A round puts nothing in the script and takes nothing from the chronicle. -/
theorem undisturbed_round (hscript : scene.script = []) (hopen : TakesEvents scene.world) :
    Undisturbed scene ((transformOnce env).attempt (amid env) 0 plan scene).world := by
  refine attempt_invariant (I := Undisturbed scene) uses_transformOnce
    (fun op scene' hop hkept => ?_) plan ⟨hscript, rfl, hopen⟩
  rw [amid_answer, meanwhile_quiet hkept.script]
  exact ⟨hkept.script, hkept.chronicle, hkept.takesEvents.answer hop⟩

/-- An attempt that nothing happens to is acknowledged. -/
theorem behind_quiet_turn {m : Stored Payload} {rest : List (Stored Payload)} {d : Durable}
    {table : String → Option Obj} (henv : Represents env) (h : Behind env k scene table)
    (hscript : scene.script = []) (hopen : TakesEvents scene.world)
    (hnew : ∀ change ∈ scene.chronicle.changes, ∃ new, newObject env change.message.body = .ok new)
    (hw : Waiting k scene (m :: rest))
    (hmsg : msg = deliveryOf (streamKey LDAP_STREAM) (durableKey LDAP_STREAM) d m)
    (hok : ∀ f ∈ plan, f = .ok) (hlen : 5 ≤ plan.length) :
    Behind env (k + 1) ((transformEvent env msg).attempt (amid env) 0 plan scene).world
      (replay table (tells ((transformEvent env msg).attempt (amid env) 0 plan scene))) := by
  obtain ⟨change, hchange, hpayload, -⟩ := hw.front
  have hpayload' : msg.payload = .message change.message := by rw [hmsg]; exact hpayload
  have hvalid := scene.chronicle.allowed k change hchange
  obtain ⟨w', hfinish⟩ := finish_transformEvent henv hvalid (h.covers.identified _) hpayload'
    (hnew change (List.mem_of_getElem? hchange)) hopen
  have hreturned : ((transformEvent env msg).attempt (amid env) 0 plan scene).outcome =
      some (.ok ()) := by
    rw [attempt_of_within (within_transformEvent hpayload' (ofEntry_message hvalid).old) hok hlen,
      alone_outcome, finish_quiet _ hscript, hfinish]
  rcases behind_turn henv h hw hmsg with ⟨-, hnone⟩ | ⟨hdone, -⟩
  · exact absurd (acked_of_returned hpayload' hreturned) hnone
  · exact hdone.behind

/-- **A round that nothing happens to** takes a change off the queue, if there is one. -/
theorem quiet_round {table : String → Option Obj} (henv : Represents env)
    (h : Behind env k scene table) (hscript : scene.script = []) (hopen : TakesEvents scene.world)
    (hout : NothingOut scene.world)
    (hnew : ∀ change ∈ scene.chronicle.changes, ∃ new, newObject env change.message.body = .ok new)
    (hok : ∀ f ∈ plan, f = .ok) (hlen : 6 ≤ plan.length) :
    ∃ k', k ≤ k' ∧ (k < scene.chronicle.changes.length → k < k') ∧
      Behind env k' ((transformOnce env).attempt (amid env) 0 plan scene).world
        (replay table (tells ((transformOnce env).attempt (amid env) 0 plan scene))) := by
  -- is there a change left? Otherwise the round is one of those that `behind_round` knows
  by_cases hlt : k < scene.chronicle.changes.length
  · obtain ⟨msgs, hw, hfetched, hfront⟩ := h.fetch
    obtain ⟨msgs', hwaiting⟩ := h.waiting
    cases plan with
    | nil => cases hlen
    | cons f fs =>
      cases hok f List.mem_cons_self
      cases msgs' with
      | nil =>
        have hnone := List.map_eq_nil_iff.mp hwaiting.payloads.symm
        exact absurd hlt (Nat.not_lt_of_le (List.drop_eq_nil_iff.mp hnone))
      | cons m' rest' =>
        obtain ⟨msg, hanswer⟩ := fetched_of_nothingOut hwaiting.queued hout
        have hserved : (amid env).answer 0 (.fetch (streamKey LDAP_STREAM)
            (durableKey LDAP_STREAM)) scene = _ := amid_answer ..
        rw [meanwhile_quiet hscript] at hserved
        rw [hserved] at hw hfetched hfront
        obtain ⟨d, m, rest, rfl, hmsg⟩ := hfront msg hanswer
        unfold tells
        rw [transformOnce_eq, attempt, Attempt.after_world, events_after_fetch, hserved, hanswer]
        refine ⟨k + 1, Nat.le_succ k, fun _ => Nat.lt_succ_self k, ?_⟩
        exact behind_quiet_turn henv hfetched hscript (hopen.answer .fetch) hnew hw hmsg
          (fun f hf => hok f (List.mem_cons_of_mem _ hf)) (Nat.le_of_succ_le_succ hlen)
  · obtain ⟨k', hle, -, hk'⟩ := behind_round henv h
    exact ⟨k', hle, fun h => absurd h hlt, hk'.behind⟩

/-! ## Catching up -/

/-! The induction is on the rounds and not on the changes: of a round it is known that it takes at
least one of the changes that wait, and there may be more rounds than are needed. -/

/-- The ack wait of a delivery that is still out passes, and nothing happens to the next round. -/
def catchUp (plan : List (Fault Outage)) : List Pipeline.Step :=
  [.act .ackWaitExpires, .round plan []]

/-- The transformer can go on: it can compute the objects, and there is a queue for the events. -/
structure Able (env : Env) (scene : Scene start) : Prop where
  takesEvents : TakesEvents scene.world
  newObject : ∀ change ∈ scene.chronicle.changes,
    ∃ new, newObject env change.message.body = .ok new

/-- The ack wait and a quiet round, as two steps of the whole system. -/
theorem behind_catchUp (henv : Represents env) {p : Pipeline start}
    (h : Behind env k p.scene (p.replica env)) (hable : Able env p.scene)
    (hok : ∀ f ∈ plan, f = .ok) (hlen : 6 ≤ plan.length) :
    (p.run env (catchUp plan)).scene.chronicle = p.scene.chronicle ∧
      TakesEvents (p.run env (catchUp plan)).scene.world ∧
      ∃ k', k ≤ k' ∧ (k < p.scene.chronicle.changes.length → k < k') ∧
        Behind env k' (p.run env (catchUp plan)).scene
          ((p.run env (catchUp plan)).replica env) := by
  have hexpired : Behind env k { p.scene.act env .ackWaitExpires with script := [] }
      (p.replica env) := by
    obtain ⟨⟨msgs, hw⟩, hcovers, htable⟩ := h.act .ackWaitExpires
    exact ⟨⟨msgs, hw.le, hw.queued, hw.payloads⟩, hcovers, htable⟩
  have hopen : TakesEvents (p.scene.act env .ackWaitExpires).world := by
    obtain ⟨s, hs, hsubject⟩ := hable.takesEvents
    have hspares : Op.spares (streamKey DISPATCHER_STREAM) (.ackWaitExpires (streamKey LDAP_STREAM)
        (durableKey LDAP_STREAM)) = true := bne_iff_ne.mpr (by decide)
    exact ⟨s, (streams_answer_of_spares env 0 p.scene.world hspares).trans hs, hsubject⟩
  have hkept : Undisturbed { p.scene.act env .ackWaitExpires with script := [] }
      (p.run env (catchUp plan)).scene := undisturbed_round rfl hopen
  obtain ⟨k', hle, hk', hbehind⟩ := quiet_round henv hexpired rfl hopen
    (nothingOut_expired 0 p.scene.world) hable.newObject hok hlen
  refine ⟨hkept.chronicle, hkept.takesEvents, k', hle, hk', ?_⟩
  show Behind env k' _ (replay (start.view env)
    ((p.events ++ eventsOf _).filterMap Body.assignment))
  rw [List.filterMap_append, replay_append]
  exact hbehind

/-- One round for each change that waits. -/
theorem caught_up_run (henv : Represents env) {p : Pipeline start}
    {plans : List (List (Fault Outage))} (h : Behind env k p.scene (p.replica env))
    (hable : Able env p.scene) (hok : ∀ plan ∈ plans, 6 ≤ plan.length ∧ ∀ f ∈ plan, f = .ok)
    (hlen : p.scene.chronicle.changes.length ≤ k + plans.length) :
    (p.run env (plans.flatMap catchUp)).scene.chronicle = p.scene.chronicle ∧
      Backlog (p.run env (plans.flatMap catchUp)).scene.world [] := by
  induction plans generalizing p k with
  | nil =>
    obtain ⟨msgs, hw⟩ := h.waiting
    refine ⟨rfl, ?_⟩
    have hpayloads := hw.payloads
    have hnone : p.scene.chronicle.changes.drop k = [] := List.drop_eq_nil_of_le hlen
    rw [hnone] at hpayloads
    rw [List.map_eq_nil_iff.mp hpayloads] at hw
    exact hw.queued
  | cons plan plans ih =>
    obtain ⟨hlen', hok'⟩ := hok plan List.mem_cons_self
    obtain ⟨hchronicle, hopen, k', hle, hk', hbehind⟩ := behind_catchUp henv h hable hok' hlen'
    have hrun : p.run env ((plan :: plans).flatMap catchUp) =
        (p.run env (catchUp plan)).run env (plans.flatMap catchUp) := by
      rw [List.flatMap_cons]
      exact List.foldl_append
    have hnext := ih hbehind ⟨hopen, by rw [hchronicle]; exact hable.newObject⟩
      (fun plan hplan => hok plan (List.mem_cons_of_mem _ hplan)) ?_
    · rw [hrun]
      exact ⟨hnext.1.trans hchronicle, hnext.2⟩
    · rw [hchronicle]
      rw [List.length_cons] at hlen
      -- A round takes one change off the queue, if there is one.
      by_cases hlt : k < p.scene.chronicle.changes.length
      · have hnext := hk' hlt
        omega
      · omega

/-- **The transformer catches up.** Whatever has gone before, once its calls are answered it needs
no more rounds than changes wait, and then a consumer's copy is the directory. -/
theorem replica_catches_up (env : Env) (henv : Represents env) (start : Directory) (w : World)
    (hqueue : Backlog w []) (hcovers : Covers w (start.view env)) (steps : List Pipeline.Step)
    (plans : List (List (Fault Outage)))
    (hok : ∀ plan ∈ plans, 6 ≤ plan.length ∧ ∀ f ∈ plan, f = .ok) :
    let p := (Pipeline.begin w : Pipeline start).run env steps
    let p' := p.run env (plans.flatMap catchUp)
    Able env p.scene → (∀ msgs, Backlog p.scene.world msgs → msgs.length ≤ plans.length) →
      p'.scene.chronicle = p.scene.chronicle ∧ Backlog p'.scene.world [] ∧
        p'.replica env = p.scene.chronicle.directory.view env := by
  intro p p' hable hlen
  have hbegin : Behind env 0 (Pipeline.begin w : Pipeline start).scene
      ((Pipeline.begin w : Pipeline start).replica env) :=
    ⟨⟨[], Nat.le_refl _, hqueue, rfl⟩, hcovers, Or.inl rfl⟩
  obtain ⟨k, hbehind⟩ := behind_run henv hbegin steps
  obtain ⟨msgs, hw⟩ := hbehind.waiting
  have hcount : p.scene.chronicle.changes.length ≤ k + plans.length := by
    have hlength := congrArg List.length hw.payloads
    rw [List.length_map, List.length_map, List.length_drop] at hlength
    have hwaiting := hlen msgs hw.queued
    have hle : k ≤ p.scene.chronicle.changes.length := hw.le
    have hsame : msgs.length = p.scene.chronicle.changes.length - k := hlength
    omega
  obtain ⟨hchronicle, hempty⟩ := caught_up_run henv hbehind hable hok hcount
  refine ⟨hchronicle, hempty, ?_⟩
  have hrun : p' = (Pipeline.begin w : Pipeline start).run env (steps ++ plans.flatMap catchUp) :=
    List.foldl_append.symm
  obtain ⟨k', hbehind'⟩ := behind_run henv hbegin (steps ++ plans.flatMap catchUp)
  rw [← hrun] at hbehind'
  have hview := hbehind'.caught_up hempty
  rw [hview]
  exact congrArg (fun c : Chronicle start => c.directory.view env) hchronicle

/-- A user is created and renamed, and the transformer dies before it sends an event. -/
def interrupted : List Pipeline.Step :=
  [.act (.change (.create (.user "one"))), .act (.change (.modify (.user "one") (.user "two"))),
    .round [.ok, .ok] []]

/-- Two rounds in which every call is answered. -/
def answeredRounds : List (List (Fault Outage)) := List.replicate 2 (List.replicate 6 .ok)

theorem replica_catches_up_sample :
    let p := (Pipeline.begin .listening : Pipeline fun _ => none).run .typed interrupted
    let p' := p.run .typed (answeredRounds.flatMap catchUp)
    p.replica .typed "u1" = none ∧ p'.replica .typed "u1" = some (userObject "two") := by
  intro p p'
  have hchanges : p.scene.chronicle.changes =
      [.create (.user "one"), .modify (.user "one") (.user "two")] := rfl
  have hable : Able .typed p.scene := by
    refine ⟨⟨_, rfl, List.mem_singleton.mpr rfl⟩, ?_⟩
    rw [hchanges]
    intro change hchange
    rcases List.mem_cons.mp hchange with rfl | hchange
    · exact ⟨_, rfl⟩
    · rw [List.mem_singleton.mp hchange]
      exact ⟨_, rfl⟩
  have hcount : ∀ msgs, Backlog p.scene.world msgs → msgs.length ≤ 2 := by
    intro msgs hmsgs
    obtain ⟨s, hs, -, -, rfl⟩ := hmsgs
    cases hs
    exact Nat.le_refl 2
  have hok : ∀ plan ∈ answeredRounds, 6 ≤ plan.length ∧ ∀ f ∈ plan, f = (.ok : Fault Outage) := by
    intro plan hplan
    rw [List.eq_of_mem_replicate hplan]
    exact ⟨Nat.le_refl 6, fun f hf => List.eq_of_mem_replicate hf⟩
  obtain ⟨-, -, hview⟩ := replica_catches_up .typed represents_typed (fun _ => none) .listening
    backlog_listening ⟨fun uuid h => absurd rfl h, fun uuid => Or.inl rfl⟩ interrupted
    answeredRounds hok hable hcount
  refine ⟨by decide +kernel, ?_⟩
  rw [hview]
  show p.scene.chronicle.directory.view .typed "u1" = _
  unfold Chronicle.directory
  rw [hchanges]
  rfl

end Provisioning
