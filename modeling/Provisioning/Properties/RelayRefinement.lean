import Provisioning.Lib.Mirror
import Provisioning.Model.Relay
import Provisioning.Properties.DirectoryReplica
import Provisioning.Properties.DispatchOrder

/-!
# The transformer and the dispatcher at work together

Of the transformer it is known what it sends when anything may happen between its calls, and of the
dispatcher what becomes of the events when anybody may call the server. Together they are a `Relay`.
**Whatever a relay does is a run of the pipeline**, to which the dispatcher is one of those who call
the server meanwhile, and at the same time a fan-out of the events that this pipeline has sent.

## Each is the environment of the other

The two results were proved apart, each with an environment that may do a great deal but not
everything. The transformer tolerates calls elsewhere: not at its queue, and none that writes its
cache. The dispatcher tolerates calls that are apart: not at its stream, except that events are
published to it, and none that sets its mapping. What has to be shown is that each keeps to what the
other tolerates. Of the dispatcher that is a fact about the calls of its handler, which the fan-out
relation knows; of the transformer it is a fact about all its calls.

Then the run of the two is taken apart. Between two calls of the transformer the dispatcher makes
any number of steps, and each of them is an action in the script of the scene, or none
(`Passes`). A call of the transformer is in turn a step of the dispatcher's world (`served`). A
round is a program with many calls, so the second half is done once for all programs, by the mirror
of the library: two servers answer alike, and stay related.
-/

namespace Provisioning

open Await Store Prog Replica

variable {env : Env} {subs : Subscribers} {start : Directory} {r : Relay subs start}
  {s t : Dispatcher} {a : Fanout.State (Receiver subs) (Nat × Payload)}

/-- No subscription has its stream where the transformer has its queue. -/
def Subscribers.Apart (subs : Subscribers) : Prop := ∀ sub ∈ subs.list, sub.name ≠ LDAP_STREAM

/-! ## What the dispatcher does to the server -/

/-! For the transformer the dispatcher is somebody who publishes to subscriptions, fetches and
acknowledges events, and lets time pass. -/

-- Going on to its next message changes neither the server nor what was posted.
@[simp] theorem Dispatcher.goOn_world (queue : List Msg) (msg : Msg) (p : Coro Unit) :
    (s.goOn queue msg p).world = s.world := by
  cases p <;> rfl

@[simp] theorem Dispatcher.goOn_incoming (queue : List Msg) (msg : Msg) (p : Coro Unit) :
    (s.goOn queue msg p).incoming = s.incoming := by
  cases p <;> rfl

/-- The two queues are different ones. -/
theorem eventQueue_ne_ldap : eventQueue ≠ streamKey LDAP_STREAM := by decide

/-- A call to the stream of the events is none to the queue of the changes, nor to the cache. -/
theorem elsewhere_eventQueue {op : Op}
    (h : (∃ subject payload, op = .publish subject payload eventQueue) ∨
      op = .fetch eventQueue eventWorker ∨ op = .ackWaitExpires eventQueue eventWorker ∨
      ∃ msg, op = .ack msg ∧ msg.stream = eventQueue) : op.Elsewhere := by
  have hne : (eventQueue != streamKey LDAP_STREAM) = true := bne_iff_ne.mpr eventQueue_ne_ldap
  rcases h with ⟨subject, payload, rfl⟩ | rfl | rfl | ⟨msg, rfl, hstream⟩
  · exact ⟨Or.inl hne, nofun, nofun⟩
  · exact ⟨Or.inl hne, nofun, nofun⟩
  · exact ⟨Or.inl hne, nofun, nofun⟩
  · refine ⟨Or.inl ?_, nofun, nofun⟩
    show (msg.stream != streamKey LDAP_STREAM) = true
    rw [hstream]
    exact hne

/-- The calls of the handler leave the transformer's queue and cache alone. -/
theorem FansOut.elsewhere_call (hnames : subs.Apart) (h : FansOut subs s a) {queue : List Msg}
    {msg : Msg} {op : Op} {k : Except CallError op.Res → Coro Unit}
    (hp : s.process = some ⟨queue, some (msg, .await op k)⟩) : op.Elsewhere := by
  have hheld := h.held
  rw [hp] at hheld
  obtain ⟨j, rest, hat, -, -⟩ := List.forall₂_cons_left_iff.mp hheld
  have hhandling := h.handling queue msg _ hp
  generalize hprog : (Prog.await op k : Coro Unit) = prog at hhandling
  cases hhandling with
  | start m hm =>
    obtain ⟨k', hstart, -, -⟩ := handleEvent_message hm
    cases hprog.trans hstart
    exact ⟨Or.inl rfl, nofun, nofun⟩
  | sending m hm todo htodo hsent =>
    cases todo with
    | nil =>
      obtain ⟨k', hack, -, -⟩ := sendAll_nil m msg
      cases hprog.trans hack
      exact elsewhere_eventQueue (Or.inr (Or.inr (Or.inr ⟨msg, rfl, hat.stream⟩)))
    | cons sub todo =>
      obtain ⟨k', hsend, -, -⟩ := sendAll_cons m sub todo msg
      cases hprog.trans hsend
      refine ⟨Or.inl (bne_iff_ne.mpr fun heq => ?_), nofun, nofun⟩
      exact hnames sub (htodo sub List.mem_cons_self).1 (streamKey_inj.mp heq)

/-- **A step of the dispatcher** does nothing to the server, or what some call does. -/
theorem FansOut.world_step (hnames : subs.Apart) (h : FansOut subs s a) {l : DispatcherStep subs}
    (hl : l.Beside) (hs : s.step env l = some t) :
    t.world = s.world ∨ ∃ tid op, op.Elsewhere ∧ t.world = (answer env tid op s.world).2 := by
  have hfetch : ∀ {msg w}, answer env 0 (.fetch eventQueue eventWorker) s.world = (.ok msg, w) →
      ∃ tid op, op.Elsewhere ∧ w = (answer env tid op s.world).2 := fun hanswer =>
    ⟨0, _, elsewhere_eventQueue (Or.inr (Or.inl rfl)), (congrArg Prod.snd hanswer).symm⟩
  have hmapping : ∀ mapping : Mapping, ∃ tid op, op.Elsewhere ∧
      { s.world with mapping := mapping } = (answer env tid op s.world).2 := fun mapping =>
    ⟨0, .mappingSet mapping, ⟨Or.inl rfl, nofun, nofun⟩, rfl⟩
  cases Dispatcher.stepsTo_of_step hs with
  | post hanswer =>
    exact Or.inr ⟨0, _, elsewhere_eventQueue (Or.inl ⟨_, _, rfl⟩),
      (congrArg Prod.snd hanswer).symm⟩
  | @elsewhere op hop tid => exact Or.inr ⟨tid, op, hl, rfl⟩
  | deliver hp hanswer => exact Or.inr (hfetch hanswer)
  | loses hp hanswer => exact Or.inr (hfetch hanswer)
  | ackWaitExpires => exact Or.inr ⟨0, _, elsewhere_eventQueue (Or.inr (Or.inr (Or.inl rfl))), rfl⟩
  | start hp mapping => exact Or.inr (hmapping _)
  | refresh hp mapping => exact Or.inr (hmapping _)
  | take hp => exact Or.inl (Dispatcher.goOn_world ..)
  | @call queue msg op k hp f =>
    rw [Dispatcher.goOn_world]
    by_cases hf : f.Lands
    · exact Or.inr ⟨_, op, h.elsewhere_call hnames hp, Server.left_of_lands hf⟩
    · exact Or.inl (Server.left_of_not_lands hf)
  | crash => exact Or.inl rfl

/-- …and sends no event about the directory. -/
theorem events_step {l : DispatcherStep subs} (hl : l.Beside) (hs : s.step env l = some t) :
    t.incoming.filterMap (·.2.event?) = s.incoming.filterMap (·.2.event?) := by
  cases Dispatcher.stepsTo_of_step hs with
  | @post payload seq w hanswer =>
    have hnone : ((seq, payload) : Nat × Payload).2.event? = none := hl
    rw [List.filterMap_append, List.filterMap_cons, hnone]
    exact List.append_nil _
  | take hp => rw [Dispatcher.goOn_incoming]
  | call hp f => rw [Dispatcher.goOn_incoming]
  -- The others add no event.
  | elsewhere | deliver | loses | ackWaitExpires | start | refresh | crash => rfl

/-! ## What the transformer does to the dispatcher -/

/-! For the dispatcher the transformer is somebody who posts events, and whose other calls it does
not notice. -/

/-- A call of the transformer: none at the incoming stream, but that it sends an event. -/
inductive RelayedCall : Op → Prop where
  | apart {op : Op} (h : op.apart = true) : RelayedCall op
  | send (m : Message) (h : m.realm = "udm") :
      RelayedCall (.publish DISPATCHER_STREAM (.message m) eventQueue)

-- A call at another stream is apart.
theorem apart_publish {subject stream : String} {payload : Payload} (h : stream ≠ eventQueue) :
    (Op.publish subject payload stream).apart = true := bne_iff_ne.mpr h

theorem apart_fetch {stream durable : String} (h : stream ≠ eventQueue) :
    (Op.fetch stream durable).apart = true := bne_iff_ne.mpr h

/-- A call that is apart posts nothing. -/
theorem posted_of_apart (tid : Nat) {op : Op} (h : op.apart = true) (w : World) :
    posted env tid op w = [] := by
  unfold posted
  split
  · next subject payload stream =>
    have hstream : stream ≠ eventQueue := bne_iff_ne.mp h
    split
    · exact if_neg hstream
    · rfl
  · rfl

/-- The dispatcher comes across it as a step of its own. -/
theorem FansOut.served (h : FansOut subs s a) {op : Op} (hop : RelayedCall op) :
    ∃ b, FansOut subs (s.served env 0 op) b := by
  cases hop with
  | apart hop =>
    obtain ⟨hstream, hmapping⟩ := apart_answer env 0 s.world hop
    refine ⟨a, ?_⟩
    unfold Dispatcher.served
    rw [posted_of_apart 0 hop, List.append_nil]
    exact h.elsewhere hstream hmapping
  | send m hm =>
    cases hr : answer env 0 (.publish DISPATCHER_STREAM (.message m) eventQueue) s.world with
    | mk result w =>
      cases result with
      | ok seq =>
        obtain ⟨b, -, hb⟩ := h.post hr
        refine ⟨b, ?_⟩
        simp only [Dispatcher.served, posted, hr, if_pos]
        exact hb
      | error e =>
        refine ⟨a, ?_⟩
        simp only [Dispatcher.served, posted, hr, List.append_nil]
        rcases answer_publish env 0 DISPATCHER_STREAM (.message m) eventQueue s.world with
          ⟨st, -, -, hok⟩ | hrefused
        · cases hok.symm.trans hr
        · cases hrefused.symm.trans hr
          exact h

/-! ## What the dispatcher does to the transformer -/

/-! The steps of the dispatcher between two calls of the transformer, as a list of actions. It is
the same list whatever comes after it, for the script goes on behind it. -/

/-- The dispatcher is at work on a fan-out. -/
def Relay.Fans (r : Relay subs start) : Prop := ∃ a, FansOut subs r.dispatcher a

/-- What the transformer sees of the relay, and what is to come before its next calls. -/
def Relay.scene (r : Relay subs start) (script : List (List Action)) : Scene start :=
  ⟨r.dispatcher.world, r.chronicle, script⟩

/-- Between two calls of the transformer: only what `Pipeline` reckons with has happened. -/
structure Passes (env : Env) (r r' : Relay subs start) : Prop where
  fans : r'.Fans
  events : r'.events = r.events
  told : ∃ actions : List Action, ∀ script,
    actions.foldl (Scene.act env) (r.scene script) = r'.scene script

variable {r' r'' : Relay subs start}

-- Nothing happens; one thing happens after another; one action of the relay; all of them.
theorem Passes.refl (h : r.Fans) : Passes env r r := ⟨h, rfl, [], fun _ => rfl⟩

theorem Passes.trans (h : Passes env r r') (h' : Passes env r' r'') : Passes env r r'' := by
  obtain ⟨actions, hactions⟩ := h.told
  obtain ⟨actions', hactions'⟩ := h'.told
  refine ⟨h'.fans, h'.events.trans h.events, actions ++ actions', fun script => ?_⟩
  rw [List.foldl_append, hactions, hactions']

theorem passes_act (env : Env) (hnames : subs.Apart) (h : r.Fans) (action : RelayAction subs) :
    Passes env r (r.act env action) := by
  obtain ⟨a, ha⟩ := id h
  cases action with
  | change change =>
    by_cases hvalid : change.Valid r.chronicle.directory
    · have hact : r.act env (.change change) = { r with
          dispatcher := { r.dispatcher with
            world := (change.listen.alone (serve env) Scene.listener r.dispatcher.world).world }
          chronicle := r.chronicle.extend change hvalid } := dif_pos hvalid
      rw [hact]
      have hlisten : (Op.publish LDAP_SUBJECT (.message change.message)
          (streamKey LDAP_STREAM)).apart = true := apart_publish eventQueue_ne_ldap.symm
      obtain ⟨hstream, hmapping⟩ := apart_answer env Scene.listener r.dispatcher.world hlisten
      rw [← listen_world] at hstream hmapping
      exact ⟨⟨a, ha.elsewhere hstream hmapping⟩, rfl, [.change change],
        fun script => dif_pos hvalid⟩
    · have hact : r.act env (.change change) = r := dif_neg hvalid
      rw [hact]
      exact .refl h
  -- A step of the dispatcher leaves the world as it is, or makes one call in it.
  | dispatcher l hl =>
    cases hstep : r.dispatcher.step env l with
    | none =>
      have hact : r.act env (.dispatcher l hl) = r := by
        simp only [Relay.act, hstep]
      rw [hact]
      exact .refl h
    | some d =>
      have hact : r.act env (.dispatcher l hl) = { r with dispatcher := d } := by
        simp only [Relay.act, hstep]
      rw [hact]
      obtain ⟨b, -, hb⟩ := ha.step hstep
      refine ⟨⟨b, hb⟩, events_step hl hstep, ?_⟩
      rcases ha.world_step hnames hl hstep with hworld | ⟨tid, op, hop, hworld⟩
      · exact ⟨[], fun script => congrArg (fun w => (⟨w, r.chronicle, script⟩ : Scene start))
          hworld.symm⟩
      · exact ⟨[.call tid op hop], fun script =>
          congrArg (fun w => (⟨w, r.chronicle, script⟩ : Scene start)) hworld.symm⟩

theorem passes_meanwhile (env : Env) (hnames : subs.Apart) (h : r.Fans) :
    Passes env r (r.meanwhile env) := by
  have hall : ∀ (actions : List (RelayAction subs)) (r : Relay subs start), r.Fans →
      Passes env r (actions.foldl (Relay.act env) r) := by
    intro actions
    induction actions with
    | nil => exact fun r h => .refl h
    | cons action actions ih =>
      intro r h
      have hact := passes_act env hnames h action
      exact hact.trans (ih _ hact.fans)
  obtain ⟨hfans, hevents, htold⟩ :=
    hall (r.script.headD []) { r with script := r.script.tail } h
  exact ⟨hfans, hevents, htold⟩

/-! ## One call of the transformer -/

/-- How a relay is seen as a scene, and what is to be seen of the transformer's calls. -/
def relayMirror (subs : Subscribers) (start : Directory) :
    Mirror Op (Relay subs start) (Scene start) (List Action) Body where
  view := Relay.scene
  seen := Relay.events
  shows := Op.event?

theorem events_served {op : Op} (hop : RelayedCall op) :
    (s.served env 0 op).incoming.filterMap (·.2.event?) =
      s.incoming.filterMap (·.2.event?) ++
        (landing op (answer env 0 op s.world).1).filterMap Op.event? := by
  cases hop with
  | apart hop =>
    have hnone : op.event? = none := by
      unfold Op.event?
      split
      · exact if_neg (bne_iff_ne.mp hop)
      · rfl
    have hlanding : (landing op (answer env 0 op s.world).1).filterMap Op.event? = [] := by
      cases (answer env 0 op s.world).1 with
      | ok r => exact List.filterMap_cons_none hnone
      | error e => rfl
    unfold Dispatcher.served
    rw [posted_of_apart 0 hop, List.append_nil, hlanding, List.append_nil]
  | send m hm =>
    have hevent : (Payload.message m).event? = some m.body := if_pos hm
    cases hr : answer env 0 (.publish DISPATCHER_STREAM (.message m) eventQueue) s.world with
    | mk result w =>
      cases result with
      | ok seq =>
        simp only [Dispatcher.served, posted, hr, if_pos, List.filterMap_append,
          List.filterMap_cons, List.filterMap_nil, hevent, landing]
        rfl
      | error e =>
        simp only [Dispatcher.served, posted, hr, List.append_nil, landing, List.filterMap_nil]

/-- **One call** is answered as in the pipeline. -/
theorem relay_answers (env : Env) (hnames : subs.Apart) (h : r.Fans) {op : Op}
    (hop : RelayedCall op) :
    (relayMirror subs start).Answers (relaying env subs start) (amid env) 0 Relay.Fans op r := by
  obtain ⟨⟨a, ha⟩, hevents, actions, hactions⟩ := passes_meanwhile env hnames h
  refine ⟨⟨actions, fun xs => ?_⟩, ?_, ha.served hop⟩
  · show (amid env).answer 0 op (r.scene (actions :: xs)) = _
    have hmeanwhile : (r.scene (actions :: xs)).meanwhile env = (r.meanwhile env).scene xs :=
      hactions xs
    rw [amid_answer, hmeanwhile]
    rfl
  · show ((r.meanwhile env).dispatcher.served env 0 op).incoming.filterMap _ = _
    rw [events_served hop]
    exact congrArg (· ++ _) hevents

/-! ## The rounds of the transformer -/

theorem relayed_ack {op : Op} {msg : Msg} (hstream : msg.stream = streamKey LDAP_STREAM)
    (hop : op = .ack msg ∨ op = .nak msg) : RelayedCall op := by
  have hne : (msg.stream != eventQueue) = true :=
    bne_iff_ne.mpr (hstream ▸ eventQueue_ne_ldap.symm)
  rcases hop with rfl | rfl
  · exact .apart hne
  · exact .apart hne

/-- **A round** is a round of the pipeline. -/
theorem relay_reflects (env : Env) (hnames : subs.Apart) (h : r.Fans) (plan : List (Fault Outage)) :
    (relayMirror subs start).Reflects (relaying env subs start) (amid env) 0 Relay.Fans
      (transformOnce env) plan r := by
  have hfetch := relay_answers env hnames h (.apart (apart_fetch eventQueue_ne_ldap.symm :
    (Op.fetch (streamKey LDAP_STREAM) (durableKey LDAP_STREAM)).apart = true))
  have hfailed : ∀ (r' : Relay subs start) (e : CallError) plan, r'.Fans →
      (relayMirror subs start).Reflects (relaying env subs start) (amid env) 0 Relay.Fans
        (if e = .timeout then .pure () else .throw (.call e) : Coro Unit) plan r' := by
    intro r' e plan h'
    split
    · exact Mirror.reflects_pure h' () plan
    · exact Mirror.reflects_throw h' (Exc.call e) plan
  rw [transformOnce_eq]
  refine Mirror.reflects_await (S := relaying env subs start) (T := amid env) rfl h hfetch
    (fun plan => ?_) (fun e plan => hfailed r _ plan h)
    (fun e plan => hfailed _ _ plan hfetch.keeps) plan
  cases hr : ((relaying env subs start).answer 0
      (.fetch (streamKey LDAP_STREAM) (durableKey LDAP_STREAM)) r).1 with
  | error e => exact hfailed _ e plan hfetch.keeps
  -- A change was handed out, and every call of its turn is answered alike in both worlds.
  | ok msg =>
    obtain ⟨st, d, m, -, -, -, hmsg, -⟩ := answer_fetch_ok (Prod.ext hr rfl)
    have hstream : msg.stream = streamKey LDAP_STREAM := by rw [hmsg]; rfl
    refine Mirror.reflects_of_uses (S := relaying env subs start) (T := amid env)
      (P := RelayedCall) (uses_transformEvent_message
      (fun key => .apart rfl) (fun key obj => .apart rfl) (fun m hm => .send m hm)
      (relayed_ack hstream (Or.inl rfl)) (relayed_ack hstream (Or.inr rfl))) rfl
      (fun op r hop hr => relay_answers env hnames hr hop) plan hfetch.keeps

/-! ## The refinement -/

/-- What the transformer sees of the relay, and what it has sent. -/
def Relay.pipeline (r : Relay subs start) : Pipeline start := ⟨r.scene [], r.events⟩

/-- **A relay refines the pipeline**, and its dispatcher is at work on a fan-out of the events that
the pipeline has sent. -/
theorem relay_refines (env : Env) (hnames : subs.Apart) (h : r.Fans)
    (steps : List (Relay.Step subs)) :
    (r.run env steps).Fans ∧
      ∃ steps', (r.run env steps).pipeline = r.pipeline.run env steps' := by
  induction steps generalizing r with
  | nil => exact ⟨h, [], rfl⟩
  | cons step steps ih =>
    have hstep : (r.step env step).Fans ∧
        ∃ steps', (r.step env step).pipeline = r.pipeline.run env steps' := by
      -- Whatever happens between two rounds is a list of actions of the pipeline, perhaps an empty
      -- one; a round is a round.
      cases step with
      | act action =>
        obtain ⟨hfans, hevents, actions, hactions⟩ := passes_act env hnames h action
        refine ⟨hfans, actions.map .act, ?_⟩
        have hrun : ∀ (actions : List Action) (p : Pipeline start),
            p.run env (actions.map .act) =
              ⟨actions.foldl (Scene.act env) p.scene, p.events⟩ := by
          intro actions
          induction actions with
          | nil => exact fun p => rfl
          | cons action actions ih => exact fun p => ih _
        rw [hrun]
        unfold Relay.pipeline
        rw [hactions, ← hevents]
        rfl
      | round plan script =>
        have hscript : ({ r with script := script } : Relay subs start).Fans := h
        obtain ⟨⟨xs, htold⟩, hseen, hkeeps⟩ := relay_reflects env hnames hscript plan
        refine ⟨hkeeps, [.round plan xs], ?_⟩
        have hround : (transformOnce env).attempt (amid env) 0 plan (r.scene xs) = _ := htold
        have hrun : r.pipeline.run env [.round plan xs] =
            ⟨((transformOnce env).attempt (amid env) 0 plan (r.scene xs)).world, r.events ++
              eventsOf ((transformOnce env).attempt (amid env) 0 plan (r.scene xs)).landed⟩ := rfl
        rw [hrun, hround]
        exact congrArg (Pipeline.mk _) hseen
    obtain ⟨hfans, steps₁, hsteps₁⟩ := hstep
    obtain ⟨hfans', steps₂, hsteps₂⟩ := ih hfans
    refine ⟨hfans', steps₁ ++ steps₂, ?_⟩
    have hrun : r.pipeline.run env (steps₁ ++ steps₂) =
        (r.pipeline.run env steps₁).run env steps₂ := List.foldl_append
    rw [hrun, ← hsteps₁]
    exact hsteps₂

end Provisioning
