import Provisioning.Lib.Rely
import Provisioning.Properties.PrefillRounds
import Provisioning.Properties.TopicMatching

/-!
# An attempt at a prefill leaves what was requested

`server/core/prefill/service/udm_prefill.py`, `handle_message`. Three nested loops publish to a
stream that may hold the output of any number of attempts that were cut short, and live messages
besides. An attempt begins with a purge of its own subject, so what those attempts left is gone
before the first message is published; and it publishes in the order of the loops.

The attempt is not assumed to be alone. Between two of its calls the other jobs may do whatever
they like elsewhere, and live messages may arrive in the stream of the subscription itself.

What an attempt that returns may still have missed is the status: it is reported by an address, and
the address of "%61" is taken for that of "a". `attempt_exact` says that this is all. A name that no
route takes is no exception, because its attempts raise at the first report or at the last.

## The attempt is not alone

What is shown of the attempt is a triple with a *rely*: between two calls the world may be changed
in any way that keeps the record, the prefill and the live messages that are there (`LiveOnly`). The
assertion is chosen so that no such change can falsify it: it fixes the prefill exactly, and of the
live messages only the front (`Filled`).

## Three loops, one assertion

Each loop publishes a list, and after it the list is what was there before with this one behind it.
So the assertion carries what has been published so far as a parameter, and a loop is one induction
with this parameter generalized. What is published in all is a function of the request
(`requested`), written in the order of the loops.
-/

namespace Provisioning

open Await Store Prog

/-! ## What was requested -/

/-- The object types that a topic asks for, in the order in which UDM lists them. -/
def requestedTypes (env : Env) (topic : String) : List String :=
  env.objectTypes.filter fun objectType => env.fullmatch topic objectType = some true

/-- The messages of one topic. -/
def requestedOfTopic (env : Env) (topic : String) : List Message :=
  (requestedTypes env topic).flatMap fun objectType =>
    (env.listObjects objectType).map (prefillMessage env objectType)

/-- **The messages a request asks for, in order**: by topic in the order of the request, by object
type in the order of UDM, by object in the order of UDM. -/
def requested (env : Env) (r : PrefillMessage) : List Message :=
  r.realmsTopics.flatMap fun rt => if rt.realm = "udm" then requestedOfTopic env rt.topic else []

/-! ## The state of a subscription's stream -/

/-- The messages in the stream of a subscription that were published to this subject. -/
def World.messages (w : World) (name subject : String) : List (Stored Payload) :=
  match w.streams (streamKey name) with
  | some s => s.msgs.filter (·.subject == subject)
  | none => []

/-- What the others may do to a subscription during an attempt: publish live messages to it. -/
structure LiveOnly (name : String) (w w' : World) : Prop where
  record : w'.record name = w.record name
  prefill : w'.messages name (prefillSubject name) = w.messages name (prefillSubject name)
  main : w.messages name (mainSubject name) <+: w'.messages name (mainSubject name)

theorem LiveOnly.refl (name : String) (w : World) : LiveOnly name w w :=
  ⟨rfl, rfl, List.prefix_refl _⟩

theorem LiveOnly.trans {name : String} {u v w : World} (h : LiveOnly name u v)
    (h' : LiveOnly name v w) : LiveOnly name u w :=
  ⟨h'.record.trans h.record, h'.prefill.trans h.prefill, h.main.trans h'.main⟩

/-- So far `out` has been published to the prefill, and the live messages are still those of
`front`, with perhaps more behind them. -/
structure Filled (name : String) (front : List (Stored Payload)) (out : List Message)
    (w : World) : Prop where
  prefill : (w.messages name (prefillSubject name)).map (·.payload) = out.map Payload.message
  main : front <+: w.messages name (mainSubject name)

variable {env : Env} {tid : Nat} {name : String} {front : List (Stored Payload)}
  {out : List Message} {w w' : World}

theorem messages_of_stream {s : Store.Stream Payload} (h : w.streams (streamKey name) = some s)
    (subject : String) : w.messages name subject = s.msgs.filter (·.subject == subject) := by
  unfold World.messages
  rw [h]

/-- The messages depend on nothing but the streams. -/
theorem messages_congr (h : w'.streams = w.streams) (name subject : String) :
    w'.messages name subject = w.messages name subject := by
  unfold World.messages
  rw [h]

theorem Filled.congr (h : Filled name front out w) (hs : w'.streams = w.streams) :
    Filled name front out w' :=
  ⟨by rw [messages_congr hs]; exact h.prefill, by rw [messages_congr hs]; exact h.main⟩

theorem Filled.live (h : Filled name front out w) (hw : LiveOnly name w w') :
    Filled name front out w' :=
  ⟨by rw [hw.prefill]; exact h.prefill, h.main.trans hw.main⟩

/-! ## What the calls do to it -/

/-- The purge takes the prefill away, all of it and nothing else. -/
theorem filled_purge (env : Env) (tid : Nat) (h : front <+: w.messages name (mainSubject name))
    (hans : (answer env tid (.purgeStream (streamKey name) (prefillSubject name)) w).1 = .ok ()) :
    Filled name front []
      (answer env tid (.purgeStream (streamKey name) (prefillSubject name)) w).2 := by
  cases hs : w.streams (streamKey name) with
  | none =>
    simp only [answer, hs] at hans
    cases hans
  | some s =>
    rw [messages_of_stream hs] at h
    have hleft : (answer env tid (.purgeStream (streamKey name) (prefillSubject name)) w).2.streams
        (streamKey name) = some (s.keep (·.subject != prefillSubject name)) := by
      simp only [answer, hs, World.streams_setStream_self]
    refine ⟨?_, ?_⟩
    · rw [messages_of_stream hleft, Stream.msgs_keep, List.filter_filter]
      simp
    · rw [messages_of_stream hleft, Stream.msgs_keep, List.filter_filter]
      have hkeep : ∀ m ∈ s.msgs, ((m.subject == mainSubject name) &&
          (m.subject != prefillSubject name)) = (m.subject == mainSubject name) := by
        intro m _
        by_cases hm : m.subject = mainSubject name
        · simp [hm, mainSubject_ne_prefillSubject]
        · simp [hm]
      rw [List.filter_congr hkeep]
      exact h

/-- A message published to the prefill stands behind the others. -/
theorem filled_publish (env : Env) (tid : Nat) (h : Filled name front out w) {m : Message}
    {r : Nat}
    (hans : (answer env tid (.publish (prefillSubject name) (.message m) (streamKey name)) w).1
      = .ok r) :
    Filled name front (out ++ [m])
      (answer env tid (.publish (prefillSubject name) (.message m) (streamKey name)) w).2 := by
  cases hs : w.streams (streamKey name) with
  | none =>
    simp only [answer, hs] at hans
    cases hans
  | some s =>
    obtain ⟨hprefill, hmain⟩ := h
    rw [messages_of_stream hs] at hprefill hmain
    by_cases hsub : prefillSubject name ∈ s.subjects
    · have hleft : (answer env tid (.publish (prefillSubject name) (.message m) (streamKey name))
          w).2.streams (streamKey name)
          = some (s.append (prefillSubject name) (.message m) tid) := by
        simp only [answer, hs, hsub, if_true, World.streams_setStream_self]
      refine ⟨?_, ?_⟩
      · rw [messages_of_stream hleft, Stream.msgs_append, List.filter_append, List.map_append,
          hprefill]
        simp
      · rw [messages_of_stream hleft, Stream.msgs_append, List.filter_append]
        exact hmain.trans (List.prefix_append ..)
    · simp only [answer, hs, hsub, if_false] at hans
      cases hans

/-! ## What the functions ensure -/

/-- A call of the attempt that leaves the streams alone. -/
theorem ensures_aside {op : Op} {β : Type} {f : op.Res → Coro β} {Q : β → World → Prop}
    (hstreams : ∀ w, (answer env tid op w).2.streams = w.streams)
    (h : Filled name front out w)
    (hf : ∀ r w', (∃ w, (answer env tid op w).1 = .ok r) → Filled name front out w' →
      (f r).Ensures (serve env) tid (LiveOnly name) (OnReturn Q) w') :
    ((request op).bind f).Ensures (serve env) tid (LiveOnly name) (OnReturn Q) w := by
  have hcall : (request op).Ensures (serve env) tid (LiveOnly name) (OnReturn fun r w' =>
      (∃ w, (answer env tid op w).1 = .ok r) ∧ Filled name front out w') w :=
    ensures_call fun w' r hw hr => ⟨⟨w', hr⟩, (h.live hw).congr (hstreams w')⟩
  exact hcall.andThen fun r w' hr => hf r w' hr.1 hr.2

theorem ensures_fillObject (objectType url : String) (h : Filled name front out w) :
    (fillObject url objectType name).Ensures (serve env) tid (LiveOnly name)
      (OnReturn fun _ => Filled name front (out ++ [prefillMessage env objectType url])) w := by
  apply ensures_aside (fun _ => rfl) h
  intro obj w' hobj h'
  obtain ⟨_, hobj⟩ := hobj
  cases hobj
  have hpublish : (request (.publish (prefillSubject name)
      (.message (prefillMessage env objectType url)) (streamKey name))).Ensures (serve env) tid
      (LiveOnly name) (OnReturn fun _ =>
        Filled name front (out ++ [prefillMessage env objectType url])) w' :=
    ensures_call fun w'' _ hw hr => filled_publish env tid (h'.live hw) hr
  exact hpublish.andThen fun _ _ h'' => h''

theorem ensures_fillUdmTopic (objectType : String) (h : Filled name front out w) :
    (fillUdmTopic objectType name).Ensures (serve env) tid (LiveOnly name)
      (OnReturn fun _ => Filled name front
        (out ++ (env.listObjects objectType).map (prefillMessage env objectType))) w := by
  apply ensures_aside (fun _ => rfl) h
  intro urls w' hurls h'
  obtain ⟨_, hurls⟩ := hurls
  cases hurls
  have hloop : (Prog.forEach (env.listObjects objectType) fun url =>
      fillObject url objectType name).Ensures (serve env) tid (LiveOnly name)
      (OnReturn fun _ => Filled name front (out ++ (env.listObjects objectType).flatMap
        fun url => [prefillMessage env objectType url])) w' :=
    ensures_forEach (fun url _ out w h => ensures_fillObject objectType url h) h'
  rw [← List.map_eq_flatMap] at hloop
  exact hloop

theorem compiles_of_matchingTypes {topic : String} {names ms : List String}
    (h : matchingTypes env topic names = .ok ms) :
    ∀ objectType ∈ names, env.fullmatch topic objectType ≠ none := by
  induction names generalizing ms with
  | nil => nofun
  | cons n ns ih =>
    unfold matchingTypes matchTopic at h
    intro objectType hmem
    cases hfull : env.fullmatch topic n with
    | none =>
      simp only [hfull] at h
      cases h
    | some found =>
      cases hrest : matchingTypes env topic ns with
      | error e =>
        simp only [hfull, hrest] at h
        cases h
      | ok others =>
        rcases List.mem_cons.mp hmem with rfl | hmem
        · rw [hfull]
          exact Option.some_ne_none found
        · exact ih hrest objectType hmem

/-- A topic that compiles selects the types that match, in their order. -/
theorem matchingTypes_eq {topic : String} {names ms : List String}
    (h : matchingTypes env topic names = .ok ms) :
    ms = names.filter fun objectType => env.fullmatch topic objectType = some true := by
  induction names generalizing ms with
  | nil =>
    cases h
    rfl
  | cons n ns ih =>
    unfold matchingTypes matchTopic at h
    cases hfull : env.fullmatch topic n with
    | none =>
      simp only [hfull] at h
      cases h
    | some found =>
      cases hrest : matchingTypes env topic ns with
      | error e =>
        simp only [hfull, hrest] at h
        cases h
      | ok others =>
        simp only [hfull, hrest] at h
        have hothers := ih hrest
        cases found with
        | true =>
          cases h
          rw [List.filter_cons_of_pos (by simp [hfull]), hothers]
          rfl
        | false =>
          cases h
          rw [List.filter_cons_of_neg (by simp [hfull]), hothers]
          rfl

theorem ensures_fetchUdm (topic : String) (h : Filled name front out w) :
    (fetchUdm env name topic).Ensures (serve env) tid (LiveOnly name)
      (OnReturn fun _ => Filled name front (out ++ requestedOfTopic env topic)) w := by
  apply ensures_aside (fun _ => rfl) h
  intro udmModules w' htypes h'
  obtain ⟨_, htypes⟩ := htypes
  cases htypes
  cases hmatch : matchingTypes env topic env.objectTypes with
  | error e => trivial
  | ok udmMatch =>
    have hrequested : requestedOfTopic env topic = udmMatch.flatMap fun objectType =>
        (env.listObjects objectType).map (prefillMessage env objectType) := by
      rw [matchingTypes_eq hmatch]
      rfl
    rw [hrequested]
    exact ensures_forEach (fun objectType _ out w h => ensures_fillUdmTopic objectType h) h'

/-- What an answer of the API shows: a failure is an error status. -/
def Shows (Q : World → Prop) : Except Exc Nat → World → Prop
  | .ok _, w => Q w
  | .error e, _ => 400 ≤ statusOf (.error e)

/-- A caller of the API that gets past `raise_for_status` knows that the route returned. -/
theorem ensures_internalRequest {route : Coro Nat} {rely : World → World → Prop}
    {Q : World → Prop} (h : route.Ensures (serve env) tid rely (Shows Q) w) :
    (internalRequest route).Ensures (serve env) tid rely (OnReturn fun _ => Q) w := by
  have htry : (route.tryCatch fun e => Prog.pure (statusOf (.error e))).Ensures (serve env) tid rely
      (OnReturn fun code w' => code < 400 → Q w') w := by
    apply h.tryCatch (fun _ _ hQ _ => hQ)
    intro e w' he hcode
    exact absurd hcode (Nat.not_lt.mpr he)
  apply htry.andThen
  intro code w' hcode
  split
  · trivial
  · next hlt => exact hcode (Nat.not_le.mp hlt)

/-- The reports about `name` are not taken for ones about another subscription. -/
def OwnReports (name : String) : Prop := ∀ other, TakenFor name other → other = name

/-- A status that was set is the stored one. -/
theorem ensures_status (hown : OwnReports name) (status : FillQueueStatus)
    (h : Filled name front out w) :
    (updateSubscriptionQueueStatus env name status).Ensures (serve env) tid (LiveOnly name)
      (OnReturn fun _ w' => Filled name front out w' ∧
        (w'.record name).map (·.prefillQueueStatus) = some status) w := by
  rcases updateSubscriptionQueueStatus_cases env name status with
    ⟨other, htaken, heq⟩ | ⟨-, code, heq⟩
  swap
  · rw [heq]
    trivial
  rw [heq, hown other htaken]
  refine ensures_internalRequest ?_
  -- Whatever fails on the way is no `HTTPException`, or the one with status 404.
  have hset : (setSubscriptionQueueStatus name status).Ensures (serve env) tid (LiveOnly name)
      (fun x w' => Shows (fun w' => Filled name front out w' ∧
        (w'.record name).map (·.prefillQueueStatus) = some status)
        ((notFoundOutcome x).map fun _ => 200) w') w := by
    unfold setSubscriptionQueueStatus getSubscriptionInfo
    rw [bind_eq, getValue_bind]
    intro w₁ hw₁ f₁
    have h₁ : Filled name front out
        ((serve env).left tid (.kvGet .subscriptions name) w₁ f₁) :=
      Server.left_preserves (h.live hw₁) fun _ => by
        rw [serve_answer, kvGet_world]
        exact h.live hw₁
    cases (serve env).heard tid (.kvGet .subscriptions name) w₁ f₁ with
    | error x =>
      by_cases hx : x = .keyNotFound
      · simp only [hx, if_true]
        show 400 ≤ 404
        decide
      · simp only [hx, if_false]
        show 400 ≤ 500
        decide
    | ok entry =>
      intro w₂ hw₂ f₂
      cases f₂ with
      | ok =>
        refine ⟨(h₁.live hw₂).congr rfl, ?_⟩
        rw [Server.left_ok, serve_answer]
        simp [answer, World.record]
      | before e =>
        show 400 ≤ 500
        decide
      | after e =>
        show 400 ≤ 500
        decide
  refine Ensures.bind (R := fun x w' => Shows _ (x.map fun _ => 200) w') ?_
    (fun _ _ hQ => hQ) fun _ _ he => he
  apply hset.tryCatch (fun _ _ hQ => hQ)
  intro e w' he
  cases e with
  | valueError msg => exact he
  | _ => exact he

theorem ensures_fillQueue {r : PrefillMessage} (hown : OwnReports r.subscriptionName)
    (h : front <+: w.messages r.subscriptionName (mainSubject r.subscriptionName)) :
    (fillQueue env r).Ensures (serve env) tid (LiveOnly r.subscriptionName)
      (OnReturn fun _ => Filled r.subscriptionName front (requested env r)) w := by
  have hpurge : (request (.purgeStream (streamKey r.subscriptionName)
      (prefillSubject r.subscriptionName))).Ensures (serve env) tid (LiveOnly r.subscriptionName)
      (OnReturn fun _ => Filled r.subscriptionName front []) w :=
    ensures_call fun w' _ hw hr => filled_purge env tid (h.trans hw.main) hr
  apply Ensures.andThen hpurge
  intro _ w' h'
  refine ensures_forEach (I := Filled r.subscriptionName front)
    (g := fun rt : RealmTopic => if rt.realm = "udm" then requestedOfTopic env rt.topic else [])
    (fun rt _ out w h => ?_) h'
  by_cases hudm : rt.realm = "udm"
  · simp only [hudm, if_true]
    exact (ensures_status hown .running h).andThen fun _ _ h => ensures_fetchUdm rt.topic h.1
  · simp only [hudm, if_false]
    rw [List.append_nil]
    exact h

/-- What an attempt within the limit leaves. -/
theorem ensures_handlePrefill {request : Msg} {r : PrefillMessage}
    (hr : request.payload = .prefill r)
    (hlimit : ¬ (env.maxPrefillAttempts ≠ -1 ∧
      (request.numDelivered : Int) > env.maxPrefillAttempts))
    (hown : OwnReports r.subscriptionName) :
    (handlePrefill env request).Ensures (serve env) tid (LiveOnly r.subscriptionName)
      (OnReturn fun _ w' => Filled r.subscriptionName
        (w.messages r.subscriptionName (mainSubject r.subscriptionName)) (requested env r) w' ∧
        (w'.record r.subscriptionName).map (·.prefillQueueStatus) = some .done) w := by
  unfold handlePrefill validatedPrefill
  rw [hr]
  simp only [pure_eq, bind_eq, bind_pure, if_neg hlimit]
  exact (ensures_fillQueue hown (List.prefix_refl _)).andThen fun _ _ h =>
    ensures_status hown .done h

/-! ## An attempt that does not return -/

/-- A topic that does not compile raises, whatever was done before it. -/
theorem ensures_compiled {msg : Msg} {r : PrefillMessage} (hr : msg.payload = .prefill r)
    (hlimit : ¬ (env.maxPrefillAttempts ≠ -1 ∧
      (msg.numDelivered : Int) > env.maxPrefillAttempts))
    (hinvalid : ¬ TopicsCompile env r.realmsTopics) (w : World) :
    (handlePrefill env msg).Ensures (serve env) tid (LiveOnly r.subscriptionName)
      (OnReturn fun _ _ => False) w := by
  obtain ⟨rt, hrt, hudm, objectType, htype, hnone⟩ : ∃ rt ∈ r.realmsTopics, rt.realm = "udm" ∧
      ∃ t ∈ env.objectTypes, env.fullmatch rt.topic t = none := by
    simpa [TopicsCompile] using hinvalid
  have hreturns : ∀ {α : Type} (p : Coro α) (w : World), p.Ensures (serve env) tid
      (LiveOnly r.subscriptionName) (OnReturn fun _ _ => True) w := fun p w =>
    ensures_of_forall (fun x _ => by cases x <;> trivial) p w
  -- A pattern that does not compile makes the whole list of matches raise, wherever it stands in
  -- it.
  have hraises : ∃ e, matchingTypes env rt.topic env.objectTypes = .error e := by
    cases hmatch : matchingTypes env rt.topic env.objectTypes with
    | error e => exact ⟨e, rfl⟩
    | ok ms => exact absurd hnone (compiles_of_matchingTypes hmatch objectType htype)
  obtain ⟨e, hraises⟩ := hraises
  have hfetch : ∀ w, (fetchUdm env r.subscriptionName rt.topic).Ensures (serve env) tid
      (LiveOnly r.subscriptionName) (OnReturn fun _ _ => False) w := by
    intro w
    have htypes : (request .getObjectTypes).Ensures (serve env) tid (LiveOnly r.subscriptionName)
        (OnReturn (α := Op.Res .getObjectTypes) fun types _ => types = env.objectTypes) w :=
      ensures_call fun _ _ _ h => (Except.ok.inj h).symm
    refine htypes.andThen fun types w' h => ?_
    rw [h, hraises]
    trivial
  have hloop : ∀ w, (fillQueue env r).Ensures (serve env) tid (LiveOnly r.subscriptionName)
      (OnReturn fun _ _ => False) w := by
    intro w
    refine (hreturns _ w).andThen fun _ w' _ => ensures_forEach_of_mem hrt (fun w => ?_) w'
    simp only [hudm, if_true]
    exact (hreturns _ w).andThen fun _ w' _ => hfetch w'
  unfold handlePrefill validatedPrefill
  rw [hr]
  simp only [pure_eq, bind_eq, bind_pure, if_neg hlimit]
  exact (hloop w).andThen fun _ _ h => h.elim

/-! ## The attempt in a pool -/

/-- What was requested is there, and the live messages still are. -/
structure LeavesRequested (env : Env) (r : PrefillMessage) (w w' : World) : Prop where
  prefill : (w'.messages r.subscriptionName (prefillSubject r.subscriptionName)).map (·.payload) =
    (requested env r).map .message
  main : w.messages r.subscriptionName (mainSubject r.subscriptionName) <+:
    w'.messages r.subscriptionName (mainSubject r.subscriptionName)
  status : (w'.record r.subscriptionName).map (·.prefillQueueStatus) = some .done

/-- **An attempt that returns has produced what was requested, whatever came before.** The pool is
in any state when job `i` begins its attempt at the request: the stream may hold anything, and
earlier attempts may have been cut anywhere. -/
def AttemptsExact (env : Env) (request : Msg) (r : PrefillMessage) : Prop :=
  ∀ (c d : System) (i : Nat) (ls : Schedule),
    c.prog i = (handlePrefill env request).bind (fun _ => .pure .finished) →
    c.Along (serve env) (Config.Relies (serve env) (LiveOnly r.subscriptionName) i) ls →
    c.run (serve env) ls = some d → d.prog i = .pure .finished →
    LeavesRequested env r c.world d.world

theorem attemptsExact_of_own {request : Msg} {r : PrefillMessage}
    (hr : request.payload = .prefill r)
    (hlimit : ¬ (env.maxPrefillAttempts ≠ -1 ∧
      (request.numDelivered : Int) > env.maxPrefillAttempts))
    (hown : OwnReports r.subscriptionName) : AttemptsExact env request r := by
  intro c d i ls hstart hothers hrun hreturns
  have hensures : (c.prog i).Ensures (serve env) i (LiveOnly r.subscriptionName)
      (OnReturn fun _ w' => Filled r.subscriptionName
        (c.world.messages r.subscriptionName (mainSubject r.subscriptionName))
        (requested env r) w' ∧
        (w'.record r.subscriptionName).map (·.prefillQueueStatus) = some .done) c.world := by
    rw [hstart]
    exact (ensures_handlePrefill hr hlimit hown).andThen fun _ _ h => h
  obtain ⟨w, hlive, hend⟩ := Config.run_ensures (LiveOnly.refl _) (fun _ _ _ => LiveOnly.trans)
    hensures hothers hrun
  rw [hreturns] at hend
  obtain ⟨hfilled, hstatus⟩ := hend
  have h := hfilled.live hlive
  exact ⟨h.prefill, h.main, by rw [hlive.record]; exact hstatus⟩

theorem attemptsExact_of_invalid {request : Msg} {r : PrefillMessage}
    (hr : request.payload = .prefill r)
    (hlimit : ¬ (env.maxPrefillAttempts ≠ -1 ∧
      (request.numDelivered : Int) > env.maxPrefillAttempts))
    (hinvalid : ¬ TopicsCompile env r.realmsTopics) : AttemptsExact env request r := by
  intro c d i ls hstart hothers hrun hreturns
  have hensures : (c.prog i).Ensures (serve env) i (LiveOnly r.subscriptionName)
      (OnReturn fun _ _ => False) c.world := by
    rw [hstart]
    exact (ensures_compiled hr hlimit hinvalid c.world).andThen fun _ _ h => h.elim
  obtain ⟨w, -, hend⟩ := Config.run_ensures (LiveOnly.refl _) (fun _ _ _ => LiveOnly.trans)
    hensures hothers hrun
  rw [hreturns] at hend
  exact hend.elim

/-! ### The status of another one -/

/-- Both subscriptions wait for their prefill. -/
def World.bothPending (name other : String) : World :=
  let pending (name : String) : Subscription := ⟨name, [], true, .pending⟩
  (World.empty.setBucket .subscriptions
    ((Store.Bucket.empty.put other (pending other)).put name (pending name))).setStream
      (streamKey name) (some (.new [mainSubject name, prefillSubject name] false))

/-- The calls for a name whose reports are taken for another leave its record alone. -/
theorem record_handle {name other : String} (htaken : TakenFor name other) (hne : other ≠ name)
    {op : Op} (hop : HandleCall name op) (w : World) :
    (answer env tid op w).2.record name = w.record name := by
  rcases record_answer env tid op w name with hsame | ⟨sub, hput, -⟩ | ⟨hdelete, -⟩
  · exact hsame
  · subst hput
    cases hop with
    | status status htaken' hop =>
      cases hop
      exact absurd (htaken.unique htaken').symm hne
  · subst hdelete
    cases hop with
    | status status htaken' hop => cases hop

/-- **Where the reports are taken for another, an attempt returns with the status as it was.** -/
theorem not_attemptsExact {request : Msg} {r : PrefillMessage} (hr : request.payload = .prefill r)
    (hlimit : env.maxPrefillAttempts = -1 ∨
      (request.numDelivered : Int) ≤ env.maxPrefillAttempts)
    (hvalid : TopicsCompile env r.realmsTopics) {other : String}
    (htaken : TakenFor r.subscriptionName other) (hne : other ≠ r.subscriptionName) :
    ¬ AttemptsExact env request r := by
  intro h
  have hpending : ((World.bothPending r.subscriptionName other).record r.subscriptionName).map
      (·.prefillQueueStatus) = some .pending := by
    simp [World.bothPending, World.record]
  have hready : Ready (.bothPending r.subscriptionName other) r.subscriptionName := by
    refine ⟨⟨other, htaken, ?_⟩, _, World.streams_setStream_self .., by simp⟩
    simp [World.bothPending, World.record, Bucket.value?_put, hne]
  obtain ⟨w', l, hruns, -⟩ := runs_handlePrefill env 0 hr hlimit hready hvalid
  have hkept : (w'.record r.subscriptionName).map (·.prefillQueueStatus) = some .pending := by
    refine Runs.keeps (I := fun w => (w.record r.subscriptionName).map (·.prefillQueueStatus) =
      some .pending) (uses_handlePrefill request) (fun op w hop hw => ?_) hruns hpending
    obtain ⟨m, hm, hop⟩ := hop
    obtain rfl := Payload.prefill.inj (hr.symm.trans hm)
    rw [serve_answer, record_handle htaken hne hop]
    exact hw
  obtain ⟨c, hc⟩ : ∃ c : System, c = .init (.bothPending r.subscriptionName other) fun _ =>
      (handlePrefill env request).bind fun _ => .pure .finished := ⟨_, rfl⟩
  have hjob : (c.prog 0).Runs (serve env) 0 c.world .finished w' (l ++ []) := by
    rw [hc]
    exact hruns.bind (Runs.pure _ _)
  obtain ⟨ls, d, hls, hrun, hreturns, hworld⟩ := Config.run_of_runs hjob
  have hleaves := h c d 0 ls (by rw [hc]; rfl)
    (Config.along_relies fun l hl => by rw [hls l hl]) hrun hreturns
  have hdone := hleaves.status
  rw [hworld, hkept] at hdone
  cases hdone

/-- **When an attempt that returns has produced what was requested**: where its reports are not
taken for ones about another subscription, or where it never returns, because a topic does not
compile. -/
theorem attempt_exact (env : Env) (request : Msg) (r : PrefillMessage)
    (hr : request.payload = .prefill r)
    (hlimit : env.maxPrefillAttempts = -1 ∨
      (request.numDelivered : Int) ≤ env.maxPrefillAttempts) :
    AttemptsExact env request r ↔
      OwnReports r.subscriptionName ∨ ¬ TopicsCompile env r.realmsTopics := by
  constructor
  · intro h
    by_contra hnot
    obtain ⟨hother, hvalid⟩ := not_or.mp hnot
    obtain ⟨other, htaken, hne⟩ : ∃ other, TakenFor r.subscriptionName other ∧
        other ≠ r.subscriptionName := by simpa [OwnReports] using hother
    exact not_attemptsExact hr hlimit (not_not.mp hvalid) htaken hne h
  · intro h
    rcases h with hown | hinvalid
    · exact attemptsExact_of_own hr (within_limit hlimit) hown
    · exact attemptsExact_of_invalid hr (within_limit hlimit) hinvalid

/-! ## The second attempt, and one under another name -/

-- The reports of the run below are requests that the app evaluates.
attribute [local semireducible] receive

/-- The request of the sample subscription, delivered for the second time. -/
def secondDelivery : Msg where
  stream := streamKey PREFILL_STREAM
  durable := durableKey PREFILL_STREAM
  subject := PREFILL_STREAM
  payload := .prefill (prefillRequest .sample)
  streamSeq := 1
  numDelivered := 2
  origin := 0

/-- "a" is registered, a live message has arrived, and a first attempt died after it had published
its message. -/
def World.halfFilled : World :=
  ((handlePrefill .sample secondDelivery).attempt (serve .sample) 1 (List.replicate 7 .ok)
    (answer .sample 0 (.publish (mainSubject "a") (.message .sample) (streamKey "a"))
      .registered).2).world

/-- The second attempt, alone. -/
def secondAttempt : System :=
  .init .halfFilled fun i =>
    if i = 0 then (handlePrefill .sample secondDelivery).bind fun _ => .pure .finished
    else .pure .finished

theorem attempt_exact_again : ∃ d : System,
    secondAttempt.run (serve .sample) (List.replicate 9 (0, .ok)) = some d ∧
      LeavesRequested .sample (prefillRequest .sample) .halfFilled d.world := by
  obtain ⟨d, hrun, hreturns⟩ : ∃ d : System,
      secondAttempt.run (serve .sample) (List.replicate 9 (0, .ok)) = some d ∧
        d.prog 0 = .pure .finished := ⟨_, rfl, rfl⟩
  have hown : OwnReports "a" := fun other htaken =>
    ((takenFor_self_iff "a").mpr (by decide)).unique htaken
  have hexact := (attempt_exact .sample secondDelivery (prefillRequest .sample) rfl
    (Or.inr (by decide))).mpr (Or.inl hown)
  exact ⟨d, hrun, hexact secondAttempt d 0 _ rfl (Config.along_relies (by decide +kernel)) hrun
    hreturns⟩

/-- The same request for a subscription with the name "%61", which is "a" in an address. -/
def escapedRequest : PrefillMessage := { prefillRequest .sample with subscriptionName := "%61" }

theorem not_attempt_exact : ¬ ∀ (env : Env) (request : Msg) (r : PrefillMessage),
    request.payload = .prefill r →
    (env.maxPrefillAttempts = -1 ∨ (request.numDelivered : Int) ≤ env.maxPrefillAttempts) →
    AttemptsExact env request r := by
  intro h
  have htaken : TakenFor escapedRequest.subscriptionName "a" := by decide
  exact not_attemptsExact rfl (Or.inr (by decide)) (compiles_sample _) htaken (by decide)
    (h .sample { secondDelivery with payload := .prefill escapedRequest } escapedRequest rfl
      (Or.inr (by decide)))

end Provisioning
