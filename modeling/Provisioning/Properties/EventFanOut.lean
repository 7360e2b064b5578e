import Provisioning.Properties.DispatchOrder
import Provisioning.Properties.RecordNames
import Provisioning.Properties.RegisteredEvents

/-!
# Whom an event is sent to

The handler of an event looks the mapping up once and then walks a set that nobody changes any more:
a refresh does not add to the mapping, it puts another one in its place. So it does not matter what
happens between two publishes; what matters is which records the refresh had read that set the
mapping the handler has found.

Both are read off the history of a pool in which the handler, the refreshes and everything else run
at the same time. **`fan_out_exact`** compares them.

## Why the history

The property is about three moments: when the refresh reads its records, when it sets the mapping,
and when the handler looks it up. No state of the system has all three in it. By the time of the
lookup the records may be others, and when the last event is published the mapping may be another
one as well. So the snapshot is computed from the history (`snapshot`): the last landed call that
set the mapping, and from there back the records that the same program had heard.

## The invariant

`FanningOut` has one part for each kind of program. A refresh holds the records it has read so far
(`RefreshAt`), which agree with what the history says it has heard; so when it sets the mapping, it
is that of the snapshot. The handler stands at its start, in the middle of its list, or at its end
(`HandlerAt`). In the middle it remembers its lookup by splitting the history there: what is
published is compared with the snapshot of the history *before* that, and events that come later are
only added in front of the split. All other jobs do not set the mapping.

That nobody is served twice needs one thing more: the set distinguishes subscriptions by their
content, and the queues are found by name. Two records of one name could be told apart by the set
and share a queue. `RecordNames` excludes that, and is carried along in the invariant.
-/

namespace Provisioning

open Await Store Prog

/-! ## The set -/

/-! A mapping holds Python sets of subscriptions. A set compares hashes before it compares the
elements, so the first thing to be seen is that this hash agrees with equality. -/

/-- Two subscriptions are equal if they are the same. -/
theorem Subscription.eq_iff {a b : Subscription} : a.eq b = true ↔ a = b := by
  constructor
  · intro h
    unfold Subscription.eq baseEq at h
    have hmodel : a.modelEq b = true := by
      by_contra hne
      rw [Bool.eq_false_iff.mpr hne] at h
      cases h
    unfold modelEq at hmodel
    simp only [Bool.and_eq_true, beq_iff_eq] at hmodel
    obtain ⟨⟨⟨hname, htopics⟩, hprefill⟩, hstatus⟩ := hmodel
    cases a
    cases b
    cases hname
    cases htopics
    cases hprefill
    cases hstatus
    rfl
  · intro h
    subst h
    simp [Subscription.eq, baseEq, modelEq]

namespace Mapping

/-- **The hash does no harm**: whatever it is, the set holds each subscription once. -/
theorem hashAdd_eq (strHash : String → Int) (sub : Subscription) (subs : List Subscription) :
    hashAdd strHash sub subs = addToSet sub subs := by
  unfold hashAdd addToSet
  have hmem : (subs.any fun s => s.hash strHash == sub.hash strHash && s.eq sub) = true ↔
      sub ∈ subs := by
    rw [List.any_eq_true]
    constructor
    · intro ⟨s, hs, hsame⟩
      rw [← Subscription.eq_iff.mp (Bool.and_eq_true_iff.mp hsame).2]
      exact hs
    · intro hsub
      refine ⟨sub, hsub, ?_⟩
      rw [Subscription.eq_iff.mpr rfl, beq_self_eq_true]
      rfl
  by_cases h : sub ∈ subs
  · rw [if_pos h, if_pos (hmem.mpr h)]
  · rw [if_neg h, if_neg fun hany => h (hmem.mp hany)]

/-- Adding keeps the elements distinct, under one topic and under all. -/
theorem nodup_addToSet {sub : Subscription} {subs : List Subscription} (h : subs.Nodup) :
    (addToSet sub subs).Nodup := by
  unfold addToSet
  by_cases hsub : sub ∈ subs
  · rw [if_pos hsub]
    exact h
  · rw [if_neg hsub]
    apply h.append (List.nodup_singleton sub)
    intro s hs hs'
    exact hsub (List.mem_singleton.mp hs' ▸ hs)

theorem nodup_subscribers_add {mapping : Mapping} {rt : RealmTopic} {sub : Subscription}
    (h : ∀ realm topic, (mapping.subscribers realm topic).Nodup) (realm topic : String) :
    ((add mapping rt sub).subscribers realm topic).Nodup := by
  have hold := h realm topic
  unfold add subscribers at *
  rw [lookup_upsert]
  by_cases hr : realm = rt.realm
  · rw [if_pos hr, Option.getD_some, lookup_upsert]
    by_cases ht : topic = rt.topic
    · rw [if_pos ht, Option.getD_some]
      rw [hr, ht] at hold
      exact nodup_addToSet hold
    · rw [if_neg ht]
      rw [hr] at hold
      exact hold
  · rw [if_neg hr]
    exact hold

/-- Nobody is listed twice. -/
theorem nodup_subscribers_ofSubscriptions (subs : List Subscription) (realm topic : String) :
    ((ofSubscriptions subs).subscribers realm topic).Nodup := by
  have hall : ∀ (rts : List RealmTopic) (sub : Subscription) (mapping : Mapping),
      (∀ realm topic, (mapping.subscribers realm topic).Nodup) → ∀ realm topic,
      ((rts.foldl (fun mapping rt => add mapping rt sub) mapping).subscribers
        realm topic).Nodup := by
    intro rts sub
    induction rts with
    | nil => exact fun mapping h => h
    | cons rt rts ih => exact fun mapping h => ih _ (nodup_subscribers_add h)
  have hfold : ∀ mapping : Mapping,
      (∀ realm topic, (mapping.subscribers realm topic).Nodup) → ∀ realm topic,
      ((subs.foldl (fun mapping sub =>
        sub.realmsTopics.foldl (fun mapping rt => add mapping rt sub) mapping)
          mapping).subscribers realm topic).Nodup := by
    induction subs with
    | nil => exact fun mapping h => h
    | cons sub subs ih => exact fun mapping h => ih _ (hall sub.realmsTopics sub mapping h)
  exact hfold [] (fun _ _ => List.nodup_nil) realm topic

/-- **The fan-out of a snapshot**: the subscriptions that list the topic, each of them once. -/
theorem subscribers_perm {subs : List Subscription} (h : subs.Nodup) (realm topic : String) :
    ((ofSubscriptions subs).subscribers realm topic).Perm
      (subs.filter fun sub => decide (⟨realm, topic⟩ ∈ sub.realmsTopics)) := by
  apply (List.perm_ext_iff_of_nodup (nodup_subscribers_ofSubscriptions subs realm topic)
    (h.filter _)).mpr
  intro sub
  rw [mem_subscribers_ofSubscriptions, List.mem_filter, decide_eq_true_eq]

end Mapping

/-! ## The history -/

/-- The calls of one program, in their order. -/
def callsOf (i : Nat) : History → List Op
  | [] => []
  | ev :: hist => callsOf i hist ++ if ev.tid = i then [ev.op] else []

/-- The record an answer brings. -/
def recordHeard : (op : Op) → Except CallError op.Res → List Subscription
  | .kvGet .subscriptions _, .ok e => [e.value]
  | _, _ => []

/-- The records one program has read, in their order. -/
def recordsHeard (i : Nat) : History → List Subscription
  | [] => []
  | ev :: hist => recordsHeard i hist ++ if ev.tid = i then recordHeard ev.op ev.heard else []

/-- The records of the last refresh that got to its end; before the first one, these. -/
def snapshot (first : List Subscription) : History → List Subscription
  | [] => first
  | ev :: hist =>
    if setsMapping ev.op = true ∧ ev.fault.Lands then recordsHeard ev.tid hist
    else snapshot first hist

/-- The publish of an event to a subscription. -/
def publishTo (m : Message) (sub : Subscription) : Op :=
  .publish (mainSubject sub.name) (.message m) (streamKey sub.name)

/-- **The fan-out was exact.** The program has looked the mapping up; then it has published the
event to each subscription that lists its topic in the snapshot of that moment, once, and to nobody
else; then it has acknowledged the event, and all this was answered. -/
structure ExactFanOut (i : Nat) (msg : Msg) (m : Message) (first : List Subscription)
    (hist : History) : Prop where
  answered : ∀ ev ∈ hist, ev.tid = i → ∃ r, ev.heard = .ok r
  calls : ∃ (later : History) (lookup : Event Op Op.Res CallError Outage World)
    (earlier : History) (receivers : List Subscription), hist = later ++ lookup :: earlier ∧
    lookup.tid = i ∧ lookup.op = .mappingGet ∧
    callsOf i hist = .mappingGet :: receivers.map (publishTo m) ++ [.ack msg] ∧
    receivers.Perm ((snapshot first earlier).filter fun sub =>
      decide (⟨m.realm, m.topic⟩ ∈ sub.realmsTopics)) ∧
    (receivers.map (·.name)).Nodup

/-! ## The refreshes -/

/-! The scan of the records as a program with an accumulator: `loadRest` has the records that were
read and the keys that were not. Every point of a refresh is one of these. -/

/-- What is left of a refresh that has read these records and is to read those keys. -/
def loadRest (subs : List Subscription) (keys : List String) : Coro Unit :=
  (keys.foldr thenReads (.pure [])).bind fun rest =>
    request (.mappingSet (Mapping.ofSubscriptions (subs ++ rest)))

/-- With no key left the mapping is set. -/
theorem loadRest_nil (subs : List Subscription) :
    loadRest subs [] = request (.mappingSet (Mapping.ofSubscriptions subs)) := by
  unfold loadRest
  rw [List.foldr_nil, bind_pure, List.append_nil]

/-- With a key left it is read, and a record that is missing by now raises. -/
theorem loadRest_cons (subs : List Subscription) (key : String) (keys : List String) : ∃ k,
    loadRest subs (key :: keys) = .await (.kvGet .subscriptions key) k ∧
      (∀ e, k (.ok e) = loadRest (subs ++ [e.value]) keys) ∧
      ∀ x, k (.error x) = .throw (.call x) := by
  refine ⟨_, rfl, ?_, fun x => rfl⟩
  intro e
  unfold loadRest
  have hassoc := Prog.bind_assoc (keys.foldr thenReads (.pure []))
    (fun rest => Prog.pure (e.value :: rest))
    (fun rest => request (.mappingSet (Mapping.ofSubscriptions (subs ++ rest))))
  refine Eq.trans hassoc (congrArg (Prog.bind _) (funext fun rest => ?_))
  rw [bind_pure, List.append_assoc]
  rfl

/-- A refresh lists the keys, and then reads them one by one. -/
theorem updateSubscriptionsMapping_eq : ∃ k,
    updateSubscriptionsMapping = .await (.kvKeys .subscriptions) k ∧
      (∀ keys, k (.ok keys) = loadRest [] keys) ∧ ∀ x, k (.error x) = .throw (.call x) :=
  ⟨_, rfl, fun _ => rfl, fun _ => rfl⟩

/-- Where a refresh can be that has read these records. What it has read and what it is to read are
under different names. -/
inductive RefreshAt : List Subscription → Coro Reply → Prop where
  | prepare {op : Op} {k : Except CallError op.Res → Coro Reply} (hset : setsMapping op = false)
      (hread : ∀ r, recordHeard op r = []) (h : ∀ r, RefreshAt [] (k r)) :
      RefreshAt [] (.await op k)
  | start : RefreshAt [] (updateSubscriptionsMapping.bind fun _ => .pure .finished)
  | load (subs : List Subscription) (keys : List String)
      (hnames : (subs.map (·.name) ++ keys).Nodup) :
      RefreshAt subs ((loadRest subs keys).bind fun _ => .pure .finished)
  | ended (subs : List Subscription) (r : Reply) : RefreshAt subs (.pure r)
  | raised (subs : List Subscription) (e : Exc) : RefreshAt subs (.throw e)

/-- What comes before a refresh reads no record. -/
theorem RefreshAt.after {α : Type} {p : Coro α} {f : α → Coro Reply} {P : Op → Prop}
    (hp : p.Uses P) (hset : ∀ op, P op → setsMapping op = false)
    (hread : ∀ op, P op → ∀ r, recordHeard op r = []) (hf : ∀ a, RefreshAt [] (f a)) :
    RefreshAt [] (p.bind f) := by
  induction p with
  | pure a => exact hf a
  | throw e => exact .raised [] e
  | await op k ih => exact .prepare (hset op hp.1) (hread op hp.1) fun r => ih r (hp.2 r)

/-- **A step of a refresh.** It adds the record it reads, and the mapping it sets is that of the
records it has read. -/
theorem RefreshAt.next {subs : List Subscription} {op : Op}
    {k : Except CallError op.Res → Coro Reply} (h : RefreshAt subs (.await op k)) (env : Env)
    {i : Nat} {w : World} {f : Fault Outage} (hnames : WellNamed w) :
    RefreshAt (subs ++ recordHeard op ((serve env).heard i op w f))
        (k ((serve env).heard i op w f)) ∧
      ∀ mapping, op = .mappingSet mapping →
        mapping = Mapping.ofSubscriptions subs ∧ (subs.map (·.name)).Nodup := by
  generalize hp : Prog.await op k = p at h
  cases h with
  -- A call in front of the refresh, which reads no record.
  | prepare hset hread h =>
    cases hp
    rw [hread, List.append_nil]
    refine ⟨h _, ?_⟩
    intro mapping hop
    rw [hop] at hset
    cases hset
  | start =>
    obtain ⟨k', hprog, hok, herror⟩ := updateSubscriptionsMapping_eq
    rw [hprog, bind_await] at hp
    cases hp
    refine ⟨?_, nofun⟩
    show RefreshAt [] _
    cases hr : (serve env).heard i (.kvKeys .subscriptions) w f with
    | error x =>
      dsimp only
      rw [herror]
      exact .raised [] _
    | ok keys =>
      obtain ⟨-, hanswer⟩ := Server.heard_eq_ok hr
      dsimp only
      rw [hok]
      apply RefreshAt.load [] keys
      rw [← Except.ok.inj hanswer]
      exact (w.bucket .subscriptions).entries.keys_nodup
  | load subs keys hnodup =>
    cases keys with
    -- All keys are read: the next call stores the mapping.
    | nil =>
      rw [loadRest_nil] at hp
      cases hp
      show RefreshAt (subs ++ []) _ ∧ _
      rw [List.append_nil] at hnodup ⊢
      refine ⟨?_, ?_⟩
      · cases (serve env).heard i (.mappingSet (Mapping.ofSubscriptions subs)) w f with
        | ok r => exact .ended subs _
        | error x => exact .raised subs _
      · intro mapping hop
        cases hop
        exact ⟨rfl, hnodup⟩
    | cons key keys =>
      obtain ⟨k', hprog, hok, herror⟩ := loadRest_cons subs key keys
      rw [hprog, bind_await] at hp
      cases hp
      refine ⟨?_, nofun⟩
      cases hr : (serve env).heard i (.kvGet .subscriptions key) w f with
      | error x =>
        dsimp only
        rw [herror]
        exact .raised _ _
      | ok e =>
        dsimp only
        rw [hok]
        apply RefreshAt.load (subs ++ [e.value]) keys
        rw [List.map_append, List.map_singleton, hnames.heard hr, List.append_assoc]
        exact hnodup
  | ended subs r => cases hp
  | raised subs e => cases hp

/-! ## The handler -/

/-! The same for the handler, whose accumulator are the subscriptions that it has served. They are
in the history as well, and the two agree. -/

/-- `handle_message`, in a pool. -/
def handler (msg : Msg) : Coro Reply := do handleEvent msg; return .finished

/-- Where the handler can be: at its start; with some receivers served and some left; at its end. -/
inductive HandlerAt (i : Nat) (msg : Msg) (m : Message) (first : List Subscription)
    (hist : History) : Coro Reply → Prop where
  | start (hanswered : ∀ ev ∈ hist, ev.tid = i → ∃ r, ev.heard = .ok r)
      (hcalls : callsOf i hist = []) : HandlerAt i msg m first hist (handler msg)
  | sending (hanswered : ∀ ev ∈ hist, ev.tid = i → ∃ r, ev.heard = .ok r) (later : History)
      (lookup : Event Op Op.Res CallError Outage World) (earlier : History)
      (sent rest : List Subscription) (hhist : hist = later ++ lookup :: earlier)
      (htid : lookup.tid = i) (hop : lookup.op = .mappingGet)
      (hcalls : callsOf i hist = .mappingGet :: sent.map (publishTo m))
      (hreceivers : sent ++ rest =
        (Mapping.ofSubscriptions (snapshot first earlier)).subscribers m.realm m.topic)
      (hnames : ((snapshot first earlier).map (·.name)).Nodup) :
      HandlerAt i msg m first hist ((sendAll m rest msg).bind fun _ => .pure .finished)
  | ended (hexact : ExactFanOut i msg m first hist) : HandlerAt i msg m first hist (.pure .finished)
  | raised (e : Exc) : HandlerAt i msg m first hist (.throw e)

section Handler

variable {i : Nat} {msg : Msg} {m : Message} {first : List Subscription} {hist : History}
  {p : Coro Reply} {ev : Event Op Op.Res CallError Outage World}

/-- What others call is not counted. -/
theorem callsOf_other (h : ev.tid ≠ i) : callsOf i (ev :: hist) = callsOf i hist := by
  rw [callsOf, if_neg h, List.append_nil]

/-- What it calls itself comes last. -/
theorem callsOf_self {op : Op} {f : Fault Outage} {w : World} {r : Except CallError op.Res} :
    callsOf i (⟨i, op, f, w, r⟩ :: hist) = callsOf i hist ++ [op] := by
  rw [callsOf, if_pos rfl]

/-- The program's own calls have been answered, whatever became of those of the others. -/
theorem answered_other (h : ∀ ev ∈ hist, ev.tid = i → ∃ r, ev.heard = .ok r) (hev : ev.tid ≠ i) :
    ∀ ev' ∈ ev :: hist, ev'.tid = i → ∃ r, ev'.heard = .ok r := by
  intro ev' hmem htid
  rcases List.mem_cons.mp hmem with rfl | hmem
  · exact absurd htid hev
  · exact h ev' hmem htid

theorem answered_self (h : ∀ ev ∈ hist, ev.tid = i → ∃ r, ev.heard = .ok r)
    (hev : ∃ r, ev.heard = .ok r) : ∀ ev' ∈ ev :: hist, ev'.tid = i → ∃ r, ev'.heard = .ok r := by
  intro ev' hmem htid
  rcases List.mem_cons.mp hmem with rfl | hmem
  · exact hev
  · exact h ev' hmem htid

/-- **What the others do between two publishes** does not matter. -/
theorem HandlerAt.other (h : HandlerAt i msg m first hist p) (hev : ev.tid ≠ i) :
    HandlerAt i msg m first (ev :: hist) p := by
  cases h with
  | start hanswered hcalls =>
    exact .start (answered_other hanswered hev) ((callsOf_other hev).trans hcalls)
  | sending hanswered later lookup earlier sent rest hhist htid hop hcalls hreceivers hnames =>
    exact .sending (answered_other hanswered hev) (ev :: later) lookup earlier sent rest
      (congrArg (ev :: ·) hhist) htid hop ((callsOf_other hev).trans hcalls) hreceivers hnames
  | ended hexact =>
    obtain ⟨later, lookup, earlier, receivers, hhist, htid, hop, hcalls, hrest⟩ := hexact.calls
    exact .ended ⟨answered_other hexact.answered hev, ev :: later, lookup, earlier, receivers,
      congrArg (ev :: ·) hhist, htid, hop, (callsOf_other hev).trans hcalls, hrest⟩
  | raised e => exact .raised e

/-- The receivers of a snapshot have different names. -/
theorem nodup_receivers {subs receivers : List Subscription} (h : (subs.map (·.name)).Nodup)
    (hreceivers : receivers = (Mapping.ofSubscriptions subs).subscribers m.realm m.topic) :
    receivers.Perm (subs.filter fun sub => decide (⟨m.realm, m.topic⟩ ∈ sub.realmsTopics)) ∧
      (receivers.map (·.name)).Nodup := by
  have hperm := Mapping.subscribers_perm (List.Nodup.of_map _ h) m.realm m.topic
  rw [← hreceivers] at hperm
  refine ⟨hperm, ?_⟩
  rw [(hperm.map _).nodup_iff]
  exact h.sublist (List.filter_sublist.map _)

/-- **A step of the handler.** -/
theorem HandlerAt.next (env : Env) {w : World} {f : Fault Outage} {op : Op}
    {k : Except CallError op.Res → Coro Reply} (hm : msg.payload = .message m)
    (h : HandlerAt i msg m first hist (.await op k))
    (hmapping : w.mapping = Mapping.ofSubscriptions (snapshot first hist))
    (hnames : ((snapshot first hist).map (·.name)).Nodup) :
    setsMapping op = false ∧
      HandlerAt i msg m first (⟨i, op, f, w, (serve env).heard i op w f⟩ :: hist)
        (k ((serve env).heard i op w f)) := by
  generalize hp : Prog.await op k = p at h
  cases h with
  -- The mapping is looked up: this is where the receivers are fixed.
  | start hanswered hcalls =>
    obtain ⟨k', hprog, hok, herror⟩ := handleEvent_message hm
    unfold handler at hp
    rw [hprog, bind_eq, bind_await] at hp
    cases hp
    refine ⟨rfl, ?_⟩
    cases hr : (serve env).heard i .mappingGet w f with
    | error x =>
      dsimp only
      rw [herror]
      exact .raised _
    | ok mapping =>
      obtain ⟨-, hanswer⟩ := Server.heard_eq_ok hr
      have hfound : mapping = w.mapping := (Except.ok.inj hanswer).symm
      dsimp only
      rw [hok, hfound, hmapping]
      refine .sending (answered_self hanswered ⟨_, rfl⟩) [] _ hist [] _ rfl rfl rfl ?_ rfl hnames
      rw [callsOf_self, hcalls]
      rfl
  | sending hanswered later lookup earlier sent rest hhist htid hop hcalls hreceivers hnames =>
    have hcons : ∀ ev : Event Op Op.Res CallError Outage World,
        ev :: hist = (ev :: later) ++ lookup :: earlier := fun ev => congrArg (ev :: ·) hhist
    cases rest with
    -- Everyone has got it, so the next call is the acknowledgement.
    | nil =>
      obtain ⟨k', hprog, hok, herror⟩ := sendAll_nil m msg
      rw [hprog, bind_await] at hp
      cases hp
      refine ⟨rfl, ?_⟩
      cases hr : (serve env).heard i (.ack msg) w f with
      | error x =>
        dsimp only
        rw [herror]
        exact .raised _
      | ok r =>
        dsimp only
        rw [hok]
        rw [List.append_nil] at hreceivers
        obtain ⟨hperm, hdistinct⟩ := nodup_receivers hnames hreceivers
        refine .ended ⟨answered_self hanswered ⟨r, rfl⟩, _, lookup, earlier, sent, hcons _, htid,
          hop, ?_, hperm, hdistinct⟩
        rw [callsOf_self, hcalls]
    | cons sub rest =>
      obtain ⟨k', hprog, hok, herror⟩ := sendAll_cons m sub rest msg
      rw [hprog, bind_await] at hp
      cases hp
      refine ⟨rfl, ?_⟩
      cases hr : (serve env).heard i (.publish (mainSubject sub.name) (.message m)
          (streamKey sub.name)) w f with
      | error x =>
        dsimp only
        rw [herror]
        exact .raised _
      | ok seq =>
        dsimp only
        rw [hok]
        refine .sending (answered_self hanswered ⟨seq, rfl⟩) _ lookup earlier (sent ++ [sub]) rest
          (hcons _) htid hop ?_ ?_ hnames
        · rw [callsOf_self, hcalls, List.map_append]
          rfl
        · rw [List.append_assoc]
          exact hreceivers
  | ended hexact => cases hp
  | raised e => cases hp

/-- A handler that is at its end has been exact. -/
theorem HandlerAt.exact {r : Reply} (hm : msg.payload = .message m)
    (h : HandlerAt i msg m first hist (.pure r)) : ExactFanOut i msg m first hist := by
  generalize hp : Prog.pure r = p at h
  cases h with
  | start hanswered hcalls =>
    obtain ⟨k, hprog, -, -⟩ := handleEvent_message hm
    unfold handler at hp
    rw [hprog] at hp
    cases hp
  | sending hanswered later lookup earlier sent rest hhist htid hop hcalls hreceivers hnames =>
    cases rest with
    | nil => cases hp
    | cons sub rest => cases hp
  | ended hexact => exact hexact
  | raised e => cases hp

/-- The handler writes no record. -/
theorem keepsNames_handler (msg : Msg) : KeepsNames (handler msg) := by
  have huses : (handler msg).Uses DispatchCall := (uses_handleEvent msg).bind fun _ => trivial
  apply huses.guarded
  intro op hop
  cases hop <;> exact id

end Handler

/-! ## The pool -/

/-! A step is one of the handler, of a refresh, or of anybody else, and only a refresh sets the
mapping. -/

/-- The jobs that refresh the mapping. -/
def Job.setsMapping : Job → Bool
  | .updateMapping => true
  | .dispatcherStart => true
  | _ => false

/-- The handler of a message, among jobs of all kinds. -/
def fanOutStart (env : Env) (i : Nat) (msg : Msg) (jobs : Nat → Job) (j : Nat) : Coro Reply :=
  if j = i then handler msg else (jobs j).program env

/-- The refresh at the start of the dispatcher comes after its stream and its consumer. -/
theorem refreshAt_program (env : Env) {job : Job} (h : job.setsMapping = true) :
    RefreshAt [] (job.program env) := by
  cases job with
  | updateMapping => exact .start
  | dispatcherStart =>
    have huses : (ensureStream DISPATCHER_STREAM false [DISPATCHER_STREAM]).Uses
        (PrepareCall DISPATCHER_STREAM) := uses_ensureStream .streamInfo .addStream .updateStream
    have hset : ∀ op, PrepareCall DISPATCHER_STREAM op → setsMapping op = false := by
      intro op hop
      cases hop <;> rfl
    have hread : ∀ op, PrepareCall DISPATCHER_STREAM op → ∀ r, recordHeard op r = [] := by
      intro op hop r
      cases hop <;> rfl
    have hconsumer : (ensureConsumer DISPATCHER_STREAM).Uses (PrepareCall DISPATCHER_STREAM) :=
      uses_ensureConsumer .consumerInfo .addConsumer
    have hprogram : Job.dispatcherStart.program env =
        (ensureStream DISPATCHER_STREAM false [DISPATCHER_STREAM]).bind fun _ =>
          (ensureConsumer DISPATCHER_STREAM).bind fun _ =>
            updateSubscriptionsMapping.bind fun _ => .pure .finished := by
      show (((ensureStream _ _ _).bind fun _ => (ensureConsumer _).bind fun _ =>
        updateSubscriptionsMapping).bind fun _ => Prog.pure Reply.finished) = _
      rw [Prog.bind_assoc]
      refine congrArg (Prog.bind _) (funext fun _ => ?_)
      rw [Prog.bind_assoc]
    rw [hprogram]
    apply RefreshAt.after huses hset hread
    intro _
    apply RefreshAt.after hconsumer hset hread
    intro _
    exact .start
  | _ => cases h

/-- The other jobs do not touch the mapping. -/
theorem uses_not_setsMapping (env : Env) {job : Job} (h : job.setsMapping = false) :
    (job.program env).Uses (setsMapping · = false) := by
  have helse : (job.program env).Uses Elsewhere := elsewhere_job
    (fun hjob => by rw [hjob] at h; cases h) (fun hjob => by rw [hjob] at h; cases h)
  apply helse.mono
  intro op hop
  unfold setsMapping
  split
  · next mapping => exact absurd rfl (hop.1 mapping)
  · rfl

/-- What holds between two steps. -/
structure FanningOut (i : Nat) (msg : Msg) (m : Message) (first : List Subscription)
    (jobs : Nat → Job) (c : System) : Prop where
  names : NamesKept c
  mapping : c.world.mapping = Mapping.ofSubscriptions (snapshot first c.hist)
  distinct : ((snapshot first c.hist).map (·.name)).Nodup
  refresh : ∀ j, j ≠ i → (jobs j).setsMapping = true →
    RefreshAt (recordsHeard j c.hist) (c.prog j)
  other : ∀ j, j ≠ i → (jobs j).setsMapping = false → (c.prog j).Uses (setsMapping · = false)
  handler : HandlerAt i msg m first c.hist (c.prog i)

section Pool

variable {env : Env} {i : Nat} {msg : Msg} {m : Message} {first : List Subscription}
  {jobs : Nat → Job} {c d : System}

/-- **The mapping is that of the last snapshot.** -/
theorem FanningOut.mapping_next (h : FanningOut i msg m first jobs c) {j : Nat} {f : Fault Outage}
    {op : Op} {k : Except CallError op.Res → Coro Reply}
    (hset : ∀ mapping, op = .mappingSet mapping →
      mapping = Mapping.ofSubscriptions (recordsHeard j c.hist) ∧
        ((recordsHeard j c.hist).map (·.name)).Nodup) :
    (c.next (serve env) j f op k).world.mapping =
        Mapping.ofSubscriptions (snapshot first (c.next (serve env) j f op k).hist) ∧
      ((snapshot first (c.next (serve env) j f op k).hist).map (·.name)).Nodup := by
  rw [Config.next_hist, Config.next_world, snapshot]
  by_cases hlands : setsMapping op = true ∧ f.Lands
  · rw [if_pos hlands, Server.left_of_lands hlands.2]
    cases op with
    | mappingSet mapping => exact hset mapping rfl
    | _ => cases hlands.1
  · rw [if_neg hlands]
    refine ⟨?_, h.distinct⟩
    rw [← h.mapping]
    rcases Server.left_cases (serve env) j op c.world f with hsame | ⟨hf, hleft⟩
    · rw [hsame]
    · rw [hleft]
      apply mapping_answer
      intro mapping hop
      rw [hop] at hlands
      exact hlands ⟨rfl, hf⟩

/-- **A step of the pool.** -/
theorem FanningOut.step (h : FanningOut i msg m first jobs c) (hm : msg.payload = .message m)
    {l : Nat × Fault Outage} (hs : c.step (serve env) l = some d) :
    FanningOut i msg m first jobs d := by
  obtain ⟨op, k, hp, rfl⟩ := Config.step_cases hs
  obtain ⟨j, f⟩ := l
  dsimp only at hp ⊢
  have hnames : NamesKept (c.next (serve env) j f op k) := h.names.next hp
  have hrecords : ∀ j', recordsHeard j' (c.next (serve env) j f op k).hist =
      recordsHeard j' c.hist ++
        if j = j' then recordHeard op ((serve env).heard j op c.world f) else [] :=
    fun _ => rfl
  -- the handler moves, or a refresh, or another job
  by_cases hj : j = i
  · -- The handler goes on.
    subst hj
    obtain ⟨hset, hhandler⟩ := (hp ▸ h.handler : HandlerAt j msg m first c.hist
      (.await op k)).next env (f := f) hm h.mapping h.distinct
    have hnone : ∀ mapping, op = .mappingSet mapping →
        mapping = Mapping.ofSubscriptions (recordsHeard j c.hist) ∧
          ((recordsHeard j c.hist).map (·.name)).Nodup := by
      intro mapping hop
      rw [hop] at hset
      cases hset
    obtain ⟨hmapping, hdistinct⟩ := h.mapping_next (f := f) (k := k) hnone
    refine ⟨hnames, hmapping, hdistinct, ?_, ?_, ?_⟩
    · intro j' hj' hjob
      rw [hrecords, if_neg (Ne.symm hj'), List.append_nil, Config.next_prog_of_ne hj']
      exact h.refresh j' hj' hjob
    · intro j' hj' hjob
      rw [Config.next_prog_of_ne hj']
      exact h.other j' hj' hjob
    · rw [Config.next_prog_self]
      exact hhandler
  · -- Somebody else does; what it may set is the mapping of what it has read.
    have hset : ∀ mapping, op = .mappingSet mapping →
        mapping = Mapping.ofSubscriptions (recordsHeard j c.hist) ∧
          ((recordsHeard j c.hist).map (·.name)).Nodup := by
      intro mapping hop
      cases hjob : (jobs j).setsMapping with
      | true =>
        exact ((hp ▸ h.refresh j hj hjob : RefreshAt _ (.await op k)).next env
          h.names.named (i := j) (f := f)).2 mapping hop
      | false =>
        have hnone := (hp ▸ h.other j hj hjob : (Prog.await op k).Uses _).1
        rw [hop] at hnone
        cases hnone
    obtain ⟨hmapping, hdistinct⟩ := h.mapping_next (f := f) (k := k) hset
    refine ⟨hnames, hmapping, hdistinct, ?_, ?_, ?_⟩
    · intro j' hj' hjob
      by_cases hjj : j' = j
      · subst hjj
        rw [hrecords, if_pos rfl, Config.next_prog_self]
        exact ((hp ▸ h.refresh j' hj hjob : RefreshAt _ (.await op k)).next env
          h.names.named).1
      · rw [hrecords, if_neg (Ne.symm hjj), List.append_nil, Config.next_prog_of_ne hjj]
        exact h.refresh j' hj' hjob
    · intro j' hj' hjob
      by_cases hjj : j' = j
      · subst hjj
        rw [Config.next_prog_self]
        exact (hp ▸ h.other j' hj hjob : (Prog.await op k).Uses _).2 _
      · rw [Config.next_prog_of_ne hjj]
        exact h.other j' hj' hjob
    · rw [Config.next_prog_of_ne (Ne.symm hj)]
      exact h.handler.other hj

/-- At the beginning nothing has been heard, and the mapping is that of the records it is said to
be. -/
theorem fanningOut_start (env : Env) (w : World) (hnames : WellNamed w)
    (hmapping : w.mapping = Mapping.ofSubscriptions first)
    (hfirst : (first.map (·.name)).Nodup) :
    FanningOut i msg m first jobs (.init w (fanOutStart env i msg jobs)) := by
  have hother : ∀ j, j ≠ i → fanOutStart env i msg jobs j = (jobs j).program env :=
    fun j hj => if_neg hj
  refine ⟨⟨hnames, ?_⟩, hmapping, hfirst, ?_, ?_, ?_⟩
  · intro j
    rw [Config.init_prog, fanOutStart]
    split
    · exact keepsNames_handler msg
    · exact keepsNames_program (jobs j)
  · intro j hj hjob
    rw [Config.init_prog, hother j hj]
    exact refreshAt_program env hjob
  · intro j hj hjob
    rw [Config.init_prog, hother j hj]
    exact uses_not_setsMapping env hjob
  · rw [Config.init_prog, fanOutStart, if_pos rfl]
    exact .start (fun ev hev => absurd hev List.not_mem_nil) rfl

/-- **The fan-out of an event is exact.** Whatever else goes on, refreshes of the mapping and
changes of the bucket included: if the handler of a valid event gets to its end, it has published
the event once to each subscription that lists its topic in the records of the last refresh that
was over when it looked the mapping up, and to no other, and has acknowledged it once, after
that. -/
theorem fan_out_exact (env : Env) (i : Nat) (msg : Msg) (m : Message) (jobs : Nat → Job)
    (w : World) (first : List Subscription) (ls : Schedule) (d : System)
    (hm : msg.payload = .message m) (hnames : ∀ n sub, w.record n = some sub → sub.name = n)
    (hmapping : w.mapping = Mapping.ofSubscriptions first) (hfirst : (first.map (·.name)).Nodup)
    (hrun : (Config.init w (fanOutStart env i msg jobs) : System).run (serve env) ls = some d)
    (hend : d.prog i = .pure .finished) : ExactFanOut i msg m first d.hist := by
  have hfan : FanningOut i msg m first jobs d :=
    Config.run_invariant (C := fun _ _ => True) (fun c l d h _ hs => h.step hm hs)
      (fanningOut_start env w hnames hmapping hfirst) (Config.along_trivial ls) hrun
  have hhandler := hfan.handler
  rw [hend] at hhandler
  exact hhandler.exact hm

end Pool

/-! ## A registration between two publishes -/

/-! The set that the handler walks is the one it has found, even though the mapping is replaced
while it walks it. -/

theorem record_twoRegistered (n : String) : World.twoRegistered.record n =
    if n = "b" then some (newSubInfo .second)
    else if n = "a" then some (newSubInfo .withoutPrefill) else none := by
  have hputs : World.twoRegistered.record n =
      (((Bucket.empty : Store.Bucket Subscription).put "a" (newSubInfo .withoutPrefill)).put "b"
        (newSubInfo .second)).value? n := rfl
  rw [hputs, Bucket.value?_put, Bucket.value?_put]
  rfl

theorem wellNamed_twoRegistered : WellNamed .twoRegistered := by
  intro n sub h
  rw [record_twoRegistered] at h
  split at h
  · next hn =>
    rw [← Option.some.inj h, hn]
    rfl
  · split at h
    · next hn =>
      rw [← Option.some.inj h, hn]
      rfl
    · cases h

/-- The handler, a refresh, the registration of a third subscription to the topic, a refresh. -/
def lateRegistration : List Job :=
  [.idle, .updateMapping, .create "s" { NewSubscription.second with name := "c" }, .updateMapping]

/-- The third one is registered, and the mapping replaced, after the first publish. -/
def lateSchedule : Schedule :=
  List.replicate 4 (1, .ok) ++ List.replicate 2 (0, .ok) ++ List.replicate 7 (2, .ok) ++
    List.replicate 5 (3, .ok) ++ List.replicate 2 (0, .ok)

theorem fan_out_exact_late : ∃ d,
    (Config.init .twoRegistered (fanOutStart .sample 0 userEvent (Job.pool lateRegistration)) :
      System).run (serve .sample) lateSchedule = some d ∧
    d.prog 0 = .pure .finished ∧ ExactFanOut 0 userEvent .sample [] d.hist := by
  obtain ⟨d, hrun, hend⟩ : ∃ d,
      (Config.init .twoRegistered (fanOutStart .sample 0 userEvent (Job.pool lateRegistration)) :
        System).run (serve .sample) lateSchedule = some d ∧ d.prog 0 = .pure .finished :=
    ⟨_, rfl, rfl⟩
  exact ⟨d, hrun, hend, fan_out_exact .sample 0 userEvent .sample (Job.pool lateRegistration)
    .twoRegistered [] lateSchedule d rfl wellNamed_twoRegistered rfl List.nodup_nil hrun hend⟩

end Provisioning
