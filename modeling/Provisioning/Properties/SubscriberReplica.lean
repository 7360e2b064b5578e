import Provisioning.Properties.RelayRefinement

/-!
# What a subscriber sees of the directory

From the transformer to a subscription the events go through the dispatcher, which sends them in
order but may send one several times before it goes on to the next, and sends each subscription only
what it has subscribed to. `subscriber_retraces_directory` says what this amounts to: of the entries
whose events a subscription gets, its messages show one state of the directory after the other,
never an older one, and with nothing left in the two queues the present one.

It takes more of the transformer than that its last event is right: after each of its events the
copy must be one of a state of the directory, and of a later one than before. And it takes of the
dispatcher that what it sends a subscription is, but for repetitions, what this one wants of the
first so many events.

## The two parts

For the transformer this is a stronger invariant about the same runs as before (`OnTrack`): not only
is the copy right in the end, but each event leaves it as the directory was at some time, and these
times do not go back. For the dispatcher nothing new is needed. What it sends a subscription is,
repetitions apart, a filtered prefix of the events, and retracing survives taking a prefix,
filtering and repeating (`OnTrack.retraces`).

## Of which entries

A subscription that gets only some of the events about an entry would see an object that is not the
last one. So the result is about a set of entries all of whose events it gets (`Covers`); for an
entry that changes its type this has to be asked of both.
-/

namespace Provisioning

open Await Store Prog Replica

variable {env : Env} {start : Directory} {scene : Scene start} {k j : Nat}
  {changes changes' : List Change} {events : List Body} {keys : String → Prop}

/-- The objects of the directory after so many of the changes. -/
def Directory.history (start : Directory) (env : Env) (changes : List Change) (k : Nat) :
    String → Option Obj :=
  (start.after (changes.take k)).view env

/-! ## The events of the transformer -/

/-- What has been is not affected by later changes. -/
theorem retraces_longer {ε : Type} {f : ε → Option (Assignment String Obj)} {messages : List ε}
    (h : Retraces (start.history env changes) changes.length keys f messages j)
    (hlonger : changes <+: changes') :
    Retraces (start.history env changes') changes'.length keys f messages j := by
  obtain ⟨added, rfl⟩ := hlonger
  refine h.longer (List.length_append ▸ Nat.le_add_right ..) fun k hk => ?_
  unfold Directory.history
  rw [List.take_append_of_le_length hk]

/-- **A round** sends events about one change, and each of them leaves the copy as the directory is
after this change. -/
theorem retraces_turned {a : Turn start} {k' : Nat}
    (h : Behind env k scene (replay (start.view env) (events.filterMap Body.assignment)))
    (hevents : Retraces (start.history env scene.chronicle.changes) scene.chronicle.changes.length
      keys Body.assignment events j) (hj : j ≤ k + 1)
    (hturned : Turned env k k' scene
      (replay (start.view env) (events.filterMap Body.assignment)) a) :
    ∃ i, i ≤ k + 1 ∧ Retraces (start.history env a.world.chronicle.changes)
      a.world.chronicle.changes.length keys Body.assignment (events ++ eventsOf a.landed) i := by
  have hbefore := retraces_longer hevents hturned.longer
  by_cases hnone : eventsOf a.landed = []
  · rw [hnone, List.append_nil]
    exact ⟨j, hj, hbefore⟩
  · obtain ⟨body, hbody⟩ := List.exists_mem_of_ne_nil _ hnone
    obtain ⟨change, hchange, -⟩ := hturned.told body hbody
    refine hbefore.append hj (List.getElem?_eq_some_iff.mp hchange).1 fun l hne hl key _ => ?_
    -- All events of a round tell the same change.
    have htold : ∀ body ∈ l, body.assignment = some (change.assignment env) := by
      intro body hbody
      obtain ⟨change', hchange', hassign⟩ := hturned.told body (hl.subset hbody)
      cases hchange.symm.trans hchange'
      exact hassign
    have hall : ∀ b ∈ l.filterMap Body.assignment, b = change.assignment env := by
      intro b hb
      obtain ⟨body, hbody, hassign⟩ := List.mem_filterMap.mp hb
      exact Option.some.inj (hassign.symm.trans (htold body hbody))
    obtain ⟨first, hfirst⟩ := List.exists_mem_of_ne_nil l hne
    have hsome : l.filterMap Body.assignment ≠ [] :=
      List.ne_nil_of_mem (List.mem_filterMap.mpr ⟨first, hfirst, htold first hfirst⟩)
    have hfollows := h.follows hturned.longer hchange
    have hreplay := (hfollows.replay hall).2 hsome
    rw [← view_apply, ← after_succ hchange] at hreplay
    rw [List.filterMap_append, replay_append]
    exact congrFun hreplay key

/-- What is known of the pipeline at any time: what it has sent, too. -/
structure OnTrack (env : Env) (p : Pipeline start) : Prop where
  behind : ∃ k, Behind env k p.scene (p.replica env) ∧ ∃ j, j ≤ k + 1 ∧
    Retraces (start.history env p.scene.chronicle.changes) p.scene.chronicle.changes.length
      (fun _ => True) Body.assignment p.events j

theorem OnTrack.step (henv : Represents env) {p : Pipeline start} (h : OnTrack env p)
    (step : Pipeline.Step) : OnTrack env (p.step env step) := by
  obtain ⟨k, hbehind, j, hj, hevents⟩ := h.behind
  cases step with
  | act action =>
    exact ⟨k, hbehind.act action, j, hj, retraces_longer hevents (chronicle_act p.scene action)⟩
  | round plan script =>
    have hscene : Behind env k { p.scene with script := script } (p.replica env) := by
      obtain ⟨msgs, hw⟩ := hbehind.waiting
      exact ⟨⟨msgs, hw.le, hw.queued, hw.payloads⟩, hbehind.covers, hbehind.table⟩
    obtain ⟨k', hle, -, hturned⟩ := behind_round henv hscene
    obtain ⟨i, hi, hevents'⟩ := retraces_turned hscene hevents hj hturned
    refine ⟨k', ?_, i, Nat.le_trans hi (Nat.succ_le_succ hle), hevents'⟩
    unfold Pipeline.replica Pipeline.step
    rw [List.filterMap_append, replay_append]
    exact hturned.behind

theorem OnTrack.run (henv : Represents env) {p : Pipeline start} (h : OnTrack env p)
    (steps : List Pipeline.Step) : OnTrack env (p.run env steps) := by
  induction steps generalizing p with
  | nil => exact h
  | cons step steps ih => exact ih (h.step henv step)

/-! ## The messages of a subscription -/

/-- Nothing is left in the stream. -/
def World.Drained (w : World) (stream : String) : Prop :=
  ∃ s, w.streams (streamKey stream) = some s ∧ s.msgs = []

theorem backlog_of_drained {w : World} {msgs : List (Stored Payload)} (h : Backlog w msgs)
    (hdrained : w.Drained LDAP_STREAM) : Backlog w [] := by
  obtain ⟨s, hs, hsubject, hqueue, rfl⟩ := h
  obtain ⟨s', hs', hnone⟩ := hdrained
  cases hs.symm.trans hs'
  exact ⟨s, hs, hsubject, hqueue, hnone⟩

variable {subs : Subscribers} {r : Relay subs start} {d : Dispatcher} {sub : Subscription}
  {uuids : String → Prop}

/-- The subscription gets the events of these entries. -/
def Subscription.Covers (sub : Subscription) (events : List (Nat × Payload))
    (uuids : String → Prop) : Prop :=
  ∀ event ∈ events, ∀ a, event.2.assignment = some a → uuids a.key → sub.wants event = true

/-- Of a pipeline that is on track and a fan-out of its events. -/
theorem OnTrack.retraces (h : OnTrack env r.pipeline) (hfans : r.Fans) (hsub : sub ∈ subs.list)
    (hcovers : sub.Covers r.dispatcher.incoming uuids) :
    ∃ k, Retraces (start.history env r.chronicle.changes) r.chronicle.changes.length uuids
      (·.2.assignment) (r.dispatcher.publishedTo sub.name) k := by
  obtain ⟨k, -, j, -, hevents⟩ := h.behind
  obtain ⟨a, ha⟩ := hfans
  obtain ⟨n, hn⟩ := ha.inv.in_order ⟨sub, hsub⟩
  unfold Fanout.SentUpTo at hn
  rw [ha.sent, ha.incoming] at hn
  have hincoming : Retraces (start.history env r.chronicle.changes) r.chronicle.changes.length
      (fun _ => True) (·.2.assignment) r.dispatcher.incoming j := Retraces.of_filterMap hevents
  obtain ⟨i, -, htake⟩ := hincoming.take n
  obtain ⟨i', -, hfilter⟩ : ∃ i', i' ≤ i ∧ Retraces _ _ uuids _ _ i' :=
    htake.filter (fun _ _ => trivial) fun event hevent =>
      hcovers event (List.mem_of_mem_take hevent)
  refine ⟨i', Retraces.of_destutter ?_⟩
  rw [hn]
  exact hfilter

/-- With nothing left to do, everything has been sent. -/
theorem OnTrack.caught_up (h : OnTrack env r.pipeline) (hfans : r.Fans) (hsub : sub ∈ subs.list)
    (hcovers : sub.Covers r.dispatcher.incoming uuids)
    (hchanges : r.dispatcher.world.Drained LDAP_STREAM)
    (hincoming : r.dispatcher.world.Drained DISPATCHER_STREAM) {uuid : String}
    (huuid : uuids uuid) :
    replay (start.view env) ((r.dispatcher.publishedTo sub.name).filterMap (·.2.assignment)) uuid =
      r.chronicle.directory.view env uuid := by
  obtain ⟨k, hbehind, -⟩ := h.behind
  obtain ⟨a, ha⟩ := hfans
  obtain ⟨msgs, hw⟩ := hbehind.waiting
  have hview : replay (start.view env) (r.events.filterMap Body.assignment) =
      r.chronicle.directory.view env :=
    hbehind.caught_up (backlog_of_drained hw.queued hchanges)
  have hall : r.dispatcher.incoming.length ≤ a.acked := by
    obtain ⟨st, dur, hst, -, hqueue⟩ := ha.queue
    obtain ⟨st', hst', hnone⟩ := hincoming
    cases hst.symm.trans hst'
    have hmsgs := hqueue.msgs
    rw [hnone] at hmsgs
    exact List.drop_eq_nil_iff.mp hmsgs.symm
  have hsent : (r.dispatcher.publishedTo sub.name).destutter (· ≠ ·) =
      r.dispatcher.incoming.filter sub.wants := by
    rw [← ha.sent ⟨sub, hsub⟩]
    have hwhole : ∀ n, a.acked ≤ n → Fanout.SentUpTo Receiver.wants a ⟨sub, hsub⟩ n →
        (a.sent ⟨sub, hsub⟩).destutter (· ≠ ·) = r.dispatcher.incoming.filter sub.wants := by
      intro n hn h
      unfold Fanout.SentUpTo at h
      rw [ha.incoming, List.take_of_length_le (Nat.le_trans hall hn)] at h
      exact h
    rcases ha.inv.sent ⟨sub, hsub⟩ with h | ⟨-, h⟩
    · exact hwhole _ (Nat.le_refl _) h
    · exact hwhole _ (Nat.le_succ _) h
  rw [← replay_destutter, hsent, replay_filter fun event hevent b hb hkey =>
    hcovers event hevent b hb (hkey ▸ huuid), ← hview]
  unfold Relay.events
  rw [List.filterMap_filterMap]
  rfl

/-- **A subscriber retraces the directory.** Whatever the listener, the transformer and the
dispatcher have gone through together, the messages of a subscription show, of the entries whose
events it gets, one state of the directory after the other, and with nothing left in the queues they
show its present one. -/
theorem subscriber_retraces_directory (env : Env) (henv : Represents env) (subs : Subscribers)
    (hnames : subs.Apart) (start : Directory) (d : Dispatcher) (hstart : d.AtStart)
    (hnone : ∀ event ∈ d.incoming, event.2.event? = none) (hqueue : Backlog d.world [])
    (hcovers : Covers d.world (start.view env)) (steps : List (Relay.Step subs))
    (sub : Subscription) (hsub : sub ∈ subs.list) (uuids : String → Prop) :
    let r := (Relay.begin d : Relay subs start).run env steps
    let messages := r.dispatcher.publishedTo sub.name
    sub.Covers r.dispatcher.incoming uuids →
      (∃ k, Retraces (start.history env r.chronicle.changes) r.chronicle.changes.length uuids
        (·.2.assignment) messages k) ∧
      (r.dispatcher.world.Drained LDAP_STREAM → r.dispatcher.world.Drained DISPATCHER_STREAM →
        ∀ uuid, uuids uuid → replay (start.view env) (messages.filterMap (·.2.assignment)) uuid =
          r.chronicle.directory.view env uuid) := by
  intro r messages hwanted
  have hnothing : (Relay.begin d : Relay subs start).events = [] :=
    List.filterMap_eq_nil_iff.mpr hnone
  have hbegin : OnTrack env (Relay.begin d : Relay subs start).pipeline := by
    refine ⟨0, ⟨⟨[], Nat.le_refl _, hqueue, rfl⟩, ?_, Or.inl ?_⟩, 0, Nat.zero_le _, ?_⟩
    · unfold Pipeline.replica Relay.pipeline
      rw [hnothing]
      exact hcovers
    · unfold Pipeline.replica Relay.pipeline
      rw [hnothing]
      rfl
    · unfold Relay.pipeline
      rw [hnothing]
      exact .nil
  have hfans : (Relay.begin d : Relay subs start).Fans := ⟨_, fansOut_start subs hstart⟩
  obtain ⟨hfans', steps', hsteps'⟩ := relay_refines env hnames hfans steps
  have htrack : OnTrack env r.pipeline := by
    rw [hsteps']
    exact hbegin.run henv steps'
  exact ⟨htrack.retraces hfans' hsub hwanted,
    fun hchanges hincoming uuid => htrack.caught_up hfans' hsub hwanted hchanges hincoming⟩

/-! ## A fan-out is cut short, and a user renamed -/

/-- Two subscriptions to users, and a queue for the changes. -/
def Dispatcher.listening : Dispatcher :=
  { Dispatcher.two with
    world := World.twoRegistered.setStream (streamKey LDAP_STREAM)
      (some ((Store.Stream.new [LDAP_SUBJECT] true).setDurable (durableKey LDAP_STREAM)
        (some .fresh))) }

/-- An event is taken in and handled to its end. -/
def handleNext : List (RelayAction .two) :=
  [.dispatcher (.deliver true) trivial, .dispatcher .take trivial] ++
    List.replicate 4 (.dispatcher (.call .ok) trivial)

/-- The transformer loses an acknowledgement, and the dispatcher dies when it has sent the event to
one of the two; both go on while the user is renamed. -/
def cutShort : List (Relay.Step .two) :=
  [.act (.dispatcher (.start mappingForth) trivial), .act (.change (.create (.user "one"))),
    .round [.ok, .ok, .ok, .before .timeout] [],
    .act (.dispatcher (.deliver true) trivial), .act (.dispatcher .take trivial),
    .act (.dispatcher (.call .ok) trivial), .act (.dispatcher (.call .ok) trivial),
    .act (.dispatcher .crash trivial), .act (.dispatcher .ackWaitExpires trivial),
    .act (.dispatcher (.elsewhere 0 _) elsewhere_ackWaitExpires),
    .round (List.replicate 4 .ok)
      [[.change (.modify (.user "one") (.user "two")), .dispatcher (.start mappingBack) trivial],
        handleNext],
    .round (List.replicate 5 .ok) [handleNext]] ++ handleNext.map .act

theorem subscriber_retraces_directory_sample :
    let r := (Relay.begin .listening : Relay .two fun _ => none).run .typed cutShort
    (r.dispatcher.publishedTo "a").map (·.1) = [1, 1, 2, 3] ∧
      replay (fun _ => none) ((r.dispatcher.publishedTo "a").filterMap (·.2.assignment)) "u1" =
        r.chronicle.directory.view .typed "u1" := by
  intro r
  refine ⟨by decide +kernel, ?_⟩
  have hstart : Dispatcher.listening.AtStart := ⟨rfl, rfl, _, _, rfl, rfl, rfl, rfl, rfl, rfl⟩
  have hqueue : Backlog Dispatcher.listening.world [] := by
    refine ⟨_, World.streams_setStream_self .., List.mem_singleton.mpr rfl, ?_, rfl⟩
    exact ⟨rfl, ⟨_, Stream.durables_setDurable_self ..⟩, nofun, nofun⟩
  have hall : ∀ event ∈ r.dispatcher.incoming,
      (newSubInfo .withoutPrefill).wants event = true := by decide +kernel
  have hnames : Subscribers.two.Apart := by
    unfold Subscribers.Apart
    decide
  refine (subscriber_retraces_directory .typed represents_typed .two hnames
    (fun _ => none) .listening hstart nofun hqueue
    ⟨fun uuid h => absurd rfl h, fun uuid => Or.inl rfl⟩ cutShort (newSubInfo .withoutPrefill)
    List.mem_cons_self (fun _ => True) fun event hevent _ _ _ => hall event hevent).2 ?_ ?_ "u1"
    trivial
  · exact ⟨_, rfl, by decide +kernel⟩
  · exact ⟨_, rfl, by decide +kernel⟩

end Provisioning
