import Provisioning.Lib.Queue
import Provisioning.Properties.DirectoryAttempts

/-!
# Consumers follow the directory

What a consumer is after is a copy of the directory: of each entry its UDM object. Between the two
are the listener, a queue, the transformer with its cache, and the events. The transformer fails, is
restarted, and sends events twice or with the wrong old object; and the directory changes while it
is at work.

**`replica_follows_directory`** says that the copy is a true one all the same: at any time it shows
the directory as it was before or after the oldest change that is still in the queue. Of a round it
takes what one attempt leaves and what an acknowledgement does to the queue.

## The invariant

The copy cannot be compared with the directory as it is, which is ahead of the queue. `Behind`
compares it with the directory after `k` changes, where `k` is a ghost: no part of the system
counts the changes that are done with. What ties `k` to the system is that the changes after them
are exactly the ones in the queue (`Waiting`), in the order in which they were made.

Whether the change with number `k` itself has been taken in is left open, and it has to be: an
attempt that has sent its event and is cut before its acknowledgement has told the consumer of a
change that stays in the queue. From there two things can happen, and both keep the invariant. The
change is attempted again, and tells the same; or the acknowledgement had been served after all, and
`k` is counted up.

The third field is about the cache, for what the next attempt does depends on it. It is `Covers`,
and says nothing about `k`.

## Others at work

A round is not one step of the system. Between its calls the directory changes and others call the
server; these are the script of a scene, and `Behind.act` says that none of them gets in the way.
Changes that come in the middle of a round are put behind all others.
-/

namespace Provisioning

open Await Store Prog Replica

variable {env : Env} {start : Directory} {scene : Scene start} {w : World} {tid k : Nat}
  {msgs rest : List (Stored Payload)} {m : Stored Payload}

/-! ## The queue of the changes -/

/-! Six things happen to this queue, and one lemma is there for each. That it is a work queue with
one consumer is what makes its front the oldest change, and what makes an acknowledgement take the
front away. -/

/-- These are in the queue. -/
def Backlog (w : World) (msgs : List (Stored Payload)) : Prop :=
  ∃ s, w.streams (streamKey LDAP_STREAM) = some s ∧ LDAP_SUBJECT ∈ s.subjects ∧
    s.IsQueue (durableKey LDAP_STREAM) ∧ s.msgs = msgs

namespace Backlog

variable (env tid)

/-- A call elsewhere. -/
theorem spared {op : Op} (h : Backlog w msgs) (hop : op.spares (streamKey LDAP_STREAM) = true) :
    Backlog (answer env tid op w).2 msgs := by
  obtain ⟨s, hs, hrest⟩ := h
  exact ⟨s, (streams_answer_of_spares env tid w hop).trans hs, hrest⟩

/-- What becomes of the delivery that is out. -/
theorem setDurable {s : Store.Stream Payload} {d d' : Durable}
    (hs : w.streams (streamKey LDAP_STREAM) = some s)
    (hd : s.durables (durableKey LDAP_STREAM) = some d)
    (h : Backlog w msgs) (hacked : d'.acked = d.acked) :
    Backlog (w.setStream (streamKey LDAP_STREAM)
      (some (s.setDurable (durableKey LDAP_STREAM) (some d')))) msgs := by
  obtain ⟨t, ht, hsubject, hqueue, hmsgs⟩ := h
  cases hs.symm.trans ht
  exact ⟨_, World.streams_setStream_self .., hsubject, hqueue.setDurable hd hacked, hmsgs⟩

/-- The ack wait of a delivery passes, which leaves the messages. -/
theorem expire (h : Backlog w msgs) : Backlog (answer env tid
    (.ackWaitExpires (streamKey LDAP_STREAM) (durableKey LDAP_STREAM)) w).2 msgs := by
  obtain ⟨s, hs, -, hqueue, -⟩ := id h
  obtain ⟨d, hd⟩ := hqueue.served
  simp only [answer, hs, hd]
  exact setDurable hs hd h rfl

/-- A delivery is refused, which leaves them as well. -/
theorem nak {msg : Msg} (hstream : msg.stream = streamKey LDAP_STREAM)
    (hdurable : msg.durable = durableKey LDAP_STREAM) (h : Backlog w msgs) :
    Backlog (answer env tid (.nak msg) w).2 msgs := by
  obtain ⟨s, hs, -, hqueue, -⟩ := id h
  obtain ⟨d, hd⟩ := hqueue.served
  simp only [answer, World.settle, hstream, hdurable, hs, hd]
  exact setDurable hs hd h rfl

/-- A change is put behind the others. -/
theorem publish (h : Backlog w msgs) (payload : Payload) : ∃ m, m.payload = payload ∧
    Backlog (answer env tid (.publish LDAP_SUBJECT payload (streamKey LDAP_STREAM)) w).2
      (msgs ++ [m]) := by
  obtain ⟨s, hs, hsubject, hqueue, rfl⟩ := h
  simp only [answer, hs, if_pos hsubject]
  exact ⟨_, rfl, _, World.streams_setStream_self .., hsubject, hqueue.append payload tid, rfl⟩

/-- An acknowledgement of the front leaves the rest. -/
theorem ack {msg : Msg} (hstream : msg.stream = streamKey LDAP_STREAM)
    (hdurable : msg.durable = durableKey LDAP_STREAM) (h : Backlog w (m :: rest))
    (hseq : m.seq = msg.streamSeq) : Backlog (answer env tid (.ack msg) w).2 rest := by
  obtain ⟨s, hs, hsubject, hqueue, hmsgs⟩ := h
  obtain ⟨d, hd⟩ := hqueue.served
  rw [← hstream] at hs
  rw [← hdurable] at hd
  rw [answer_ack env tid hs hd hqueue.workQueue, hstream, hdurable, ← hseq]
  rw [hdurable] at hd
  exact ⟨_, World.streams_setStream_self .., hsubject, hqueue.ack hd hmsgs,
    Stream.IsQueue.msgs_ack hmsgs⟩

/-- A fetch leaves the queue, and what it finds is the front. -/
theorem fetch (h : Backlog w msgs) :
    Backlog (answer env tid (.fetch (streamKey LDAP_STREAM) (durableKey LDAP_STREAM)) w).2 msgs ∧
      ∀ msg, (answer env tid (.fetch (streamKey LDAP_STREAM) (durableKey LDAP_STREAM)) w).1 =
          .ok msg → ∃ d m rest, msgs = m :: rest ∧
        msg = deliveryOf (streamKey LDAP_STREAM) (durableKey LDAP_STREAM) d m := by
  obtain ⟨s, hs, -, hqueue, hmsgs⟩ := id h
  obtain ⟨d, hd⟩ := hqueue.served
  cases hm : s.fetch d with
  | none =>
    simp only [answer, hs, hd, hm]
    refine ⟨h, fun msg hmsg => ?_⟩
    cases hmsg
  | some m =>
    simp only [answer, hs, hd, hm]
    refine ⟨setDurable hs hd h rfl, ?_⟩
    intro msg hmsg
    obtain ⟨rest, hfront⟩ := hqueue.front_of_fetch hd hm
    exact ⟨d, m, rest, hmsgs.symm.trans hfront, (Except.ok.inj hmsg).symm⟩

end Backlog

/-! ## What is waiting -/

/-! The queue holds the changes from a number on. This is where the numbers come in: the messages
are compared with the chronicle, position by position. -/

/-- The changes from number `k` on are in the queue. -/
structure Waiting (k : Nat) (scene : Scene start) (msgs : List (Stored Payload)) : Prop where
  le : k ≤ scene.chronicle.changes.length
  queued : Backlog scene.world msgs
  payloads : msgs.map Stored.payload =
    (scene.chronicle.changes.drop k).map fun change => .message change.message

namespace Waiting

variable (env)

/-- What another does leaves everything waiting, and may add to it. -/
theorem act (h : Waiting k scene msgs) (action : Action) :
    ∃ more, Waiting k (scene.act env action) (msgs ++ more) := by
  cases action with
  | call tid op hop =>
    refine ⟨[], h.le, ?_, by rw [List.append_nil]; exact h.payloads⟩
    rw [List.append_nil]
    rcases hop.1 with hspares | rfl
    · exact h.queued.spared env tid hspares
    · exact h.queued.expire env tid
  | change change =>
    show ∃ more, Waiting k (if h : change.Valid scene.chronicle.directory then
      { scene with
        world := (change.listen.alone (serve env) Scene.listener scene.world).world
        chronicle := scene.chronicle.extend change h }
      else scene) (msgs ++ more)
    split
    · next hvalid =>
      obtain ⟨m, hpayload, hqueued⟩ :=
        h.queued.publish env Scene.listener (.message change.message)
      rw [← listen_world] at hqueued
      refine ⟨[m], ?_, hqueued, ?_⟩
      · exact Nat.le_trans h.le (by simp [Chronicle.extend])
      · show (msgs ++ [m]).map _ = ((scene.chronicle.changes ++ [change]).drop k).map _
        rw [List.drop_append_of_le_length h.le, List.map_append, List.map_append, h.payloads]
        simp [hpayload]
    · exact ⟨[], by rw [List.append_nil]; exact h⟩

theorem meanwhile (h : Waiting k scene msgs) :
    ∃ more, Waiting k (scene.meanwhile env) (msgs ++ more) := by
  have hall : ∀ (actions : List Action) (scene : Scene start) msgs, Waiting k scene msgs →
      ∃ more, Waiting k (actions.foldl (Scene.act env) scene) (msgs ++ more) := by
    intro actions
    induction actions with
    | nil => exact fun scene msgs h => ⟨[], by rw [List.append_nil]; exact h⟩
    | cons action actions ih =>
      intro scene msgs h
      obtain ⟨more, hmore⟩ := h.act env action
      obtain ⟨more', hmore'⟩ := ih _ _ hmore
      exact ⟨more ++ more', by rw [← List.append_assoc]; exact hmore'⟩
  exact hall _ _ _ ⟨h.le, h.queued, h.payloads⟩

omit env in
/-- In front is the change with number `k`. -/
theorem front (h : Waiting k scene (m :: rest)) : ∃ change,
    scene.chronicle.changes[k]? = some change ∧ m.payload = .message change.message ∧
      rest.map Stored.payload =
        (scene.chronicle.changes.drop (k + 1)).map fun change => .message change.message := by
  have hpayloads := h.payloads
  by_cases hlt : k < scene.chronicle.changes.length
  · rw [List.drop_eq_getElem_cons hlt] at hpayloads
    obtain ⟨hfirst, hrest⟩ := List.cons.inj hpayloads
    exact ⟨_, List.getElem?_eq_getElem hlt, hfirst, hrest⟩
  · rw [List.drop_eq_nil_of_le (Nat.le_of_not_lt hlt)] at hpayloads
    cases hpayloads

end Waiting

/-- The history goes on. -/
theorem chronicle_act (scene : Scene start) (action : Action) :
    scene.chronicle.changes <+: (scene.act env action).chronicle.changes := by
  cases action with
  | call tid op h => exact List.prefix_rfl
  | change change =>
    show _ <+: (if h : change.Valid scene.chronicle.directory then
      { scene with
        world := (change.listen.alone (serve env) Scene.listener scene.world).world
        chronicle := scene.chronicle.extend change h }
      else scene).chronicle.changes
    split
    · exact List.prefix_append ..
    · exact List.prefix_rfl

/-- What has happened before a script is the beginning of what has happened after it. -/
theorem chronicle_meanwhile (scene : Scene start) :
    scene.chronicle.changes <+: (scene.meanwhile env).chronicle.changes := by
  have hall : ∀ (actions : List Action) (scene : Scene start),
      scene.chronicle.changes <+: (actions.foldl (Scene.act env) scene).chronicle.changes := by
    intro actions
    induction actions with
    | nil => exact fun _ => List.prefix_rfl
    | cons action actions ih => exact fun scene => (chronicle_act scene action).trans (ih _)
  exact hall _ { scene with script := scene.script.tail }

/-! ## The replica -/

/-- The changes before number `k` have been taken in, and of the next it is not known. -/
structure Behind (env : Env) (k : Nat) (scene : Scene start) (table : String → Option Obj) :
    Prop where
  waiting : ∃ msgs, Waiting k scene msgs
  covers : Covers scene.world table
  table : table = (start.after (scene.chronicle.changes.take k)).view env ∨
    (k < scene.chronicle.changes.length ∧
      table = (start.after (scene.chronicle.changes.take (k + 1))).view env)

/-- One change more. -/
theorem after_succ {changes : List Change} {change : Change} (h : changes[k]? = some change) :
    start.after (changes.take (k + 1)) = change.apply (start.after (changes.take k)) := by
  unfold Directory.after
  rw [List.take_add_one, h, List.foldl_append]
  rfl

variable {scene' : Scene start} {table : String → Option Obj}

/-- As far as the changes are concerned that have been there, later is as now. -/
theorem Behind.later (h : Behind env k scene table)
    (hchanges : scene.chronicle.changes <+: scene'.chronicle.changes)
    (hwaiting : ∃ msgs, Waiting k scene' msgs) (hcovers : Covers scene'.world table) :
    Behind env k scene' table := by
  obtain ⟨msgs, hw⟩ := h.waiting
  obtain ⟨added, hadded⟩ := hchanges
  refine ⟨hwaiting, hcovers, ?_⟩
  rw [← hadded]
  rcases h.table with hnow | ⟨hlt, hnext⟩
  · rw [List.take_append_of_le_length hw.le]
    exact Or.inl hnow
  · rw [List.take_append_of_le_length hlt]
    refine Or.inr ⟨?_, hnext⟩
    rw [List.length_append]
    exact Nat.lt_of_lt_of_le hlt (Nat.le_add_right ..)

/-- Of the server only the cache matters for this. -/
theorem Covers.same (h : Covers scene.world table)
    (hsame : ∀ uuid, cached scene'.world uuid = cached scene.world uuid) :
    Covers scene'.world table :=
  ⟨fun uuid hthere => hsame uuid ▸ h.covers uuid hthere,
    fun uuid => hsame uuid ▸ h.identified uuid⟩

/-- **Whatever others do, the copy is as far behind as before.** -/
theorem Behind.act (h : Behind env k scene table) (action : Action) :
    Behind env k (scene.act env action) table := by
  obtain ⟨msgs, hw⟩ := h.waiting
  obtain ⟨more, hmore⟩ := hw.act env action
  exact h.later (chronicle_act scene action) ⟨_, hmore⟩
    (h.covers.same fun uuid => cached_act scene action)

/-- The oldest change is fetched, or none. -/
theorem Behind.fetch (h : Behind env k scene table) :
    ∃ msgs, Waiting k ((amid env).answer 0
        (.fetch (streamKey LDAP_STREAM) (durableKey LDAP_STREAM)) scene).2 msgs ∧
      Behind env k ((amid env).answer 0
        (.fetch (streamKey LDAP_STREAM) (durableKey LDAP_STREAM)) scene).2 table ∧
      ∀ msg, ((amid env).answer 0
        (.fetch (streamKey LDAP_STREAM) (durableKey LDAP_STREAM)) scene).1 = .ok msg →
        ∃ d m rest, msgs = m :: rest ∧
          msg = deliveryOf (streamKey LDAP_STREAM) (durableKey LDAP_STREAM) d m := by
  obtain ⟨msgs, hw⟩ := h.waiting
  obtain ⟨more, hmore⟩ := hw.meanwhile env
  obtain ⟨hqueued, hfront⟩ := hmore.queued.fetch env 0
  rw [amid_answer]
  refine ⟨_, ⟨hmore.le, hqueued, hmore.payloads⟩, ?_, hfront⟩
  refine h.later (chronicle_meanwhile scene) ⟨_, hmore.le, hqueued, hmore.payloads⟩ ?_
  refine h.covers.same fun uuid => ?_
  have hfetch : cached (answer env 0 (.fetch (streamKey LDAP_STREAM) (durableKey LDAP_STREAM))
      (scene.meanwhile env).world).2 uuid = cached (scene.meanwhile env).world uuid :=
    cached_answer 0 _ nofun nofun
  exact hfetch.trans (cached_meanwhile scene)

/-! ## One round -/

/-! A round fetches, attempts what it was handed, and acknowledges it. The acknowledgement is the
last of its calls, so what is left of the round after it is nothing, and there are two cases: it
landed, and the queue has lost its front; or it did not, and the queue is as it was. -/

/-- An event goes to another queue. -/
theorem sparing_sending (m : Message) : (sending m).spares (streamKey LDAP_STREAM) = true :=
  bne_iff_ne.mpr (by decide)

variable {change : Change} {p : Coro Unit} {plan : List (Fault Outage)} {msg : Msg}

/-- While the change is attempted it is in front, until it is acknowledged. -/
theorem waiting_turn {d : Durable}
    (hmsg : msg = deliveryOf (streamKey LDAP_STREAM) (durableKey LDAP_STREAM) d m)
    (huses : p.Uses (AttemptCall env change.uuid change.message.body msg))
    (hlast : p.Thereafter (· = .ack msg) fun _ => False) (h : Waiting k scene (m :: rest)) :
    ((∃ msgs, Waiting k (p.attempt (amid env) 0 plan scene).world msgs) ∧
        ∀ op ∈ (p.attempt (amid env) 0 plan scene).landed, op ≠ .ack msg) ∨
      ((∃ msgs, Waiting (k + 1) (p.attempt (amid env) 0 plan scene).world msgs) ∧
        ∃ op ∈ (p.attempt (amid env) 0 plan scene).landed, op = .ack msg) := by
  have hstream : msg.stream = streamKey LDAP_STREAM := by rw [hmsg]; rfl
  have hdurable : msg.durable = durableKey LDAP_STREAM := by rw [hmsg]; rfl
  have hturn := attempt_until (S := amid env) 0
    (fun scene : Scene start => ∃ rest, Waiting k scene (m :: rest))
    (fun scene => ∃ msgs, Waiting (k + 1) scene msgs) (· = .ack msg) huses hlast ?_ ?_ nofun
    plan ⟨rest, h⟩
  · rcases hturn with ⟨⟨rest, hw⟩, hnone⟩ | ⟨hw, hack⟩
    · exact Or.inl ⟨⟨_, hw⟩, hnone⟩
    · exact Or.inr ⟨hw, hack⟩
  · -- No call but the acknowledgement touches the front of the queue.
    intro op scene hop hw hack
    obtain ⟨rest, hw⟩ := hw
    obtain ⟨more, hw⟩ := hw.meanwhile env
    refine ⟨rest ++ more, hw.le, ?_, hw.payloads⟩
    cases hop with
    | read => exact hw.queued.spared env 0 rfl
    | call old hop =>
      cases hop with
      | store obj hobj hne => exact hw.queued.spared env 0 rfl
      | send m new hnew hbody => exact hw.queued.spared env 0 (sparing_sending m)
      | ack => exact absurd rfl hack
      | nak => exact Backlog.nak env 0 hstream hdurable hw.queued
  · intro op scene _ hw hop
    subst hop
    obtain ⟨rest, hw⟩ := hw
    obtain ⟨more, hw⟩ := hw.meanwhile env
    have hqueued := Backlog.ack env 0 hstream hdurable hw.queued (by rw [hmsg]; rfl)
    obtain ⟨later, hlater, -, hpayloads⟩ := hw.front
    have hlt := (List.getElem?_eq_some_iff.mp hlater).1
    exact ⟨⟨rest ++ more, hlt, hqueued, hpayloads⟩, (), rfl⟩

/-- What handles a change acknowledges nothing. -/
theorem not_ack_handleNew (body : Body) (old : Obj) :
    (handleNew env body old).Uses fun op => ¬ op = .ack msg := by
  have hsend : ∀ new, (sendEvent env new old).Uses fun op => ¬ op = .ack msg :=
    fun new => uses_sendEvent fun m _ => nofun
  have hstore : ∀ obj, (store obj).Uses fun op => ¬ op = .ack msg := by
    intro obj
    unfold store
    split
    · exact uses_putValue nofun fun _ => nofun
    · trivial
  unfold handleNew
  refine Uses.bind uses_ofExcept fun new => ?_
  split
  · exact Uses.bind (hstore _) fun _ => hsend new
  · exact hsend new

/-- The acknowledgement is the last call. -/
theorem ack_last {m : Message} {uuid : String} (hmsg : msg.payload = .message m)
    (huuid : m.body.old ≠ [] → firstValue m.body.old "entryUUID" = .ok uuid) :
    (transformEvent env msg).Thereafter (· = .ack msg) fun _ => False := by
  have hfrom : ∀ old, (transformFrom env m.body msg old).Thereafter (· = .ack msg)
      fun _ => False := by
    intro old
    refine Thereafter.after (Uses.tryCatch (not_ack_handleNew m.body old) fun e => ?_) fun _ =>
      thereafter_call ..
    exact Uses.bind (uses_request nofun) fun _ => trivial
  by_cases hold : m.body.old = []
  · rw [transformEvent_new hmsg hold]
    exact hfrom []
  · rw [transformEvent_old hmsg hold (huuid hold)]
    refine ⟨nofun, fun r => ?_⟩
    cases r with
    | ok e => exact hfrom e.value
    | error x =>
      dsimp only
      split
      · exact hfrom []
      · exact Uses.thereafter (Uses.bind (uses_request nofun) fun _ => trivial)

/-- A round is a fetch, and then an attempt. -/
theorem transformOnce_eq : transformOnce env =
    .await (.fetch (streamKey LDAP_STREAM) (durableKey LDAP_STREAM)) fun
      | .ok msg => transformEvent env msg
      | .error e => if e = .timeout then .pure () else .throw (.call e) := by
  refine congrArg (Prog.await (Op.fetch ..)) (funext fun r => ?_)
  cases r with
  | ok msg => rfl
  | error e => cases e <;> rfl

/-- What has become of the scene and the replica when they were behind by the changes from number
`k` on, and are now by those from number `k'` on. -/
structure Turned (env : Env) (k k' : Nat) (scene : Scene start) (table : String → Option Obj)
    (a : Turn start) : Prop where
  behind : Behind env k' a.world (replay table (tells a))
  longer : scene.chronicle.changes <+: a.world.chronicle.changes
  told : ∀ body ∈ eventsOf a.landed, ∃ change, a.world.chronicle.changes[k]? = some change ∧
    body.assignment = some (change.assignment env)

/-- The replica follows the change in front, also one that has come only now. -/
theorem Behind.follows {changes : List Change} (h : Behind env k scene table)
    (hlonger : scene.chronicle.changes <+: changes) (hchange : changes[k]? = some change) :
    Replica.Follows ((start.after (changes.take k)).view env) (change.assignment env) table := by
  obtain ⟨msgs, hw⟩ := h.waiting
  obtain ⟨added, rfl⟩ := hlonger
  have hnext : start.after _ = _ := after_succ hchange
  rw [List.take_append_of_le_length hw.le] at hnext ⊢
  rcases h.table with hnow | ⟨hlt, hthen⟩
  · exact Or.inl hnow
  · have htake : (scene.chronicle.changes ++ added).take (k + 1) =
        scene.chronicle.changes.take (k + 1) := List.take_append_of_le_length hlt
    rw [← htake, hnext, view_apply] at hthen
    exact Or.inr hthen

/-- What an attempt leaves, seen from the replica and from the queue. -/
theorem Behind.of_leaves {a : Turn start} (h : Behind env k scene table)
    (hchange : scene.chronicle.changes[k]? = some change) (hleaves : Leaves env change msg scene a)
    (hlonger : scene.chronicle.changes <+: a.world.chronicle.changes)
    (hturn : ((∃ msgs, Waiting k a.world msgs) ∧ ∀ op ∈ a.landed, op ≠ .ack msg) ∨
      ((∃ msgs, Waiting (k + 1) a.world msgs) ∧ ∃ op ∈ a.landed, op = .ack msg)) :
    (Turned env k k scene table a ∧ .ack msg ∉ a.landed) ∨
      (Turned env k (k + 1) scene table a ∧ .ack msg ∈ a.landed) := by
  have hvalid := scene.chronicle.allowed k change hchange
  have hlt := (List.getElem?_eq_some_iff.mp hchange).1
  obtain ⟨hfollows', hcovers, hacked⟩ :=
    hleaves.follows hvalid (h.follows List.prefix_rfl hchange) h.covers
  -- The history up to this change is as it was.
  obtain ⟨added, hadded⟩ := id hlonger
  have htake : a.world.chronicle.changes.take k = scene.chronicle.changes.take k := by
    rw [← hadded, List.take_append_of_le_length (Nat.le_of_lt hlt)]
  have hchange' : a.world.chronicle.changes[k]? = some change := by
    rw [← hadded, List.getElem?_append_left hlt]
    exact hchange
  have htold : ∀ body ∈ eventsOf a.landed, ∃ change, a.world.chronicle.changes[k]? = some change ∧
      body.assignment = some (change.assignment env) :=
    fun body hbody => ⟨change, hchange', hleaves.events body hbody⟩
  rcases hturn with ⟨hw', hnone⟩ | ⟨hw', op, hop, rfl⟩
  · refine Or.inl ⟨⟨⟨hw', hcovers, ?_⟩, hlonger, htold⟩, fun hop => hnone _ hop rfl⟩
    rw [htake, after_succ hchange', htake]
    rcases hfollows' with hnow | hnext
    · exact Or.inl hnow
    · rw [← view_apply] at hnext
      exact Or.inr ⟨(List.getElem?_eq_some_iff.mp hchange').1, hnext⟩
  · refine Or.inr ⟨⟨⟨hw', hcovers, Or.inl ?_⟩, hlonger, htold⟩, hop⟩
    rw [after_succ hchange', htake]
    exact hacked hop

/-- One attempt at the change in front. -/
theorem behind_turn {d : Durable} (henv : Represents env) (h : Behind env k scene table)
    (hw : Waiting k scene (m :: rest))
    (hmsg : msg = deliveryOf (streamKey LDAP_STREAM) (durableKey LDAP_STREAM) d m) :
    (Turned env k k scene table ((transformEvent env msg).attempt (amid env) 0 plan scene) ∧
      .ack msg ∉ ((transformEvent env msg).attempt (amid env) 0 plan scene).landed) ∨
    (Turned env k (k + 1) scene table ((transformEvent env msg).attempt (amid env) 0 plan scene) ∧
      .ack msg ∈ ((transformEvent env msg).attempt (amid env) 0 plan scene).landed) := by
  obtain ⟨change, hchange, hpayload, -⟩ := hw.front
  have hpayload' : msg.payload = .message change.message := by rw [hmsg]; exact hpayload
  have hvalid := scene.chronicle.allowed k change hchange
  have hentry := ofEntry_message hvalid
  have huses : (transformEvent env msg).Uses
      (AttemptCall env change.uuid change.message.body msg) :=
    uses_transformEvent henv.returnsUuid hpayload' hentry
  refine h.of_leaves hchange
    (leaves_transformEvent henv hvalid (h.covers.identified _) hpayload') ?_
    (waiting_turn hmsg huses (ack_last hpayload' hentry.old) hw)
  exact attempt_invariant
    (I := fun scene' : Scene start => scene.chronicle.changes <+: scene'.chronicle.changes) huses
    (fun op scene' _ hlonger => hlonger.trans (chronicle_meanwhile scene')) plan List.prefix_rfl

/-- A fetch is no event. -/
theorem events_after_fetch (a : Turn start) {stream durable : String}
    (r : Except CallError (Op.fetch stream durable).Res) :
    eventsOf (a.after (.fetch stream durable) r).landed = eventsOf a.landed := by
  cases r with
  | ok msg => rfl
  | error e => rfl

/-- The fetch before an attempt changes nothing of this. -/
theorem Turned.after_fetch {a : Turn start} {k' : Nat} {stream durable : String}
    (h : Turned env k k' ((amid env).answer 0 (.fetch stream durable) scene).2 table a)
    (r : Except CallError (Op.fetch stream durable).Res) :
    Turned env k k' scene table (a.after (.fetch stream durable) r) := by
  refine ⟨?_, ?_, ?_⟩
  · unfold tells
    rw [Attempt.after_world, events_after_fetch]
    exact h.behind
  · rw [Attempt.after_world]
    exact (chronicle_meanwhile scene).trans h.longer
  · rw [Attempt.after_world, events_after_fetch]
    exact h.told

/-- Nothing is done. -/
theorem Behind.turned_nothing {o : Option (Except Exc Unit)} (h : Behind env k scene table) :
    Turned env k k scene table (⟨o, scene, []⟩ : Turn start) := by
  refine ⟨h, List.prefix_rfl, fun b hb => ?_⟩
  cases hb

/-- A fetch that has failed ends the round. -/
theorem Behind.turned_failure (h : Behind env k scene table) (e : CallError)
    (plan : List (Fault Outage)) :
    Turned env k k scene table
      ((if e = .timeout then .pure () else .throw (.call e) : Coro Unit).attempt (amid env) 0 plan
        scene) := by
  split
  · rw [attempt_pure]
    exact h.turned_nothing
  · rw [attempt_throw]
    exact h.turned_nothing

/-- **One round** leaves the replica behind by what is left of the queue. -/
theorem behind_round (henv : Represents env) (h : Behind env k scene table) :
    ∃ k', k ≤ k' ∧ k' ≤ k + 1 ∧
      Turned env k k' scene table ((transformOnce env).attempt (amid env) 0 plan scene) := by
  obtain ⟨msgs, hw, hfetched, hfront⟩ := h.fetch
  rw [transformOnce_eq]
  refine attempt_await (P := fun a => ∃ k', k ≤ k' ∧ k' ≤ k + 1 ∧ Turned env k k' scene table a)
    plan ⟨k, Nat.le_refl k, Nat.le_succ k, h.turned_nothing⟩ (fun fs => ?_) (fun e fs => ?_)
    fun e fs => ?_
  · -- Answered, it found nothing, or the oldest change and the turn that follows.
    cases hr : ((amid env).answer 0
        (.fetch (streamKey LDAP_STREAM) (durableKey LDAP_STREAM)) scene).1 with
    | error e =>
      refine ⟨k, Nat.le_refl k, Nat.le_succ k, ?_⟩
      exact (hfetched.turned_failure e fs).after_fetch _
    | ok msg =>
      obtain ⟨d, m, rest, rfl, hmsg⟩ := hfront msg hr
      rcases behind_turn henv hfetched hw hmsg with ⟨h, -⟩ | ⟨h, -⟩
      · exact ⟨k, Nat.le_refl k, Nat.le_succ k, h.after_fetch _⟩
      · exact ⟨k + 1, Nat.le_succ k, Nat.le_refl _, h.after_fetch _⟩
  · exact ⟨k, Nat.le_refl k, Nat.le_succ k, h.turned_failure _ fs⟩
  · -- The answer was lost, and the change counts as handed out.
    refine ⟨k, Nat.le_refl k, Nat.le_succ k, ?_⟩
    exact (hfetched.turned_failure _ fs).after_fetch _

/-! ## All rounds -/

/-! A run is a list of rounds with anything in between. Each step gives a new `k`, so the induction
is with `k` generalized, and in the end there is some `k`. -/

/-- What the replica has become that has taken in all events. -/
def Pipeline.replica (env : Env) (p : Pipeline start) : String → Option Obj :=
  replay (start.view env) (p.events.filterMap Body.assignment)

/-- One step of the pipeline: a round, or something that another does. -/
theorem behind_step (henv : Represents env) {p : Pipeline start}
    (h : Behind env k p.scene (p.replica env)) (step : Pipeline.Step) :
    ∃ k', Behind env k' (p.step env step).scene ((p.step env step).replica env) := by
  cases step with
  | act action => exact ⟨k, h.act action⟩
  | round plan script =>
    have hscene : Behind env k { p.scene with script := script } (p.replica env) :=
      ⟨⟨_, (h.waiting.choose_spec).le, (h.waiting.choose_spec).queued,
        (h.waiting.choose_spec).payloads⟩, h.covers, h.table⟩
    obtain ⟨k', -, -, hk'⟩ := behind_round henv hscene
    refine ⟨k', ?_⟩
    unfold Pipeline.replica Pipeline.step
    rw [List.filterMap_append, replay_append]
    exact hk'.behind

/-- Any number of them. -/
theorem behind_run (henv : Represents env) {p : Pipeline start}
    (h : Behind env k p.scene (p.replica env)) (steps : List Pipeline.Step) :
    ∃ k', Behind env k' (p.run env steps).scene ((p.run env steps).replica env) := by
  induction steps generalizing p k with
  | nil => exact ⟨k, h⟩
  | cons step steps ih =>
    obtain ⟨k', hk'⟩ := behind_step henv h step
    exact ih hk'

/-- With nothing in the queue the replica shows the directory. -/
theorem Behind.caught_up (h : Behind env k scene table) (hempty : Backlog scene.world []) :
    table = scene.chronicle.directory.view env := by
  obtain ⟨msgs, hw⟩ := h.waiting
  obtain ⟨s, hs, -, -, hnone⟩ := hempty
  obtain ⟨s', hs', -, -, hmsgs⟩ := hw.queued
  cases hs.symm.trans hs'
  have hpayloads := hw.payloads
  rw [← hmsgs, hnone] at hpayloads
  have hlen : scene.chronicle.changes.length ≤ k :=
    List.drop_eq_nil_iff.mp (List.map_eq_nil_iff.mp hpayloads.symm)
  rcases h.table with hnow | ⟨hlt, -⟩
  · rw [List.take_of_length_le hlen] at hnow
    exact hnow
  · exact absurd hlt (Nat.not_lt_of_le hlen)

/-- **A consumer's copy follows the directory.** Whatever fails and however often a change is
attempted, at any time there is a number of changes that the transformer is done with: the changes
after them are the ones in the queue, and the copy shows the directory after them, or after the next
one too. With nothing in the queue it shows the directory. -/
theorem replica_follows_directory (env : Env) (henv : Represents env) (start : Directory)
    (w : World) (hqueue : Backlog w []) (hcovers : Covers w (start.view env))
    (steps : List Pipeline.Step) :
    let p := (Pipeline.begin w : Pipeline start).run env steps
    let changes := p.scene.chronicle.changes
    (∃ k msgs, k ≤ changes.length ∧ Backlog p.scene.world msgs ∧
      msgs.map Stored.payload = (changes.drop k).map (fun change => .message change.message) ∧
      (p.replica env = (start.after (changes.take k)).view env ∨
        p.replica env = (start.after (changes.take (k + 1))).view env)) ∧
    (Backlog p.scene.world [] → p.replica env = p.scene.chronicle.directory.view env) := by
  intro p changes
  have hbegin : Behind env 0 (Pipeline.begin w : Pipeline start).scene
      ((Pipeline.begin w : Pipeline start).replica env) :=
    ⟨⟨[], Nat.le_refl _, hqueue, rfl⟩, hcovers, Or.inl rfl⟩
  obtain ⟨k, hbehind⟩ := behind_run henv hbegin steps
  obtain ⟨msgs, hw⟩ := hbehind.waiting
  refine ⟨⟨k, msgs, hw.le, hw.queued, hw.payloads, hbehind.table.imp_right And.right⟩, ?_⟩
  exact hbehind.caught_up

/-! ## A user is renamed while its creation is attempted again -/

/-- Entries without an object type have no module. -/
def Env.typed : Env :=
  { Env.sample with
    representation := fun objectType entry =>
      if objectType = "" then .error .moduleNotFound
      else Env.sample.representation objectType entry }

theorem represents_typed : Represents .typed := by
  have hfound : ∀ objectType entry obj, Env.typed.representation objectType entry = .ok obj →
      objectType ≠ "" ∧ Env.sample.representation objectType entry = .ok obj := by
    intro objectType entry obj h
    by_cases hempty : objectType = ""
    · rw [hempty] at h
      cases h
    · exact ⟨hempty, (if_neg hempty).symm.trans h⟩
  refine ⟨fun objectType entry obj uuid h huuid => ?_, fun objectType entry obj h => ?_⟩
  · exact uuid_representation_sample (hfound _ _ _ h).2 huuid
  · obtain ⟨hne, hobj⟩ := hfound _ _ _ h
    refine ⟨objectType, hne, ?_⟩
    simp only [Env.sample] at hobj
    split at hobj
    · cases hobj
      rfl
    · cases hobj

/-- The queue of the changes is set up too. -/
def World.listening : World :=
  World.prepared.setStream (streamKey LDAP_STREAM)
    (some ((Store.Stream.new [LDAP_SUBJECT] true).setDurable (durableKey LDAP_STREAM)
      (some .fresh)))

theorem backlog_listening : Backlog .listening [] := by
  refine ⟨_, World.streams_setStream_self .., List.mem_singleton.mpr rfl, ?_, rfl⟩
  exact ⟨rfl, ⟨_, Stream.durables_setDurable_self ..⟩, nofun, nofun⟩

/-- The entry of a user. -/
def LdapEntry.user (displayName : String) : LdapEntry := ⟨userEntry displayName, "u1", rfl⟩

/-- The event about the new user is lost, the user is renamed before the event is sent again, and
the acknowledgement of the renaming is lost. -/
def renamedMeanwhile : List Pipeline.Step :=
  [.act (.change (.create (.user "one"))),
    .round [.ok, .ok, .before .connection, .ok] [],
    .round [.ok, .ok, .ok, .ok] [[], [.change (.modify (.user "one") (.user "two"))]],
    .round [.ok, .ok, .ok, .ok, .before .timeout] [],
    .act .ackWaitExpires,
    .round [.ok, .ok, .ok, .ok, .ok] []]

theorem replica_follows_directory_sample :
    let p := (Pipeline.begin .listening : Pipeline fun _ => none).run .typed renamedMeanwhile
    p.events = [⟨[], userObject "one"⟩, ⟨userObject "one", userObject "two"⟩,
        ⟨userObject "two", userObject "two"⟩] ∧
      p.replica .typed = p.scene.chronicle.directory.view .typed := by
  intro p
  refine ⟨by decide +kernel, ?_⟩
  apply (replica_follows_directory .typed represents_typed (fun _ => none) .listening
    backlog_listening ⟨fun uuid h => absurd rfl h, fun uuid => Or.inl rfl⟩ renamedMeanwhile).2
  refine ⟨_, rfl, ?_, ?_, ?_⟩
  · decide +kernel
  · exact ⟨rfl, ⟨_, rfl⟩, nofun, by decide +kernel⟩
  · rfl

end Provisioning
