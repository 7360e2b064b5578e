import Provisioning.Lib.Fanout
import Provisioning.Lib.StreamLog
import Provisioning.Model.DispatchLoop
import Provisioning.Properties.TopicMatching

/-!
# The order of dispatch

The dispatcher is an instance of fanning out a log: the incoming stream hands out its oldest
unacknowledged event, the process holds what it was handed in the queue in memory, and the handler
works on one event after the other. What has to be shown of the code is that it keeps to the rules:
it acknowledges an event only once it was published to all the mapping names for it, it never looks
at a message before the ones it was handed earlier, and NATS, for its part, goes through the stream
from the front.

## What order can mean here

Events are delivered again: after a death, after the ack wait, and even while an earlier delivery is
still in the queue of the process. So an event may be published several times. What can be shown is
that **the repetitions of one come before the next one**: what was published to a subscription is,
but for immediate repetitions, a beginning of what it wants. `Fanout.Inv` is the invariant of the
general algorithm from which that follows. The code owes it to having one worker, to taking what it
was handed in that order, and to acknowledging an event only when it is done with it.

## The simulation

`FansOut s a` relates a state of the dispatcher to a state of the algorithm. The algorithm knows
which events are held, and the dispatcher holds messages; so `held` compares them one by one, and
`IsAt` says which event a message is. The handler is related through what is left of its program:
it stands at the beginning, or some of the subscriptions are not served yet, and all others have
been sent the event.

One step of the dispatcher is any number of steps of the algorithm, often none and sometimes two,
as where the last publication of a handler is followed by the next event. `FansOut.step` is the
simulation, and the theorem is the algorithm's invariant read through the relation at the end.

A process that dies holds nothing any more, and the algorithm has a step for that. The state of NATS
is not affected, and neither is what was published, including what nobody was told of.
-/

namespace Provisioning

open Await Store Prog Relation

variable {env : Env} {subs : Subscribers}

/-- A subscription of the fixed set. -/
abbrev Receiver (subs : Subscribers) : Type := { sub // sub ∈ subs.list }

/-- The subscription lists the topic of the event. -/
def Receiver.wants (i : Receiver subs) (event : Nat × Payload) : Bool := i.1.wants event

/-! ## The incoming stream -/

/-! The stream holds what was posted, except for what is acknowledged: it is a work queue. So its
front is the first event that is not acknowledged, whatever its number. -/

/-- The incoming stream, of whose events so many are acknowledged. -/
structure Incoming (incoming : List (Nat × Payload)) (acked : Nat) (s : Store.Stream Payload)
    (d : Durable) : Prop extends Logged incoming acked s where
  workQueue : s.workQueue = true
  subjects : s.subjects = [DISPATCHER_STREAM]
  acked : ∀ e ∈ incoming, e.1 ∈ d.acked → e ∈ incoming.take acked
  old : ∀ n ∈ d.acked, n ≤ s.last

/-- The stream is there with its consumer, and is in this state. -/
def HasIncoming (incoming : List (Nat × Payload)) (acked : Nat) (w : World) : Prop :=
  ∃ s d, w.streams eventQueue = some s ∧ s.durables eventWorker = some d ∧
    Incoming incoming acked s d

section Incoming

variable {incoming : List (Nat × Payload)} {acked : Nat} {s : Store.Stream Payload} {d : Durable}
  {w w' : World}

/-- It depends on this stream only. -/
theorem HasIncoming.congr (h : HasIncoming incoming acked w)
    (hsame : w'.streams eventQueue = w.streams eventQueue) : HasIncoming incoming acked w' := by
  unfold HasIncoming
  rw [hsame]
  exact h

/-- What is still in the stream has not been acknowledged. -/
theorem Incoming.not_acked (h : Incoming incoming acked s d) {m : Stored Payload}
    (hm : m ∈ s.msgs) : m.seq ∉ d.acked := by
  intro hacked
  have hdrop := h.mem_drop hm
  have htake := h.acked _ (List.mem_of_mem_drop hdrop) hacked
  have hsplit := h.nodup
  rw [← List.take_append_drop acked incoming] at hsplit
  exact (List.nodup_append.mp hsplit).2.2 _ htake _ hdrop rfl

/-- **NATS goes through the stream from the front.** -/
theorem Incoming.fetch (h : Incoming incoming acked s d) {m : Stored Payload}
    (hm : s.fetch d = some m) : incoming[acked]? = some (m.seq, m.payload) := by
  have hold := Stream.oldest_of_fetch hm
  apply h.head
  unfold Stream.oldest at hold
  cases hmsgs : s.msgs with
  | nil => rw [hmsgs] at hold; cases hold
  | cons m' msgs =>
    have hnot : m'.seq ∉ d.acked := h.not_acked (hmsgs ▸ List.mem_cons_self)
    rw [hmsgs, List.find?_cons_of_pos (by simpa using hnot)] at hold
    exact hold

/-- An event that is posted comes last. -/
theorem Incoming.append (h : Incoming incoming acked s d) (hle : acked ≤ incoming.length)
    (payload : Payload) (tid : Nat) (subject : String) :
    Incoming (incoming ++ [(s.last + 1, payload)]) acked (s.append subject payload tid) d := by
  refine ⟨h.toLogged.append hle subject payload tid, h.workQueue, h.subjects,
    fun e he hacked => ?_, fun n hn => Nat.le_succ_of_le (h.old n hn)⟩
  rw [List.take_append_of_le_length hle]
  rcases List.mem_append.mp he with he | he
  · exact h.acked e he hacked
  · rw [List.mem_singleton.mp he] at hacked
    exact absurd (h.old _ hacked) (Nat.not_succ_le_self _)

/-- What is out or was given back does not matter. -/
theorem Incoming.setDurable (h : Incoming incoming acked s d) (name : String) {d' : Durable}
    (hd : d'.acked = d.acked) : Incoming incoming acked (s.setDurable name (some d')) d' :=
  ⟨⟨h.msgs, h.bounded, h.sorted⟩, h.workQueue, h.subjects, hd ▸ h.acked, hd ▸ h.old⟩

/-- **Acknowledging an event** that has been handed out takes it out of the stream. -/
theorem Incoming.ack (h : Incoming incoming acked s d) (name : String) {j : Nat}
    {e : Nat × Payload} (he : incoming[j]? = some e) (hj : j ≤ acked) :
    Incoming incoming (max acked (j + 1))
      ((s.setDurable name (some (d.ack e.1))).keep (·.seq != e.1)) (d.ack e.1) := by
  have hmem : e ∈ incoming := List.mem_of_getElem? he
  have hremoved := h.toLogged.remove he hj
  refine ⟨⟨hremoved.msgs, h.bounded, h.sorted⟩, h.workQueue, h.subjects,
    fun e' he' hacked => ?_, fun n hn => ?_⟩
  · rcases List.mem_cons.mp hacked with heq | hacked
    · obtain rfl := eq_of_fst_eq h.sorted he' hmem heq
      obtain ⟨hlt, hje⟩ := List.getElem?_eq_some_iff.mp he
      refine List.mem_iff_getElem.mpr ⟨j, ?_, ?_⟩
      · rw [List.length_take]
        omega
      · rw [List.getElem_take, hje]
    · exact (List.take_prefix_take_left (Nat.le_max_left ..)).subset (h.acked e' he' hacked)
  · rcases List.mem_cons.mp hn with rfl | hn
    · exact h.bounded e hmem
    · exact h.old n hn

end Incoming

/-! ## The handler -/

/-! `handle_message` reads the mapping once and then serves the subscriptions it has found, in
whatever order they are in. `sendAll` is the loop with some of them left. -/

/-- What is left to do about an event when these subscriptions have not been served. -/
def sendAll (m : Message) (rest : List Subscription) (msg : Msg) : Coro Unit :=
  (Prog.forEach rest fun sub => addMessage sub.name (mainSubject sub.name) (.message m)).bind
    fun _ => request (.ack msg)

/-- An event that parses: the mapping is read, and then the loop begins. -/
theorem handleEvent_message {msg : Msg} {m : Message} (h : msg.payload = .message m) : ∃ k,
    handleEvent msg = .await .mappingGet k ∧
      (∀ mapping, k (.ok mapping) = sendAll m (mapping.subscribers m.realm m.topic) msg) ∧
      ∀ e, k (.error e) = .throw (.call e) := by
  unfold handleEvent validatedMessage
  rw [h]
  exact ⟨_, rfl, fun _ => rfl, fun _ => rfl⟩

/-- One that does not parse raises before any call, and is never acknowledged. -/
theorem handleEvent_invalid {msg : Msg} (h : ∀ m, msg.payload ≠ .message m) :
    handleEvent msg = .throw .validationError := by
  unfold handleEvent validatedMessage
  cases hp : msg.payload with
  | message m => exact absurd hp (h m)
  | prefill r => rfl
  | simple publisherName body => rfl

/-- The loop publishes to the first that is left, and a failure ends it. -/
theorem sendAll_cons (m : Message) (sub : Subscription) (rest : List Subscription) (msg : Msg) :
    ∃ k, sendAll m (sub :: rest) msg =
        .await (.publish (mainSubject sub.name) (.message m) (streamKey sub.name)) k ∧
      (∀ n, k (.ok n) = sendAll m rest msg) ∧ ∀ e, k (.error e) = .throw (.call e) :=
  ⟨_, rfl, fun _ => rfl, fun _ => rfl⟩

theorem sendAll_nil (m : Message) (msg : Msg) :
    ∃ k, sendAll m [] msg = .await (.ack msg) k ∧ k (.ok ()) = .pure () ∧
      ∀ e, k (.error e) = .throw (.call e) :=
  ⟨_, rfl, rfl, fun _ => rfl⟩

/-- Where the handler can be: at its start, or with some subscriptions left to serve, all others
that want the event having been sent it. -/
inductive Handling (subs : Subscribers) (sent : String → List (Nat × Payload)) (msg : Msg) :
    Coro Unit → Prop where
  | start (m : Message) (hm : msg.payload = .message m) : Handling subs sent msg (handleEvent msg)
  | sending (m : Message) (hm : msg.payload = .message m) (rest : List Subscription)
      (hrest : ∀ sub ∈ rest, sub ∈ subs.list ∧ sub.wants (msg.streamSeq, msg.payload) = true)
      (hsent : ∀ sub ∈ subs.list, sub.wants (msg.streamSeq, msg.payload) = true → sub ∉ rest →
        (msg.streamSeq, msg.payload) ∈ sent sub.name) :
      Handling subs sent msg (sendAll m rest msg)

/-- The message is the event at position `j`. -/
structure IsAt (incoming : List (Nat × Payload)) (msg : Msg) (j : Nat) : Prop where
  event : incoming[j]? = some (msg.streamSeq, msg.payload)
  stream : msg.stream = eventQueue
  durable : msg.durable = eventWorker

/-- Its position does not change when events are posted. -/
theorem IsAt.append {incoming : List (Nat × Payload)} {msg : Msg} {j : Nat}
    (h : IsAt incoming msg j) (e : Nat × Payload) : IsAt (incoming ++ [e]) msg j := by
  refine ⟨?_, h.stream, h.durable⟩
  obtain ⟨hlt, -⟩ := List.getElem?_eq_some_iff.mp h.event
  rw [List.getElem?_append_left hlt]
  exact h.event

/-! ## The refinement -/

/-- The messages a process holds, the one at work first. -/
def heldBy : Option DispatcherProcess → List Msg
  | none => []
  | some p => (p.handling.map (·.1)).toList ++ p.messageQueue

/-- The mapping names the fixed subscriptions. -/
def MapsTo (subs : Subscribers) (mapping : Mapping) : Prop :=
  ∀ realm topic sub, sub ∈ mapping.subscribers realm topic ↔
    sub ∈ subs.list ∧ ⟨realm, topic⟩ ∈ sub.realmsTopics

/-- What the state is about apart from what the process is doing. -/
structure Matches (subs : Subscribers) (s : Dispatcher)
    (a : Fanout.State (Receiver subs) (Nat × Payload)) : Prop where
  incoming : a.incoming = s.incoming
  sent : ∀ i : Receiver subs, a.sent i = s.publishedTo i.1.name
  queue : HasIncoming s.incoming a.acked s.world
  inv : Fanout.Inv Receiver.wants a

/-- **The dispatcher is at work on a fan-out.** -/
structure FansOut (subs : Subscribers) (s : Dispatcher)
    (a : Fanout.State (Receiver subs) (Nat × Payload)) : Prop extends Matches subs s a where
  held : List.Forall₂ (IsAt s.incoming) (heldBy s.process) a.held
  mapping : s.process.isSome = true → MapsTo subs s.world.mapping
  handling : ∀ queue msg prog, s.process = some ⟨queue, some (msg, prog)⟩ →
    Handling subs s.publishedTo msg prog

/-- The states of a fan-out that can follow. -/
abbrev Follow (a b : Fanout.State (Receiver subs) (Nat × Payload)) : Prop :=
  ReflTransGen (Fanout.Step Receiver.wants) a b

variable {s : Dispatcher} {a : Fanout.State (Receiver subs) (Nat × Payload)}

/-- A process that has ended holds nothing. -/
theorem Matches.ended (h : Matches subs s a) :
    ∃ b, Follow a b ∧ FansOut subs { s with process := none } b := by
  have hstep : Fanout.Step Receiver.wants a { a with held := [] } :=
    .letGo a [] List.nil_suffix
  exact ⟨_, .single hstep, ⟨h.incoming, h.sent, h.queue, h.inv.step hstep⟩, .nil, nofun, nofun⟩

/-- The handler goes on, or is over. -/
theorem Matches.goOn (h : Matches subs s a) {queue : List Msg} {msg : Msg} {prog : Coro Unit}
    (hheld : List.Forall₂ (IsAt s.incoming) (msg :: queue) a.held)
    (hmapping : MapsTo subs s.world.mapping)
    (hprog : ∀ op k, prog = .await op k → Handling subs s.publishedTo msg prog) :
    ∃ b, Follow a b ∧ FansOut subs (s.goOn queue msg prog) b := by
  cases prog with
  | throw e => exact h.ended
  | pure u =>
    obtain ⟨j, rest, hj, hrest, hsplit⟩ := List.forall₂_cons_left_iff.mp hheld
    have hstep : Fanout.Step Receiver.wants a { a with held := rest } :=
      .letGo a rest (hsplit ▸ List.suffix_cons j rest)
    exact ⟨_, .single hstep, ⟨h.incoming, h.sent, h.queue, h.inv.step hstep⟩, hrest,
      fun _ => hmapping, nofun⟩
  | await op k =>
    refine ⟨a, .refl, ⟨h.incoming, h.sent, h.queue, h.inv⟩, hheld, fun _ => hmapping, ?_⟩
    intro queue' msg' prog' heq
    cases heq
    exact hprog op k rfl

/-! ### What the others do -/

/-! Posting an event, the end of an ack wait, a delivery into the queue of the process, and the
calls of everybody else, which leave the stream and the mapping alone. -/

/-- A call that is apart changes neither. -/
theorem apart_answer (env : Env) (tid : Nat) {op : Op} (w : World) (h : op.apart = true) :
    (answer env tid op w).2.streams eventQueue = w.streams eventQueue ∧
      (answer env tid op w).2.mapping = w.mapping := by
  have hmapping : ∀ mapping, op ≠ .mappingSet mapping := by
    intro mapping heq
    rw [heq] at h
    cases h
  have hspares : op.spares eventQueue = true := by
    cases op with
    | mappingSet mapping => exact absurd rfl (hmapping mapping)
    | _ => exact h
  exact ⟨streams_answer_of_spares env tid w hspares, mapping_answer env tid w hmapping⟩

/-- So the relation is kept. -/
theorem FansOut.elsewhere (h : FansOut subs s a) {w : World}
    (hstream : w.streams eventQueue = s.world.streams eventQueue)
    (hmapping : w.mapping = s.world.mapping) : FansOut subs { s with world := w } a :=
  ⟨⟨h.incoming, h.sent, h.queue.congr hstream, h.inv⟩, h.held, fun hp => hmapping ▸ h.mapping hp,
    h.handling⟩

/-- The consumer is given another state, with the same acknowledgements. -/
theorem Matches.consumer (h : Matches subs s a) {st : Store.Stream Payload} {d d' : Durable}
    (hs : s.world.streams eventQueue = some st) (hd : st.durables eventWorker = some d)
    (hacked : d'.acked = d.acked) :
    HasIncoming s.incoming a.acked
      (s.world.setStream eventQueue (some (st.setDurable eventWorker (some d')))) := by
  obtain ⟨st', d₀, hs', hd₀, hincoming⟩ := h.queue
  obtain rfl := Option.some.inj (hs.symm.trans hs')
  obtain rfl := Option.some.inj (hd.symm.trans hd₀)
  exact ⟨_, d', World.streams_setStream_self .., Stream.durables_setDurable_self ..,
    hincoming.setDurable eventWorker hacked⟩

/-- An event is posted. -/
theorem FansOut.post (h : FansOut subs s a) {payload : Payload} {seq : Nat} {w : World}
    (hanswer : answer env 0 (.publish DISPATCHER_STREAM payload eventQueue) s.world =
      (.ok seq, w)) :
    ∃ b, Follow a b ∧
      FansOut subs { s with world := w, incoming := s.incoming ++ [(seq, payload)] } b := by
  obtain ⟨st, d, hs, hd, hincoming⟩ := h.queue
  rcases answer_publish env 0 DISPATCHER_STREAM payload eventQueue s.world with
    ⟨st', hs', -, hok⟩ | hrefused
  · obtain rfl := Option.some.inj (hs.symm.trans hs')
    cases hok.symm.trans hanswer
    have hnew : (st.last + 1, payload) ∉ a.incoming := h.incoming ▸ hincoming.new payload
    have hstep : Fanout.Step Receiver.wants a _ := .post a (st.last + 1, payload) hnew
    have hle : a.acked ≤ s.incoming.length := h.incoming ▸ h.inv.acked
    refine ⟨_, .single hstep, ⟨congrArg (· ++ [(st.last + 1, payload)]) h.incoming, h.sent, ?_,
      h.inv.step hstep⟩, ?_, h.mapping, h.handling⟩
    · exact ⟨_, d, World.streams_setStream_self .., hd, hincoming.append hle payload 0 _⟩
    · exact h.held.imp fun _ _ hat => hat.append _
  · rw [hrefused] at hanswer
    cases hanswer

/-- The ack wait passes, which changes nothing that is held. -/
theorem FansOut.expire (h : FansOut subs s a) :
    FansOut subs { s with
      world := (answer env 0 (.ackWaitExpires eventQueue eventWorker) s.world).2 } a := by
  obtain ⟨st, d, hs, hd, hincoming⟩ := h.queue
  have hworld : (answer env 0 (.ackWaitExpires eventQueue eventWorker) s.world).2 =
      s.world.setStream eventQueue (some (st.setDurable eventWorker (some d.expire))) := by
    simp only [answer, hs, hd]
  rw [hworld]
  exact ⟨⟨h.incoming, h.sent, h.toMatches.consumer hs hd rfl, h.inv⟩, h.held, h.mapping, h.handling⟩

/-- A delivery arrives at the end of the queue, or is lost on the way and nobody holds it. -/
theorem FansOut.deliver (h : FansOut subs s a) {p : DispatcherProcess} (hp : s.process = some p)
    {msg : Msg} {w : World} (arrives : Bool)
    (hanswer : answer env 0 (.fetch eventQueue eventWorker) s.world = (.ok msg, w)) :
    ∃ b, Follow a b ∧ FansOut subs
      (if arrives then
        { s with world := w, process := some ⟨p.messageQueue ++ [msg], p.handling⟩ }
      else { s with world := w }) b := by
  obtain ⟨st, d, m, hs, hd, hm, rfl, rfl⟩ := answer_fetch_ok hanswer
  obtain ⟨st', d', hs', hd', hincoming⟩ := h.queue
  obtain rfl := Option.some.inj (hs.symm.trans hs')
  obtain rfl := Option.some.inj (hd.symm.trans hd')
  have hqueue := h.toMatches.consumer hs hd (d.acked_deliver m.seq)
  have hevent := hincoming.fetch hm
  cases arrives with
  -- The delivery is lost on its way: it counts for the consumer, and nobody holds it.
  | false =>
    exact ⟨a, .refl, ⟨h.incoming, h.sent, hqueue, h.inv⟩, h.held, h.mapping, h.handling⟩
  | true =>
    obtain ⟨hlt, -⟩ := List.getElem?_eq_some_iff.mp hevent
    have hstep : Fanout.Step Receiver.wants a _ := .handOut a (h.incoming ▸ hlt)
    refine ⟨_, .single hstep, ⟨h.incoming, h.sent, hqueue, h.inv.step hstep⟩, ?_, fun _ => ?_, ?_⟩
    · have hheld := h.held
      rw [hp] at hheld
      show List.Forall₂ (IsAt s.incoming) ((p.handling.map (·.1)).toList ++
        (p.messageQueue ++ [_])) (a.held ++ [a.acked])
      rw [← List.append_assoc]
      exact List.rel_append hheld (.cons ⟨hevent, rfl, rfl⟩ .nil)
    · exact h.mapping (by rw [hp]; rfl)
    · intro queue msg prog heq
      obtain ⟨messageQueue, handling⟩ := p
      cases heq
      exact h.handling messageQueue msg prog hp

/-! ### What the process does -/

/-! The process takes a message from its queue, and the handler makes its calls. -/

/-- A message is taken up. One that does not parse is done with at once. -/
theorem FansOut.take (h : FansOut subs s a) {msg : Msg} {queue : List Msg}
    (hp : s.process = some ⟨msg :: queue, none⟩) :
    ∃ b, Follow a b ∧ FansOut subs (s.goOn queue msg (handleEvent msg)) b := by
  have hheld := h.held
  rw [hp] at hheld
  apply h.toMatches.goOn hheld (h.mapping (by rw [hp]; rfl))
  intro op k hprog
  by_cases hvalid : ∃ m, msg.payload = .message m
  · obtain ⟨m, hm⟩ := hvalid
    exact .start m hm
  · rw [handleEvent_invalid fun m hm => hvalid ⟨m, hm⟩] at hprog
    cases hprog

/-- A publish is carried out, and counts as one, or nothing comes of it. -/
theorem publish_call (env : Env) (event : Nat) (subject : String) (payload : Payload)
    (stream : String) (w : World) (f : Fault Outage) :
    (∃ st, w.streams stream = some st ∧ subject ∈ st.subjects ∧
      Dispatcher.publication env event (.publish subject payload stream) w f =
        [⟨stream, subject, payload, event⟩] ∧
      (serve env).left event (.publish subject payload stream) w f =
        w.setStream stream (some (st.append subject payload event))) ∨
    Dispatcher.publication env event (.publish subject payload stream) w f = [] ∧
      (serve env).left event (.publish subject payload stream) w f = w ∧
      ∃ e, (serve env).heard event (.publish subject payload stream) w f = .error e := by
  unfold Dispatcher.publication
  rcases answer_publish env event subject payload stream w with
    ⟨st, hs, hsubject, hanswer⟩ | hanswer
  · simp only [hanswer]
    by_cases hf : f.Lands
    · refine Or.inl ⟨st, hs, hsubject, if_pos hf, ?_⟩
      rw [Server.left_of_lands hf, serve_answer, hanswer]
    · refine Or.inr ⟨if_neg hf, Server.left_of_not_lands hf, ?_⟩
      cases f with
      | ok => exact absurd Fault.lands_ok hf
      | before e => exact ⟨_, rfl⟩
      | after e => exact absurd (Fault.lands_after e) hf
  · simp only [hanswer]
    refine Or.inr ⟨trivial, Server.left_preserves (P := (· = w)) rfl fun _ => ?_, ?_⟩
    · rw [serve_answer, hanswer]
    · cases f with
      | ok => exact ⟨.noStream, by rw [Server.heard_ok, serve_answer, hanswer]⟩
      | before e => exact ⟨_, rfl⟩
      | after e => exact ⟨_, rfl⟩

/-- No subscription has its messages in the incoming stream. -/
theorem mainSubject_ne (name : String) : mainSubject name ≠ DISPATCHER_STREAM := by
  intro heq
  have hlast := congrArg (fun x : String => x.toList.getLast?) heq
  unfold mainSubject DISPATCHER_STREAM at hlast
  rw [String.toList_append] at hlast
  simp at hlast

/-- What a publication adds to what was published to a subscription. -/
theorem publishedTo_concat (s : Dispatcher) (w : World) (stream subject name : String)
    (payload : Payload) (event : Nat) :
    Dispatcher.publishedTo { s with
        world := w, published := s.published ++ [⟨stream, subject, payload, event⟩] } name =
      s.publishedTo name ++
        if stream = streamKey name ∧ subject = mainSubject name then [(event, payload)]
        else [] := by
  unfold Dispatcher.publishedTo
  rw [List.filter_append, List.map_append]
  by_cases h : stream = streamKey name ∧ subject = mainSubject name
  · simp [h]
  · rw [if_neg h]
    have hnot : (stream == streamKey name && subject == mainSubject name) = false := by
      simpa using h
    simp [hnot]

/-- Publishing the event at work to a subscription that wants it. -/
theorem FansOut.published (h : FansOut subs s a) {msg : Msg} {j : Nat} {rest : List Nat}
    (hj : a.held = j :: rest) (hat : IsAt s.incoming msg j) (i : Receiver subs)
    (hwants : i.wants (msg.streamSeq, msg.payload) = true) {st : Store.Stream Payload}
    (hs : s.world.streams (streamKey i.1.name) = some st)
    (hsubject : mainSubject i.1.name ∈ st.subjects) :
    ∃ b, Follow a b ∧ b.held = a.held ∧ Matches subs { s with
      world := s.world.setStream (streamKey i.1.name)
        (some (st.append (mainSubject i.1.name) msg.payload msg.streamSeq)),
      published := s.published ++
        [⟨streamKey i.1.name, mainSubject i.1.name, msg.payload, msg.streamSeq⟩] } b := by
  have hstep : Fanout.Step Receiver.wants a _ :=
    .send a j rest (msg.streamSeq, msg.payload) i hj (h.incoming ▸ hat.event) hwants
  refine ⟨_, .single hstep, rfl, h.incoming, fun i' => ?_, ?_, h.inv.step hstep⟩
  · rw [publishedTo_concat]
    by_cases hi : i' = i
    · subst hi
      rw [if_pos ⟨rfl, rfl⟩, ← h.sent]
      exact Function.update_self ..
    · have hname : ¬ (streamKey i.1.name = streamKey i'.1.name ∧
          mainSubject i.1.name = mainSubject i'.1.name) := fun hsame =>
        hi (Subtype.ext (subs.names _ i'.2 _ i.2 (streamKey_inj.mp hsame.1).symm))
      rw [if_neg hname, List.append_nil, ← h.sent]
      exact Function.update_of_ne hi ..
  · refine h.queue.congr (World.streams_setStream_of_ne (fun heq => ?_) ..)
    obtain ⟨st', d, hs', -, hincoming⟩ := h.queue
    rw [heq, hs] at hs'
    cases hs'
    rw [hincoming.subjects] at hsubject
    exact mainSubject_ne _ (List.mem_singleton.mp hsubject)

/-- Acknowledging the event at work, once it was published to all that want it. -/
theorem FansOut.acknowledged (h : FansOut subs s a) (env : Env) {msg : Msg} {j : Nat}
    {rest : List Nat} (hj : a.held = j :: rest) (hat : IsAt s.incoming msg j)
    (hsent : ∀ sub ∈ subs.list, sub.wants (msg.streamSeq, msg.payload) = true →
      (msg.streamSeq, msg.payload) ∈ s.publishedTo sub.name) :
    ∃ b, Follow a b ∧ b.held = a.held ∧ Matches subs { s with
      world := (answer env msg.streamSeq (.ack msg) s.world).2 } b := by
  have hall : ∀ e, a.incoming[j]? = some e → ∀ i : Receiver subs, i.wants e = true →
      e ∈ a.sent i := by
    intro e he i hwants
    rw [h.incoming, hat.event] at he
    cases he
    rw [h.sent]
    exact hsent i.1 i.2 hwants
  have hstep : Fanout.Step Receiver.wants a _ := .ack a j rest hj hall
  refine ⟨_, .single hstep, rfl, h.incoming, h.sent, ?_, h.inv.step hstep⟩
  obtain ⟨st, d, hs, hd, hincoming⟩ := h.queue
  have hle : j ≤ a.acked := by
    rcases h.inv.held j (hj ▸ List.mem_cons_self) with ⟨heq, -⟩ | ⟨heq, -⟩ <;> omega
  have hs' : s.world.streams msg.stream = some st := hat.stream ▸ hs
  have hd' : st.durables msg.durable = some d := hat.durable ▸ hd
  rw [answer_ack env msg.streamSeq hs' hd' hincoming.workQueue, hat.stream, hat.durable]
  refine ⟨_, _, World.streams_setStream_self .., ?_, hincoming.ack eventWorker hat.event hle⟩
  rw [Stream.durables_keep, Stream.durables_setDurable_self]

section Call

variable {msg : Msg} {queue : List Msg} {op : Op} {k : Except CallError op.Res → Coro Unit}
  {m : Message}

/-- The state after the handler's call. -/
abbrev Dispatcher.called (env : Env) (s : Dispatcher) (msg : Msg) (op : Op) (f : Fault Outage) :
    Dispatcher :=
  { s with
    world := (serve env).left msg.streamSeq op s.world f
    published := s.published ++ Dispatcher.publication env msg.streamSeq op s.world f }

/-- The handler reads the mapping: those it names are those that want the event. -/
theorem FansOut.call_mapping (h : FansOut subs s a) (hm : msg.payload = .message m)
    (hheld : List.Forall₂ (IsAt s.incoming) (msg :: queue) a.held)
    (hmapping : MapsTo subs s.world.mapping) (f : Fault Outage)
    {k : Except CallError (Op.mappingGet).Res → Coro Unit}
    (hok : ∀ mapping, k (.ok mapping) = sendAll m (mapping.subscribers m.realm m.topic) msg)
    (herror : ∀ e, k (.error e) = .throw (.call e)) :
    ∃ b, Follow a b ∧ FansOut subs ((s.called env msg .mappingGet f).goOn queue msg
      (k ((serve env).heard msg.streamSeq .mappingGet s.world f))) b := by
  have hcalled : s.called env msg .mappingGet f = s := by
    have hworld : (serve env).left msg.streamSeq .mappingGet s.world f = s.world := by
      cases f <;> rfl
    unfold Dispatcher.called
    rw [hworld]
    exact congrArg (fun p => { s with published := p }) (List.append_nil s.published)
  rw [hcalled]
  apply h.toMatches.goOn hheld hmapping
  intro op' k' hleft
  cases hr : (serve env).heard msg.streamSeq .mappingGet s.world f with
  | error e =>
    rw [hr, herror] at hleft
    cases hleft
  | ok mapping =>
    obtain ⟨-, hanswer⟩ := Server.heard_eq_ok hr
    cases hanswer
    rw [hok]
    have hwants : ∀ sub : Subscription, sub.wants (msg.streamSeq, msg.payload) = true ↔
        ⟨m.realm, m.topic⟩ ∈ sub.realmsTopics := by
      intro sub
      simp [Subscription.wants, hm]
    refine .sending m hm _ (fun sub hsub => ?_) fun sub hsub hwant hnot => ?_
    · obtain ⟨hmem, htopic⟩ := (hmapping m.realm m.topic sub).mp hsub
      exact ⟨hmem, (hwants sub).mpr htopic⟩
    · exact absurd ((hmapping m.realm m.topic sub).mpr ⟨hsub, (hwants sub).mp hwant⟩) hnot

/-- The handler acknowledges, having served everyone. -/
theorem FansOut.call_ack (h : FansOut subs s a)
    (hheld : List.Forall₂ (IsAt s.incoming) (msg :: queue) a.held)
    (hmapping : MapsTo subs s.world.mapping) (f : Fault Outage)
    (hsent : ∀ sub ∈ subs.list, sub.wants (msg.streamSeq, msg.payload) = true →
      (msg.streamSeq, msg.payload) ∈ s.publishedTo sub.name)
    {k : Except CallError (Op.ack msg).Res → Coro Unit} (hok : k (.ok ()) = .pure ())
    (herror : ∀ e, k (.error e) = .throw (.call e)) :
    ∃ b, Follow a b ∧ FansOut subs ((s.called env msg (.ack msg) f).goOn queue msg
      (k ((serve env).heard msg.streamSeq (.ack msg) s.world f))) b := by
  obtain ⟨j, rest, hat, -, hj⟩ := List.forall₂_cons_left_iff.mp hheld
  have hover : ∀ r op k', k r = .await op k' → Handling subs s.publishedTo msg (k r) := by
    intro r op k' heq
    cases r with
    | ok u =>
      rw [hok] at heq
      cases heq
    | error e =>
      rw [herror] at heq
      cases heq
  have hcalled : s.called env msg (.ack msg) f =
      { s with world := (serve env).left msg.streamSeq (.ack msg) s.world f } := by
    unfold Dispatcher.called
    exact congrArg (fun p => { s with
      world := (serve env).left msg.streamSeq (.ack msg) s.world f, published := p })
      (List.append_nil s.published)
  rw [hcalled]
  by_cases hf : f.Lands
  · rw [Server.left_of_lands hf]
    obtain ⟨b, hab, hbheld, hb⟩ := h.acknowledged env hj hat hsent
    have hmap : MapsTo subs (answer env msg.streamSeq (.ack msg) s.world).2.mapping := by
      rw [mapping_answer env msg.streamSeq s.world fun mapping heq => by cases heq]
      exact hmapping
    obtain ⟨c, hbc, hc⟩ := hb.goOn (hbheld ▸ hheld) hmap (hover _)
    exact ⟨c, hab.trans hbc, hc⟩
  · rw [Server.left_of_not_lands hf]
    exact h.toMatches.goOn hheld hmapping (hover _)

/-- The handler serves the next subscription. -/
theorem FansOut.call_publish (h : FansOut subs s a) (hm : msg.payload = .message m)
    (hheld : List.Forall₂ (IsAt s.incoming) (msg :: queue) a.held)
    (hmapping : MapsTo subs s.world.mapping) (f : Fault Outage) {sub : Subscription}
    {todo : List Subscription}
    (htodo : ∀ sub' ∈ sub :: todo,
      sub' ∈ subs.list ∧ sub'.wants (msg.streamSeq, msg.payload) = true)
    (hsent : ∀ sub' ∈ subs.list, sub'.wants (msg.streamSeq, msg.payload) = true →
      sub' ∉ sub :: todo → (msg.streamSeq, msg.payload) ∈ s.publishedTo sub'.name)
    {k : Except CallError Nat → Coro Unit} (hok : ∀ n, k (.ok n) = sendAll m todo msg)
    (herror : ∀ e, k (.error e) = .throw (.call e)) :
    ∃ b, Follow a b ∧ FansOut subs ((s.called env msg
      (.publish (mainSubject sub.name) (.message m) (streamKey sub.name)) f).goOn queue msg
      (k ((serve env).heard msg.streamSeq
        (.publish (mainSubject sub.name) (.message m) (streamKey sub.name)) s.world f))) b := by
  obtain ⟨j, rest, hat, -, hj⟩ := List.forall₂_cons_left_iff.mp hheld
  obtain ⟨hmem, hwants⟩ := htodo sub List.mem_cons_self
  unfold Dispatcher.called
  rcases publish_call env msg.streamSeq (mainSubject sub.name) (.message m)
    (streamKey sub.name) s.world f with
    ⟨st, hs, hsubject, hpublished, hworld⟩ | ⟨hpublished, hworld, e, hr⟩
  · rw [hpublished, hworld, ← hm]
    obtain ⟨b, hab, hbheld, hb⟩ := h.published hj hat ⟨sub, hmem⟩ hwants hs hsubject
    refine (hb.goOn (hbheld ▸ hheld) hmapping ?_).imp fun c hc => ⟨hab.trans hc.1, hc.2⟩
    intro op' k' hleft
    cases hr : (serve env).heard msg.streamSeq
      (.publish (mainSubject sub.name) msg.payload (streamKey sub.name)) s.world f with
    | error e =>
      rw [hr, herror] at hleft
      cases hleft
    | ok n =>
      rw [hok]
      -- One receiver less is left to be sent to.
      refine .sending m hm todo (fun sub' hsub' => htodo sub' (List.mem_cons_of_mem sub hsub'))
        fun sub' hsub' hwants' hnot => ?_
      rw [publishedTo_concat]
      by_cases hsame : sub' = sub
      · subst hsame
        rw [if_pos ⟨rfl, rfl⟩]
        exact List.mem_append_right _ (List.mem_singleton_self _)
      · refine List.mem_append_left _ (hsent sub' hsub' hwants' fun hcons => ?_)
        rcases List.mem_cons.mp hcons with heq | hin
        · exact hsame heq
        · exact hnot hin
  · rw [hpublished, hworld, List.append_nil, hr, herror]
    exact h.toMatches.ended

/-- **A step of the handler.** -/
theorem FansOut.call (h : FansOut subs s a)
    (hp : s.process = some ⟨queue, some (msg, .await op k)⟩) (f : Fault Outage) :
    ∃ b, Follow a b ∧ FansOut subs ((s.called env msg op f).goOn queue msg
      (k ((serve env).heard msg.streamSeq op s.world f))) b := by
  have hheld : List.Forall₂ (IsAt s.incoming) (heldBy s.process) a.held := h.held
  rw [hp] at hheld
  have hmapping := h.mapping (by rw [hp]; rfl)
  have hhandling := h.handling queue msg _ hp
  generalize hprog : (Prog.await op k : Coro Unit) = prog at hhandling
  cases hhandling with
  | start m hm =>
    obtain ⟨k', hstart, hok, herror⟩ := handleEvent_message hm
    cases hprog.trans hstart
    exact h.call_mapping hm hheld hmapping f hok herror
  | sending m hm todo htodo hsent =>
    cases todo with
    | nil =>
      obtain ⟨k', hack, hok, herror⟩ := sendAll_nil m msg
      cases hprog.trans hack
      exact h.call_ack hheld hmapping f
        (fun sub hsub hwants => hsent sub hsub hwants List.not_mem_nil) hok herror
    | cons sub todo =>
      obtain ⟨k', hsend, hok, herror⟩ := sendAll_cons m sub todo msg
      cases hprog.trans hsend
      exact h.call_publish hm hheld hmapping f htodo hsent hok herror

end Call

/-- **The dispatcher refines a fan-out**, step by step. -/
theorem FansOut.step (h : FansOut subs s a) {l : DispatcherStep subs} {t : Dispatcher}
    (hs : s.step env l = some t) : ∃ b, Follow a b ∧ FansOut subs t b := by
  cases Dispatcher.stepsTo_of_step hs with
  | post hanswer => exact h.post hanswer
  | elsewhere hop tid =>
    obtain ⟨hstream, hmapping⟩ := apart_answer env tid s.world hop
    exact ⟨a, .refl, h.elsewhere hstream hmapping⟩
  | deliver hp hanswer => exact h.deliver hp true hanswer
  | loses hp hanswer => exact h.deliver hp false hanswer
  | ackWaitExpires => exact ⟨a, .refl, h.expire⟩
  | start hp mapping =>
    -- The new process holds nothing, and neither did the one that is gone.
    refine ⟨a, .refl, ⟨h.incoming, h.sent, h.queue.congr rfl, h.inv⟩, ?_,
      fun _ => mapping.agrees, nofun⟩
    have hheld := h.held
    rw [hp] at hheld
    exact hheld
  | refresh hp mapping =>
    exact ⟨a, .refl, ⟨h.incoming, h.sent, h.queue.congr rfl, h.inv⟩, h.held,
      fun _ => mapping.agrees, h.handling⟩
  | take hp => exact h.take hp
  | call hp f => exact h.call hp f
  | crash => exact h.toMatches.ended

/-- No process is running, and nothing has been published or acknowledged. -/
structure Dispatcher.AtStart (s : Dispatcher) : Prop where
  process : s.process = none
  published : s.published = []
  queue : ∃ st d, s.world.streams eventQueue = some st ∧ st.workQueue = true ∧
    st.subjects = [DISPATCHER_STREAM] ∧ st.durables eventWorker = some d ∧ d.acked = [] ∧
    s.incoming = st.msgs.map fun m => (m.seq, m.payload)

theorem fansOut_start (subs : Subscribers) {s : Dispatcher} (h : s.AtStart) :
    FansOut subs s { incoming := s.incoming, acked := 0, held := [], sent := fun _ => [] } := by
  obtain ⟨st, d, hs, hwork, hsubjects, hd, hacked, hincoming⟩ := h.queue
  have hqueue : Incoming s.incoming 0 st d := by
    refine ⟨hincoming ▸ logged_self st, hwork, hsubjects, ?_, ?_⟩
    · rw [hacked]
      exact fun e _ he => absurd he List.not_mem_nil
    · rw [hacked]
      exact fun n hn => absurd hn List.not_mem_nil
  refine ⟨⟨rfl, fun i => ?_, ⟨st, d, hs, hd, hqueue⟩, Fanout.inv_start hqueue.nodup⟩, ?_, ?_, ?_⟩
  · unfold Dispatcher.publishedTo
    rw [h.published]
    rfl
  · rw [h.process]
    exact .nil
  · rw [h.process]
    exact nofun
  · rw [h.process]
    exact nofun

/-- **Dispatch is in order and loses nothing.** After any steps, in any order: what was published to
a subscription is, but for immediate repetitions, what it wants of the first so many events; and
every event that is acknowledged was published to all that want it. -/
theorem dispatch_in_order (env : Env) (subs : Subscribers) (s t : Dispatcher)
    (ls : List (DispatcherStep subs)) (hstart : s.AtStart)
    (hrun : Machine.run (Dispatcher.step env) s ls = some t) :
    (∀ sub ∈ subs.list, ∃ n,
      (t.publishedTo sub.name).destutter (· ≠ ·) = (t.incoming.take n).filter sub.wants) ∧
    ∃ d, t.world.durable eventQueue eventWorker = some d ∧
      ∀ event ∈ t.incoming, event.1 ∈ d.acked → ∀ sub ∈ subs.list, sub.wants event = true →
        event ∈ t.publishedTo sub.name := by
  obtain ⟨a, -, h⟩ := Machine.run_refines (R := FansOut subs)
    (fun _ _ _ _ h hs => h.step hs) (fansOut_start subs hstart) hrun
  refine ⟨fun sub hsub => ?_, ?_⟩
  · obtain ⟨n, hn⟩ := h.inv.in_order ⟨sub, hsub⟩
    unfold Fanout.SentUpTo at hn
    rw [h.sent, h.incoming] at hn
    exact ⟨n, hn⟩
  · obtain ⟨st, d, hs, hd, hincoming⟩ := h.queue
    refine ⟨d, Option.bind_eq_some_iff.mpr ⟨st, hs, hd⟩, ?_⟩
    intro event hevent hacked sub hsub hwants
    have htake := h.incoming ▸ hincoming.acked event hevent hacked
    have hsent : event ∈ a.sent ⟨sub, hsub⟩ := h.inv.sent_of_acked htake hwants
    rw [h.sent] at hsent
    exact hsent

/-! ## A death in the middle of a fan-out -/

/-- The mapping that is built from the subscriptions in this order. -/
def MappingOf.inOrder (subs : Subscribers) (order : List Subscription)
    (h : ∀ sub, sub ∈ order ↔ sub ∈ subs.list) : MappingOf subs where
  mapping := Mapping.ofSubscriptions order
  agrees realm topic sub := by
    rw [← h sub]
    exact Mapping.mem_subscribers_ofSubscriptions

/-- Another subscription to the same topic. -/
def NewSubscription.second : NewSubscription := { withoutPrefill with name := "b" }

def World.twoRegistered : World :=
  ((createSubscription .sample "s" .second).alone (serve .sample) 0
    (.registering .withoutPrefill)).world

def Subscribers.two : Subscribers where
  list := [newSubInfo .withoutPrefill, newSubInfo .second]
  names := by decide

def mappingForth : MappingOf .two := .inOrder .two Subscribers.two.list fun _ => Iff.rfl

def mappingBack : MappingOf .two :=
  .inOrder .two Subscribers.two.list.reverse fun _ => List.mem_reverse

def Dispatcher.two : Dispatcher where
  world := .twoRegistered
  process := none
  incoming := []
  published := []

/-- The process dies after it has served the first subscription; the next one serves them the other
way round, and goes on to the second event. -/
def deathSteps : List (DispatcherStep .two) :=
  [.post (.message .sample), .post (.message .sample), .start mappingForth, .deliver true, .take,
    .call .ok, .call .ok, .crash, .ackWaitExpires, .start mappingBack, .deliver true, .take,
    .call .ok, .call .ok, .call .ok, .call .ok, .deliver true, .take, .call .ok, .call .ok]

theorem dispatch_in_order_death : ∃ t,
    Machine.run (Dispatcher.step .sample) .two deathSteps = some t ∧
    (∀ sub ∈ Subscribers.two.list, ∃ n,
      (t.publishedTo sub.name).destutter (· ≠ ·) = (t.incoming.take n).filter sub.wants) ∧
    ∃ d, t.world.durable eventQueue eventWorker = some d ∧
      ∀ event ∈ t.incoming, event.1 ∈ d.acked → ∀ sub ∈ Subscribers.two.list,
        sub.wants event = true → event ∈ t.publishedTo sub.name :=
  have hstart : Dispatcher.two.AtStart := ⟨rfl, rfl, _, _, rfl, rfl, rfl, rfl, rfl, rfl⟩
  ⟨_, rfl, dispatch_in_order .sample .two .two _ deathSteps hstart rfl⟩

end Provisioning
