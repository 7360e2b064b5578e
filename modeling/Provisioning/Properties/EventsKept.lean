import Provisioning.Lib.Paths
import Provisioning.Properties.LiveMessages
import Provisioning.Properties.RegisteredEvents

/-!
# No event is lost on its way

An event is published to the incoming queue, taken from there by a dispatcher, and published to the
streams of the subscriptions, where the consumers find it. Three services and any number of requests
work on these streams at once, and each of them may die or lose a call at any point.

An event leaves the incoming queue by an acknowledgement and in no other way. So the question is who
acknowledges it, and what came before: this is read off the way through the programs of the jobs.
What was published to a subscription is then looked after by `live_message_kept_iff`'s step.

## From an acknowledgement back to the event

An acknowledgement names a stream and a number. That it comes from a dispatcher which has handled
*this* event is the conclusion of three steps, none of which is about a single call.

- No program acknowledges what it was not handed (`acksOwn_job`), so the job that acknowledges has
  heard a fetch answered with the message. This is about all jobs, for all are in the run.
- The server hands a message out of the stream that is asked, and only the dispatcher asks this one.
- Between the fetch and the acknowledgement any number of other jobs have moved, and the number has
  to stand for the same event still. Numbers are given out once (`Numbered`), as long as the stream
  is not deleted and created anew; **that is why no job may treat the incoming queue as the stream
  of a subscription**.

Then the way of the dispatcher from its fetch to its acknowledgement is known
(`reaches_dispatch`): it has read a mapping, and published to everyone it found there, and each of
these publications was answered.

## The invariant

`NothingLost` holds, besides these facts, an event in one of two places. It does not follow the
event from the first to the second: at each step the event is in the queue after it, or the step is
the acknowledgement, and then the history says where it was sent.
-/

namespace Provisioning

open Await Store Prog

variable {env : Env} {way : List (Answered Op Op.Res CallError)} {msg : Msg}

/-! ## Acknowledgements -/

/-! `AcksOwn` is a property of programs and not of calls, since what may be acknowledged depends on
the answers. For a program that acknowledges nothing it is trivial, and for the workers it follows
from the fact that a message is fetched at the front and passed along. -/

/-- The call acknowledges nothing but this message. -/
def AcksOnly (message : Msg) : Op → Prop
  | .ack msg => msg = message
  | _ => True

/-- The call acknowledges nothing. -/
def NoAck : Op → Prop
  | .ack _ => False
  | _ => True

/-- The message was handed out on the way. -/
def HandedOn (way : List (Answered Op Op.Res CallError)) (msg : Msg) : Prop :=
  ∃ stream durable, ⟨.fetch stream durable, .ok msg⟩ ∈ way

-- A way is made of the ways of the parts, and the handing out may be in either.
theorem HandedOn.left (h : HandedOn way msg) (way' : List (Answered Op Op.Res CallError)) :
    HandedOn (way ++ way') msg := by
  obtain ⟨stream, durable, hmem⟩ := h
  exact ⟨stream, durable, List.mem_append_left way' hmem⟩

theorem HandedOn.right (h : HandedOn way msg) (way' : List (Answered Op Op.Res CallError)) :
    HandedOn (way' ++ way) msg := by
  obtain ⟨stream, durable, hmem⟩ := h
  exact ⟨stream, durable, List.mem_append_right way' hmem⟩

/-- A program that acknowledges only what it was handed. -/
def AcksOwn {α : Type} (p : Coro α) : Prop :=
  ∀ way msg k, p.Reaches way (.await (.ack msg) k) → HandedOn way msg

theorem acksOwn_of_uses {α : Type} {p : Coro α} (hp : p.Uses NoAck) : AcksOwn p := by
  intro way msg k h
  exact (h.uses_await hp).elim

/-- The first part acknowledges its own; what the second acknowledges the first was handed. -/
theorem AcksOwn.bind {α β : Type} {p : Coro α} {f : α → Coro β} (hp : AcksOwn p)
    (hf : ∀ first a, p.Reaches first (.pure a) → ∀ rest msg k,
      (f a).Reaches rest (.await (.ack msg) k) → HandedOn (first ++ rest) msg) :
    AcksOwn (p.bind f) := by
  intro way msg k h
  rcases reaches_bind_await h with ⟨k', hfirst⟩ | ⟨first, a, rest, rfl, hfirst, hrest⟩
  · exact hp way msg k' hfirst
  · exact hf first a hfirst rest msg k hrest

/-- Both parts acknowledge their own. -/
theorem AcksOwn.andThen {α β : Type} {p : Coro α} {f : α → Coro β} (hp : AcksOwn p)
    (hf : ∀ a, AcksOwn (f a)) : AcksOwn (p.bind f) :=
  hp.bind fun first a _ rest msg k h => (hf a rest msg k h).right first

/-- A message that was found was handed out. -/
theorem handedOn_of_fetch {stream durable : String}
    (h : (catching .timeout (do
      let msg ← request (.fetch stream durable)
      return some msg) (return none)).Reaches way (.pure (some msg))) :
    ⟨.fetch stream durable, .ok msg⟩ ∈ way := by
  cases h with
  | @await _ _ r way _ h =>
    cases r with
    | ok msg' =>
      obtain ⟨-, hmsg⟩ := reaches_pure.mp h
      cases hmsg
      exact List.mem_cons_self
    | error x =>
      have hend : (if Exc.call x = .call .timeout then (Prog.pure none : Coro (Option Msg))
        else .throw (.call x)).Reaches way (.pure (some msg)) := h
      split at hend
      · obtain ⟨-, hmsg⟩ := reaches_pure.mp hend
        cases hmsg
      · obtain ⟨-, hmsg⟩ := reaches_throw.mp hend
        cases hmsg

/-- One acknowledgement at the end of what a message leads to. -/
theorem handedOn_of_handler {α : Type} {first rest : List (Answered Op Op.Res CallError)}
    {message : Msg} {p : Coro α} {stream durable : String}
    (hfetch : ⟨.fetch stream durable, .ok message⟩ ∈ first)
    (hp : p.Uses (AcksOnly message)) {k : Except CallError (Op.ack msg).Res → Coro α}
    (h : p.Reaches rest (.await (.ack msg) k)) : HandedOn (first ++ rest) msg := by
  have hmsg : AcksOnly message (.ack msg) := h.uses_await hp
  rw [show msg = message from hmsg]
  exact ⟨stream, durable, List.mem_append_left rest hfetch⟩

theorem acksOwn_request (op : Op) (h : NoAck op) : AcksOwn (request op) :=
  acksOwn_of_uses (uses_request h)

/-- With `pop` the message is acknowledged that has just been fetched. -/
theorem acksOwn_getMessage (name subject : String) (pop : Bool) :
    AcksOwn (getMessage name subject pop) := by
  have hfound : AcksOwn (catching .notFound (do
      request (.streamInfo (streamKey name)); return true) (return false)) :=
    acksOwn_of_uses (Uses.catching (Uses.bind (uses_request trivial) fun _ => trivial) trivial)
  apply hfound.andThen
  intro found
  cases found with
  | false => exact acksOwn_of_uses trivial
  | true =>
    apply (acksOwn_request (.consumerInfo (streamKey name) (durableKey name)) trivial).andThen
    intro _
    apply (acksOwn_request (.pullSubscribe subject _ _) trivial).andThen
    intro _
    refine AcksOwn.bind (acksOwn_of_uses (Uses.catching (Uses.bind (uses_request trivial)
      fun _ => trivial) trivial)) ?_
    intro first msg? hfirst rest msg k h
    cases msg? with
    | none =>
      obtain ⟨-, hq⟩ := reaches_pure.mp h
      cases hq
    | some message =>
      apply handedOn_of_handler (handedOn_of_fetch hfirst) _ h
      have hreturn : ((provisioningMessageFrom message).bind fun m => Prog.pure (some m)).Uses
          (AcksOnly message) := Uses.bind (uses_provisioningMessageFrom message) fun _ => trivial
      cases pop with
      | false => exact hreturn
      | true => exact Uses.bind (uses_request rfl) fun _ => hreturn

/-- The same through the flag and the waiting for the prefill. -/
theorem acksOwn_getNextMessage (name : String) (rounds : Nat) (pop : Bool) :
    AcksOwn (getNextMessage name rounds pop) := by
  apply (acksOwn_request (.prefillDoneGet name) trivial).andThen
  intro flag
  cases flag with
  | true => exact acksOwn_getMessage name _ pop
  | false =>
    apply (acksOwn_of_uses (uses_checkSubscriptionStatus name trivial rounds)).andThen
    intro status
    split
    · exact acksOwn_of_uses trivial
    · apply (acksOwn_getMessage name _ pop).andThen
      intro message
      cases message with
      | none => exact acksOwn_of_uses (Uses.bind (uses_request trivial) fun _ => trivial)
      | some m => exact acksOwn_of_uses trivial

/-- A round of a worker: a message is handed out, and if anything is acknowledged it is this
message. -/
theorem acksOwn_worker {α : Type} {stream : String} {f : Option Msg → Coro α}
    (hnone : (f none).Uses NoAck)
    (hsome : ∀ message, (f (some message)).Uses (AcksOnly message)) :
    AcksOwn ((getOneMessage stream).bind f) := by
  refine AcksOwn.bind (acksOwn_of_uses (uses_getOneMessage trivial)) ?_
  intro first msg? hfirst rest msg k h
  cases msg? with
  | none => exact (h.uses_await hnone).elim
  | some message => exact handedOn_of_handler (handedOn_of_fetch hfirst) (hsome message) h

/-- A handler acknowledges the message it was called with. -/
theorem uses_handleEvent_acks (message : Msg) :
    (handleEvent message).Uses (AcksOnly message) := by
  unfold handleEvent validatedMessage
  cases message.payload with
  | prefill _ => trivial
  | simple _ _ => trivial
  | message m =>
    simp only [pure_eq, bind_eq, bind_pure]
    refine Uses.bind (uses_request trivial) fun mapping => ?_
    exact Uses.bind (Uses.forEach fun sub _ => uses_addMessage trivial) fun _ => uses_request rfl

theorem uses_transformEvent_acks (message : Msg) :
    (transformEvent env message).Uses (AcksOnly message) :=
  uses_transformEvent_message (fun _ => trivial) (fun _ _ => trivial) (fun _ _ => trivial) rfl
    trivial

/-- The jobs that take a message at all. -/
def Job.takesMessages : Job → Bool
  | .getNext .. => true
  | .prefill => true
  | .dispatch => true
  | .transform => true
  | _ => false

/-- The other jobs acknowledge nothing. -/
theorem noAck_call {job : Job} {op : Op} (hop : JobCall job op)
    (h : job.takesMessages = false) : NoAck op := by
  cases job with
  | create salt sub => cases hop <;> trivial
  | delete settings salt credentials name =>
    cases hop with
    | auth hop => cases hop <;> trivial
    | delete hop => cases hop <;> trivial
  | deleteService name => cases hop <;> trivial
  | setStatus name status => cases hop <;> trivial
  | authenticate salt credentials subscriptionName => cases hop <;> trivial
  | getNext name rounds pop => cases h
  | postStatus name seqNum status => cases hop <;> trivial
  | postEvent message => exact hop ▸ trivial
  | prefill => cases h
  | dispatch => cases h
  | updateMapping => cases hop <;> trivial
  | dispatcherStart =>
    cases hop with
    | mapping hop => cases hop <;> trivial
    | _ => trivial
  | prefillStart => rcases hop with hop | hop <;> cases hop <;> trivial
  | transform => cases h
  | ackWaitExpires stream durable => exact hop ▸ trivial
  | passwordCacheExpires password hash subscription => exact hop ▸ trivial
  | idle => exact hop.elim

/-- **Nothing is acknowledged that was not handed out before**, to the same job. -/
theorem acksOwn_job (job : Job) : AcksOwn (job.program env) := by
  have hreply : ∀ {α : Type} {p : Coro α} {f : α → Reply}, AcksOwn p →
      AcksOwn (p.bind fun a => Prog.pure (f a)) := fun hp =>
    hp.andThen fun _ => acksOwn_of_uses trivial
  cases job with
  | getNext name rounds pop => exact hreply (acksOwn_getNextMessage name rounds pop)
  | prefill =>
    refine hreply (acksOwn_worker trivial fun message => ?_)
    refine Uses.bind (Uses.tryCatch ?_ fun e => ?_) fun _ => uses_request rfl
    · apply (uses_handlePrefill message).mono
      intro op ⟨r, _, hop⟩
      cases hop with
      | status status htaken hop => cases hop <;> trivial
      | _ => trivial
    · exact Uses.bind (uses_request trivial) fun _ => trivial
  | dispatch => exact hreply (acksOwn_worker trivial uses_handleEvent_acks)
  | transform => exact hreply (acksOwn_worker trivial uses_transformEvent_acks)
  | _ => exact acksOwn_of_uses ((uses_program env _).mono fun op hop => noAck_call hop rfl)

/-! ## What a dispatcher has done when it acknowledges -/

/-! The program of the dispatcher is followed with its way: from the message it was handed to the
point at which its next call is the acknowledgement. -/

/-- The answer is this mapping. -/
def ReadsMapping (mapping : Mapping) : (op : Op) → Except CallError op.Res → Prop
  | .mappingGet, .ok found => found = mapping
  | _, _ => False

/-- A round of the dispatcher, from the event it was handed to its acknowledgement. -/
theorem reaches_dispatchWith {message : Msg} {k : Except CallError (Op.ack msg).Res → Coro Reply}
    (h : (dispatchWith message).Reaches way (.await (.ack msg) k)) :
    ∃ m mapping, message.payload = .message m ∧ ⟨.mappingGet, .ok mapping⟩ ∈ way ∧
      ∀ sub ∈ mapping.subscribers m.realm m.topic, ∃ n,
        ⟨.publish (mainSubject sub.name) (.message m) (streamKey sub.name), .ok n⟩ ∈ way := by
  unfold dispatchWith handleEvent validatedMessage at h
  cases hpayload : message.payload with
  | prefill r =>
    rw [hpayload] at h
    obtain ⟨-, hq⟩ := reaches_throw.mp h
    cases hq
  | simple publisherName body =>
    rw [hpayload] at h
    obtain ⟨-, hq⟩ := reaches_throw.mp h
    cases hq
  | message m =>
    rw [hpayload] at h
    simp only [pure_eq, bind_eq, bind_pure, bind_assoc] at h
    -- On the way to the acknowledgement lie the lookup and one publication for each receiver.
    rcases reaches_bind_await h with ⟨k', hread⟩ | ⟨first, mapping, rest, rfl, hread, hrest⟩
    · have huses : (request .mappingGet).Uses NoAck := uses_request trivial
      exact (hread.uses_await huses).elim
    · obtain rfl := reaches_call_pure hread
      rcases reaches_bind_await hrest with ⟨k', hsend⟩ | ⟨sent, _, rest, rfl, hsent, -⟩
      · exact (hsend.uses_await (P := NoAck) (Uses.forEach fun sub _ =>
          uses_addMessage trivial)).elim
      · refine ⟨m, mapping, rfl, List.mem_append_left _ List.mem_cons_self, fun sub hsub => ?_⟩
        obtain ⟨way', hsub, hround⟩ := reaches_forEach_pure hsent sub hsub
        obtain ⟨published, n, rest', rfl, hpublish, -⟩ := reaches_bind_pure hround
        rw [reaches_call_pure hpublish] at hsub
        refine ⟨n, List.mem_append_right _ (List.mem_append_left _ (hsub ?_))⟩
        exact List.mem_cons_self

/-- **What a dispatcher acknowledges it was handed**, and it has read a mapping and published to
every subscriber it found there. -/
theorem reaches_dispatch {k : Except CallError (Op.ack msg).Res → Coro Reply}
    (h : (Job.dispatch.program env).Reaches way (.await (.ack msg) k)) :
    ∃ m mapping, msg.payload = .message m ∧ ⟨.mappingGet, .ok mapping⟩ ∈ way ∧
      ∀ sub ∈ mapping.subscribers m.realm m.topic, ∃ n,
        ⟨.publish (mainSubject sub.name) (.message m) (streamKey sub.name), .ok n⟩ ∈ way := by
  obtain ⟨k', hprogram, hhanded, hfailed⟩ := dispatch_program env
  rw [hprogram] at h
  cases h with
  | @await _ _ r way _ h =>
    cases r with
    | error x =>
      exact (h.uses_await (P := NoAck) (uses_of_finished (hfailed x))).elim
    | ok message =>
      rw [hhanded] at h
      have huses : (dispatchWith message).Uses (AcksOnly message) :=
        Uses.bind (uses_handleEvent_acks message) fun _ => trivial
      have hmsg : AcksOnly message (.ack msg) := h.uses_await huses
      obtain ⟨m, mapping, hpayload, hread, hsent⟩ := reaches_dispatchWith h
      refine ⟨m, mapping, ?_, List.mem_cons_of_mem _ hread, fun sub hsub => ?_⟩
      · rw [show msg = message from hmsg]
        exact hpayload
      · obtain ⟨n, hn⟩ := hsent sub hsub
        exact ⟨n, List.mem_cons_of_mem _ hn⟩

/-! ## The incoming queue -/

/-! What single calls do to it. A call of another kind than an acknowledgement takes nothing out of
it, with the exception of the jobs that are excluded. -/

section Queue

variable {jobs : Nat → Job} {w : World} {op : Op} {e : Nat} {message : Message}

/-- The job takes messages out of the stream of that name, as those of a subscription. -/
def Job.Drains (name : String) : Job → Prop
  | .delete _ _ _ n => n = name
  | .deleteService n => n = name
  | .getNext n _ _ => n = name
  | .postStatus n _ _ => n = name
  | _ => False

/-- The event that job `e` published is in the incoming queue. -/
def InQueue (e : Nat) (message : Message) (w : World) : Prop :=
  ∃ s m, w.streams eventQueue = some s ∧ m ∈ s.msgs ∧ m.origin = e ∧
    m.subject = DISPATCHER_STREAM ∧ m.payload = .message message

/-- The answer confirms that the event is in the incoming queue. -/
def AcceptsEvent (message : Message) : (op : Op) → Except CallError op.Res → Prop
  | .publish subject payload stream, .ok _ =>
    subject = DISPATCHER_STREAM ∧ payload = .message message ∧ stream = eventQueue
  | _, _ => False

/-- A call that, among all, could only acknowledge an event of the queue. -/
def SparesEvents : Op → Prop
  | .deleteStream stream => stream ≠ eventQueue
  | .deleteMsg stream _ => stream ≠ eventQueue
  | .purgeStream _ subject => subject ≠ DISPATCHER_STREAM
  | _ => True

/-- A deletion of a subscription of another name takes nothing out. -/
theorem sparesEvents_delete {name : String} (hname : name ≠ DISPATCHER_STREAM)
    (hop : DeleteCall name op) : SparesEvents op := by
  cases hop with
  | deleteStream => exact fun heq => hname (streamKey_inj.mp heq)
  | _ => trivial

/-- Neither does any call of a job that does not drain it. -/
theorem sparesEvents_call {job : Job} (hjob : ¬ job.Drains DISPATCHER_STREAM)
    (hop : JobCall job op) : SparesEvents op := by
  cases job with
  | create salt sub => cases hop <;> trivial
  | delete settings salt credentials name =>
    cases hop with
    | auth hop => cases hop <;> trivial
    | delete hop => exact sparesEvents_delete hjob hop
  | deleteService name => exact sparesEvents_delete hjob hop
  | setStatus name status => cases hop <;> trivial
  | authenticate salt credentials subscriptionName => cases hop <;> trivial
  | getNext name rounds pop =>
    cases hop with
    | message hop => cases hop <;> trivial
    | _ => trivial
  | postStatus name seqNum status =>
    cases hop with
    | get => trivial
    | delete => exact fun heq => hjob (streamKey_inj.mp heq)
  | postEvent message => exact hop ▸ trivial
  | prefill =>
    cases hop with
    | handle other hop =>
      cases hop with
      | purge => exact (ne_prefillSubject (by decide)).symm
      | status status htaken hop => cases hop <;> trivial
      | _ => trivial
    | _ => trivial
  | dispatch => cases hop <;> trivial
  | updateMapping => cases hop <;> trivial
  | dispatcherStart =>
    cases hop with
    | mapping hop => cases hop <;> trivial
    | _ => trivial
  | prefillStart => rcases hop with hop | hop <;> cases hop <;> trivial
  | transform => cases hop <;> trivial
  | ackWaitExpires stream durable => exact hop ▸ trivial
  | passwordCacheExpires password hash subscription => exact hop ▸ trivial
  | idle => exact hop.elim

/-- **An event leaves the queue by an acknowledgement only.** -/
theorem inQueue_answer (env : Env) (tid : Nat) (h : InQueue e message w) (hop : SparesEvents op) :
    InQueue e message (answer env tid op w).2 ∨ ∃ msg s m, op = .ack msg ∧
      msg.stream = eventQueue ∧ w.streams eventQueue = some s ∧ m ∈ s.msgs ∧
      m.seq = msg.streamSeq ∧ m.payload = .message message := by
  obtain ⟨s, m, hs, hm, horigin, hsubject, hpayload⟩ := h
  unfold InQueue
  rcases streams_answer env tid op w eventQueue with hsame | hchange
  · exact Or.inl ⟨s, m, hsame.trans hs, hm, horigin, hsubject, hpayload⟩
  · rw [hs] at hchange
    generalize (answer env tid op w).2.streams eventQueue = after at hchange
    cases hchange with
    | remove => exact absurd rfl hop
    | publish =>
      exact Or.inl ⟨_, m, rfl, List.mem_append_left _ hm, horigin, hsubject, hpayload⟩
    | ack msg hx s d hd =>
      by_cases hseq : m.seq = msg.streamSeq
      · exact Or.inr ⟨msg, s, m, rfl, hx, hs, hm, hseq, hpayload⟩
      · refine Or.inl ⟨_, m, rfl, ?_, horigin, hsubject, hpayload⟩
        split
        · exact List.mem_filter.mpr ⟨hm, bne_iff_ne.mpr hseq⟩
        · exact hm
    | deleteMsg seq => exact absurd rfl hop
    | purge subject =>
      refine Or.inl ⟨_, m, rfl, List.mem_filter.mpr ⟨hm, bne_iff_ne.mpr fun heq => hop ?_⟩,
        horigin, hsubject, hpayload⟩
      rw [← heq, hsubject]
    | _ => exact Or.inl ⟨_, m, rfl, hm, horigin, hsubject, hpayload⟩

/-- An event that is accepted is in the queue. -/
theorem inQueue_accepted {tid : Nat} (h : AcceptsEvent message op (answer env tid op w).1) :
    InQueue tid message (answer env tid op w).2 := by
  cases op with
  | publish subject payload stream =>
    rcases answer_publish env tid subject payload stream w with ⟨s, hs, -, hans⟩ | hans
    · rw [hans] at h ⊢
      obtain ⟨rfl, rfl, rfl⟩ := h
      exact ⟨_, _, World.streams_setStream_self .., List.mem_append_right _ List.mem_cons_self,
        rfl, rfl, rfl⟩
    · rw [hans] at h
      exact h.elim
  | _ => exact h.elim

/-! ## What was handed out of the queue -/

/-! The number of a delivery has to be good for as long as the delivery is out. -/

/-- The answer hands this message out of the incoming queue. -/
def HandsEvent (msg : Msg) : (op : Op) → Except CallError op.Res → Prop
  | .fetch stream _, .ok found => stream = eventQueue ∧ found = msg
  | _, _ => False

/-- The number of the message is given out, and still stands for its payload. -/
def Numbered (w : World) (msg : Msg) : Prop :=
  ∃ s, w.streams eventQueue = some s ∧ msg.streamSeq ≤ s.last ∧
    ∀ m ∈ s.msgs, m.seq = msg.streamSeq → m.payload = msg.payload

/-- A number that is given out keeps standing for its event. -/
theorem numbered_answer (env : Env) (tid : Nat) {msg : Msg} (h : Numbered w msg)
    (hop : SparesEvents op) : Numbered (answer env tid op w).2 msg := by
  obtain ⟨s, hs, hle, hpayload⟩ := h
  have hgrown : ∀ {t : Store.Stream Payload}, (answer env tid op w).2.streams eventQueue = some t →
      s.Grows t → Numbered (answer env tid op w).2 msg := by
    intro t ht hgrows
    refine ⟨t, ht, Nat.le_trans hle hgrows.last, fun m hm hseq => ?_⟩
    rcases hgrows.msgs m hm with hold | hnew
    · exact hpayload m hold hseq
    · exact absurd hle (Nat.not_le_of_lt (hseq ▸ hnew))
  rcases streams_answer env tid op w eventQueue with hsame | hchange
  · exact hgrown (hsame.trans hs) (Stream.Grows.refl s)
  · rw [hs] at hchange
    cases hafter : (answer env tid op w).2.streams eventQueue with
    | none =>
      rw [hafter] at hchange
      cases hchange with
      | remove => exact absurd rfl hop
    | some t =>
      rw [hafter] at hchange
      exact hgrown hafter hchange.grows

/-- The number of what was handed out stands for it. -/
theorem numbered_handed {tid : Nat} {msg : Msg}
    (h : HandsEvent msg op (answer env tid op w).1) : Numbered (answer env tid op w).2 msg := by
  cases op with
  | fetch stream durable =>
    cases hans : (answer env tid (.fetch stream durable) w).1 with
    | error x =>
      rw [hans] at h
      exact h.elim
    | ok found =>
      rw [hans] at h
      obtain ⟨rfl, rfl⟩ := h
      obtain ⟨s, d, m, -, -, hm, rfl, hw⟩ := answer_fetch_ok (Prod.ext hans rfl)
      have hmem := Stream.mem_of_oldest (Stream.oldest_of_fetch hm)
      have hafter := (congrArg (fun w : World => w.streams eventQueue) hw).trans
        (World.streams_setStream_self ..)
      refine ⟨_, hafter, s.bounded m hmem, fun n hn hseq => ?_⟩
      rw [Stream.eq_of_seq_eq hn hmem hseq]
      rfl
  | _ => exact h.elim

/-- Who acknowledges an event of the queue: it is a dispatcher, who was handed it there. -/
theorem dispatcher_of_ack {c : System} {i : Nat} {msg : Msg}
    {k : Except CallError (Op.ack msg).Res → Coro Reply}
    (hjob : ¬ (jobs i).Drains DISPATCHER_STREAM)
    (harrived : ((jobs i).program env).Reaches (c.way i) (.await (.ack msg) k))
    (hgenuine : c.Genuine (serve env)) (hstream : msg.stream = eventQueue) :
    jobs i = .dispatch ∧ c.Heard i (HandsEvent msg) := by
  obtain ⟨stream, durable, hmem⟩ := acksOwn_job (jobs i) _ msg k harrived
  obtain ⟨ev, hev, htid, heq⟩ := Config.mem_way.mp hmem
  -- NATS hands out of the stream that is asked.
  have hasked : stream = msg.stream := by
    by_contra hne
    have hheard := hgenuine ev hev
    obtain ⟨tid, op, f, before, heard⟩ := ev
    cases heq
    have hfaithful : ¬ Misdelivered (.fetch stream durable)
        ((serve env).heard tid (.fetch stream durable) before f) := not_misdelivered tid _ before f
    apply hfaithful
    rw [← hheard]
    exact fun h => hne h.symm
  subst hasked
  refine ⟨?_, Config.heard_of_mem_way hmem ⟨hstream, rfl⟩⟩
  have hcall := (harrived.uses (uses_program env (jobs i))).1 _ hmem
  rw [hstream] at hcall
  generalize jobs i = job at hcall hjob
  generalize hx : eventQueue = x at hcall
  cases job with
  | dispatch => rfl
  | create salt sub => cases hcall
  | delete settings salt credentials name =>
    cases hcall with
    | auth hop => cases hop
    | delete hop => cases hop
  | getNext name rounds pop =>
    cases hcall with
    | message hop =>
      cases hop
      exact absurd (streamKey_inj.mp hx).symm hjob
  | prefill =>
    cases hcall with
    | fetch => exact absurd (streamKey_inj.mp hx) (by decide)
    | handle other hop =>
      cases hop with
      | status status htaken hop => cases hop
  | dispatcherStart =>
    cases hcall with
    | mapping hop => cases hop
  | prefillStart => rcases hcall with hop | hop <;> cases hop
  | transform =>
    cases hcall
    exact absurd (streamKey_inj.mp hx) (by decide)
  | idle => exact hcall.elim
  | _ => cases hcall

end Queue

/-! ## Every run -/

/-! The second half of the way, from the dispatcher to the stream of a subscription, is in the same
invariant: a publication that was answered is there, until a call withdraws it. -/

section Run

variable {jobs : Nat → Job} {c d : System} {l : Nat × Fault Outage}

/-- A call that withdraws the message has been carried out. -/
def Withdrawn (jobs : Nat → Job) (name : String) (seq : Nat) (hist : History) : Prop :=
  ∃ ev ∈ hist, ev.fault.Lands ∧ Withdraws jobs name seq ev.tid ev.op

/-- What job `j` published to the subscription is in its stream, or has been withdrawn. -/
def Preserved (jobs : Nat → Job) (name : String) (j : Nat) (message : Message) (c : System) :
    Prop :=
  ∃ m : Stored Payload, m.origin = j ∧ m.subject = mainSubject name ∧
    m.payload = .message message ∧ (KeptIn c.world name m ∨ Withdrawn jobs name m.seq c.hist)

/-- A dispatcher has read a mapping, and has published the event to everyone it found there. -/
def SentOn (jobs : Nat → Job) (message : Message) (c : System) : Prop :=
  ∃ j mapping, jobs j = .dispatch ∧ c.Heard j (ReadsMapping mapping) ∧
    ∀ sub ∈ mapping.subscribers message.realm message.topic,
      c.Heard j fun op a => reachesMain sub.name message op a = true

/-- The streams of the subscriptions keep what is acknowledged. -/
def KeepsAcknowledged (w : World) : Prop :=
  ∀ name, name ∉ internalQueues → ∀ s, w.streams (streamKey name) = some s → s.workQueue = false

/-- What holds between two steps. -/
structure NothingLost (env : Env) (jobs : Nat → Job) (c : System) : Prop where
  arrived : Config.Arrived (fun i => (jobs i).program env) c
  genuine : c.Genuine (serve env)
  handed : ∀ i msg, c.Heard i (HandsEvent msg) → Numbered c.world msg
  accepted : ∀ e message, c.Heard e (AcceptsEvent message) →
    InQueue e message c.world ∨ SentOn jobs message c
  limits : KeepsAcknowledged c.world
  preserved : ∀ name, name ∉ internalQueues → ∀ j message,
    (c.Heard j fun op a => reachesMain name message op a = true) → Preserved jobs name j message c

/-- No call makes the stream of a subscription a work queue: the only ones that set it are those of
the registrations. -/
theorem keepsAcknowledged_answer (env : Env) (tid : Nat) {op : Op} {w : World}
    (h : KeepsAcknowledged w) (hop : ∀ name, name ∉ internalQueues → SparesLive name op) :
    KeepsAcknowledged (answer env tid op w).2 := by
  intro name hname t ht
  rcases streams_answer env tid op w (streamKey name) with hsame | hchange
  · exact h name hname t (hsame.symm.trans ht)
  · have hold := h name hname
    have hspares := hop name hname
    rw [ht] at hchange
    generalize w.streams (streamKey name) = before at hchange hold
    cases hchange with
    | add config hconfig => exact hspares hconfig
    | update config hconfig s => exact hspares hconfig
    | ack msg hx s d hd => split <;> exact hold s rfl
    | _ =>
      have hlimits := hold _ rfl
      exact hlimits

/-- The past does not change. -/
theorem SentOn.next {message : Message} (h : SentOn jobs message c) {i : Nat} {f : Fault Outage}
    {op : Op} {k : Except CallError op.Res → Coro Reply} :
    SentOn jobs message (c.next (serve env) i f op k) := by
  obtain ⟨j, mapping, hjob, hread, hsent⟩ := h
  exact ⟨j, mapping, hjob, hread.next, fun sub hsub => (hsent sub hsub).next⟩

/-- What was published stays, or its withdrawal is noted. -/
theorem Preserved.next {name : String} {j : Nat} {message : Message}
    (h : Preserved jobs name j message c) {i : Nat} {f : Fault Outage} {op : Op}
    {k : Except CallError op.Res → Coro Reply} (hname : name ∉ internalQueues)
    (hcall : JobCall (jobs i) op) :
    Preserved jobs name j message (c.next (serve env) i f op k) := by
  obtain ⟨m, horigin, hsubject, hpayload, hm⟩ := h
  refine ⟨m, horigin, hsubject, hpayload, ?_⟩
  rcases hm with hkept | ⟨ev, hev, hwithdrawn⟩
  · rw [Config.next_world, Config.next_hist]
    by_cases hlands : f.Lands
    · rw [Server.left_of_lands hlands, serve_answer]
      by_cases hwithdraws : op = .deleteMsg (streamKey name) m.seq ∨
          op = .deleteStream (streamKey name)
      · exact Or.inr ⟨_, List.mem_cons_self, hlands, withdraws_of_call hcall hwithdraws⟩
      · refine Or.inl ((keptIn_answer env i hkept hsubject (sparesLive_call hname hcall)).mpr ?_)
        exact ⟨fun heq => hwithdraws (Or.inl heq), fun heq => hwithdraws (Or.inr heq)⟩
    · rw [Server.left_of_not_lands hlands]
      exact Or.inl hkept
  · exact Or.inr ⟨ev, List.mem_cons_of_mem _ hev, hwithdrawn⟩

/-- What is published and answered is there. -/
theorem preserved_published {name : String} {message : Message} {i : Nat} {f : Fault Outage}
    {op : Op} {k : Except CallError op.Res → Coro Reply} (hlimits : KeepsAcknowledged c.world)
    (hname : name ∉ internalQueues)
    (h : reachesMain name message op ((serve env).heard i op c.world f) = true) :
    Preserved jobs name i message (c.next (serve env) i f op k) := by
  have hlost : ∀ x, ¬ reachesMain name message op (.error x) = true := by
    intro x hx
    cases op <;> cases hx
  obtain ⟨rfl, hans⟩ := Server.heard_answered (M := fun a => reachesMain name message op a = true)
    hlost h
  unfold Preserved
  rw [Config.next_world, Server.left_ok, serve_answer]
  rw [serve_answer] at hans
  cases op with
  | publish subject payload stream =>
    rcases answer_publish env i subject payload stream c.world with ⟨s, hs, -, hanswer⟩ | hanswer
    · rw [hanswer] at hans ⊢
      simp only [reachesMain, Bool.and_eq_true, beq_iff_eq] at hans
      obtain ⟨⟨rfl, rfl⟩, rfl⟩ := hans
      exact ⟨_, rfl, rfl, rfl, Or.inl ⟨_, World.streams_setStream_self .., hlimits name hname s hs,
        List.mem_append_right _ List.mem_cons_self⟩⟩
    · rw [hanswer] at hans
      cases hans
  | _ => cases hans

/-- At the beginning nobody has heard anything. -/
theorem nothingLost_start {w : World} (hlimits : KeepsAcknowledged w) :
    NothingLost env jobs (System.start env w jobs) where
  arrived := Config.arrived_init w _
  genuine := fun _ hev => absurd hev List.not_mem_nil
  handed := fun _ _ h => absurd h (Config.not_heard_init _ _)
  accepted := fun _ _ h => absurd h (Config.not_heard_init _ _)
  limits := hlimits
  preserved := fun _ _ _ _ h => absurd h (Config.not_heard_init _ _)

/-- **A dispatcher that acknowledges an event has sent it on.** -/
theorem NothingLost.sentOn (h : NothingLost env jobs c)
    (hjobs : ∀ i, ¬ (jobs i).Drains DISPATCHER_STREAM) {i : Nat} {msg : Msg}
    {k : Except CallError (Op.ack msg).Res → Coro Reply} (hp : c.prog i = .await (.ack msg) k)
    (hstream : msg.stream = eventQueue) {s : Store.Stream Payload} {m : Stored Payload}
    (hs : c.world.streams eventQueue = some s) (hm : m ∈ s.msgs) (hseq : m.seq = msg.streamSeq)
    {message : Message} (hpayload : m.payload = .message message) : SentOn jobs message c := by
  have hreaches := h.arrived i
  rw [hp] at hreaches
  obtain ⟨hjob, hheard⟩ := dispatcher_of_ack (hjobs i) hreaches h.genuine hstream
  -- The number still stands for what was handed out, so this is the event.
  obtain ⟨s', hs', -, hsame⟩ := h.handed i msg hheard
  obtain rfl := Option.some.inj (hs.symm.trans hs')
  have hmsg : msg.payload = .message message := (hsame m hm hseq).symm.trans hpayload
  dsimp only at hreaches
  rw [hjob] at hreaches
  obtain ⟨m', mapping, hpayload', hread, hsent⟩ := reaches_dispatch hreaches
  obtain rfl := Payload.message.inj (hmsg.symm.trans hpayload')
  refine ⟨i, mapping, hjob, Config.heard_of_mem_way hread rfl, fun sub hsub => ?_⟩
  obtain ⟨n, hn⟩ := hsent sub hsub
  exact Config.heard_of_mem_way hn (by simp [reachesMain])

/-- **Every step keeps it.** -/
theorem NothingLost.step (h : NothingLost env jobs c)
    (hjobs : ∀ i, ¬ (jobs i).Drains DISPATCHER_STREAM)
    (hs : c.step (serve env) l = some d) : NothingLost env jobs d := by
  have harrived := h.arrived.step hs
  have hgenuine := h.genuine.step hs
  obtain ⟨op, k, hp, rfl⟩ := Config.step_cases hs
  have hreaches := h.arrived l.1
  rw [hp] at hreaches
  have hcall : JobCall (jobs l.1) op := hreaches.uses_await (uses_program env (jobs l.1))
  have hspares := sparesEvents_call (hjobs l.1) hcall
  refine ⟨harrived, hgenuine, fun i msg hheard => ?_, fun e message hheard => ?_, ?_,
    fun name hname j message hheard => ?_⟩
  · have hlost : ∀ x, ¬ HandsEvent msg op (.error x) := by
      intro x hx
      cases op <;> exact hx
    rw [Config.next_world]
    -- What is handed out now is numbered, and the numbers of earlier deliveries stay.
    rcases Config.heard_next.mp hheard with ⟨rfl, hnow⟩ | hbefore
    · obtain ⟨hok, hans⟩ := Server.heard_answered hlost hnow
      rw [hok]
      exact numbered_handed hans
    · exact Server.left_preserves (P := fun w => Numbered w msg) (h.handed i msg hbefore)
        fun _ => numbered_answer env l.1 (h.handed i msg hbefore) hspares
  · have hlost : ∀ x, ¬ AcceptsEvent message op (.error x) := by
      intro x hx
      cases op <;> exact hx
    rcases Config.heard_next.mp hheard with ⟨rfl, hnow⟩ | hbefore
    · obtain ⟨hok, hans⟩ := Server.heard_answered hlost hnow
      rw [Config.next_world, hok]
      exact Or.inl (inQueue_accepted hans)
    · -- It was in the queue and is, or it leaves it now and had been sent on before; or it was sent
      -- on long ago.
      rcases h.accepted e message hbefore with hqueue | hsent
      · rw [Config.next_world]
        by_cases hlands : l.2.Lands
        · rw [Server.left_of_lands hlands, serve_answer]
          rcases inQueue_answer env l.1 hqueue hspares with
            hstays | ⟨msg, s, m, rfl, hstream, hs', hm, hseq, hpayload⟩
          · exact Or.inl hstays
          · exact Or.inr (h.sentOn hjobs hp hstream hs' hm hseq hpayload).next
        · rw [Server.left_of_not_lands hlands]
          exact Or.inl hqueue
      · exact Or.inr hsent.next
  · exact Server.left_preserves (P := KeepsAcknowledged) h.limits fun _ =>
      keepsAcknowledged_answer env l.1 h.limits fun name hname => sparesLive_call hname hcall
  · rcases Config.heard_next.mp hheard with ⟨rfl, hnow⟩ | hbefore
    · exact preserved_published h.limits hname hnow
    · exact (h.preserved name hname j message hbefore).next hname hcall

/-- Where an accepted event is: in the incoming queue, or with everyone whom a dispatcher found for
it in the mapping, unless they have dealt with it or are gone. -/
def OnItsWay (jobs : Nat → Job) (e : Nat) (message : Message) (c : System) : Prop :=
  InQueue e message c.world ∨ ∃ j mapping, jobs j = .dispatch ∧ c.Heard j (ReadsMapping mapping) ∧
    ∀ sub ∈ mapping.subscribers message.realm message.topic,
      (c.Heard j fun op a => reachesMain sub.name message op a = true) ∧
      (sub.name ∉ internalQueues → Preserved jobs sub.name j message c)

/-- **No accepted event is lost.** In every run of the services, with any number of requests,
crashes, lost calls and redeliveries, an event whose publication to the incoming queue was answered
is still there, or a dispatcher has read a mapping and published the event to every subscription it
found there for its topic; and each of these publications is still in the stream of its
subscription, or was withdrawn by a status report with its number or a deletion of the subscription.
Only no job may treat the incoming queue as the stream of a subscription. -/
theorem no_event_lost (hjobs : ∀ i, ¬ (jobs i).Drains DISPATCHER_STREAM) {w : World}
    (hlimits : KeepsAcknowledged w) {ls : Schedule}
    (hrun : (System.start env w jobs).run (serve env) ls = some d) {e : Nat} {message : Message}
    (haccepted : d.Heard e (AcceptsEvent message)) : OnItsWay jobs e message d := by
  have hkept : NothingLost env jobs d :=
    Config.run_invariant (C := fun _ _ => True) (fun _ _ _ hc _ hs => hc.step hjobs hs)
      (nothingLost_start hlimits) (Config.along_trivial ls) hrun
  rcases hkept.accepted e message haccepted with hqueue | ⟨j, mapping, hjob, hread, hsent⟩
  · exact Or.inl hqueue
  · exact Or.inr ⟨j, mapping, hjob, hread, fun sub hsub =>
      ⟨hsent sub hsub, fun hname => hkept.preserved sub.name hname j message (hsent sub hsub)⟩⟩

end Run

/-! ## An event that a subscription is sent -/

/-! A registration, a refresh, an event and a round of the dispatcher: the event has been sent on.
-/

/-- An internal queue may be a work queue. -/
theorem keepsAcknowledged_internal {w : World} (h : KeepsAcknowledged w) {queue : String}
    (hqueue : queue ∈ internalQueues) (s : Option (Store.Stream Payload)) :
    KeepsAcknowledged (w.setStream (streamKey queue) s) := by
  intro name hname t ht
  rw [World.streams_setStream_of_ne (internal_ne hname hqueue).symm] at ht
  exact h name hname t ht

theorem keepsAcknowledged_prepared : KeepsAcknowledged .prepared := by
  have hempty : KeepsAcknowledged .empty := fun _ _ _ hs => nomatch hs
  exact keepsAcknowledged_internal (keepsAcknowledged_internal (keepsAcknowledged_internal hempty
    (by decide) _) (by decide) _) (by decide) _

/-- A registration, the refresh it causes, an event, and the dispatcher's round with it. -/
def sentOnJobs : List Job :=
  [.create "s" .withoutPrefill, .updateMapping, .postEvent .sample, .dispatch]

def sentOnSteps : Schedule :=
  List.replicate 7 (0, .ok) ++ List.replicate 3 (1, .ok) ++ [(2, .ok)] ++ List.replicate 4 (3, .ok)

theorem no_event_lost_sample : ∃ d,
    (System.start .sample .prepared (Job.pool sentOnJobs)).run (serve .sample) sentOnSteps =
      some d ∧ OnItsWay (Job.pool sentOnJobs) 2 .sample d := by
  have hjobs : ∀ i, ¬ (Job.pool sentOnJobs i).Drains DISPATCHER_STREAM :=
    Job.pool_forall (P := fun job => ¬ job.Drains DISPATCHER_STREAM)
      (by simp [sentOnJobs, Job.Drains]) id
  obtain ⟨d, hrun, ev, hev, htid, hop⟩ : ∃ d,
      (System.start .sample .prepared (Job.pool sentOnJobs)).run (serve .sample) sentOnSteps =
        some d ∧ d.Heard 2 (AcceptsEvent .sample) :=
    ⟨_, rfl, _, List.mem_cons_of_mem _ (List.mem_cons_of_mem _ (List.mem_cons_of_mem _
      (List.mem_cons_of_mem _ List.mem_cons_self))), rfl, rfl, rfl, rfl⟩
  exact ⟨d, hrun, no_event_lost hjobs keepsAcknowledged_prepared hrun ⟨ev, hev, htid, hop⟩⟩

end Provisioning
