import Provisioning.Model.Calls

/-!
# What a round of the prefill service does

A round is handed one request and works for the subscription that the request names. Three things
are said here of its program, whatever it is answered: it touches no other subscription, it touches
this one only after it was handed the request, and it sets the status to `done` only after all
messages were published that the request asks for.

There is one way around all three. The status is reported by an address, and a subscription may have
a name whose address is taken for that of another one: a round that works for "%61" sets the status
of "a". What a round was handed is therefore asked twice below, for the name itself (`HandsAny`) and
for a name that is taken for it (`HandsAlias`).

## How it is said

Each of the three is a *guard*: before a call of one kind an answer of another kind was heard. A
guard is shown for the program, by following its shape, and then holds in every run, whatever the
others do; there is no need to know where a round is. Which jobs make such calls at all is settled
first (`CallOf`), so that the runs have to look at registrations and at the prefill service only.

The third guard is about one message at a time. A round is excused from publishing it if it was
handed something else, and it has to be excused before it may set the status (`Excuses`,
`SetsDone`). All messages at once would need a count of the loops; one message needs none, as each
loop either comes by it or not.
-/

namespace Provisioning

open Await Store Prog

/-! ## Requests -/

/-- The request that the prefill service is handed with this answer, and who sent it. -/
def handed : (op : Op) → Except CallError op.Res → Option (Nat × PrefillMessage)
  | .fetch stream _, .ok msg =>
    if stream = streamKey PREFILL_STREAM then
      match msg.payload with
      | .prefill r => some (msg.origin, r)
      | _ => none
    else none
  | _, _ => none

/-- The answer hands out the request `r` for `name`, which `origin` sent. -/
def Hands (name : String) (origin : Nat) (r : PrefillMessage) (op : Op)
    (a : Except CallError op.Res) : Prop :=
  handed op a = some (origin, r) ∧ r.subscriptionName = name

/-- The answer hands out some request for `name`. -/
def HandsAny (name : String) (op : Op) (a : Except CallError op.Res) : Prop :=
  (handed op a).any (·.2.subscriptionName == name) = true

instance (name : String) (op : Op) (a : Except CallError op.Res) :
    Decidable (HandsAny name op a) :=
  inferInstanceAs (Decidable (_ = true))

/-- The answer hands out a request for another name, whose reports are taken for ones about
`name`. -/
def HandsAlias (name : String) (op : Op) (a : Except CallError op.Res) : Prop :=
  ∃ q ∈ handed op a, q.2.subscriptionName ≠ name ∧ TakenFor q.2.subscriptionName name

instance (name : String) (op : Op) (a : Except CallError op.Res) :
    Decidable (HandsAlias name op a) :=
  inferInstanceAs (Decidable (∃ q ∈ handed op a, _))

/-! ## Their service -/

/-- Job `i` touches what the service is there to fill: the record, unless by registering it, or the
messages of the prefill. -/
def Touches (jobs : Nat → Job) (name : String) (i : Nat) (op : Op) : Prop :=
  (PutsRecord name op ∧ ∀ salt sub, jobs i ≠ .create salt sub) ∨
    ∃ payload stream, op = .publish (prefillSubject name) payload stream

/-- The message that the prefill of an object consists of. -/
def prefillMessage (env : Env) (objectType url : String) : Message :=
  ⟨.udmPreFill, "udm", objectType, ⟨[], env.getObject url⟩⟩

/-- `m` is among the messages that a request asks for. -/
def Asks (env : Env) (r : PrefillMessage) (m : Message) : Prop :=
  ∃ realmTopic ∈ r.realmsTopics, realmTopic.realm = "udm" ∧ ∃ objectType ∈ env.objectTypes,
    env.fullmatch realmTopic.topic objectType = some true ∧
      ∃ url ∈ env.listObjects objectType, m = prefillMessage env objectType url

/-- The answer confirms that `m` is in the prefill of `name`. -/
def Published (name : String) (m : Message) : (op : Op) → Except CallError op.Res → Prop
  | .publish subject (.message m') stream, .ok _ =>
    subject = prefillSubject name ∧ m' = m ∧ stream = streamKey name
  | _, _ => False

/-- Everything but a request to set the status. -/
def Job.LeavesStatus : Job → Prop
  | .setStatus .. => False
  | _ => True

/-! ## What the jobs call -/

variable {env : Env} {jobs : Nat → Job} {name : String}

/-- The call sends a request to the prefill service. -/
def SendsRequest (op : Op) : Prop := ∃ subject r stream, op = .publish subject (.prefill r) stream

/-- The call publishes to the prefill of some subscription. -/
def Prefills (op : Op) : Prop :=
  ∃ name payload stream, op = .publish (prefillSubject name) payload stream

/-- The call has nothing to do with any of this. -/
structure Quiet (op : Op) : Prop where
  record : ∀ name, ¬ PutsRecord name op
  request : ¬ SendsRequest op
  prefill : ¬ Prefills op

/-- Neither a write nor a publication. -/
def Plain : Op → Bool
  | .kvPut .. => false
  | .publish .. => false
  | _ => true

theorem quiet_plain {op : Op} (h : Plain op = true) : Quiet op := by
  refine ⟨fun name hput => ?_, fun hsend => ?_, fun hpub => ?_⟩
  · obtain ⟨sub, rfl⟩ := hput
    cases h
  · obtain ⟨subject, r, stream, rfl⟩ := hsend
    cases h
  · obtain ⟨name, payload, stream, rfl⟩ := hpub
    cases h

theorem not_prefills {subject stream : String} {payload : Payload}
    (h : ¬ ".prefill".toList <:+ subject.toList) :
    ¬ Prefills (.publish subject payload stream) := by
  intro ⟨name, payload', stream', heq⟩
  injection heq with hsubject _ _
  exact ne_prefillSubject h hsubject

theorem quiet_message {subject stream : String} {m : Message}
    (h : ¬ ".prefill".toList <:+ subject.toList) : Quiet (.publish subject (.message m) stream) :=
  ⟨fun _ => nofun, nofun, not_prefills h⟩

theorem quiet_event (m : Message) (stream : String) :
    Quiet (.publish DISPATCHER_STREAM (.message m) stream) := quiet_message (by decide)

theorem quiet_put {b : Bucket} {key : String} {value : b.Val} (h : b ≠ .subscriptions) :
    Quiet (.kvPut b key value) := by
  refine ⟨fun name hput => ?_, nofun, nofun⟩
  obtain ⟨sub, heq⟩ := hput
  injection heq with hb
  exact h hb

/-- Only registrations and the prefill service concern the prefill. -/
theorem uses_quiet {job : Job} (hstatus : job.LeavesStatus)
    (hcreate : ∀ salt sub, job ≠ .create salt sub) (hprefill : job ≠ .prefill) :
    (job.program env).Uses Quiet := by
  have hauth : ∀ username op, AuthCall username op → Quiet op := by
    intro username op h
    cases h with
    | putHash hash => exact quiet_put nofun
    | _ => exact quiet_plain rfl
  have hdelete : ∀ name op, DeleteCall name op → Quiet op := by
    intro name op h
    cases h <;> exact quiet_plain rfl
  have hmapping : ∀ op, MappingCall op → Quiet op := by
    intro op h
    cases h <;> exact quiet_plain rfl
  have hprepare : ∀ queue op, PrepareCall queue op → Quiet op := by
    intro queue op h
    cases h <;> exact quiet_plain rfl
  -- What jobs have in common was shown above; the rest is one job after the other.
  apply (uses_program env job).mono
  intro op hop
  cases job with
  | create salt sub => exact absurd rfl (hcreate salt sub)
  | prefill => exact absurd rfl hprefill
  | setStatus name status => exact hstatus.elim
  | delete settings salt credentials name =>
    cases hop with
    | auth hop => exact hauth _ op hop
    | delete hop => exact hdelete _ op hop
  | deleteService name => exact hdelete name op hop
  | authenticate salt credentials subscriptionName => exact hauth _ op hop
  | getNext name rounds pop =>
    cases hop with
    | message hop => cases hop <;> exact quiet_plain rfl
    | _ => exact quiet_plain rfl
  | postStatus name seqNum status => cases hop <;> exact quiet_plain rfl
  | postEvent message => exact hop ▸ quiet_event message _
  | dispatch =>
    cases hop with
    | publish name m => exact quiet_message (mainSubject_no_prefill name)
    | _ => exact quiet_plain rfl
  | updateMapping => exact hmapping op hop
  | dispatcherStart =>
    cases hop with
    | mapping hop => exact hmapping op hop
    | _ => exact quiet_plain rfl
  | prefillStart => exact hop.elim (hprepare _ op) (hprepare _ op)
  | transform =>
    cases hop with
    | publish m => exact quiet_event m _
    | put key obj => exact quiet_put nofun
    | _ => exact quiet_plain rfl
  | ackWaitExpires stream durable => exact hop ▸ quiet_plain rfl
  | passwordCacheExpires password hash subscription => exact hop ▸ quiet_plain rfl
  | idle => exact hop.elim

/-- The calls of a job. -/
def CallOf : Job → Op → Prop
  | .create _ sub => CreateCall sub
  | .prefill => PrefillCall
  | _ => Quiet

theorem uses_job {job : Job} (hstatus : job.LeavesStatus) :
    (job.program env).Uses (CallOf job) := by
  cases job with
  | create salt sub => exact uses_program env (.create salt sub)
  | prefill => exact uses_program env .prefill
  | _ => exact uses_quiet hstatus nofun nofun

/-! ### Registrations -/

/-- The answer confirms that the record is written. -/
def ConfirmsRecord (name : String) (op : Op) (a : Except CallError op.Res) : Prop :=
  PutsRecord name op ∧ ∃ x, a = .ok x

/-- **A registration sends its request only after it has written its record.** -/
theorem guarded_create (salt : String) (sub : NewSubscription) :
    ((Job.create salt sub).program env).Guarded (ConfirmsRecord sub.name) SendsRequest
      fun _ => False := by
  have hnew : (registerNew env salt sub).Guarded (ConfirmsRecord sub.name) SendsRequest
      fun _ => False := by
    refine guarded_request_bind.mpr ⟨nofun, fun _ _ => ?_, fun _ _ => id⟩
    refine guarded_request_bind.mpr ⟨nofun, fun x hM => ?_, fun _ _ => id⟩
    exact absurd ⟨⟨_, rfl⟩, x, rfl⟩ hM
  refine Guarded.bind (R := fun _ => False) ?_ (fun _ _ => id) fun _ _ => id
  rw [createSubscription_eq]
  refine guarded_getValue_bind.mpr ⟨nofun, fun e _ => ?_, fun _ => ?_, fun _ _ _ => id⟩
  · apply Uses.guarded (uses_registerAgain env sub e.value)
    intro op hop
    rw [hop]
    exact nofun
  · dsimp only
    split
    · exact id
    · exact hnew

/-! ### The prefill service -/

section Service

variable {M : (op : Op) → Except CallError op.Res → Prop} {B : Op → Prop}

/-- What goes for the handling of every request that can be handed out goes for a round of the
service. -/
theorem guarded_prefill
    (hfetch : ¬ B (.fetch (streamKey PREFILL_STREAM) (durableKey PREFILL_STREAM)))
    (hack : ∀ msg, ¬ B (.ack msg)) (hnak : ∀ msg, ¬ B (.nak msg))
    (hhandle : ∀ msg,
      ¬ M (.fetch (streamKey PREFILL_STREAM) (durableKey PREFILL_STREAM)) (.ok msg) →
      (handlePrefill env msg).Guarded M B fun _ => False) :
    (Job.prefill.program env).Guarded M B fun _ => False := by
  have hone : (getOneMessage PREFILL_STREAM).Guarded M B fun x => ∃ msg, x = .ok (some msg) ∧
      M (.fetch (streamKey PREFILL_STREAM) (durableKey PREFILL_STREAM)) (.ok msg) := by
    refine Guarded.tryCatch (R := fun x => ∃ msg, x = .ok (some msg) ∧
        M (.fetch (streamKey PREFILL_STREAM) (durableKey PREFILL_STREAM)) (.ok msg))
      (guarded_request_bind.mpr ⟨hfetch, fun msg hM => ?_, fun _ _ => nofun⟩) (fun _ => id)
      fun e _ => ?_
    · intro ⟨msg', h, hM'⟩
      obtain rfl := Option.some.inj (Except.ok.inj h)
      exact hM hM'
    · split <;> exact fun ⟨_, h, _⟩ => nomatch h
  refine Guarded.bind (R := fun _ => False) ?_ (fun _ _ => id) fun _ _ => id
  refine Guarded.bind hone (fun found hfound => ?_) fun _ _ => id
  cases found with
  | none => exact id
  | some msg =>
    refine Guarded.bind (R := fun _ => False) (Guarded.tryCatch (R := fun _ => False) ?_
      (fun _ _ => id) fun e _ => ?_) (fun _ _ => ?_) fun _ _ => id
    · exact hhandle msg fun hM => hfound ⟨msg, rfl, hM⟩
    · exact guarded_request_bind.mpr ⟨hnak msg, fun _ _ => id, fun _ _ => id⟩
    · exact guarded_request.mpr ⟨hack msg, fun _ _ => id, fun _ _ => id⟩

/-- What goes for every call that is made for the request goes for its handling. -/
theorem guarded_handle {msg : Msg}
    (h : ∀ r, msg.payload = .prefill r → ∀ op, HandleCall r.subscriptionName op → ¬ B op) :
    (handlePrefill env msg).Guarded M B fun _ => False :=
  Uses.guarded (uses_handlePrefill msg) fun op ⟨r, hr, hop⟩ => h r hr op hop

end Service

/-- The calls for one subscription do not touch another one that it is not taken for. -/
theorem not_touches_handle {i : Nat} {other : String} (hne : other ≠ name)
    (hother : ¬ TakenFor other name) {op : Op} (hop : HandleCall other op) :
    ¬ Touches jobs name i op := by
  intro h
  rcases h with ⟨⟨sub, hput⟩, -⟩ | ⟨payload, stream, hpub⟩
  · subst hput
    cases hop with
    | status status htaken hop =>
      cases hop
      exact hother htaken
  · subst hpub
    generalize hsubject : prefillSubject name = subject at hop
    cases hop with
    | publish m => exact hne (prefillSubject_inj.mp hsubject).symm
    | failure m => exact ne_prefillSubject (by decide) hsubject.symm
    | status status htaken hop => cases hop

theorem handed_fetch {durable : String} {msg : Msg} {r : PrefillMessage}
    (hr : msg.payload = .prefill r) :
    handed (.fetch (streamKey PREFILL_STREAM) durable) (.ok msg) = some (msg.origin, r) := by
  simp [handed, hr]

theorem handsAny_iff {op : Op} {a : Except CallError op.Res} :
    HandsAny name op a ↔ ∃ origin r, Hands name origin r op a := by
  unfold HandsAny Hands
  cases handed op a with
  | none => simp
  | some q => simp [Prod.ext_iff]

theorem handsAny_fetch {msg : Msg} {r : PrefillMessage} (hr : msg.payload = .prefill r)
    (hname : r.subscriptionName = name) :
    HandsAny name (.fetch (streamKey PREFILL_STREAM) (durableKey PREFILL_STREAM)) (.ok msg) :=
  handsAny_iff.mpr ⟨msg.origin, r, handed_fetch hr, hname⟩

theorem handsAlias_fetch {msg : Msg} {r : PrefillMessage} (hr : msg.payload = .prefill r)
    (hne : r.subscriptionName ≠ name) (htaken : TakenFor r.subscriptionName name) :
    HandsAlias name (.fetch (streamKey PREFILL_STREAM) (durableKey PREFILL_STREAM)) (.ok msg) :=
  ⟨(msg.origin, r), handed_fetch hr, hne, htaken⟩

/-- **The service touches a subscription only after it was handed a request for it**, or for one
that is taken for it. -/
theorem guarded_touches (i : Nat) :
    (Job.prefill.program env).Guarded (fun op a => HandsAny name op a ∨ HandsAlias name op a)
      (Touches jobs name i) fun _ => False := by
  have hplain : ∀ op, Plain op = true → ¬ Touches jobs name i op := by
    intro op hop h
    rcases h with ⟨hput, -⟩ | ⟨payload, stream, hpub⟩
    · exact (quiet_plain hop).record name hput
    · exact (quiet_plain hop).prefill ⟨name, payload, stream, hpub⟩
  refine guarded_prefill (hplain _ rfl) (fun msg => hplain _ rfl) (fun msg => hplain _ rfl)
    fun msg hM => guarded_handle fun r hr op hop => ?_
  have hne : r.subscriptionName ≠ name := fun hname => hM (Or.inl (handsAny_fetch hr hname))
  exact not_touches_handle hne (fun htaken => hM (Or.inr (handsAlias_fetch hr hne htaken))) hop

/-! ### What a request is served with -/

/-- The answer is not the one that the directory gives. -/
def Misinforms (env : Env) : (op : Op) → Except CallError op.Res → Prop
  | .getObjectTypes, .ok types => types ≠ env.objectTypes
  | .listObjects objectType, .ok urls => urls ≠ env.listObjects objectType
  | .getObject url, .ok obj => obj ≠ env.getObject url
  | _, _ => False

theorem not_misinforms (tid : Nat) (op : Op) (w : World) (f : Fault Outage) :
    ¬ Misinforms env op ((serve env).heard tid op w f) := by
  intro h
  have hlost : ∀ e, ¬ Misinforms env op (.error e) := by
    intro e herror
    cases op <;> exact herror
  have hans : Misinforms env op (answer env tid op w).1 := (Server.heard_answered hlost h).2
  cases op with
  | getObjectTypes => exact hans rfl
  | listObjects objectType => exact hans rfl
  | getObject url => exact hans rfl
  | _ => exact hans

/-- What excuses a round of the service from publishing `m`, or the answer that it is done: it was
handed another request, or one for another name, or misinformed. -/
def Excuses (env : Env) (name : String) (r : PrefillMessage) (m : Message) (op : Op)
    (a : Except CallError op.Res) : Prop :=
  (∃ origin other, other ≠ r ∧ Hands name origin other op a) ∨ HandsAlias name op a ∨
    Misinforms env op a ∨ Published name m op a

/-- The call sets the status of `name` to `done`. -/
def SetsDone (name : String) (op : Op) : Prop :=
  ∃ sub : Subscription, sub.prefillQueueStatus = .done ∧ op = .kvPut .subscriptions name sub

section Filling

variable {r : PrefillMessage} {m : Message} {objectType url : String}

theorem not_setsDone_plain {op : Op} (h : Plain op = true) : ¬ SetsDone name op :=
  fun ⟨sub, _, hop⟩ => (quiet_plain h).record name ⟨sub, hop⟩

theorem not_setsDone_publish {subject stream : String} {payload : Payload} :
    ¬ SetsDone name (.publish subject payload stream) := fun ⟨_, _, hop⟩ => nomatch hop

theorem not_setsDone_status {status : FillQueueStatus} (h : status ≠ .done) {other : String}
    {op : Op} (hop : StatusCall other status op) : ¬ SetsDone name op := by
  intro ⟨sub, hdone, hput⟩
  cases hop with
  | get => cases hput
  | put sub' =>
    injection hput with _ _ hvalue
    rw [← hvalue] at hdone
    exact h hdone

theorem not_setsDone_handle {other : String} (hother : ¬ TakenFor other name) {op : Op}
    (hop : HandleCall other op) : ¬ SetsDone name op := by
  intro ⟨sub, _, hput⟩
  subst hput
  cases hop with
  | status status htaken hop =>
    cases hop
    exact hother htaken

theorem unsets_fillObject (url objectType other : String) :
    (fillObject url objectType other).Uses fun op => ¬ SetsDone name op :=
  Uses.bind (uses_request (not_setsDone_plain rfl)) fun _ => uses_addMessage not_setsDone_publish

theorem unsets_fillUdmTopic (objectType other : String) :
    (fillUdmTopic objectType other).Uses fun op => ¬ SetsDone name op :=
  Uses.bind (uses_request (not_setsDone_plain rfl)) fun _ =>
    Uses.forEach fun url _ => unsets_fillObject url objectType other

theorem unsets_fetchUdm (other topic : String) :
    (fetchUdm env other topic).Uses fun op => ¬ SetsDone name op := by
  apply Uses.bind (uses_request (not_setsDone_plain rfl))
  intro udmModules
  cases matchingTypes env topic udmModules with
  | error e => trivial
  | ok udmMatch => exact Uses.forEach fun t _ => unsets_fillUdmTopic t other

theorem unsets_status (other : String) {status : FillQueueStatus} (h : status ≠ .done) :
    (updateSubscriptionQueueStatus env other status).Uses fun op => ¬ SetsDone name op :=
  (uses_updateSubscriptionQueueStatus other status).mono fun _ ⟨_, _, hop⟩ =>
    not_setsDone_status h hop

/-- Filling with an object publishes it. -/
theorem guarded_fillObject :
    (fillObject url objectType name).Guarded
      (Excuses env name r (prefillMessage env objectType url)) (SetsDone name)
      fun x => x = .ok () := by
  refine guarded_request_bind.mpr ⟨not_setsDone_plain rfl, fun obj hM => ?_, fun _ _ => nofun⟩
  have hobj : obj = env.getObject url := by
    by_contra hne
    exact hM (Or.inr (Or.inr (Or.inl hne)))
  rw [hobj]
  refine guarded_request_bind.mpr ⟨not_setsDone_publish, fun seq hM => ?_, fun _ _ => nofun⟩
  exact absurd (Or.inr (Or.inr (Or.inr ⟨rfl, rfl, rfl⟩))) hM

theorem guarded_fillUdmTopic (hurl : url ∈ env.listObjects objectType) :
    (fillUdmTopic objectType name).Guarded
      (Excuses env name r (prefillMessage env objectType url)) (SetsDone name)
      fun x => x = .ok () := by
  refine guarded_request_bind.mpr ⟨not_setsDone_plain rfl, fun urls hM => ?_, fun _ _ => nofun⟩
  have hurls : urls = env.listObjects objectType := by
    by_contra hne
    exact hM (Or.inr (Or.inr (Or.inl hne)))
  rw [hurls]
  exact Guarded.forEach hurl guarded_fillObject fun url' _ =>
    Uses.guarded (unsets_fillObject url' objectType name) fun _ => id

theorem mem_matchingTypes {topic : String} {names ms : List String}
    (h : matchingTypes env topic names = .ok ms) (hmem : objectType ∈ names)
    (hmatch : env.fullmatch topic objectType = some true) : objectType ∈ ms := by
  induction names generalizing ms with
  | nil => cases hmem
  | cons n names ih =>
    unfold matchingTypes at h
    cases hn : matchTopic env topic n with
    | error e =>
      rw [hn] at h
      cases h
    | ok found =>
      cases hrest : matchingTypes env topic names with
      | error e =>
        rw [hn, hrest] at h
        cases h
      | ok others =>
        rw [hn, hrest] at h
        rw [← Except.ok.inj h]
        rcases List.mem_cons.mp hmem with rfl | hmem
        · have hfound : matchTopic env topic objectType = .ok true := by
            simp only [matchTopic, hmatch]
          rw [hfound] at hn
          rw [← Except.ok.inj hn]
          exact List.mem_cons_self
        · cases found with
          | true => exact List.mem_cons_of_mem n (ih hrest hmem)
          | false => exact ih hrest hmem

/-- Filling a topic publishes every object of every type that the topic matches. -/
theorem guarded_fetchUdm {topic : String} (htype : objectType ∈ env.objectTypes)
    (hmatch : env.fullmatch topic objectType = some true)
    (hurl : url ∈ env.listObjects objectType) :
    (fetchUdm env name topic).Guarded
      (Excuses env name r (prefillMessage env objectType url)) (SetsDone name)
      fun x => x = .ok () := by
  refine guarded_request_bind.mpr ⟨not_setsDone_plain rfl, fun types hM => ?_, fun _ _ => nofun⟩
  have htypes : types = env.objectTypes := by
    by_contra hne
    exact hM (Or.inr (Or.inr (Or.inl hne)))
  rw [htypes]
  cases hmatching : matchingTypes env topic env.objectTypes with
  | error e => exact nofun
  | ok udmMatch =>
    exact Guarded.forEach (mem_matchingTypes hmatching htype hmatch) (guarded_fillUdmTopic hurl)
      fun t _ => Uses.guarded (unsets_fillUdmTopic t name) fun _ => id

/-- The queue is filled only with everything that was asked for. -/
theorem guarded_fillQueue (hasks : Asks env r m) :
    (fillQueue env r).Guarded (Excuses env r.subscriptionName r m) (SetsDone r.subscriptionName)
      fun x => x = .ok () := by
  obtain ⟨realmTopic, hmem, hrealm, objectType, htype, hmatch, url, hurl, rfl⟩ := hasks
  refine guarded_request_bind.mpr ⟨not_setsDone_plain rfl, fun _ _ => ?_, fun _ _ => nofun⟩
  refine Guarded.forEach hmem ?_ fun other _ => ?_
  · rw [if_pos hrealm]
    have hrunning : FillQueueStatus.running ≠ .done := nofun
    refine Guarded.bind (Uses.guarded (unsets_status _ hrunning) fun _ => id) (fun _ _ => ?_)
      fun _ _ => nofun
    exact guarded_fetchUdm htype hmatch hurl
  · refine Uses.guarded (P := fun op => ¬ SetsDone r.subscriptionName op) ?_ fun _ => id
    split
    · have hrunning : FillQueueStatus.running ≠ .done := nofun
      exact Uses.bind (unsets_status _ hrunning) fun _ => unsets_fetchUdm _ _
    · trivial

/-- **The status becomes `done` only once everything is published.** -/
theorem guarded_handlePrefill {msg : Msg} (hr : msg.payload = .prefill r) (hasks : Asks env r m) :
    (handlePrefill env msg).Guarded (Excuses env r.subscriptionName r m)
      (SetsDone r.subscriptionName) fun _ => False := by
  unfold handlePrefill validatedPrefill
  rw [hr]
  simp only [pure_eq, bind_eq, bind_pure]
  split
  · refine Uses.guarded (P := fun op => ¬ SetsDone r.subscriptionName op) ?_ fun _ => id
    have hfailed : FillQueueStatus.failed ≠ .done := nofun
    exact Uses.bind (uses_addMessage not_setsDone_publish) fun _ => unsets_status _ hfailed
  · exact Guarded.bind (guarded_fillQueue hasks) (fun _ ha => absurd rfl ha) fun _ _ => id

theorem guarded_done (hname : r.subscriptionName = name) (hasks : Asks env r m) :
    (Job.prefill.program env).Guarded (Excuses env name r m) (SetsDone name)
      fun _ => False := by
  refine guarded_prefill (not_setsDone_plain rfl) (fun msg => not_setsDone_plain rfl)
    (fun msg => not_setsDone_plain rfl) fun msg hM => ?_
  by_cases hmine : msg.payload = .prefill r
  · rw [← hname]
    exact guarded_handlePrefill hmine hasks
  · refine guarded_handle fun other hother op hop => not_setsDone_handle (fun htaken => ?_) hop
    have hne : other ≠ r := fun heq => hmine (heq ▸ hother)
    by_cases hsame : other.subscriptionName = name
    · exact hM (Or.inl ⟨msg.origin, other, hne, handed_fetch hother, hsame⟩)
    · exact hM (Or.inr (Or.inl (handsAlias_fetch hother hsame htaken)))

end Filling

end Provisioning
