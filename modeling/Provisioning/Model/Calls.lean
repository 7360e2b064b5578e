import Provisioning.Model.System
import Provisioning.Model.Effects

/-!
# Which calls a job can issue

For each kind of job the calls it may ever make, **whatever it is answered**: an inductive
predicate with one constructor for each place in the code that awaits something. `uses_program`
puts them together: a job stays inside its own predicate in every run, with lost calls, crashes
and other jobs in between.

## Why a predicate, and not the program

A proof about interleavings has one job in its focus and any number of others around it. Of the
others it only needs to know what they can do to the part of the state it is about, and for that
the order of their calls does not matter: `cases` on the predicate leaves one goal for each call,
and a call on another bucket or another stream is closed by a frame lemma. Stepping through the
programs instead would mean one goal for each point at which a program can stand.

The predicates carry the arguments of a call where a proof needs them and no more. `StatusCall`
says that the record put back is one that differs in the status only, but not that it is the one
that was read: between the reading and the writing anybody may have written, and that is what the
proofs about the status are about.

## What follows the predicates

`Uses` says nothing about order, and a few results rest on order: that an acknowledgement comes
after the publishing, for example. For these the second half has `Guarded`, one equation for each
shape of request in the code, and `Runs` and `finish` for a stretch in which nothing else
happens.
-/

namespace Provisioning

open Await Store Prog

-- `P` is left open in the rules of the adapters: each service has a predicate of its own.
variable {env : Env} {P : Op → Prop} {α : Type}

/-! ## Adapters -/

/-! One rule for each function of the adapters. Its hypotheses are the calls in the function's
body, so a service's predicate is checked against the calls the service really causes, and not
against the functions it names. -/

theorem uses_request {op : Op} (h : P op) : (request op).Uses P := uses_call h

theorem Uses.catching {e : CallError} {p handler : Coro α} (hp : p.Uses P)
    (hh : handler.Uses P) : (catching e p handler).Uses P := by
  apply Uses.tryCatch hp
  intro x
  split
  · exact hh
  · trivial

theorem uses_getValue {b : Bucket} {key : String} (h : P (.kvGet b key)) :
    (getValue key b).Uses P :=
  Uses.bind (Uses.catching (Uses.bind (uses_request h) fun _ => trivial) trivial) fun _ => trivial

theorem uses_putValue {b : Bucket} {key : String} {v : b.Val} (hput : P (.kvPut b key v))
    (hdel : v.empty = true → P (.kvDelete b key)) : (putValue key b v).Uses P := by
  unfold putValue
  split
  · next h => exact uses_request (hdel h)
  · exact uses_request hput

theorem uses_addMessage {stream subject : String} {m : Payload}
    (h : P (.publish subject m (streamKey stream))) : (addMessage stream subject m).Uses P :=
  Uses.bind (uses_request h) fun _ => trivial

theorem uses_ensureStream {stream : String} {manualDelete : Bool} {subjects : List String}
    (hinfo : P (.streamInfo (streamKey stream)))
    (hadd : P (.addStream ⟨streamKey stream, subjects, !manualDelete⟩))
    (hupdate : P (.updateStream ⟨streamKey stream, subjects, !manualDelete⟩)) :
    (ensureStream stream manualDelete subjects).Uses P := by
  refine Uses.bind (Uses.catching (Uses.bind (uses_request hinfo) fun _ => trivial)
    (Uses.bind (uses_request hadd) fun _ => trivial)) fun found => ?_
  cases found with
  | true => exact uses_request hupdate
  | false => trivial

theorem uses_ensureConsumer {stream : String}
    (hinfo : P (.consumerInfo (streamKey stream) (durableKey stream)))
    (hadd : P (.addConsumer (streamKey stream) (durableKey stream))) :
    (ensureConsumer stream).Uses P :=
  Uses.catching (uses_request hinfo) (uses_request hadd)

theorem uses_deleteStream {stream : String} (h : P (.deleteStream (streamKey stream))) :
    (deleteStream stream).Uses P :=
  Uses.catching (uses_request h) trivial

theorem uses_deleteConsumer {stream : String}
    (h : P (.deleteConsumer (streamKey stream) (durableKey stream))) :
    (deleteConsumer stream).Uses P :=
  Uses.catching (uses_request h) trivial

theorem uses_getOneMessage {stream : String}
    (h : P (.fetch (streamKey stream) (durableKey stream))) : (getOneMessage stream).Uses P :=
  Uses.catching (Uses.bind (uses_request h) fun _ => trivial) trivial

theorem uses_provisioningMessageFrom (msg : Msg) : (provisioningMessageFrom msg).Uses P := by
  unfold provisioningMessageFrom
  split <;> trivial

/-! ## Registering -/

/-- The call writes the hash of `name`. Which hash is left open: a registration and the renewal
of an old hash both write here. -/
def PutsHash (name : String) (op : Op) : Prop := ∃ hash, op = .kvPut .credentials name hash

/-- The call writes the record of `name`, with any content: a registration writes a new one and a
status update an old one. -/
def PutsRecord (name : String) (op : Op) : Prop := ∃ sub, op = .kvPut .subscriptions name sub

/-- The configuration a subscription's stream is ensured with. -/
def subscriptionStream (name : String) : StreamConfig :=
  ⟨streamKey name, [mainSubject name, prefillSubject name], false⟩

/-- The request of a registration to the prefill service. -/
def prefillRequest (sub : NewSubscription) : PrefillMessage :=
  ⟨.consumerRegistration, sub.name, sub.realmsTopics⟩

/-- The calls of a registration. The record is the one of this request, whereas the hash is open,
since it depends on the salt. A request to the prefill service is only there for a registration
that asked for it. -/
inductive CreateCall (sub : NewSubscription) : Op → Prop where
  | get (b : Bucket) : CreateCall sub (.kvGet b sub.name)
  | putHash (hash : String) : CreateCall sub (.kvPut .credentials sub.name hash)
  | putRecord : CreateCall sub (.kvPut .subscriptions sub.name (newSubInfo sub))
  | streamInfo : CreateCall sub (.streamInfo (streamKey sub.name))
  | addStream : CreateCall sub (.addStream (subscriptionStream sub.name))
  | updateStream : CreateCall sub (.updateStream (subscriptionStream sub.name))
  | consumerInfo : CreateCall sub (.consumerInfo (streamKey sub.name) (durableKey sub.name))
  | addConsumer : CreateCall sub (.addConsumer (streamKey sub.name) (durableKey sub.name))
  | publish (h : sub.requestPrefill = true) :
      CreateCall sub
        (.publish PREFILL_STREAM (.prefill (prefillRequest sub)) (streamKey PREFILL_STREAM))

/-- Comparing with the record that is there is no call at all when the topics differ, and reads
the hash otherwise. -/
theorem uses_isSubscriptionsMatching {newSub : NewSubscription} {sub : Subscription}
    (h : P (.kvGet .credentials newSub.name)) :
    (isSubscriptionsMatching env newSub sub).Uses P := by
  unfold isSubscriptionsMatching
  split
  · trivial
  · split
    · trivial
    · apply Uses.bind (uses_getValue h)
      intro hashed
      split <;> trivial

theorem uses_prepareAndStore (sub : NewSubscription) :
    (prepareAndStoreSubscriptionInfo sub).Uses (CreateCall sub) := by
  refine Uses.bind (uses_putValue .putRecord fun h => nomatch h) fun _ => ?_
  refine Uses.bind (uses_ensureStream .streamInfo .addStream .updateStream) fun _ => ?_
  exact uses_ensureConsumer .consumerInfo .addConsumer

/-- A hash is never the empty string, so putting one is never the deletion that `putValue` makes
of an empty value. -/
theorem hash_not_empty (salt pw : String) :
    Bucket.Val.empty (b := .credentials) (env.hash salt pw) ≠ true := fun h =>
  env.hash_ne_empty salt pw (beq_iff_eq.mp h)

/-- The hashing succeeds exactly where the library does not refuse the password. -/
theorem hashPassword_eq_ok {salt password hash : String} :
    env.hashPassword salt password = .ok hash ↔
      env.refuses password = false ∧ hash = env.hash salt password := by
  unfold Env.hashPassword
  cases env.refuses password with
  | true => exact iff_of_false nofun nofun
  | false => exact ⟨fun h => ⟨rfl, (Except.ok.inj h).symm⟩, fun h => congrArg Except.ok h.2.symm⟩

theorem ofExcept_hashPassword (env : Env) (salt password : String) :
    ofExcept (env.hashPassword salt password) =
      if env.refuses password then .throw (.call .passwordValue)
      else .pure (env.hash salt password) := by
  unfold Env.hashPassword
  split <;> rfl

/-- A registration that finds a record only reads on; one that finds none writes, unless the
password cannot be hashed. -/
theorem uses_registerSubscription (salt : String) (sub : NewSubscription) :
    (registerSubscription env salt sub).Uses (CreateCall sub) := by
  apply Uses.bind (uses_getValue (.get _))
  intro existing
  cases existing with
  | some existingSub =>
    apply Uses.bind (uses_isSubscriptionsMatching (.get _))
    intro found
    cases found <;> trivial
  | none =>
    -- the hashing is no call, but it can raise, and then nothing is written
    simp only [bind_eq, ofExcept_hashPassword]
    split
    · trivial
    · rw [Prog.bind_pure]
      refine Uses.bind (uses_putValue (.putHash _) fun h => (hash_not_empty _ _ h).elim) ?_
      intro _
      exact Uses.bind (uses_prepareAndStore sub) fun _ => trivial

theorem uses_createSubscription (env : Env) (salt : String) (sub : NewSubscription) :
    (createSubscription env salt sub).Uses (CreateCall sub) := by
  apply Uses.bind (uses_registerSubscription salt sub)
  intro registered
  cases registered with
  | false => trivial
  | true =>
    cases hp : sub.requestPrefill with
    | false => trivial
    | true => exact Uses.bind (uses_addMessage (.publish hp)) fun _ => trivial

/-- What the calls of a registration can do to a stream. -/
inductive CreateChange (sub : NewSubscription) (tid : Nat) (x : String) :
    Op → Option (Store.Stream Payload) → Option (Store.Stream Payload) → Prop where
  | add (h : x = streamKey sub.name) :
      CreateChange sub tid x (.addStream (subscriptionStream sub.name)) none
        (some (.new [mainSubject sub.name, prefillSubject sub.name] false))
  | update (h : x = streamKey sub.name) (s : Store.Stream Payload) :
      CreateChange sub tid x (.updateStream (subscriptionStream sub.name)) (some s)
        (some (s.reconfigure [mainSubject sub.name, prefillSubject sub.name] false))
  | addConsumer (h : x = streamKey sub.name) (s : Store.Stream Payload)
      (hd : s.durables (durableKey sub.name) = none) :
      CreateChange sub tid x (.addConsumer (streamKey sub.name) (durableKey sub.name)) (some s)
        (some (s.setDurable (durableKey sub.name) (some .fresh)))
  | publish (h : x = streamKey PREFILL_STREAM) (s : Store.Stream Payload) :
      CreateChange sub tid x
        (.publish PREFILL_STREAM (.prefill (prefillRequest sub)) (streamKey PREFILL_STREAM))
        (some s) (some (s.append PREFILL_STREAM (.prefill (prefillRequest sub)) tid))

/-- A registration leaves a stream as it is, or changes it in one of these ways. The calls that
change a stream are known from `streams_answer`; most of them no registration makes. -/
theorem create_streams (env : Env) (tid : Nat) {sub : NewSubscription} {op : Op} (w : World)
    (hop : CreateCall sub op) (x : String) :
    (answer env tid op w).2.streams x = w.streams x ∨
      CreateChange sub tid x op (w.streams x) ((answer env tid op w).2.streams x) := by
  rcases streams_answer env tid op w x with hsame | hchange
  · exact Or.inl hsame
  · right
    generalize w.streams x = before at hchange
    generalize (answer env tid op w).2.streams x = after at hchange
    cases hchange with
    | add config h =>
      cases hop
      exact .add h.symm
    | update config h s =>
      cases hop
      exact .update h.symm s
    | addConsumer durable s h =>
      cases hop
      exact .addConsumer rfl s h
    | publish subject payload s =>
      cases hop
      exact .publish rfl s
    | _ => cases hop

/-! ### The two ways through a registration -/

/-! Which way a registration takes is decided by its first answer, and a proof that has that
answer should not carry the other way along. So the two ways are programs of their own, and
`createSubscription_eq` says that the source's function is one read followed by one of them. -/

/-- What a registration does when it finds no record and the password can be hashed. -/
def registerNew (env : Env) (salt : String) (sub : NewSubscription) : Coro Nat := do
  request (.kvPut .credentials sub.name (env.hash salt sub.password))
  request (.kvPut .subscriptions sub.name (newSubInfo sub))
  ensureStream sub.name true [mainSubject sub.name, prefillSubject sub.name]
  ensureConsumer sub.name
  if sub.requestPrefill then sendRequestToPrefill sub
  return 201

/-- What it does when it finds one. -/
def registerAgain (env : Env) (sub : NewSubscription) (existingSub : Subscription) : Coro Nat := do
  if !(← isSubscriptionsMatching env sub existingSub) then
    MonadExcept.throw (.httpException 409
      "Subscription with the given name already registered but with different parameters.")
  return 200

/-- The hash is put by one call. -/
theorem putValue_hash (env : Env) (salt : String) (sub : NewSubscription) :
    putValue sub.name .credentials (env.hash salt sub.password) =
      request (.kvPut .credentials sub.name (env.hash salt sub.password)) :=
  if_neg (hash_not_empty salt sub.password)

/-- **A registration is a read, and then one of the two ways**: in between stands only the hashing,
which is no call. -/
theorem createSubscription_eq (env : Env) (salt : String) (sub : NewSubscription) :
    createSubscription env salt sub = (getValue sub.name .subscriptions).bind fun
      | some existingSub => registerAgain env sub existingSub
      | none =>
        if env.refuses sub.password then .throw (.call .passwordValue)
        else registerNew env salt sub := by
  unfold createSubscription registerSubscription getSubscriptionInfo
  simp only [bind_eq, bind_assoc]
  refine congrArg (Prog.bind _) (funext fun found => ?_)
  cases found with
  | some existingSub =>
    unfold registerAgain
    simp only [bind_eq, bind_assoc]
    refine congrArg (Prog.bind _) (funext fun found => ?_)
    cases found <;> rfl
  | none =>
    simp only [ofExcept_hashPassword]
    by_cases hrefused : env.refuses sub.password = true
    · simp only [if_pos hrefused]
      rfl
    · unfold registerNew prepareAndStoreSubscriptionInfo setSubInfo
      simp only [if_neg hrefused, bind_eq, pure_eq, bind_assoc, bind_pure, putValue_hash,
        Bool.not_true, Bool.false_eq_true, if_false]
      rfl

/-- The new way makes the calls of a registration, the old one only the look at the hash, which is
why the two are told apart. -/
theorem uses_registerNew (env : Env) (salt : String) (sub : NewSubscription) :
    (registerNew env salt sub).Uses (CreateCall sub) := by
  refine Uses.bind (uses_request (.putHash _)) fun _ => ?_
  refine Uses.bind (uses_request .putRecord) fun _ => ?_
  refine Uses.bind (uses_ensureStream .streamInfo .addStream .updateStream) fun _ => ?_
  refine Uses.bind (uses_ensureConsumer .consumerInfo .addConsumer) fun _ => ?_
  cases hp : sub.requestPrefill with
  | false => trivial
  | true => exact Uses.bind (uses_addMessage (.publish hp)) fun _ => trivial

/-- With a record, a registration only reads. -/
theorem uses_registerAgain (env : Env) (sub : NewSubscription) (existingSub : Subscription) :
    (registerAgain env sub existingSub).Uses (· = .kvGet .credentials sub.name) := by
  refine Uses.bind (uses_isSubscriptionsMatching rfl) ?_
  intro found
  cases found <;> trivial

/-! ## Deleting and authenticating -/

/-- The calls of a deletion: it reads the record, and if there is one drops hash and record
before stream and consumer. -/
inductive DeleteCall (name : String) : Op → Prop where
  | get : DeleteCall name (.kvGet .subscriptions name)
  | dropHash : DeleteCall name (.kvDelete .credentials name)
  | dropRecord : DeleteCall name (.kvDelete .subscriptions name)
  | deleteStream : DeleteCall name (.deleteStream (streamKey name))
  | deleteConsumer : DeleteCall name (.deleteConsumer (streamKey name) (durableKey name))

/-- The call deletes the record of `name`. -/
def deletesRecord (name : String) : Op → Bool
  | .kvDelete .subscriptions key => key == name
  | _ => false

theorem uses_deleteSubscription (name : String) :
    (deleteSubscription name).Uses (DeleteCall name) := by
  apply Uses.bind (uses_getValue .get)
  intro found
  cases found with
  | none => trivial
  | some sub =>
    refine Uses.bind (uses_request .dropHash) fun _ => ?_
    refine Uses.bind (uses_request .dropRecord) fun _ => ?_
    refine Uses.bind (uses_deleteStream .deleteStream) fun _ => ?_
    exact uses_deleteConsumer .deleteConsumer

/-- The calls of an authentication. It writes in one case: the library asks for a new hash, and
then the new hash is put under the same name. It never touches a record or a stream. -/
inductive AuthCall (username : String) : Op → Prop where
  | get : AuthCall username (.kvGet .credentials username)
  | verify (salt password : String) (hash subscription : Option String) :
      AuthCall username (.verifyCached salt password hash subscription)
  | pop (password : String) (hash subscription : Option String) :
      AuthCall username (.cachePop password hash subscription)
  | putHash (hash : String) : AuthCall username (.kvPut .credentials username hash)

theorem uses_authenticateUser (salt : String) (credentials : HTTPBasicCredentials)
    (subscriptionName : Option String) :
    (authenticateUser salt credentials subscriptionName).Uses (AuthCall credentials.username) := by
  unfold authenticateUser
  split
  · trivial
  · apply Uses.bind (uses_getValue .get)
    intro hashed
    apply Uses.bind (uses_request (.verify ..))
    intro r
    obtain ⟨valid, newHash⟩ := r
    cases valid with
    | false => exact Uses.bind (uses_request (.pop ..)) fun _ => trivial
    | true =>
      cases newHash with
      | none => trivial
      | some newHash =>
        by_cases hne : newHash = ""
        · simp [hne]
        · simp only [bne_iff_ne, ne_eq, hne, not_false_eq_true, if_true]
          exact uses_putValue (.putHash _) fun h => absurd (beq_iff_eq.mp h) hne

/-- The calls of the route: those of the authentication, and then those of the deletion. The two
names are different arguments: the administrator deletes for anybody. -/
inductive DeleteRouteCall (name username : String) : Op → Prop where
  | auth {op : Op} (h : AuthCall username op) : DeleteRouteCall name username op
  | delete {op : Op} (h : DeleteCall name op) : DeleteRouteCall name username op

theorem Uses.orNotFound {p : Coro Unit} (h : p.Uses P) : (orNotFound p).Uses P :=
  Uses.tryCatch h fun e => by cases e <;> trivial

theorem uses_deleteSubscriptionRoute (settings : AppSettings) (salt : String)
    (credentials : HTTPBasicCredentials) (name : String) :
    (deleteSubscriptionRoute settings salt credentials name).Uses
      (DeleteRouteCall name credentials.username) := by
  have hdelete : ((orNotFound (deleteSubscription name)).bind fun _ => Prog.pure 200).Uses
      (DeleteRouteCall name credentials.username) :=
    Uses.bind (Uses.orNotFound ((uses_deleteSubscription name).mono fun _ => .delete))
      fun _ => trivial
  unfold deleteSubscriptionRoute
  split
  · exact Uses.bind ((uses_authenticateUser ..).mono fun _ => .auth) fun _ => hdelete
  · exact hdelete

/-! ## The prefill status -/

/-! The status is reported in three layers, the adapter of the prefill service, the router of the
API, and the service that reads and writes the record, and two of them deal with the name: the
adapter pastes it into an address, and the router takes one out of it again. `TakenFor name other`
says that the report about `name` reaches the record `other`. **There is at most one such record,
and for some names there is none**; then the report raises before any call. -/

/-- The calls of a status update: a read, and the record written back with the new status. The
record written is any, because another job may have written between the two. -/
inductive StatusCall (name : String) (status : FillQueueStatus) : Op → Prop where
  | get : StatusCall name status (.kvGet .subscriptions name)
  | put (sub : Subscription) :
      StatusCall name status
        (.kvPut .subscriptions name { sub with prefillQueueStatus := status })

theorem uses_setSubscriptionQueueStatus (name : String) (status : FillQueueStatus) :
    (setSubscriptionQueueStatus name status).Uses (StatusCall name status) := by
  apply Uses.bind (uses_getValue .get)
  intro found
  cases found with
  | none => trivial
  | some sub => exact uses_putValue (.put sub) fun h => nomatch h

theorem Uses.internalRequest {p : Coro Nat} (h : p.Uses P) : (internalRequest p).Uses P := by
  refine Uses.bind (Uses.tryCatch h fun e => trivial) ?_
  intro code
  split <;> trivial

/-- A report is handled for the record it reaches; one that reaches none raises. -/
theorem updateSubscriptionQueueStatus_cases (env : Env) (name : String)
    (status : FillQueueStatus) :
    (∃ other, TakenFor name other ∧ updateSubscriptionQueueStatus env name status =
      internalRequest (updateSubscriptionPrefillStatus other status)) ∨
    (∀ other, ¬ TakenFor name other) ∧ ∃ code,
      updateSubscriptionQueueStatus env name status = .throw (.clientResponse code) := by
  unfold updateSubscriptionQueueStatus InternalAPIAdapter.updateSubscriptionQueueStatus
  cases hreceive :
      receive env.deployment.app (env.deployment.adapter.statusRequest name status) with
  | ok report =>
    obtain ⟨other, status'⟩ := report
    obtain ⟨htaken, rfl⟩ := receive_ok_iff.mp hreceive
    exact Or.inl ⟨other, htaken, rfl⟩
  | error code =>
    right
    constructor
    · intro other htaken
      rw [receive_ok_iff.mpr ⟨htaken, rfl⟩] at hreceive
      cases hreceive
    · exact ⟨code, if_pos (receive_error hreceive)⟩

theorem updateSubscriptionQueueStatus_eq (env : Env) {name other : String}
    (h : TakenFor name other) (status : FillQueueStatus) :
    updateSubscriptionQueueStatus env name status =
      internalRequest (updateSubscriptionPrefillStatus other status) := by
  rcases updateSubscriptionQueueStatus_cases env name status with ⟨other', h', heq⟩ | ⟨hnone, -⟩
  · rw [heq, h.unique h']
  · exact absurd h (hnone other)

/-- A report makes the calls of a status update of the record it reaches, and no others. -/
theorem uses_updateSubscriptionQueueStatus (name : String) (status : FillQueueStatus) :
    (updateSubscriptionQueueStatus env name status).Uses fun op =>
      ∃ other, TakenFor name other ∧ StatusCall other status op := by
  rcases updateSubscriptionQueueStatus_cases env name status with
    ⟨other, htaken, heq⟩ | ⟨-, code, heq⟩
  · rw [heq]
    refine Uses.mono (P := StatusCall other status) ?_ fun op hop => ⟨other, htaken, hop⟩
    exact Uses.internalRequest (Uses.bind
      (Uses.orNotFound (uses_setSubscriptionQueueStatus other status)) fun _ => trivial)
  · rw [heq]
    trivial

/-! ## The prefill service -/

/-- The calls that fill the queue of a subscription. The status is reported by an address, so the
record that it goes to need not be the one of `name`. -/
inductive FillCall (name : String) : Op → Prop where
  | purge : FillCall name (.purgeStream (streamKey name) (prefillSubject name))
  | status {op : Op} {other : String} (status : FillQueueStatus) (htaken : TakenFor name other)
      (h : StatusCall other status op) : FillCall name op
  | types : FillCall name .getObjectTypes
  | list (objectType : String) : FillCall name (.listObjects objectType)
  | object (url : String) : FillCall name (.getObject url)
  | publish (m : Message) :
      FillCall name (.publish (prefillSubject name) (.message m) (streamKey name))

/-- The calls `handlePrefill` makes for one request. -/
inductive HandleCall (name : String) : Op → Prop where
  | purge : HandleCall name (.purgeStream (streamKey name) (prefillSubject name))
  | status {op : Op} {other : String} (status : FillQueueStatus) (htaken : TakenFor name other)
      (h : StatusCall other status op) : HandleCall name op
  | types : HandleCall name .getObjectTypes
  | list (objectType : String) : HandleCall name (.listObjects objectType)
  | object (url : String) : HandleCall name (.getObject url)
  | publish (m : Message) :
      HandleCall name (.publish (prefillSubject name) (.message m) (streamKey name))
  | failure (m : PrefillMessage) :
      HandleCall name
        (.publish PREFILL_FAILURES_STREAM (.simple .udmPreFill m)
          (streamKey PREFILL_FAILURES_STREAM))

/-- The calls of a round of the prefill service. The request decides the name, so `handle` leaves
it open. -/
inductive PrefillCall : Op → Prop where
  | fetch : PrefillCall (.fetch (streamKey PREFILL_STREAM) (durableKey PREFILL_STREAM))
  | ack (msg : Msg) : PrefillCall (.ack msg)
  | nak (msg : Msg) : PrefillCall (.nak msg)
  | handle {op : Op} (name : String) (h : HandleCall name op) : PrefillCall op

theorem FillCall.handle {name : String} {op : Op} (h : FillCall name op) : HandleCall name op := by
  cases h with
  | purge => exact .purge
  | status status htaken h => exact .status status htaken h
  | types => exact .types
  | list objectType => exact .list objectType
  | object url => exact .object url
  | publish m => exact .publish m

theorem uses_fillUdmTopic (objectType name : String) :
    (fillUdmTopic objectType name).Uses (FillCall name) := by
  apply Uses.bind (uses_request (.list objectType))
  intro urls
  apply Uses.forEach
  intro url _
  apply Uses.bind (uses_request (.object url))
  intro obj
  exact uses_addMessage (.publish _)

theorem uses_fetchUdm (name topic : String) :
    (fetchUdm env name topic).Uses (FillCall name) := by
  apply Uses.bind (uses_request .types)
  intro udmModules
  cases matchingTypes env topic udmModules with
  | error e => trivial
  | ok udmMatch => exact Uses.forEach fun t _ => uses_fillUdmTopic t name

theorem uses_fillQueue (message : PrefillMessage) :
    (fillQueue env message).Uses (FillCall message.subscriptionName) := by
  refine Uses.bind (uses_request .purge) fun _ => Uses.forEach ?_
  intro realmTopic _
  split
  · refine Uses.bind (Uses.mono (uses_updateSubscriptionQueueStatus ..) ?_) fun _ => ?_
    · intro op hop
      obtain ⟨other, htaken, hop⟩ := hop
      exact .status _ htaken hop
    · exact uses_fetchUdm ..
  · trivial

theorem uses_handlePrefill (message : Msg) :
    (handlePrefill env message).Uses fun op => ∃ m : PrefillMessage,
      message.payload = .prefill m ∧ HandleCall m.subscriptionName op := by
  unfold handlePrefill validatedPrefill
  cases hm : message.payload with
  | message _ => trivial
  | simple _ _ => trivial
  | prefill m =>
    refine Uses.mono (P := HandleCall m.subscriptionName) ?_ fun op h => ⟨m, rfl, h⟩
    simp only [pure_eq, bind_eq, bind_pure]
    have hstatus : ∀ status, (updateSubscriptionQueueStatus env m.subscriptionName status).Uses
        (HandleCall m.subscriptionName) := fun status =>
      (uses_updateSubscriptionQueueStatus ..).mono fun op ⟨other, htaken, hop⟩ =>
        .status status htaken hop
    split
    · exact Uses.bind (uses_addMessage (.failure m)) fun _ => hstatus .failed
    · refine Uses.bind ((uses_fillQueue m).mono fun _ => FillCall.handle) fun _ => hstatus .done

/-- A round fetches, handles, and settles what it fetched. Whichever way the handling ends, the
calls of both settlements are in the predicate. -/
theorem uses_prefillOnce : (prefillOnce env).Uses PrefillCall := by
  apply Uses.bind (uses_getOneMessage .fetch)
  intro found
  cases found with
  | none => trivial
  | some message =>
    refine Uses.bind (Uses.tryCatch ?_ fun e => ?_) fun _ => uses_request (.ack message)
    · exact (uses_handlePrefill message).mono fun op ⟨m, _, h⟩ => .handle _ h
    · exact Uses.bind (uses_request (.nak message)) fun _ => trivial

/-! ## The dispatcher -/

/-- The calls of a round of the dispatcher: among all of them the only ones that publish to the
queue of a subscription, and always to its main subject. -/
inductive DispatchCall : Op → Prop where
  | fetch : DispatchCall (.fetch (streamKey DISPATCHER_STREAM) (durableKey DISPATCHER_STREAM))
  | mapping : DispatchCall .mappingGet
  | publish (name : String) (m : Message) :
      DispatchCall (.publish (mainSubject name) (.message m) (streamKey name))
  | ack (msg : Msg) : DispatchCall (.ack msg)

theorem uses_handleEvent (message : Msg) : (handleEvent message).Uses DispatchCall := by
  unfold handleEvent validatedMessage
  cases message.payload with
  | prefill _ => trivial
  | simple _ _ => trivial
  | message m =>
    simp only [pure_eq, bind_eq, bind_pure]
    apply Uses.bind (uses_request .mapping)
    intro mapping
    refine Uses.bind (Uses.forEach fun sub _ => ?_) fun _ => uses_request (.ack message)
    exact uses_addMessage (.publish sub.name m)

theorem uses_dispatchOnce : dispatchOnce.Uses DispatchCall := by
  apply Uses.bind (uses_getOneMessage .fetch)
  intro found
  cases found with
  | none => trivial
  | some message => exact uses_handleEvent message

/-- The calls of a rebuilding of the mapping: a scan of the records, and one writing at the end.
The mapping that is written is any, since the records may change during the scan. -/
inductive MappingCall : Op → Prop where
  | keys : MappingCall (.kvKeys .subscriptions)
  | get (name : String) : MappingCall (.kvGet .subscriptions name)
  | set (mapping : Mapping) : MappingCall (.mappingSet mapping)

theorem uses_updateSubscriptionsMapping : updateSubscriptionsMapping.Uses MappingCall := by
  refine Uses.bind (Uses.bind (uses_request .keys) fun keys => ?_) fun subs =>
    uses_request (.set _)
  -- one reading for each key that was listed, so the induction is on the list
  induction keys with
  | nil => trivial
  | cons key keys ih =>
    exact Uses.bind (uses_request (.get key)) fun _ => Uses.bind ih fun _ => trivial

/-- The calls of the dispatcher before its first round. -/
inductive DispatcherStartCall : Op → Prop where
  | streamInfo : DispatcherStartCall (.streamInfo (streamKey DISPATCHER_STREAM))
  | addStream : DispatcherStartCall
      (.addStream ⟨streamKey DISPATCHER_STREAM, [DISPATCHER_STREAM], true⟩)
  | updateStream : DispatcherStartCall
      (.updateStream ⟨streamKey DISPATCHER_STREAM, [DISPATCHER_STREAM], true⟩)
  | consumerInfo : DispatcherStartCall
      (.consumerInfo (streamKey DISPATCHER_STREAM) (durableKey DISPATCHER_STREAM))
  | addConsumer : DispatcherStartCall
      (.addConsumer (streamKey DISPATCHER_STREAM) (durableKey DISPATCHER_STREAM))
  | mapping {op : Op} (h : MappingCall op) : DispatcherStartCall op

theorem uses_startDispatcher : startDispatcher.Uses DispatcherStartCall := by
  refine Uses.bind (uses_ensureStream .streamInfo .addStream .updateStream) fun _ => ?_
  refine Uses.bind (uses_ensureConsumer .consumerInfo .addConsumer) fun _ => ?_
  exact uses_updateSubscriptionsMapping.mono fun _ => .mapping

/-! ## The consumer -/

/-- The calls that hand out one message of the queue of `name`. -/
inductive GetMessageCall (name : String) : Op → Prop where
  | streamInfo : GetMessageCall name (.streamInfo (streamKey name))
  | consumerInfo : GetMessageCall name (.consumerInfo (streamKey name) (durableKey name))
  | subscribe (subject : String) :
      GetMessageCall name (.pullSubscribe subject (durableKey name) (streamKey name))
  | fetch : GetMessageCall name (.fetch (streamKey name) (durableKey name))
  | ack (msg : Msg) : GetMessageCall name (.ack msg)

/-- Without `pop` there is no acknowledgement among the calls. -/
theorem uses_getMessage_of (name subject : String) {pop : Bool}
    (h : ∀ op, GetMessageCall name op → (pop = false → ∀ msg, op ≠ .ack msg) → P op) :
    (getMessage name subject pop).Uses P := by
  refine Uses.bind (Uses.catching (Uses.bind (uses_request (h _ .streamInfo fun _ => nofun))
    fun _ => trivial) trivial) fun found => ?_
  cases found with
  | false => trivial
  | true =>
    refine Uses.bind (uses_request (h _ .consumerInfo fun _ => nofun)) fun _ => ?_
    refine Uses.bind (uses_request (h _ (.subscribe subject) fun _ => nofun)) fun _ => ?_
    refine Uses.bind (Uses.catching (Uses.bind (uses_request (h _ .fetch fun _ => nofun))
      fun _ => trivial) trivial) fun msg? => ?_
    cases msg? with
    | none => trivial
    | some msg =>
      have hreturn : ((provisioningMessageFrom msg).bind fun m => Prog.pure (some m)).Uses P :=
        Uses.bind (uses_provisioningMessageFrom msg) fun _ => trivial
      cases pop with
      | false => exact hreturn
      | true => exact Uses.bind (uses_request (h _ (.ack msg) nofun)) fun _ => hreturn

/-- The calls of a request for the next message: first the flag in memory, then the status of the
record until it is done, then the message. -/
inductive NextCall (name : String) : Op → Prop where
  | flagGet : NextCall name (.prefillDoneGet name)
  | flagSet : NextCall name (.prefillDoneSet name)
  | status : NextCall name (.kvGet .subscriptions name)
  | message {op : Op} (h : GetMessageCall name op) : NextCall name op

/-- The status is read once for each round of waiting, and nothing else. -/
theorem uses_checkSubscriptionStatus (name : String) (h : P (.kvGet .subscriptions name)) :
    ∀ rounds, (checkSubscriptionStatus name rounds).Uses P := by
  have hstatus : (getSubscriptionQueueStatus name).Uses P :=
    Uses.bind (uses_getValue h) fun found => by cases found <;> trivial
  intro rounds
  induction rounds with
  | zero => exact hstatus
  | succ rounds ih =>
    apply Uses.bind hstatus
    intro status
    split
    · trivial
    · exact ih

theorem uses_getNextMessage_of (name : String) (rounds : Nat) {pop : Bool}
    (h : ∀ op, NextCall name op → (pop = false → ∀ msg, op ≠ .ack msg) → P op) :
    (getNextMessage name rounds pop).Uses P := by
  have hmessage : ∀ subject, (getMessage name subject pop).Uses P := fun subject =>
    uses_getMessage_of name subject fun op hop hack => h op (.message hop) hack
  apply Uses.bind (uses_request (h _ .flagGet fun _ => nofun))
  intro flag
  cases flag with
  | true => exact hmessage _
  | false =>
    refine Uses.bind (uses_checkSubscriptionStatus name (h _ .status fun _ => nofun) rounds)
      fun status => ?_
    split
    · trivial
    · apply Uses.bind (hmessage _)
      intro message
      cases message with
      | none => exact Uses.bind (uses_request (h _ .flagSet fun _ => nofun)) fun _ => trivial
      | some m => trivial

theorem uses_getNextMessage (name : String) (rounds : Nat) (pop : Bool) :
    (getNextMessage name rounds pop).Uses (NextCall name) :=
  uses_getNextMessage_of name rounds fun _ h _ => h

/-- The calls of a report about a message: it is looked up before it is deleted. -/
inductive PostCall (name : String) (seqNum : Nat) : Op → Prop where
  | get : PostCall name seqNum (.getMsg (streamKey name) seqNum)
  | delete : PostCall name seqNum (.deleteMsg (streamKey name) seqNum)

theorem uses_updateMessageStatus (name : String) (seqNum : Nat)
    (status : MessageProcessingStatus) :
    (updateMessageStatus name seqNum status).Uses (PostCall name seqNum) := by
  refine Uses.bind (Uses.orNotFound ?_) fun _ => trivial
  exact Uses.catching (Uses.bind (uses_request .get) fun _ => uses_request .delete) trivial

/-! ## The transformer -/

/-- The calls of a round of the transformer. It writes to its own cache and to the stream of the
dispatcher, and to no record of a subscription. -/
inductive TransformerCall : Op → Prop where
  | fetch : TransformerCall (.fetch (streamKey LDAP_STREAM) (durableKey LDAP_STREAM))
  | get (key : String) : TransformerCall (.kvGet .cache key)
  | put (key : String) (obj : Obj) : TransformerCall (.kvPut .cache key obj)
  | publish (m : Message) :
      TransformerCall (.publish DISPATCHER_STREAM (.message m) (streamKey DISPATCHER_STREAM))
  | ack (msg : Msg) : TransformerCall (.ack msg)
  | nak (msg : Msg) : TransformerCall (.nak msg)

theorem uses_ofExcept {x : Except Exc α} : (ofExcept x).Uses P := by
  cases x <;> trivial

theorem uses_createNewMessage {m : Message}
    (h : P (.publish DISPATCHER_STREAM (.message m) (streamKey DISPATCHER_STREAM))) :
    (createNewMessage m).Uses P :=
  Uses.bind (uses_addMessage h) fun _ => trivial

/-- An event is in the realm of the directory and carries the two objects it was called with. -/
theorem uses_sendEvent_realm {new : Option Obj} {old : Obj}
    (h : ∀ m : Message, m.realm = "udm" → m.body = ⟨old, orEmpty new⟩ →
      P (.publish DISPATCHER_STREAM (.message m) (streamKey DISPATCHER_STREAM))) :
    (sendEvent env new old).Uses P := by
  unfold sendEvent
  split
  · trivial
  · dsimp only
    generalize (if (orEmpty new).truthy then (orEmpty new).get "objectType"
      else old.get "objectType") = objectType
    split
    · split <;> trivial
    · cases objectType with
      | none => trivial
      | some value =>
        cases value with
        | str topic => exact Uses.internalRequest (uses_createNewMessage (h _ rfl rfl))
        | bytes _ => trivial
        | other _ => trivial

theorem uses_sendEvent {new : Option Obj} {old : Obj}
    (h : ∀ m : Message, m.body = ⟨old, orEmpty new⟩ →
      P (.publish DISPATCHER_STREAM (.message m) (streamKey DISPATCHER_STREAM))) :
    (sendEvent env new old).Uses P := uses_sendEvent_realm fun m _ => h m

theorem uses_store (obj : Obj) : (store obj).Uses TransformerCall := by
  unfold store
  split
  · exact uses_putValue (.put _ _) fun h => nomatch h
  · trivial

theorem uses_handleChanges (new old : Obj) :
    (handleChanges env new old).Uses TransformerCall := by
  have hnew : ∀ old, (do
      let new ← if new.truthy then do
          let new ← ofExcept (ldapToUdm env new)
          if (orEmpty new).truthy then store (orEmpty new)
          Pure.pure new
        else Pure.pure (some [])
      sendEvent env new old : Coro Unit).Uses TransformerCall := by
    intro old
    split
    · apply Uses.bind uses_ofExcept
      intro new
      split
      · exact Uses.bind (uses_store _) fun _ => uses_sendEvent fun m _ => .publish m
      · exact uses_sendEvent fun m _ => .publish m
    · exact uses_sendEvent fun m _ => .publish m
  have hread : ∀ uuid, (retrieve uuid).Uses TransformerCall := fun uuid =>
    Uses.bind (uses_getValue (.get uuid)) fun _ => trivial
  unfold handleChanges
  cases old.truthy with
  | false => exact hnew []
  | true => exact Uses.bind uses_ofExcept fun uuid => Uses.bind (hread uuid) fun old => hnew old

/-- The calls of a round that has received this message. -/
theorem uses_transformEvent_message {message : Msg} (hget : ∀ key, P (.kvGet .cache key))
    (hput : ∀ key obj, P (.kvPut .cache key obj))
    (hpublish : ∀ m : Message, m.realm = "udm" →
      P (.publish DISPATCHER_STREAM (.message m) (streamKey DISPATCHER_STREAM)))
    (hack : P (.ack message)) (hnak : P (.nak message)) :
    (transformEvent env message).Uses P := by
  have hsend : ∀ (new : Option Obj) old, (sendEvent env new old).Uses P :=
    fun new old => uses_sendEvent_realm fun m hrealm _ => hpublish m hrealm
  have hstore : ∀ obj, (store obj).Uses P := by
    intro obj
    unfold store
    split
    · exact uses_putValue (hput _ _) nofun
    · trivial
  have hnew : ∀ new old, (do
      let new ← if new.truthy then do
          let new ← ofExcept (ldapToUdm env new)
          if (orEmpty new).truthy then store (orEmpty new)
          Pure.pure new
        else Pure.pure (some [])
      sendEvent env new old : Coro Unit).Uses P := by
    intro new old
    split
    · apply Uses.bind uses_ofExcept
      intro new
      split
      · exact Uses.bind (hstore _) fun _ => hsend _ _
      · exact hsend _ _
    · exact hsend _ _
  have hhandle : ∀ new old, (handleChanges env new old).Uses P := by
    intro new old
    unfold handleChanges
    cases old.truthy with
    | false => exact hnew new []
    | true =>
      refine Uses.bind uses_ofExcept fun uuid => Uses.bind ?_ fun old => hnew new old
      exact Uses.bind (uses_getValue (hget uuid)) fun _ => trivial
  unfold transformEvent
  cases message.payload with
  | prefill _ => trivial
  | simple _ _ => trivial
  | message m =>
    refine Uses.bind (Uses.tryCatch (hhandle _ _) fun e => ?_) fun _ => uses_request hack
    exact Uses.bind (uses_request hnak) fun _ => trivial

theorem uses_transformOnce : (transformOnce env).Uses TransformerCall := by
  apply Uses.bind (uses_getOneMessage .fetch)
  intro found
  cases found with
  | none => trivial
  | some message =>
    show (transformEvent env message).Uses TransformerCall
    unfold transformEvent
    cases message.payload with
    | prefill _ => trivial
    | simple _ _ => trivial
    | message m =>
      refine Uses.bind (Uses.tryCatch (uses_handleChanges _ _) fun e => ?_) fun _ =>
        uses_request (.ack message)
      exact Uses.bind (uses_request (.nak message)) fun _ => trivial

/-! ## All jobs -/

/-- The calls that prepare one of the two queues of the prefill service. -/
inductive PrepareCall (queue : String) : Op → Prop where
  | streamInfo : PrepareCall queue (.streamInfo (streamKey queue))
  | addStream : PrepareCall queue (.addStream ⟨streamKey queue, [queue], true⟩)
  | updateStream : PrepareCall queue (.updateStream ⟨streamKey queue, [queue], true⟩)
  | consumerInfo : PrepareCall queue (.consumerInfo (streamKey queue) (durableKey queue))
  | addConsumer : PrepareCall queue (.addConsumer (streamKey queue) (durableKey queue))

theorem uses_prepareQueues : prepareQueues.Uses fun op =>
    PrepareCall PREFILL_FAILURES_STREAM op ∨ PrepareCall PREFILL_STREAM op := by
  have hqueue : ∀ queue, (ensureStream queue false [queue]).Uses (PrepareCall queue) ∧
      (ensureConsumer queue).Uses (PrepareCall queue) := fun queue =>
    ⟨uses_ensureStream .streamInfo .addStream .updateStream,
      uses_ensureConsumer .consumerInfo .addConsumer⟩
  refine Uses.bind ((hqueue _).1.mono fun _ => Or.inl) fun _ => ?_
  refine Uses.bind ((hqueue _).2.mono fun _ => Or.inl) fun _ => ?_
  exact Uses.bind ((hqueue _).1.mono fun _ => Or.inr) fun _ => (hqueue _).2.mono fun _ => Or.inr

/-- The calls of a job. -/
def JobCall : Job → Op → Prop
  | .create _ sub => CreateCall sub
  | .delete _ _ credentials name => DeleteRouteCall name credentials.username
  | .deleteService name => DeleteCall name
  | .setStatus name status => StatusCall name status
  | .authenticate _ credentials _ => AuthCall credentials.username
  | .getNext name _ _ => NextCall name
  | .postStatus name seqNum _ => PostCall name seqNum
  | .postEvent message =>
    (· = .publish DISPATCHER_STREAM (.message message) (streamKey DISPATCHER_STREAM))
  | .prefill => PrefillCall
  | .dispatch => DispatchCall
  | .updateMapping => MappingCall
  | .dispatcherStart => DispatcherStartCall
  | .prefillStart => fun op =>
    PrepareCall PREFILL_FAILURES_STREAM op ∨ PrepareCall PREFILL_STREAM op
  | .transform => TransformerCall
  | .ackWaitExpires stream durable => (· = .ackWaitExpires stream durable)
  | .passwordCacheExpires password hash subscription =>
    (· = .cachePop password hash subscription)
  | .idle => fun _ => False

/-- **What a job calls**, whichever it is. -/
theorem uses_program (env : Env) (job : Job) : (job.program env).Uses (JobCall job) := by
  cases job with
  | create salt sub => exact Uses.bind (uses_createSubscription env salt sub) fun _ => trivial
  | delete settings salt credentials name =>
    exact Uses.bind (uses_deleteSubscriptionRoute settings salt credentials name) fun _ => trivial
  | deleteService name => exact Uses.bind (uses_deleteSubscription name) fun _ => trivial
  | setStatus name status =>
    exact Uses.bind (uses_setSubscriptionQueueStatus name status) fun _ => trivial
  | authenticate salt credentials subscriptionName =>
    exact Uses.bind (uses_authenticateUser salt credentials subscriptionName) fun _ => trivial
  | getNext name rounds pop =>
    exact Uses.bind (uses_getNextMessage name rounds pop) fun _ => trivial
  | postStatus name seqNum status =>
    exact Uses.bind (uses_updateMessageStatus name seqNum status) fun _ => trivial
  | postEvent message => exact Uses.bind (uses_createNewMessage rfl) fun _ => trivial
  | prefill => exact Uses.bind uses_prefillOnce fun _ => trivial
  | dispatch => exact Uses.bind uses_dispatchOnce fun _ => trivial
  | updateMapping => exact Uses.bind uses_updateSubscriptionsMapping fun _ => trivial
  | dispatcherStart => exact Uses.bind uses_startDispatcher fun _ => trivial
  | prefillStart => exact Uses.bind uses_prepareQueues fun _ => trivial
  | transform => exact Uses.bind uses_transformOnce fun _ => trivial
  | ackWaitExpires stream durable => exact Uses.bind (uses_request rfl) fun _ => trivial
  | passwordCacheExpires password hash subscription =>
    exact Uses.bind (uses_request rfl) fun _ => trivial
  | idle => trivial

/-! ## What comes before what

`Guarded` of a request followed by the rest: the call itself, and what each answer leads to.
`M` says of an answer that it ends the obligation, `B` which calls must not come before that, and
`R` how the program must not end without it. So "the acknowledgement comes after the publishing"
is `Guarded` with the answers to the publishing as `M` and the acknowledgement as `B`, and each
equation below moves that goal over one request of the code. They are equivalences where that is
possible, so that rewriting with them loses nothing. -/

section Guarded

variable {M : (op : Op) → Except CallError op.Res → Prop} {B : Op → Prop} {β : Type}
  {R : Except Exc β → Prop}

theorem guarded_request {op : Op} {R : Except Exc op.Res → Prop} :
    (request op).Guarded M B R ↔ ¬ B op ∧ (∀ a, ¬ M op (.ok a) → ¬ R (.ok a)) ∧
      ∀ e, ¬ M op (.error e) → ¬ R (.error (.call e)) :=
  and_congr_right fun _ => forall_answer

theorem guarded_request_bind {op : Op} {f : op.Res → Coro β} :
    ((request op).bind f).Guarded M B R ↔ ¬ B op ∧
      (∀ a, ¬ M op (.ok a) → (f a).Guarded M B R) ∧
      ∀ e, ¬ M op (.error e) → ¬ R (.error (.call e)) :=
  and_congr_right fun _ => forall_answer

/-- A call of which one error is dealt with, and any other raised. That is the shape of every
`try` of the adapters, so the three equations after it are instances. -/
theorem guarded_caught {op : Op} {k : Except CallError op.Res → Coro β} {e : CallError}
    (hother : ∀ x, x ≠ e → k (.error x) = .throw (.call x)) :
    (Prog.await op k).Guarded M B R ↔ ¬ B op ∧
      (∀ a, ¬ M op (.ok a) → (k (.ok a)).Guarded M B R) ∧
      (¬ M op (.error e) → (k (.error e)).Guarded M B R) ∧
      ∀ x, x ≠ e → ¬ M op (.error x) → ¬ R (.error (.call x)) := by
  refine and_congr_right fun _ => forall_answer.trans (and_congr_right fun _ => ?_)
  refine ⟨fun h => ⟨h e, fun x hx hm => ?_⟩, fun h x hm => ?_⟩
  · have hthrow := h x hm
    rw [hother x hx] at hthrow
    exact hthrow
  · by_cases hx : x = e
    · subst hx
      exact h.1 hm
    · rw [hother x hx]
      exact h.2 x hx hm

/-- The handler of a caught error is only seen after its continuation is moved inside. -/
theorem catching_request_bind {op : Op} {e : CallError} {handler : Coro op.Res}
    {f : op.Res → Coro β} :
    (catching e (request op) handler).bind f = .await op fun
      | .ok a => f a
      | .error x => if x = e then handler.bind f else .throw (.call x) := by
  refine congrArg (Prog.await op) (funext fun r => ?_)
  cases r with
  | ok a => rfl
  | error x =>
    by_cases hx : x = e
    · simp [hx]
    · simp [hx]

theorem guarded_catching_bind {op : Op} {e : CallError} {handler : Coro op.Res}
    {f : op.Res → Coro β} :
    ((catching e (request op) handler).bind f).Guarded M B R ↔ ¬ B op ∧
      (∀ a, ¬ M op (.ok a) → (f a).Guarded M B R) ∧
      (¬ M op (.error e) → (handler.bind f).Guarded M B R) ∧
      ∀ x, x ≠ e → ¬ M op (.error x) → ¬ R (.error (.call x)) := by
  rw [catching_request_bind, guarded_caught fun x hx => if_neg hx]
  simp only [if_true]

/-- Reading a value is one call; a missing key is not an error. -/
theorem getValue_bind {b : Bucket} {key : String} {f : Option b.Val → Coro β} :
    (getValue key b).bind f = .await (.kvGet b key) fun
      | .ok e => f (some e.value)
      | .error x => if x = .keyNotFound then f none else .throw (.call x) := by
  refine congrArg (Prog.await (Op.kvGet b key)) (funext fun r => ?_)
  cases r with
  | ok e => rfl
  | error x =>
    by_cases hx : x = .keyNotFound
    · simp [hx]
    · simp [hx]

theorem guarded_getValue_bind {b : Bucket} {key : String} {f : Option b.Val → Coro β} :
    ((getValue key b).bind f).Guarded M B R ↔ ¬ B (.kvGet b key) ∧
      (∀ e, ¬ M (.kvGet b key) (.ok e) → (f (some e.value)).Guarded M B R) ∧
      (¬ M (.kvGet b key) (.error .keyNotFound) → (f none).Guarded M B R) ∧
      ∀ x, x ≠ .keyNotFound → ¬ M (.kvGet b key) (.error x) → ¬ R (.error (.call x)) := by
  rw [getValue_bind, guarded_caught fun x hx => if_neg hx]
  simp only [if_true]

/-- `ensureStream`: a look, and then an update or an addition. -/
theorem ensureStream_bind {stream : String} {manualDelete : Bool} {subjects : List String}
    {f : Unit → Coro β} :
    (ensureStream stream manualDelete subjects).bind f = .await (.streamInfo (streamKey stream)) fun
      | .ok _ => (request (.updateStream ⟨streamKey stream, subjects, !manualDelete⟩)).bind f
      | .error x =>
        if x = .notFound then
          (request (.addStream ⟨streamKey stream, subjects, !manualDelete⟩)).bind f
        else .throw (.call x) := by
  unfold ensureStream
  refine congrArg (Prog.await (Op.streamInfo (streamKey stream))) (funext fun r => ?_)
  cases r with
  | ok a => rfl
  | error x =>
    by_cases hx : x = .notFound
    · simp only [hx, if_true]
      refine congrArg (Prog.await (Op.addStream _)) (funext fun r => ?_)
      cases r <;> rfl
    · simp [hx]

theorem guarded_ensureStream_bind {stream : String} {manualDelete : Bool}
    {subjects : List String} {f : Unit → Coro β}
    (hB : ¬ B (.streamInfo (streamKey stream)))
    (hupdate : ((request (.updateStream ⟨streamKey stream, subjects, !manualDelete⟩)).bind
      f).Guarded M B R)
    (hadd : ((request (.addStream ⟨streamKey stream, subjects, !manualDelete⟩)).bind
      f).Guarded M B R)
    (hR : ∀ x, ¬ R (.error (.call x))) :
    ((ensureStream stream manualDelete subjects).bind f).Guarded M B R := by
  rw [ensureStream_bind]
  exact (guarded_caught (e := .notFound) fun x hx => if_neg hx).mpr
    ⟨hB, fun _ _ => hupdate, fun _ => hadd, fun x _ _ => hR x⟩

/-- What `orNotFound` makes of an outcome. -/
def notFoundOutcome : Except Exc Unit → Except Exc Unit
  | .error (.valueError msg) => .error (.httpException 404 msg)
  | x => x

/-- A route turns one exception into an answer, so what must not be an end is asked of the answer
that comes out. -/
theorem guarded_orNotFound {p : Coro Unit} {R : Except Exc Unit → Prop}
    (h : p.Guarded M B fun x => R (notFoundOutcome x)) : (orNotFound p).Guarded M B R := by
  apply Guarded.tryCatch h (fun a ha => ha)
  intro e he
  cases e with
  | valueError msg => exact he
  | _ => exact he

theorem guarded_bind_pure {p : Coro α} {g : α → β}
    (h : p.Guarded M B fun x => R (x.map g)) : (p.bind fun a => .pure (g a)).Guarded M B R :=
  Guarded.bind h (fun _ ha => ha) fun _ he => he

end Guarded

/-! ## Attempts of the routes -/

/-- The request ends with one of these statuses. -/
def answered (codes : List Nat) (r : Except Exc Nat) : Bool := codes.contains (statusOf r)

/-- Reading a value raises nothing that a route turns into an answer. -/
theorem orNotFound_getValue_bind {b : Bucket} {key : String} {f : Option b.Val → Coro Unit} :
    orNotFound ((getValue key b).bind f) = (getValue key b).bind fun v => orNotFound (f v) := by
  rw [getValue_bind, getValue_bind]
  refine congrArg (Prog.await (Op.kvGet b key)) (funext fun r => ?_)
  cases r with
  | ok e => rfl
  | error x =>
    by_cases hx : x = .keyNotFound
    · simp only [hx, if_true]
      rfl
    · simp only [hx, if_false]
      rfl

/-- A read at the start of an attempt: the process dies, the value is read, or the call is lost,
before or after it was served. -/
theorem attempt_getValue {tid : Nat} {w : World} {b : Bucket} {key : String} {β : Type}
    {f : Option b.Val → Coro β} {P : Attempt Op Exc World β → Prop} (plan : List (Fault Outage))
    (die : P ⟨none, w, []⟩)
    (ok : ∀ fs, P (((f ((w.bucket b).value? key)).attempt (serve env) tid fs w).after
      (.kvGet b key) (answer env tid (.kvGet b key) w).1))
    (before : ∀ e : Outage, P ⟨some (.error (.call e.error)), w, []⟩)
    (after : ∀ e : Outage, P ((⟨some (.error (.call e.error)), w, []⟩ :
      Attempt Op Exc World β).after (.kvGet b key) (answer env tid (.kvGet b key) w).1)) :
    P (((getValue key b).bind f).attempt (serve env) tid plan w) := by
  -- a lost call is never mistaken for a missing key
  have hlost : ∀ e : Outage, e.error ≠ .keyNotFound := by
    intro e
    cases e <;> nofun
  rw [getValue_bind]
  refine attempt_await (P := P) plan die (fun fs => ?_) (fun e fs => ?_) fun e fs => ?_
  · have hok := ok fs
    rw [serve_answer, kvGet_world]
    cases hg : (w.bucket b).get? key with
    | some entry =>
      have hans : answer env tid (.kvGet b key) w = (.ok entry, w) := by simp only [answer, hg]
      rw [hans] at hok ⊢
      simpa [Store.Bucket.value?, hg] using hok
    | none =>
      have hans : answer env tid (.kvGet b key) w = (.error .keyNotFound, w) := by
        simp only [answer, hg]
      rw [hans] at hok ⊢
      simpa [Store.Bucket.value?, hg] using hok
  · simpa [hlost e] using before e
  · rw [serve_answer, kvGet_world]
    simpa [hlost e] using after e

/-! ## Runs that nothing happens to

A `Runs` fixes outcome, state and calls of a stretch at once. It is used where the proof follows
one job to its end with every call answered, and composes by `bind` in the order of the code. -/

section Runs

variable {tid : Nat} {w : World}

theorem runs_getValue {b : Bucket} {key : String} {v : b.Val}
    (h : (w.bucket b).value? key = some v) :
    (getValue key b).Runs (serve env) tid w (some v) w [.kvGet b key] := by
  obtain ⟨e, he, rfl⟩ := Bucket.value?_eq_some h
  have hans : (serve env).answer tid (.kvGet b key) w = (.ok e, w) := by
    simp only [serve_answer, answer, he]
  have hread : (getValueWithRevision key b).Runs (serve env) tid w (some (e.value, e.revision)) w
      [.kvGet b key] :=
    ((Runs.call hans).bind (Runs.pure (some (e.value, e.revision)) w)).tryCatch
  exact hread.bind (Runs.pure (some e.value) w)

theorem runs_setSubInfo (name : String) (sub : Subscription) :
    (setSubInfo name sub).Runs (serve env) tid w ()
      (w.setBucket .subscriptions ((w.bucket .subscriptions).put name sub))
      [.kvPut .subscriptions name sub] :=
  Runs.call rfl

/-- An update of the status, where there is a record that it reaches. -/
theorem runs_updateSubscriptionQueueStatus {name other : String} {sub : Subscription}
    (htaken : TakenFor name other) (h : w.record other = some sub) (status : FillQueueStatus) :
    (updateSubscriptionQueueStatus env name status).Runs (serve env) tid w ()
      (w.setBucket .subscriptions
        ((w.bucket .subscriptions).put other { sub with prefillQueueStatus := status }))
      [.kvGet .subscriptions other,
        .kvPut .subscriptions other { sub with prefillQueueStatus := status }] := by
  have hset : (setSubscriptionQueueStatus other status).Runs (serve env) tid w () _ _ :=
    (runs_getValue h).bind (runs_setSubInfo other { sub with prefillQueueStatus := status })
  have hroute : (updateSubscriptionPrefillStatus other status).Runs (serve env) tid w 200 _ _ :=
    hset.tryCatch.bind (Runs.pure 200 _)
  rw [updateSubscriptionQueueStatus_eq env htaken]
  exact hroute.tryCatch.bind (Runs.pure () _)

end Runs

/-! ## What a call that nothing happens to ends with

`finish` computes, where `Runs` has to be given its result. The scan of the records needs that:
its result depends on the whole bucket and is not known before the induction over the keys. -/

section Finish

variable {tid : Nat} {w : World}

theorem finish_request_bind {op : Op} {f : op.Res → Coro β} {r : op.Res} {w' : World}
    (h : answer env tid op w = (.ok r, w')) :
    ((request op).bind f).finish (serve env) tid w = (f r).finish (serve env) tid w' :=
  finish_bind (finish_call h)

theorem finish_getValue_bind {b : Bucket} {key : String} {f : Option b.Val → Coro β} :
    ((getValue key b).bind f).finish (serve env) tid w =
      (f ((w.bucket b).value? key)).finish (serve env) tid w := by
  rw [getValue_bind, finish_await, serve_answer, kvGet_world]
  cases hg : (w.bucket b).get? key with
  | some e => simp [answer, hg, Store.Bucket.value?]
  | none => simp [answer, hg, Store.Bucket.value?]

/-- A scan: one step for each key, none of which changes anything. -/
theorem finish_foldr {γ δ : Type} {step : γ → Coro (List δ) → Coro (List δ)} {value : γ → δ}
    {xs : List γ} (h : ∀ x ∈ xs, ∀ rest ys, rest.finish (serve env) tid w = (.ok ys, w) →
      (step x rest).finish (serve env) tid w = (.ok (value x :: ys), w)) :
    (xs.foldr step (Prog.pure [])).finish (serve env) tid w = (.ok (xs.map value), w) := by
  induction xs with
  | nil => rfl
  | cons x xs ih =>
    exact h x List.mem_cons_self _ _ (ih fun y hy => h y (List.mem_cons_of_mem x hy))

/-- The listing of the service: one record, or `None`, for each name that has a credential. -/
theorem finish_getSubscriptions : getSubscriptions.finish (serve env) tid w =
    (.ok ((w.bucket .credentials).keys.map w.record), w) := by
  have hkeys : answer env tid (.kvKeys .credentials) w =
      (.ok (w.bucket .credentials).keys, w) := rfl
  have hscan : getSubscriptions.finish (serve env) tid w = _ := finish_request_bind hkeys
  rw [hscan]
  apply finish_foldr
  intro name _ rest ys hrest
  have hread : ∀ f : Option Subscription → Coro (List (Option Subscription)),
      ((getSubscriptionInfo name).bind f).finish (serve env) tid w =
        (f (w.record name)).finish (serve env) tid w := fun f => finish_getValue_bind
  rw [bind_eq, hread, bind_eq, finish_bind hrest]
  rfl

end Finish

/-! ## Steps that nothing happens to

The same for a job that stands in a system: the step is its next answer, and the other jobs stand
where they stood. -/

section Steps

variable {c d : System} {j : Nat}

/-- A request that is answered. -/
theorem step_request {op : Op} {f : op.Res → Coro Reply} {a : op.Res} {w' : World}
    (hp : c.prog j = (request op).bind f) (hans : answer env j op c.world = (.ok a, w'))
    (hs : c.step (serve env) (j, .ok) = some d) :
    d.prog j = f a ∧ d.world = w' ∧ ∀ k, k ≠ j → d.prog k = c.prog k := by
  rw [Config.step_of_await (l := (j, .ok)) hp] at hs
  obtain rfl := Option.some.inj hs
  refine ⟨?_, ?_, fun k hk => Config.next_prog_of_ne hk ..⟩
  · rw [Config.next_prog_self, Server.heard_ok, serve_answer, hans]
    rfl
  · rw [Config.next_world, Server.left_ok, serve_answer, hans]

/-- A value that is read. -/
theorem step_getValue {b : Bucket} {key : String} {f : Option b.Val → Coro Reply}
    (hp : c.prog j = (getValue key b).bind f) (hs : c.step (serve env) (j, .ok) = some d) :
    d.prog j = f ((c.world.bucket b).value? key) ∧ d.world = c.world ∧
      ∀ k, k ≠ j → d.prog k = c.prog k := by
  rw [getValue_bind] at hp
  rw [Config.step_of_await (l := (j, .ok)) hp] at hs
  obtain rfl := Option.some.inj hs
  refine ⟨?_, ?_, fun k hk => Config.next_prog_of_ne hk ..⟩
  · rw [Config.next_prog_self, Server.heard_ok, serve_answer]
    cases hg : (c.world.bucket b).get? key with
    | some e => simp [answer, hg, Store.Bucket.value?]
    | none => simp [answer, hg, Store.Bucket.value?]
  · rw [Config.next_world, Server.left_ok, serve_answer, kvGet_world]

end Steps

/-! ## The queue of the prefill service

All subscriptions share this queue, and a request in it says for which subscription it is. A
registration asks, the prefill service takes out, and nobody else has the stream among its calls;
so a request is traced back to the job that published it by `requestQueued_answer`. -/

/-- A request to prefill the queue of `name` that is in the queue. -/
def RequestQueued (w : World) (name : String) (m : Stored Payload) : Prop :=
  ∃ s, w.streams (streamKey PREFILL_STREAM) = some s ∧ m ∈ s.msgs ∧
    ∃ r, m.payload = .prefill r ∧ r.subscriptionName = name

/-- A request in the queue was there before, or is being published. -/
theorem requestQueued_answer {tid : Nat} {op : Op} {w : World} {name : String}
    {m : Stored Payload} (h : RequestQueued (answer env tid op w).2 name m) :
    RequestQueued w name m ∨ ∃ subject r,
      op = .publish subject (.prefill r) (streamKey PREFILL_STREAM) ∧ m.origin = tid ∧
        m.payload = .prefill r ∧ r.subscriptionName = name := by
  obtain ⟨s', hs', hm, r, hpayload, hname⟩ := h
  rcases stream_after hs' with hempty | ⟨s, hs, hmsgs, -⟩
  · rw [hempty] at hm
    cases hm
  · rcases hmsgs m hm with hold | ⟨subject, payload, rfl, rfl⟩
    · exact Or.inl ⟨s, hs, hold, r, hpayload, hname⟩
    · refine Or.inr ⟨subject, r, ?_, rfl, hpayload, hname⟩
      rw [← hpayload]

/-- Registrations take nothing out of the queue. -/
theorem requestQueued_create {tid : Nat} {op : Op} {w : World} {name : String}
    {m : Stored Payload} {sub : NewSubscription} (hop : CreateCall sub op)
    (h : RequestQueued w name m) : RequestQueued (answer env tid op w).2 name m := by
  obtain ⟨s, hs, hm, hr⟩ := h
  rcases create_streams env tid w hop (streamKey PREFILL_STREAM) with hsame | hchange
  · exact ⟨s, by rw [hsame, hs], hm, hr⟩
  · unfold RequestQueued
    rw [hs] at hchange
    generalize (answer env tid op w).2.streams (streamKey PREFILL_STREAM) = after at hchange
    cases hchange with
    | update => exact ⟨_, rfl, hm, hr⟩
    | addConsumer => exact ⟨_, rfl, hm, hr⟩
    | publish => exact ⟨_, rfl, List.mem_append_left _ hm, hr⟩

/-- A request that is published and answered is in the queue. -/
theorem requestQueued_publish {tid : Nat} {w : World} {r : PrefillMessage} {seq : Nat}
    (h : (answer env tid (.publish PREFILL_STREAM (.prefill r) (streamKey PREFILL_STREAM)) w).1 =
      .ok seq) :
    ∃ m, RequestQueued
        (answer env tid (.publish PREFILL_STREAM (.prefill r) (streamKey PREFILL_STREAM)) w).2
        r.subscriptionName m ∧ m.origin = tid ∧ m.payload = .prefill r := by
  cases hs : w.streams (streamKey PREFILL_STREAM) with
  | none =>
    simp only [answer, hs] at h
    cases h
  | some s =>
    simp only [answer, hs] at h ⊢
    split at h
    · next hsub =>
      rw [if_pos hsub]
      exact ⟨_, ⟨_, World.streams_setStream_self .., List.mem_append_right _
        (List.mem_singleton_self _), r, rfl, rfl⟩, rfl, rfl⟩
    · cases h

/-- A request that is handed out is in the queue. -/
theorem requestQueued_fetch {tid : Nat} {w : World} {durable : String} {msg : Msg}
    {r : PrefillMessage}
    (h : (answer env tid (.fetch (streamKey PREFILL_STREAM) durable) w).1 = .ok msg)
    (hpayload : msg.payload = .prefill r) :
    ∃ m, RequestQueued w r.subscriptionName m ∧ m.origin = msg.origin ∧
      m.payload = msg.payload := by
  cases hs : w.streams (streamKey PREFILL_STREAM) with
  | none =>
    simp only [answer, hs] at h
    cases h
  | some s =>
    cases hd : s.durables durable with
    | none =>
      simp only [answer, hs, hd] at h
      cases h
    | some d =>
      cases hm : s.fetch d with
      | none =>
        simp only [answer, hs, hd, hm] at h
        cases h
      | some m =>
        simp only [answer, hs, hd, hm] at h
        obtain rfl := Except.ok.inj h
        have hmem := Stream.mem_of_oldest (Stream.oldest_of_fetch hm)
        exact ⟨m, ⟨s, hs, hmem, r, hpayload, rfl⟩, rfl, rfl⟩

end Provisioning
