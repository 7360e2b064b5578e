import Provisioning.Lib.Attempt
import Provisioning.Lib.Stream
import Provisioning.Model.InternalApi

/-!
# What the services call

Everything the services await is one of the calls below: requests to NATS, requests to the UDM
REST API, and the accesses to the memory of a process that several coroutines share. `answer` is
their meaning, one atomic step each. NATS, UDM and the password library are not part of the
repository; what is said of them here is their documented behaviour and no more.

* A name identifies a stream. A stream that does not exist is `notFound`; publishing to a subject
  which the expected stream does not carry raises.
* `add_stream` and `add_consumer` are idempotent, and a stream of the same name with another
  configuration is refused.
* Deleting a stream deletes its consumers.
* `pull_subscribe` on an existing durable binds to it whatever subject is passed.
* The client writes names into the lines of its protocol as they are. What is documented, and said
  here, is for names without a blank or a line break in them.

A read of process memory is a call of its own because a coroutine resumes some time after the
server has answered it: between the two, others run.
-/

namespace Provisioning

open Await Store

/-- What a call can be answered with when it fails. -/
inductive CallError where
  | keyNotFound
  | notFound
  | badRequest
  | noStream
  | timeout
  | connection
  /-- `PasswordValueError`: the password library does not take the password. It is a `ValueError`,
  but raised outside every `except ValueError`. -/
  | passwordValue
deriving DecidableEq, Repr

/-- The exceptions the code distinguishes, and a few it does not. -/
inductive Exc where
  | call (e : CallError)
  | valueError (msg : String)
  | validationError
  | keyError (key : String)
  | indexError
  | attributeError
  | httpException (status : Nat) (detail : String)
  /-- `aiohttp.ClientResponseError`: an internal request was answered with an error status. -/
  | clientResponse (status : Nat)
  | reError
  /-- `ModuleNotFound` of the transformer. -/
  | moduleNotFound
  /-- Any exception out of the UDM libraries. -/
  | udm
deriving DecidableEq, Repr

/-- How a call gets lost: no answer in time, or no connection. -/
inductive Outage where
  | timeout
  | connection
deriving DecidableEq, Repr

def Outage.error : Outage → CallError
  | .timeout => .timeout
  | .connection => .connection

/-- The libraries and services the code relies on. -/
structure Env where
  /-- The passwords for which `hash` and `verify` raise. -/
  refuses : String → Bool
  /-- `password_context.hash`, given the salt it draws. -/
  hash : String → String → String
  /-- `password_context.verify` of a hash that is there. -/
  verify : String → String → Bool
  /-- The scheme of the hash is deprecated, or its parameters are. -/
  needsUpdate : String → String → Bool
  verify_refused : ∀ pw hashed, refuses pw = true → verify pw hashed = false
  verify_hash : ∀ salt pw, refuses pw = false → verify pw (hash salt pw) = true
  hash_ne_empty : ∀ salt pw, hash salt pw ≠ ""
  /-- `re.fullmatch(pattern, text) is not None`; `none` when the pattern does not compile. -/
  fullmatch : String → String → Option Bool
  /-- The names of the UDM object types, in the order the UDM REST API lists them. -/
  objectTypes : List String
  listObjects : String → List String
  getObject : String → Obj
  maxPrefillAttempts : Int
  ldapPublisherName : PublisherName
  /-- The UDM libraries have a module for the object type. -/
  hasModule : String → Bool
  /-- What the UDM libraries make of an LDAP entry: open the object and represent it. -/
  representation : String → Obj → Except Exc Obj
  /-- The settings of the prefill service and of the API it reports to. -/
  deployment : Deployment

/-- `password_context.hash(secret)`. -/
def Env.hashPassword (env : Env) (salt password : String) : Except Exc String :=
  if env.refuses password then .error (.call .passwordValue) else .ok (env.hash salt password)

/-- A verification raises only if there is a hash: without one the password is not looked at. -/
def Env.raises (env : Env) (password : String) (hashed : Option String) : Bool :=
  hashed.isSome && env.refuses password

/-- `password_context.verify(secret, hash)`; a missing hash verifies nothing. -/
def Env.verifyPassword (env : Env) (password : String) : Option String → Bool
  | some hashed => env.verify password hashed
  | none => false

/-- `password_context.verify_and_update(secret, hash)`, given the salt a new hash draws. -/
def Env.verifyAndUpdate (env : Env) (salt password : String) :
    Option String → Bool × Option String
  | none => (false, none)
  | some hashed =>
    if !env.verify password hashed then (false, none)
    else if env.needsUpdate hashed password then (true, some (env.hash salt password))
    else (true, none)

structure StreamConfig where
  name : String
  subjects : List String
  workQueue : Bool
deriving DecidableEq, Repr

/-- A message as NATS delivers it; `streamSeq` is the stream sequence of its reply subject. -/
structure Msg where
  stream : String
  durable : String
  subject : String
  payload : Payload
  streamSeq : Nat
  numDelivered : Nat
  /-- Who published the message. No program reads it. -/
  origin : Nat

/-- `{realm: {topic: {Subscription, ..}}}`; dictionaries in insertion order. -/
abbrev Mapping : Type := List (String × List (String × List Subscription))

inductive Op where
  | kvGet (b : Bucket) (key : String)
  | kvPut (b : Bucket) (key : String) (value : b.Val)
  | kvDelete (b : Bucket) (key : String)
  | kvKeys (b : Bucket)
  | streamInfo (stream : String)
  | addStream (config : StreamConfig)
  | updateStream (config : StreamConfig)
  | deleteStream (stream : String)
  | consumerInfo (stream durable : String)
  | addConsumer (stream durable : String)
  | deleteConsumer (stream durable : String)
  | publish (subject : String) (payload : Payload) (stream : String)
  | pullSubscribe (subject durable stream : String)
  | fetch (stream durable : String)
  | ack (msg : Msg)
  | nak (msg : Msg)
  | getMsg (stream : String) (seq : Nat)
  | deleteMsg (stream : String) (seq : Nat)
  | purgeStream (stream subject : String)
  | getObjectTypes
  | listObjects (objectType : String)
  | getObject (url : String)
  /-- `MessageService._subscription_prefill_done`, shared by all requests of the process. -/
  | prefillDoneGet (name : String)
  | prefillDoneSet (name : String)
  /-- The cached `verify_and_update_password`. -/
  | verifyCached (salt password : String) (hash : Option String) (subscription : Option String)
  | cachePop (password : String) (hash : Option String) (subscription : Option String)
  /-- `DispatcherService._subscriptions`. -/
  | mappingGet
  | mappingSet (mapping : Mapping)
  /-- No call of a program: the ack wait of a consumer's pending delivery passes. -/
  | ackWaitExpires (stream durable : String)

abbrev Op.Res : Op → Type
  | .kvGet b _ => Store.Entry b.Val
  | .kvKeys _ => List String
  | .publish .. => Nat
  | .fetch .. => Msg
  | .getObjectTypes => List String
  | .listObjects _ => List String
  | .getObject _ => Obj
  | .prefillDoneGet _ => Bool
  | .verifyCached .. => Bool × Option String
  | .mappingGet => Mapping
  | _ => Unit

/-- A coroutine of one of the services. -/
abbrev Coro (α : Type) : Type := Prog Op Op.Res CallError Exc α

/-- `await op`. -/
abbrev request (op : Op) : Coro op.Res := Prog.call .call op

/-- Lift a computation that may raise. -/
def ofExcept {α : Type} : Except Exc α → Coro α
  | .ok a => return a
  | .error e => throw e

/-- `try: p except e: handler`, for an error that a call can be answered with. -/
def catching {α : Type} (e : CallError) (p handler : Coro α) : Coro α :=
  p.tryCatch fun x => if x = .call e then handler else .throw x

structure World where
  bucket : (b : Bucket) → Store.Bucket b.Val
  streams : String → Option (Store.Stream Payload)
  prefillDone : String → Bool
  passwordCache : List ((String × Option String × Option String) × (Bool × Option String))
  mapping : Mapping

namespace World

def setBucket (w : World) (b : Bucket) (kv : Store.Bucket b.Val) : World :=
  { w with bucket := Function.update w.bucket b kv }

def setStream (w : World) (name : String) (s : Option (Store.Stream Payload)) : World :=
  { w with streams := fun n => if n = name then s else w.streams n }

/-- The durable consumer of that name on that stream. -/
def durable (w : World) (stream name : String) : Option Store.Durable :=
  (w.streams stream).bind (·.durables name)

/-- The record of a subscription. -/
def record (w : World) (name : String) : Option Subscription :=
  (w.bucket .subscriptions).value? name

/-- The stored password hash of a subscription. -/
def credential (w : World) (name : String) : Option String :=
  (w.bucket .credentials).value? name

/-- Update the consumer that holds `msg`. -/
def settle (w : World) (msg : Msg) (f : Store.Durable → Store.Durable)
    (g : Store.Stream Payload → Store.Stream Payload) : World :=
  match w.streams msg.stream with
  | none => w
  | some s =>
    match s.durables msg.durable with
    | none => w
    | some d => w.setStream msg.stream (some (g (s.setDurable msg.durable (some (f d)))))

end World

variable (env : Env)

def answer (tid : Nat) (op : Op) (w : World) : Except CallError op.Res × World :=
  match op with
  | .kvGet b key =>
    match (w.bucket b).get? key with
    | some e => (.ok e, w)
    | none => (.error .keyNotFound, w)
  | .kvPut b key value => (.ok (), w.setBucket b ((w.bucket b).put key value))
  | .kvDelete b key => (.ok (), w.setBucket b ((w.bucket b).delete key))
  | .kvKeys b => (.ok (w.bucket b).keys, w)
  | .streamInfo stream =>
    if (w.streams stream).isSome then (.ok (), w) else (.error .notFound, w)
  | .addStream config =>
    match w.streams config.name with
    | none => (.ok (), w.setStream config.name (some (.new config.subjects config.workQueue)))
    | some s =>
      if s.subjects = config.subjects ∧ s.workQueue = config.workQueue then (.ok (), w)
      else (.error .badRequest, w)
  | .updateStream config =>
    match w.streams config.name with
    | none => (.error .notFound, w)
    | some s =>
      (.ok (), w.setStream config.name (some (s.reconfigure config.subjects config.workQueue)))
  | .deleteStream stream =>
    match w.streams stream with
    | none => (.error .notFound, w)
    | some _ => (.ok (), w.setStream stream none)
  | .consumerInfo stream durable =>
    match w.durable stream durable with
    | none => (.error .notFound, w)
    | some _ => (.ok (), w)
  | .addConsumer stream durable =>
    match w.streams stream with
    | none => (.error .notFound, w)
    | some s =>
      match s.durables durable with
      | some _ => (.ok (), w)
      | none => (.ok (), w.setStream stream (some (s.setDurable durable (some .fresh))))
  | .deleteConsumer stream durable =>
    match w.streams stream with
    | none => (.error .notFound, w)
    | some s =>
      match s.durables durable with
      | none => (.error .notFound, w)
      | some _ => (.ok (), w.setStream stream (some (s.setDurable durable none)))
  | .publish subject payload stream =>
    match w.streams stream with
    | none => (.error .noStream, w)
    | some s =>
      if subject ∈ s.subjects then
        (.ok (s.last + 1), w.setStream stream (some (s.append subject payload tid)))
      else (.error .noStream, w)
  | .pullSubscribe _ durable stream =>
    match w.durable stream durable with
    | none => (.error .notFound, w)
    | some _ => (.ok (), w)
  | .fetch stream durable =>
    match w.streams stream with
    | none => (.error .timeout, w)
    | some s =>
      match s.durables durable with
      | none => (.error .timeout, w)
      | some d =>
        match s.fetch d with
        | none => (.error .timeout, w)
        | some m =>
          let d' := d.deliver m.seq
          (.ok ⟨stream, durable, m.subject, m.payload, m.seq, d'.numDelivered m.seq, m.origin⟩,
            w.setStream stream (some (s.setDurable durable (some d'))))
  | .ack msg =>
    (.ok (), w.settle msg (·.ack msg.streamSeq) fun s =>
      if s.workQueue then s.keep (·.seq != msg.streamSeq) else s)
  | .nak msg => (.ok (), w.settle msg (·.release msg.streamSeq) id)
  | .getMsg stream seq =>
    match w.streams stream with
    | none => (.error .notFound, w)
    | some s => if s.stored seq then (.ok (), w) else (.error .notFound, w)
  | .deleteMsg stream seq =>
    match w.streams stream with
    | none => (.error .notFound, w)
    | some s =>
      if s.stored seq then (.ok (), w.setStream stream (some (s.keep (·.seq != seq))))
      else (.error .notFound, w)
  | .purgeStream stream subject =>
    match w.streams stream with
    | none => (.error .notFound, w)
    | some s => (.ok (), w.setStream stream (some (s.keep (·.subject != subject))))
  | .getObjectTypes => (.ok env.objectTypes, w)
  | .listObjects objectType => (.ok (env.listObjects objectType), w)
  | .getObject url => (.ok (env.getObject url), w)
  | .prefillDoneGet name => (.ok (w.prefillDone name), w)
  | .prefillDoneSet name =>
    (.ok (), { w with prefillDone := fun n => if n = name then true else w.prefillDone n })
  | .verifyCached salt password hash subscription =>
    match w.passwordCache.lookup (password, hash, subscription) with
    | some r => (.ok r, w)
    | none =>
      -- Nothing is stored when the function raises.
      if env.raises password hash then (.error .passwordValue, w) else
      let r := env.verifyAndUpdate salt password hash
      (.ok r, { w with passwordCache := ((password, hash, subscription), r) :: w.passwordCache })
  | .cachePop password hash subscription =>
    (.ok (), { w with
      passwordCache := w.passwordCache.filter (·.1 != (password, hash, subscription)) })
  | .mappingGet => (.ok w.mapping, w)
  | .mappingSet mapping => (.ok (), { w with mapping := mapping })
  | .ackWaitExpires stream durable =>
    match w.streams stream with
    | none => (.ok (), w)
    | some s =>
      match s.durables durable with
      | none => (.ok (), w)
      | some d => (.ok (), w.setStream stream (some (s.setDurable durable (some d.expire))))

def serve : Server Op Op.Res CallError Outage World := ⟨answer env, Outage.error⟩

@[simp] theorem serve_answer (tid : Nat) (op : Op) (w : World) :
    (serve env).answer tid op w = answer env tid op w := rfl
@[simp] theorem serve_lost (e : Outage) : (serve env).lost e = e.error := rfl

end Provisioning
