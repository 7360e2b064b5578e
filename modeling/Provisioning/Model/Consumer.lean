import Provisioning.Lib.Machine
import Provisioning.Model.Effects
import Provisioning.Model.System

/-!
# The consumer

`univention/provisioning/consumer/api.py`: the client of the REST API, and the loop that hands one
message after the other to the callbacks.

The consumer is a program of its own, over calls of its own: what it awaits is an HTTP request, a
callback, or a pause. It does not see NATS. A request that arrives is given a handler, which is a
coroutine of the API; the network may lose the request, lose the response, deliver the request
late, or deliver it again.
-/

namespace Provisioning

open Await

/-! ## `ProvisioningConsumerClient` -/

/-- A callback, by its name. -/
abbrev Callback : Type := String

/-- What the process of a consumer awaits. -/
inductive ClientOp where
  /-- `GET /v1/subscriptions/{name}/messages/next`. -/
  | getSubscriptionMessage (name : String)
  /-- `PATCH /v1/subscriptions/{name}/messages/{seq_num}/status`. -/
  | setMessageStatus (name : String) (seqNum : Nat) (status : MessageProcessingStatus)
  | callback (callback : Callback) (message : ProvisioningMessage)
  /-- `asyncio.sleep`, in tenths of a second. -/
  | sleep (tenths : Nat)

abbrev ClientOp.Res : ClientOp → Type
  | .getSubscriptionMessage _ => Option ProvisioningMessage
  | _ => Unit

/-- What an `await` of the consumer can raise. -/
inductive ClientError where
  /-- `aiohttp.ClientError`, with the subclasses for connections and for responses. -/
  | client
  /-- Everything else: a timeout, a body that does not validate, what a callback raises. -/
  | other
deriving DecidableEq, Repr

/-- A coroutine of the consumer. -/
abbrev ClientCoro (α : Type) : Type := Prog ClientOp ClientOp.Res ClientError ClientError α

/-- `await op`. -/
abbrev awaiting (op : ClientOp) : ClientCoro op.Res := Prog.call id op

structure ProvisioningConsumerClientSettings where
  provisioningApiUsername : String
  provisioningApiPassword : String

/-! ## `MessageHandler` -/

structure MessageHandlerSettings where
  maxAcknowledgementRetries : Nat
  le_ten : maxAcknowledgementRetries ≤ 10

structure MessageHandler where
  client : ProvisioningConsumerClientSettings
  settings : MessageHandlerSettings
  callbacks : List Callback
  /-- Callback functions can't be empty. -/
  callbacks_ne_nil : callbacks ≠ []
  popAfterHandling : Bool := true
  messageLimit : Option Int := none
  /-- `jsondiff.diff` with the syntax `rightonly`, which makes a dictionary of its own. -/
  diff : Obj → Obj → Obj

namespace MessageHandler

variable (h : MessageHandler)

def subscriptionName : String := h.client.provisioningApiUsername

def acknowledgeMessage (messageSeqNum : Nat) : ClientCoro Bool :=
  tryCatch (do awaiting (.setMessageStatus h.subscriptionName messageSeqNum .ok); return true) fun
    | .client => return false
    | e => throw e

/-- The loop over `range(max_acknowledgement_retries + 1)`, with so many rounds to go. -/
def acknowledgementRounds (message : ProvisioningMessage) : Nat → ClientCoro Unit
  | 0 => return
  | left + 1 => do
    if ← h.acknowledgeMessage message.sequenceNumber then return
    let retries := h.settings.maxAcknowledgementRetries - left
    if retries ≠ h.settings.maxAcknowledgementRetries then
      awaiting (.sleep (min (2 ^ retries) 300))
    acknowledgementRounds message left

/-- When the retries are used up, the message will be redelivered later. -/
def acknowledgeMessageWithRetries (message : ProvisioningMessage) : ClientCoro Unit :=
  h.acknowledgementRounds message (h.settings.maxAcknowledgementRetries + 1)

/-- The callbacks that are left, and the acknowledgement. -/
def handleMessage (message : ProvisioningMessage) (callbacks : List Callback) :
    ClientCoro Bool := do
  Prog.forEach callbacks fun callback => awaiting (.callback callback message)
  if h.popAfterHandling then h.acknowledgeMessageWithRetries message
  return true

/-! ### The description of a message -/

/-- A piece of an f-string. What `repr` and `str` make of a value is left to Python; they are total
on what JSON can hold. -/
inductive Piece where
  | text (s : String)
  | strRepr (s : String)
  | value (v : Value)
  | objRepr (o : Obj)
  | bodyRepr (b : Body)
deriving DecidableEq, Repr

/-- `obj[key]`. -/
def item (obj : Obj) (key : String) : Except Exc Value :=
  match obj.get key with
  | some v => .ok v
  | none => .error (.keyError key)

/-- `MessageHandler.debug_msg`. -/
def debugMsg (diff : Obj → Obj → Obj) (message : Message) : Except Exc (List Piece) := do
  let msg := [.text "realm: ", .strRepr message.realm, .text " topic: ", .strRepr message.topic]
  if message.realm = "udm" then
    let old := message.body.old
    let new := message.body.new
    if old.truthy && new.truthy then
      let change := diff message.body.old message.body.new
      let oldDn ← item old "dn"
      let newDn ← item new "dn"
      if oldDn ≠ newDn then
        return msg ++ [.text " action: move", .text " old_dn: ", .value oldDn,
          .text " dn: ", .value newDn, .text " diff(old, new): ",
          .objRepr (change.filter (·.1 != "dn"))]
      else
        return msg ++ [.text " action: update", .text " dn: ", .value newDn,
          .text " diff(old, new): ", .objRepr change]
    else if !old.truthy then
      return msg ++ [.text " action: create", .text " dn: ", .value (← item new "dn")]
    else if !new.truthy then
      return msg ++ [.text " action: delete", .text " dn: ", .value (← item old "dn")]
    else
      return msg ++ [.text " action: ERROR(No object data)"]
  else
    return msg ++ [.text " body: ", .bodyRepr message.body]

/-! ### The loop -/

/-- One turn of the loop of `run`: was there a message? It is described before it is handled, at
every log level, as the text is an argument of `logger.debug`. -/
def describedTurn (diff : Obj → Obj → Obj) : ClientCoro Bool := do
  match ← awaiting (.getSubscriptionMessage h.subscriptionName) with
  | none => return false
  | some message =>
    match debugMsg diff message.message with
    -- A `KeyError` leaves `run`: no callback is called, and nothing is acknowledged.
    | .error _ => throw .other
    | .ok _ => h.handleMessage message h.callbacks

def turn : ClientCoro Bool := h.describedTurn h.diff

/-- `run` returns after so many messages. -/
def limitReached (counter : Nat) : Bool :=
  match h.messageLimit with
  | none => false
  | some limit => limit != 0 && limit ≤ counter

end MessageHandler

/-! ## The consumer and the API -/

inductive Request where
  | next
  | status (seqNum : Nat) (status : MessageProcessingStatus)

/-- The handler of a request; `salt` is what a new password hash draws, and `rounds` what the clock
allows for waiting for the status. -/
def Request.handler (env : Env) (client : ProvisioningConsumerClientSettings) (salt : String)
    (rounds : Nat) (request : Request) : Coro Reply := do
  let name := client.provisioningApiUsername
  authenticateUser salt ⟨name, client.provisioningApiPassword⟩ (some name)
  match request with
  | .next => (Job.getNext name rounds false).program env
  | .status seqNum report => (Job.postStatus name seqNum report).program env

/-- What became of the callbacks. -/
inductive CallbackEvent where
  | invoked (callback : Callback) (message : ProvisioningMessage)
  | returned (callback : Callback) (message : ProvisioningMessage)
  | raised (callback : Callback) (message : ProvisioningMessage)

namespace ClientOp

/-- What an `await` sends. -/
def requests : ClientOp → List Request
  | .getSubscriptionMessage _ => [.next]
  | .setMessageStatus _ seqNum status => [.status seqNum status]
  | _ => []

/-- The callback an `await` calls. -/
def invocations : ClientOp → List CallbackEvent
  | .callback called message => [.invoked called message]
  | _ => []

/-- What the client hears of a handler that is over; a session with `raise_for_status` raises on
every error status. -/
def response : (op : ClientOp) → Coro Reply → Option (Except ClientError op.Res)
  | .getSubscriptionMessage _, .pure (.message message) => some (.ok message)
  | .getSubscriptionMessage _, .throw _ => some (.error .client)
  | .setMessageStatus .., .pure (.status code) =>
    some (if code < 400 then .ok () else .error .client)
  | .setMessageStatus .., .throw _ => some (.error .client)
  | _, _ => none

end ClientOp

/-- A process in `run`. -/
structure ConsumerProcess where
  counter : Nat
  prog : ClientCoro Bool

structure Consumption where
  world : World
  process : Option ConsumerProcess
  /-- All requests that were sent; the process can only be waiting for the last one. -/
  requests : List Request
  /-- The handlers that were started, each for one of the requests. -/
  handlers : List (Nat × Coro Reply)
  /-- What became of the callbacks, in this order. No program reads it. -/
  calls : List CallbackEvent

/-- Everything that can happen. -/
inductive ConsumptionStep where
  /-- A process enters `run`. -/
  | start
  /-- The process dies. -/
  | crash
  /-- The `i`th request arrives, for the first time or once more. -/
  | arrive (i : Nat) (salt : String) (rounds : Nat)
  /-- The call of the `j`th handler is served, or not, and answered, or not. -/
  | serve (j : Nat) (f : Fault Outage)
  /-- The response of the `j`th handler reaches the process. -/
  | respond (j : Nat)
  /-- The process gives up on the request it waits for. -/
  | giveUp (e : ClientError)
  | callbackReturns
  | callbackRaises (e : ClientError)
  | wake
  /-- The dispatcher publishes to the subscription. -/
  | post (payload : Payload)
  | ackWaitExpires
  /-- Anyone else has a call served that leaves the subscription's stream alone. -/
  | elsewhere (tid : Nat) (op : Op)

namespace Consumption

variable (h : MessageHandler)

/-- The messages in the subscription's stream. -/
def messages (s : Consumption) : List (Store.Stored Payload) :=
  match s.world.streams (streamKey h.subscriptionName) with
  | none => []
  | some stream => stream.msgs

def record (s : Consumption) (event : CallbackEvent) : Consumption :=
  { s with calls := s.calls ++ [event] }

/-- The process goes on to its next `await`. -/
def enter (s : Consumption) (counter : Nat) : ClientCoro Bool → Consumption
  | .await op k =>
    { s with
      process := some ⟨counter, .await op k⟩
      requests := s.requests ++ op.requests
      calls := s.calls ++ op.invocations }
  | _ => { s with process := none }

/-- …in the same turn or the next one; or `run` returns, or raises. -/
def goOn (s : Consumption) (counter : Nat) : ClientCoro Bool → Consumption
  | .pure true =>
    if h.limitReached (counter + 1) then { s with process := none }
    else s.enter (counter + 1) h.turn
  | .pure false => s.enter counter h.turn
  | prog => s.enter counter prog

def step (env : Env) (s : Consumption) : ConsumptionStep → Option Consumption
  | .start =>
    match s.process with
    | none => some (s.enter 0 h.turn)
    | some _ => none
  | .crash => some { s with process := none }
  | .arrive i salt rounds =>
    match s.requests[i]? with
    | some request =>
      some { s with handlers := s.handlers ++ [(i, request.handler env h.client salt rounds)] }
    | none => none
  | .serve j f =>
    match s.handlers[j]? with
    | some (i, .await op k) =>
      some { s with
        world := (Provisioning.serve env).left j op s.world f
        handlers := s.handlers.set j (i, k ((Provisioning.serve env).heard j op s.world f)) }
    | _ => none
  | .respond j =>
    match s.process, s.handlers[j]? with
    | some ⟨counter, .await op k⟩, some (i, handler) =>
      if i + 1 = s.requests.length then
        match op.response handler with
        | some r => some (s.goOn h counter (k r))
        | none => none
      else none
    | _, _ => none
  | .giveUp e =>
    match s.process with
    | some ⟨counter, .await op k⟩ =>
      if op.requests.isEmpty then none else some (s.goOn h counter (k (.error e)))
    | _ => none
  | .callbackReturns =>
    match s.process with
    | some ⟨counter, .await (.callback callback message) k⟩ =>
      some ((s.record (.returned callback message)).goOn h counter (k (.ok ())))
    | _ => none
  | .callbackRaises e =>
    match s.process with
    | some ⟨counter, .await (.callback callback message) k⟩ =>
      some ((s.record (.raised callback message)).goOn h counter (k (.error e)))
    | _ => none
  | .wake =>
    match s.process with
    | some ⟨counter, .await (.sleep _) k⟩ => some (s.goOn h counter (k (.ok ())))
    | _ => none
  | .post payload =>
    match answer env 0 (.publish (mainSubject h.subscriptionName) payload
      (streamKey h.subscriptionName)) s.world with
    | (.ok _, w) => some { s with world := w }
    | (.error _, _) => none
  | .ackWaitExpires =>
    some { s with world := (answer env 0 (.ackWaitExpires (streamKey h.subscriptionName)
      (durableKey h.subscriptionName)) s.world).2 }
  | .elsewhere tid op =>
    if op.spares (streamKey h.subscriptionName) then
      some { s with world := (answer env tid op s.world).2 }
    else none

/-- What a step does, and when it can be taken. -/
inductive StepsTo (env : Env) (s : Consumption) : ConsumptionStep → Consumption → Prop where
  | start (hp : s.process = none) : StepsTo env s .start (s.enter 0 h.turn)
  | crash : StepsTo env s .crash { s with process := none }
  | arrive {i : Nat} {request : Request} (hi : s.requests[i]? = some request) (salt : String)
      (rounds : Nat) : StepsTo env s (.arrive i salt rounds)
        { s with handlers := s.handlers ++ [(i, request.handler env h.client salt rounds)] }
  | serve {j i : Nat} {op : Op} {k : Except CallError op.Res → Coro Reply}
      (hj : s.handlers[j]? = some (i, .await op k)) (f : Fault Outage) : StepsTo env s (.serve j f)
        { s with
          world := (Provisioning.serve env).left j op s.world f
          handlers := s.handlers.set j (i, k ((Provisioning.serve env).heard j op s.world f)) }
  | respond {j i counter : Nat} {op : ClientOp} {k : Except ClientError op.Res → ClientCoro Bool}
      {handler : Coro Reply} {r : Except ClientError op.Res}
      (hp : s.process = some ⟨counter, .await op k⟩) (hj : s.handlers[j]? = some (i, handler))
      (hi : i + 1 = s.requests.length) (hr : op.response handler = some r) :
      StepsTo env s (.respond j) (s.goOn h counter (k r))
  | giveUp {counter : Nat} {op : ClientOp} {k : Except ClientError op.Res → ClientCoro Bool}
      (hp : s.process = some ⟨counter, .await op k⟩) (hrequests : op.requests.isEmpty = false)
      (e : ClientError) : StepsTo env s (.giveUp e) (s.goOn h counter (k (.error e)))
  | callbackReturns {counter : Nat} {callback : Callback} {message : ProvisioningMessage}
      {k : Except ClientError (ClientOp.callback callback message).Res → ClientCoro Bool}
      (hp : s.process = some ⟨counter, .await (.callback callback message) k⟩) :
      StepsTo env s .callbackReturns
        ((s.record (.returned callback message)).goOn h counter (k (.ok ())))
  | callbackRaises {counter : Nat} {callback : Callback} {message : ProvisioningMessage}
      {k : Except ClientError (ClientOp.callback callback message).Res → ClientCoro Bool}
      (hp : s.process = some ⟨counter, .await (.callback callback message) k⟩) (e : ClientError) :
      StepsTo env s (.callbackRaises e)
        ((s.record (.raised callback message)).goOn h counter (k (.error e)))
  | wake {counter tenths : Nat}
      {k : Except ClientError (ClientOp.sleep tenths).Res → ClientCoro Bool}
      (hp : s.process = some ⟨counter, .await (.sleep tenths) k⟩) :
      StepsTo env s .wake (s.goOn h counter (k (.ok ())))
  | post {payload : Payload} {seq : Nat} {w : World}
      (hanswer : answer env 0 (.publish (mainSubject h.subscriptionName) payload
        (streamKey h.subscriptionName)) s.world = (.ok seq, w)) :
      StepsTo env s (.post payload) { s with world := w }
  | ackWaitExpires : StepsTo env s .ackWaitExpires
        { s with world := (answer env 0 (.ackWaitExpires (streamKey h.subscriptionName)
          (durableKey h.subscriptionName)) s.world).2 }
  | elsewhere {op : Op} (hop : op.spares (streamKey h.subscriptionName) = true) (tid : Nat) :
      StepsTo env s (.elsewhere tid op) { s with world := (answer env tid op s.world).2 }

theorem stepsTo_of_step {h : MessageHandler} {env : Env} {s t : Consumption} {l : ConsumptionStep}
    (hl : s.step h env l = some t) : StepsTo h env s l t := by
  -- Each label has one way to take place; all other branches are refused with `none`.
  cases l with
  | start =>
    dsimp only [step] at hl
    split at hl
    · next hp => exact Option.some.inj hl ▸ .start hp
    · cases hl
  | crash => exact Option.some.inj hl ▸ .crash
  | arrive i salt rounds =>
    dsimp only [step] at hl
    split at hl
    · next hi => exact Option.some.inj hl ▸ .arrive hi salt rounds
    · cases hl
  | serve j f =>
    dsimp only [step] at hl
    split at hl
    · next hj => exact Option.some.inj hl ▸ .serve hj f
    · cases hl
  | respond j =>
    dsimp only [step] at hl
    split at hl
    · next hp hj =>
      split at hl
      · next hi =>
        split at hl
        · next hr => exact Option.some.inj hl ▸ .respond hp hj hi hr
        · cases hl
      · cases hl
    · cases hl
  | giveUp e =>
    dsimp only [step] at hl
    split at hl
    · next hp =>
      split at hl
      · cases hl
      · next hrequests =>
        exact Option.some.inj hl ▸ .giveUp hp (Bool.eq_false_iff.mpr hrequests) e
    · cases hl
  | callbackReturns =>
    dsimp only [step] at hl
    split at hl
    · next hp => exact Option.some.inj hl ▸ .callbackReturns hp
    · cases hl
  | callbackRaises e =>
    dsimp only [step] at hl
    split at hl
    · next hp => exact Option.some.inj hl ▸ .callbackRaises hp e
    · cases hl
  | wake =>
    dsimp only [step] at hl
    split at hl
    · next hp => exact Option.some.inj hl ▸ .wake hp
    · cases hl
  | post payload =>
    dsimp only [step] at hl
    split at hl
    · next hanswer => exact Option.some.inj hl ▸ .post hanswer
    · cases hl
  | ackWaitExpires => exact Option.some.inj hl ▸ .ackWaitExpires
  | elsewhere tid op =>
    dsimp only [step] at hl
    split at hl
    · next hop => exact Option.some.inj hl ▸ .elsewhere hop tid
    · cases hl

end Consumption

/-- Every callback is called with the message and returns, one after the other. -/
def calledInOrder (message : ProvisioningMessage) (callbacks : List Callback) :
    List CallbackEvent :=
  callbacks.flatMap fun callback => [.invoked callback message, .returned callback message]

/-- Two callbacks, one retry. -/
def MessageHandler.sample : MessageHandler where
  client := ⟨"a", "pw"⟩
  settings := ⟨1, by decide⟩
  callbacks := ["first", "second"]
  callbacks_ne_nil := List.cons_ne_nil _ _
  diff _ new := new

end Provisioning
