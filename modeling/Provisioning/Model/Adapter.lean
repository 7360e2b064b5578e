import Provisioning.Model.Nats

/-!
# The NATS adapters

`server/adapters/nats_adapter.py`. `Port` forwards to these without adding anything, so the
services below call them directly. `_js.key_value(bucket)` looks the bucket up and changes
nothing; it is part of the call that follows it.
-/

namespace Provisioning

open Await Store

/-! ## `NatsKVAdapter` -/

/-- Retrieve value and latest revision at `key` in `bucket`, or `None` if key does not exist. -/
def getValueWithRevision (key : String) (b : Bucket) : Coro (Option (b.Val × Nat)) :=
  catching .keyNotFound (do
    let result ← request (.kvGet b key)
    return some (result.value, result.revision)) (return none)

def getValue (key : String) (b : Bucket) : Coro (Option b.Val) := do
  let result ← getValueWithRevision key b
  return result.map (·.1)

def deleteKvPair (key : String) (b : Bucket) : Coro Unit :=
  request (.kvDelete b key)

/-- `put_value` without a revision, as every service calls it: overwrite without a further
check. -/
def putValue (key : String) (b : Bucket) (value : b.Val) : Coro Unit := do
  if value.empty then
    -- Avoid creating a pair with an empty value.
    deleteKvPair key b
  else
    request (.kvPut b key value)

def getKeys (b : Bucket) : Coro (List String) :=
  request (.kvKeys b)

/-- The subscriptions of the bucket, as the generator yields them one by one. A key that is gone
by the time it is read raises. -/
def getAllSubscriptions : Coro (List Subscription) := do
  let keys ← getKeys .subscriptions
  keys.foldr (fun key rest => do
    let entry ← request (.kvGet .subscriptions key)
    let subscriptions ← rest
    return entry.value :: subscriptions) (return [])

/-! ## `NatsMQAdapter` -/

/-- Publish a message to a NATS subject. -/
def addMessage (stream subject : String) (message : Payload) : Coro Unit := do
  let _ ← request (.publish subject message (streamKey stream))

def ensureStream (stream : String) (manualDelete : Bool) (subjects : List String) : Coro Unit := do
  let config : StreamConfig := ⟨streamKey stream, subjects, !manualDelete⟩
  let exists_ ← catching .notFound (do request (.streamInfo (streamKey stream)); return true)
    (do request (.addStream config); return false)
  if exists_ then request (.updateStream config)

def ensureConsumer (stream : String) : Coro Unit :=
  catching .notFound (request (.consumerInfo (streamKey stream) (durableKey stream)))
    (request (.addConsumer (streamKey stream) (durableKey stream)))

def deleteStream (stream : String) : Coro Unit :=
  catching .notFound (request (.deleteStream (streamKey stream))) (return)

def deleteConsumer (subject : String) : Coro Unit :=
  catching .notFound (request (.deleteConsumer (streamKey subject) (durableKey subject))) (return)

/-- Only a `Message` has the fields the consumer is handed. -/
def provisioningMessageFrom (msg : Msg) : Coro ProvisioningMessage :=
  match msg.payload with
  | .message m => return ⟨m, msg.streamSeq, msg.numDelivered⟩
  | .prefill _ => throw (.keyError "realm")
  | .simple .. => throw (.keyError "realm")

/-- The oldest message of the stream's consumer. The subject goes into `pull_subscribe`, which
binds to the durable without looking at it. -/
def getMessage (stream subject : String) (pop : Bool) : Coro (Option ProvisioningMessage) := do
  let found ← catching .notFound (do request (.streamInfo (streamKey stream)); return true)
    (return false)
  if !found then return none
  request (.consumerInfo (streamKey stream) (durableKey stream))
  request (.pullSubscribe subject (durableKey stream) (streamKey stream))
  let msg? ← catching .timeout (do
      let msg ← request (.fetch (streamKey stream) (durableKey stream))
      return some msg) (return none)
  match msg? with
  | none => return none
  | some msg =>
    if pop then request (.ack msg)
    return some (← provisioningMessageFrom msg)

def deleteMessage (stream : String) (seqNum : Nat) : Coro Unit :=
  catching .notFound (do
    request (.getMsg (streamKey stream) seqNum)
    request (.deleteMsg (streamKey stream) seqNum)) (throw (.valueError "no message found"))

/-- The next message of an internal queue; `None` stands for `Empty`. -/
def getOneMessage (stream : String) : Coro (Option Msg) :=
  catching .timeout (do
    let msg ← request (.fetch (streamKey stream) (durableKey stream))
    return some msg) (return none)

def purgeSubjectFromMessages (stream subject : String) : Coro Unit :=
  request (.purgeStream (streamKey stream) subject)

end Provisioning
