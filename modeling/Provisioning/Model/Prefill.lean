import Provisioning.Model.Messages

/-!
# The prefill service

`server/core/prefill/service/udm_prefill.py`. The worker takes one request at a time from its
queue; `prefillOnce` is one round of its loop. Whatever a handler raises comes out of the task
group that runs it as an `ExceptionGroup`, so of the three `except` clauses around it only the last
one is ever taken: refuse the message and raise, which ends the process. The next process goes on
with the queue.

The status updates are requests to the API, under an address that the name of the subscription is
pasted into; the handler that the request finds runs inside the call.
-/

namespace Provisioning

open Await

variable (env : Env)

/-- Determines if a UDM module name matches the specified subscription topic. -/
def matchTopic (subTopic moduleName : String) : Except Exc Bool :=
  match env.fullmatch subTopic moduleName with
  | some b => .ok b
  | none => .error .reError

/-- `[module for module in udm_modules if match_topic(topic, module["name"])]`. -/
def matchingTypes (topic : String) : List String → Except Exc (List String)
  | [] => .ok []
  | moduleName :: rest => do
    let found ← matchTopic env topic moduleName
    let others ← matchingTypes topic rest
    return if found then moduleName :: others else others

/-- `InternalAPIAdapter.update_subscription_queue_status`, from the address to the answer. -/
def InternalAPIAdapter.updateSubscriptionQueueStatus (adapter : InternalAPIAdapter)
    (user : PrefillUser) (name : String) (queueStatus : FillQueueStatus) : Coro Unit :=
  internalRequest <|
    match receive user (adapter.statusRequest name queueStatus) with
    | .ok (name, status) => updateSubscriptionPrefillStatus name status
    | .error code => return code

/-- …of the adapter that the settings give the service. -/
def updateSubscriptionQueueStatus (name : String) (status : FillQueueStatus) : Coro Unit :=
  env.deployment.adapter.updateSubscriptionQueueStatus env.deployment.app name status

/-- Retrieve the object for the given DN. -/
def fillObject (url objectType subscriptionName : String) : Coro Unit := do
  let obj ← request (.getObject url)
  addMessage subscriptionName (prefillSubject subscriptionName)
    (.message ⟨.udmPreFill, "udm", objectType, ⟨[], obj⟩⟩)

/-- Find the DNs of all UDM objects for an object type. -/
def fillUdmTopic (objectType subscriptionName : String) : Coro Unit := do
  let urls ← request (.listObjects objectType)
  Prog.forEach urls fun url => fillObject url objectType subscriptionName

def fetchUdm (subscriptionName topic : String) : Coro Unit := do
  let udmModules ← request .getObjectTypes
  match matchingTypes env topic udmModules with
  | .error e => throw e
  | .ok udmMatch => Prog.forEach udmMatch fun thisTopic => fillUdmTopic thisTopic subscriptionName

/-- `_handle_message`. -/
def fillQueue (message : PrefillMessage) : Coro Unit := do
  purgeSubjectFromMessages message.subscriptionName (prefillSubject message.subscriptionName)
  Prog.forEach message.realmsTopics fun realmTopic => do
    -- Any other realm is logged and skipped.
    if realmTopic.realm = "udm" then
      updateSubscriptionQueueStatus env message.subscriptionName .running
      fetchUdm env message.subscriptionName realmTopic.topic

def addToFailureQueue (data : PrefillMessage) : Coro Unit :=
  addMessage PREFILL_FAILURES_STREAM PREFILL_FAILURES_STREAM (.simple .udmPreFill data)

/-- `PrefillMessage.model_validate`. -/
def validatedPrefill (message : Msg) : Coro PrefillMessage :=
  match message.payload with
  | .prefill m => return m
  | .message _ => throw .validationError
  | .simple .. => throw .validationError

/-- `UDMPreFill.handle_message`. -/
def handlePrefill (message : Msg) : Coro Unit := do
  let validatedMessage ← validatedPrefill message
  if env.maxPrefillAttempts ≠ -1 ∧ (message.numDelivered : Int) > env.maxPrefillAttempts then
    addToFailureQueue validatedMessage
    updateSubscriptionQueueStatus env validatedMessage.subscriptionName .failed
  else
    fillQueue env validatedMessage
    updateSubscriptionQueueStatus env validatedMessage.subscriptionName .done

/-- One round of `handle_requests_to_prefill`. -/
def prefillOnce : Coro Unit := do
  match ← getOneMessage PREFILL_STREAM with
  | none => return
  | some message =>
    tryCatch (handlePrefill env message) fun e => do
      request (.nak message)
      throw e
    request (.ack message)

/-- The start of the service. -/
def prepareQueues : Coro Unit := do
  ensureStream PREFILL_FAILURES_STREAM false [PREFILL_FAILURES_STREAM]
  ensureConsumer PREFILL_FAILURES_STREAM
  ensureStream PREFILL_STREAM false [PREFILL_STREAM]
  ensureConsumer PREFILL_STREAM

end Provisioning
