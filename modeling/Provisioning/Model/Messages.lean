import Provisioning.Model.Subscriptions

/-!
# Messages

`server/services/messages.py` and its routes: what a consumer of the REST API polls, and how an
event enters the system.
-/

namespace Provisioning

open Await

inductive MessageProcessingStatus where
  | ok
deriving DecidableEq, Repr

/-! ## `MessageService` -/

/-- Poll until the status is `done` or the time is up. What the clock allows is a number of
rounds. -/
def checkSubscriptionStatus (subscriptionName : String) : Nat → Coro FillQueueStatus
  | 0 => getSubscriptionQueueStatus subscriptionName
  | rounds + 1 => do
    let queueStatus ← getSubscriptionQueueStatus subscriptionName
    if queueStatus = .done then return queueStatus
    checkSubscriptionStatus subscriptionName rounds

def getMessagesFromMainQueue (subscription : String) (pop : Bool) :
    Coro (Option ProvisioningMessage) :=
  getMessage subscription (mainSubject subscription) pop

def getMessagesFromPrefillQueue (subscription : String) (pop : Bool) :
    Coro (Option ProvisioningMessage) :=
  getMessage subscription (prefillSubject subscription) pop

/-- Retrieve the first message from the subscription's stream. -/
def getNextMessage (subscriptionName : String) (rounds : Nat) (pop : Bool) :
    Coro (Option ProvisioningMessage) := do
  if ← request (.prefillDoneGet subscriptionName) then
    getMessagesFromMainQueue subscriptionName pop
  else
    if (← checkSubscriptionStatus subscriptionName rounds) ≠ .done then
      return none
    let message ← getMessagesFromPrefillQueue subscriptionName pop
    if message.isNone then
      -- All messages from the prefill subject have been delivered. Will not check again.
      request (.prefillDoneSet subscriptionName)
    return message

def postMessageStatus (subscriptionName : String) (seqNum : Nat)
    (status : MessageProcessingStatus) : Coro Unit :=
  match status with
  | .ok => deleteMessage subscriptionName seqNum

section Status

open Prog

variable {env : Env} {tid seqNum : Nat} {name : String} {w : World} {s : Store.Stream Payload}

/-- The status `ok` takes the message of that number out of the stream… -/
theorem finish_postMessageStatus (hs : w.streams (streamKey name) = some s)
    (hstored : s.stored seqNum = true) :
    (postMessageStatus name seqNum .ok).finish (serve env) tid w =
      (.ok (), w.setStream (streamKey name) (some (s.keep (·.seq != seqNum)))) := by
  have hget : answer env tid (.getMsg (streamKey name) seqNum) w = (.ok (), w) := by
    simp only [answer, hs, hstored, if_pos]
  have hdelete : answer env tid (.deleteMsg (streamKey name) seqNum) w =
      (.ok (), w.setStream (streamKey name) (some (s.keep (·.seq != seqNum)))) := by
    simp only [answer, hs, hstored, if_pos]
  refine finish_tryCatch ?_
  show ((request (.getMsg (streamKey name) seqNum)).bind fun _ =>
    request (.deleteMsg (streamKey name) seqNum)).finish (serve env) tid w = _
  rw [finish_bind (finish_call hget)]
  exact finish_call hdelete

/-- …and raises if there is none. -/
theorem finish_postMessageStatus_gone (hs : w.streams (streamKey name) = some s)
    (hstored : s.stored seqNum = false) :
    (postMessageStatus name seqNum .ok).finish (serve env) tid w =
      (.error (.valueError "no message found"), w) := by
  have hget : answer env tid (.getMsg (streamKey name) seqNum) w = (.error .notFound, w) := by
    simp only [answer, hs, hstored]
    rfl
  show Prog.finish (serve env) tid (Prog.await (Op.getMsg (streamKey name) seqNum) _) w = _
  rw [finish_await, serve_answer, hget]
  rfl

end Status

def addLiveEvent (event : Message) : Coro Unit :=
  addMessage DISPATCHER_STREAM DISPATCHER_STREAM (.message event)

/-! ## Routes -/

/-- `POST /v1/messages`. -/
def createNewMessage (msg : Message) : Coro Nat := do
  addLiveEvent msg
  return 202

/-- `PATCH /v1/subscriptions/{name}/messages/{seq_num}/status`, once authenticated. -/
def updateMessageStatus (name : String) (seqNum : Nat) (status : MessageProcessingStatus) :
    Coro Nat := do
  orNotFound (postMessageStatus name seqNum status)
  return 200

/-- `raise_for_status`: an internal request whose answer is an error raises in the caller. -/
def internalRequest (route : Coro Nat) : Coro Unit := do
  let code ← tryCatch route fun e => return statusOf (.error e)
  if code ≥ 400 then throw (.clientResponse code)

end Provisioning
