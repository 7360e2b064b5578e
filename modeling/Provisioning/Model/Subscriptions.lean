import Provisioning.Model.Adapter

/-!
# Subscriptions

`server/services/subscriptions.py` and the routes of `server/core/app/subscriptions.py` that use
it. A route is a program that returns the status it answers with; `statusOf` is what FastAPI makes
of an exception that leaves it.

Registering is a check and then five effects: two writes, a stream, a consumer, and for a prefill
a request. Nothing ties them together, and nothing undoes the first ones when a later one fails.
-/

namespace Provisioning

open Await Store

/-- The status a request is answered with. -/
def statusOf : Except Exc Nat → Nat
  | .ok code => code
  | .error (.httpException code _) => code
  | .error _ => 500

structure AppSettings where
  adminUsername : String
  adminPassword : String
deriving DecidableEq, Repr

variable (env : Env)

/-! ## `SubscriptionService` -/

def getSubscriptionNames : Coro (List String) := getKeys .credentials

def getSubscriptionInfo (name : String) : Coro (Option Subscription) :=
  getValue name .subscriptions

/-- The names are those of the credentials; one without a record yields `None`. -/
def getSubscriptions : Coro (List (Option Subscription)) := do
  let names ← getSubscriptionNames
  names.foldr (fun name rest => do
    let sub ← getSubscriptionInfo name
    let subs ← rest
    return sub :: subs) (return [])

/-- Determine if `newSub` and `existingSub` have the same values in their common fields (ignoring
`prefillQueueStatus` and `password`, of which the latter is compared with the stored hash). -/
def isSubscriptionsMatching (newSub : NewSubscription) (existingSub : Subscription) :
    Coro Bool := do
  if existingSub.requestPrefill != newSub.requestPrefill then return false
  if newSub.realmsTopics != existingSub.realmsTopics then return false
  let hashedPassword ← getValue newSub.name .credentials
  if env.raises newSub.password hashedPassword then throw (.call .passwordValue)
  return env.verifyPassword newSub.password hashedPassword

def setSubInfo (name : String) (subInfo : Subscription) : Coro Unit :=
  putValue name .subscriptions subInfo

/-- The record of a new registration. -/
def newSubInfo (newSub : NewSubscription) : Subscription where
  name := newSub.name
  realmsTopics := newSub.realmsTopics
  requestPrefill := newSub.requestPrefill
  prefillQueueStatus := if newSub.requestPrefill then .pending else .done

def prepareAndStoreSubscriptionInfo (newSub : NewSubscription) : Coro Unit := do
  setSubInfo newSub.name (newSubInfo newSub)
  ensureStream newSub.name true [mainSubject newSub.name, prefillSubject newSub.name]
  ensureConsumer newSub.name

/-- Register a new subscription; `salt` is what `hash_password` draws. -/
def registerSubscription (salt : String) (newSub : NewSubscription) : Coro Bool := do
  match ← getSubscriptionInfo newSub.name with
  | some existingSub =>
    if !(← isSubscriptionsMatching env newSub existingSub) then
      throw (.httpException 409
        "Subscription with the given name already registered but with different parameters.")
    return false
  | none =>
    let encryptedPassword ← ofExcept (env.hashPassword salt newSub.password)
    putValue newSub.name .credentials encryptedPassword
    prepareAndStoreSubscriptionInfo newSub
    return true

def getSubscription (name : String) : Coro Subscription := do
  match ← getSubscriptionInfo name with
  | some sub => return sub
  | none => throw (.valueError "Subscription was not found.")

/-- Get the pre-fill status of the given subscription. -/
def getSubscriptionQueueStatus (name : String) : Coro FillQueueStatus := do
  match ← getSubscriptionInfo name with
  | none => throw (.valueError "Subscription was not found.")
  | some subInfo => return subInfo.prefillQueueStatus

/-- Set the pre-fill status of the given subscription. -/
def setSubscriptionQueueStatus (name : String) (status : FillQueueStatus) : Coro Unit := do
  match ← getSubscriptionInfo name with
  | none => throw (.valueError "Subscription was not found.")
  | some subInfo => setSubInfo name { subInfo with prefillQueueStatus := status }

def deleteSubInfo (name : String) : Coro Unit := deleteKvPair name .subscriptions

/-- Delete a subscription and all of its data. -/
def deleteSubscription (name : String) : Coro Unit := do
  match ← getSubscriptionInfo name with
  | none => throw (.valueError "Subscription was not found.")
  | some _ =>
    deleteKvPair name .credentials
    deleteSubInfo name
    deleteStream name
    deleteConsumer name

def handleAuthenticationError (message : String) : Coro Unit :=
  throw (.httpException 401 message)

/-- `salt` is what a new hash draws. Only positive attempts stay cached. -/
def authenticateUser (salt : String) (credentials : HTTPBasicCredentials)
    (subscriptionName : Option String) : Coro Unit := do
  if subscriptionName.any (fun n => n != "" && n != credentials.username) then
    handleAuthenticationError "You do not have access to this data"
  else
    let hashedPassword ← getValue credentials.username .credentials
    let (valid, newHash) ←
      request (.verifyCached salt credentials.password hashedPassword subscriptionName)
    if valid then
      match newHash with
      | some newHash =>
        if newHash != "" then putValue credentials.username .credentials newHash
      | none => return
    else
      request (.cachePop credentials.password hashedPassword subscriptionName)
      handleAuthenticationError "Incorrect username or password"

/-! ## Routes -/

/-- `authenticate_admin`. -/
def authenticateAdmin (settings : AppSettings) (credentials : HTTPBasicCredentials) : Bool :=
  credentials.username == settings.adminUsername && credentials.password == settings.adminPassword

/-- `except ValueError as err: raise HTTPException(404, str(err))`. -/
def orNotFound (p : Coro Unit) : Coro Unit :=
  tryCatch p fun
    | .valueError msg => throw (.httpException 404 msg)
    | e => throw e

/-- `DELETE /v1/subscriptions/{name}`. -/
def deleteSubscriptionRoute (settings : AppSettings) (salt : String)
    (credentials : HTTPBasicCredentials) (name : String) : Coro Nat := do
  if !authenticateAdmin settings credentials then
    authenticateUser salt credentials (some name)
  orNotFound (deleteSubscription name)
  return 200

/-- `PATCH /v1/subscriptions/{name}/prefill`. -/
def updateSubscriptionPrefillStatus (name : String) (status : FillQueueStatus) : Coro Nat := do
  orNotFound (setSubscriptionQueueStatus name status)
  return 200

/-- `MessageService.send_request_to_prefill`. -/
def sendRequestToPrefill (subscription : NewSubscription) : Coro Unit :=
  addMessage PREFILL_STREAM PREFILL_STREAM
    (.prefill ⟨.consumerRegistration, subscription.name, subscription.realmsTopics⟩)

/-- `POST /v1/subscriptions`. -/
def createSubscription (salt : String) (subscription : NewSubscription) : Coro Nat := do
  if !(← registerSubscription env salt subscription) then return 200
  if subscription.requestPrefill then sendRequestToPrefill subscription
  return 201

end Provisioning
