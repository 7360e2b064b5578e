import Provisioning.Model.InternalApi
import Provisioning.Model.System

/-!
# The API

The eight routes of `server/core/app` with what stands before each of them: who may call it. Three
of the users are in the settings, and their passwords are compared. The others are the
subscriptions themselves, whose hashes are in the bucket of the credentials; there the check is a
part of the route and makes calls of its own.

Elsewhere a job begins where the route is let in. Here it begins with the request as it arrives,
and the services run beside it.
-/

namespace Provisioning

open Await

/-! ## Who is let in -/

/-- What of the settings the routes read. -/
structure ApiSettings extends AppSettings, PrefillUser where
  eventsUsernameUdm : String
  eventsPasswordUdm : String

/-- `authenticate_events_endpoint`. -/
def authenticateEventsEndpoint (settings : ApiSettings) (credentials : HTTPBasicCredentials) :
    Bool :=
  credentials.username == settings.eventsUsernameUdm &&
    credentials.password == settings.eventsPasswordUdm

/-- `Depends(authenticate_..)` with the users of the settings. -/
def depends {α : Type} (authenticated : Bool) (route : Coro α) : Coro α :=
  if authenticated then route
  else throw (.httpException 401 "Incorrect username or password")

/-! ## Requests and responses -/

/-- The name in a path: a parameter takes up one segment, and that is never empty. -/
structure PathName where
  text : String
  nonempty : text ≠ ""

inductive ApiRequest where
  | getSubscriptions
  | getSubscription (name : PathName)
  | deleteSubscription (name : PathName)
  | createSubscription (subscription : NewSubscription)
  | updateSubscriptionPrefillStatus (name : PathName) (report : FillQueueStatusReport)
  | getNextMessage (name : PathName) (rounds : Nat) (pop : Bool)
  | updateMessageStatus (name : PathName) (seqNum : Nat) (status : MessageProcessingStatus)
  | createNewMessage (message : Message)

/-- The JSON of a response. -/
inductive Content where
  | null
  | subscription (subscription : Subscription)
  | subscriptions (subscriptions : List Subscription)
  | message (message : ProvisioningMessage)
  | detail (text : String)
deriving DecidableEq, Repr

structure Response where
  status : Nat
  content : Content
deriving DecidableEq, Repr

/-- What FastAPI makes of an exception. -/
def errorResponse : Exc → Response
  | .httpException code detail => ⟨code, .detail detail⟩
  | _ => ⟨500, .detail "Internal server error"⟩

/-! ## Routes -/

variable (env : Env) (settings : ApiSettings) (salt : String) (credentials : HTTPBasicCredentials)

/-- `GET /v1/subscriptions`. The response is a list of subscriptions, and `None` is none. -/
def getSubscriptionsRoute : Coro Response :=
  depends (authenticateAdmin settings.toAppSettings credentials) do
    match (← getSubscriptions).mapM id with
    | some subscriptions => return ⟨200, .subscriptions subscriptions⟩
    | none => throw .validationError

/-- `GET /v1/subscriptions/{name}`. -/
def getSubscriptionRoute (name : PathName) : Coro Response := do
  authenticateUser salt credentials (some name.text)
  tryCatch (do return ⟨200, .subscription (← getSubscription name.text)⟩) fun
    | .valueError msg => throw (.httpException 404 msg)
    | e => throw e

/-- `POST /v1/subscriptions`. -/
def createSubscriptionRoute (subscription : NewSubscription) : Coro Response :=
  depends (authenticateAdmin settings.toAppSettings credentials) do
    return ⟨← createSubscription env salt subscription, .null⟩

/-- `PATCH /v1/subscriptions/{name}/prefill`. -/
def updatePrefillStatusRoute (name : PathName) (report : FillQueueStatusReport) : Coro Response :=
  depends (authenticatePrefill settings.toPrefillUser credentials) do
    return ⟨← updateSubscriptionPrefillStatus name.text report.status, .null⟩

/-- `GET /v1/subscriptions/{name}/messages/next`. -/
def getNextMessageRoute (name : PathName) (rounds : Nat) (pop : Bool) : Coro Response := do
  authenticateUser salt credentials (some name.text)
  match ← getNextMessage name.text rounds pop with
  | some msg => return ⟨200, .message msg⟩
  | none => return ⟨200, .null⟩

/-- `PATCH /v1/subscriptions/{name}/messages/{seq_num}/status`. -/
def updateMessageStatusRoute (name : PathName) (seqNum : Nat) (status : MessageProcessingStatus) :
    Coro Response := do
  authenticateUser salt credentials (some name.text)
  return ⟨← updateMessageStatus name.text seqNum status, .null⟩

/-- `POST /v1/messages`. -/
def createNewMessageRoute (msg : Message) : Coro Response :=
  depends (authenticateEventsEndpoint settings credentials) do
    return ⟨← createNewMessage msg, .null⟩

def ApiRequest.route : ApiRequest → Coro Response
  | .getSubscriptions => getSubscriptionsRoute settings credentials
  | .getSubscription name => getSubscriptionRoute salt credentials name
  | .deleteSubscription name => do
    return ⟨← deleteSubscriptionRoute settings.toAppSettings salt credentials name.text, .null⟩
  | .createSubscription subscription =>
    createSubscriptionRoute env settings salt credentials subscription
  | .updateSubscriptionPrefillStatus name report =>
    updatePrefillStatusRoute settings credentials name report
  | .getNextMessage name rounds pop => getNextMessageRoute salt credentials name rounds pop
  | .updateMessageStatus name seqNum status =>
    updateMessageStatusRoute salt credentials name seqNum status
  | .createNewMessage msg => createNewMessageRoute settings credentials msg

/-! ## The system with its clients -/

/-- A request as it arrives, and the salt that a hash draws while it is handled. -/
structure ApiCall where
  credentials : Option HTTPBasicCredentials
  request : ApiRequest
  salt : String

/-- `HTTPBasic` refuses a request without credentials. -/
def ApiCall.program (call : ApiCall) : Coro Response :=
  match call.credentials with
  | none => return ⟨401, .detail "Not authenticated"⟩
  | some credentials =>
    tryCatch (call.request.route env settings call.salt credentials) fun e =>
      return errorResponse e

/-- The services beside the API, and what happens by itself. -/
inductive Service where
  | prefill
  | dispatch
  | updateMapping
  | dispatcherStart
  | prefillStart
  | transform
  | ackWaitExpires (stream durable : String)
  | passwordCacheExpires (password : String) (hash subscription : Option String)
  | idle

def Service.job : Service → Job
  | .prefill => .prefill
  | .dispatch => .dispatch
  | .updateMapping => .updateMapping
  | .dispatcherStart => .dispatcherStart
  | .prefillStart => .prefillStart
  | .transform => .transform
  | .ackWaitExpires stream durable => .ackWaitExpires stream durable
  | .passwordCacheExpires password hash subscription =>
    .passwordCacheExpires password hash subscription
  | .idle => .idle

inductive Party where
  | client (call : ApiCall)
  | service (worker : Service)

/-- A client is answered; what a service returns is of no interest. -/
def Party.program : Party → Coro (Option Response)
  | .client call => return some (← call.program env settings)
  | .service worker => do
    let _ ← worker.job.program env
    return none

abbrev ApiSystem : Type := Config Op Op.Res CallError Exc Outage World (Option Response)

def ApiSystem.start (w : World) (parties : Nat → Party) : ApiSystem :=
  .init w fun i => (parties i).program env settings

/-- Finitely many parties, in their order. -/
def Party.pool : List Party → Nat → Party
  | [], _ => .service .idle
  | party :: _, 0 => party
  | _ :: parties, i + 1 => pool parties i

end Provisioning
