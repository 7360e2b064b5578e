import Provisioning.Model.Messages

/-!
# The UDM transformer

`udm_transformer/service/udm.py` and `udm_transformer/controller.py`. A change of an LDAP entry
comes in with the entry before and after it; what goes out is the pair of UDM objects. The new one
is computed from the entry, the old one is what was computed and kept for the entry the last time.
-/

namespace Provisioning

open Await

variable (env : Env)

def SUPPORTED_OBJECT_TYPES : List String :=
  ["oxmail/accessprofile", "oxmail/functional_account", "oxmail/oxcontext",
    "oxresources/oxresources", "portals/all", "portals/announcement", "portals/category",
    "portals/entry", "portals/folder", "portals/portal", "portals/announcement",
    "portals/category", "portals/entry", "portals/folder", "portals/portal", "users/user",
    "groups/group"]

/-- `obj[key][0].decode()`. -/
def firstValue (obj : Obj) (key : String) : Except Exc String :=
  match obj.get key with
  | some (.bytes (v :: _)) => .ok v
  | some (.bytes []) => .error .indexError
  | some _ => .error .attributeError
  | none => .error (.keyError key)

/-- Get the module of the object type, read the DN, open the object and represent it. -/
def representEntry (objectType : String) (entry : Obj) : Except Exc Obj := do
  if !env.hasModule objectType then throw .moduleNotFound
  let _ ← firstValue entry "entryDN"
  env.representation objectType entry

/-- `None` stands for the transformation that failed and was only logged. -/
def ldapToUdm (entry : Obj) : Except Exc (Option Obj) :=
  match entry.get "univentionObjectType" with
  | some (.bytes (objectType :: _)) =>
    match representEntry env objectType entry with
    | .ok obj => .ok (some obj)
    | .error .moduleNotFound => .ok (some [])
    | .error e => if objectType ∈ SUPPORTED_OBJECT_TYPES then .error e else .ok none
  | _ => .ok (some [])

def retrieve (url : String) : Coro Obj := do
  return (← getValue url .cache).getD []

def store (newObj : Obj) : Coro Unit := do
  match newObj.get "uuid" with
  | some (.str uuid) => putValue uuid .cache newObj
  | _ => throw (.keyError "uuid")

/-- `if not object_type`, for a value that may be missing. -/
def missing : Option Value → Bool
  | some v => !v.truthy
  | none => true

/-- `new or {}`. -/
def orEmpty : Option Obj → Obj := Body.setEmptyDict

def sendEvent (newObj : Option Obj) (oldObj : Obj) : Coro Unit := do
  if !((orEmpty newObj).truthy || oldObj.truthy) then return
  let objectType :=
    if (orEmpty newObj).truthy then (orEmpty newObj).get "objectType" else oldObj.get "objectType"
  if missing objectType then
    -- The log message reads `new_obj.get("dn")`, and `None` has no `get`.
    if newObj.isNone then throw .attributeError
    return
  match objectType with
  | some (.str topic) =>
    internalRequest (createNewMessage
      ⟨env.ldapPublisherName, "udm", topic, ⟨oldObj, Body.setEmptyDict newObj⟩⟩)
  | _ => throw .validationError

def handleChanges (newObj oldObj : Obj) : Coro Unit := do
  let old ←
    if oldObj.truthy then do
      let uuid ← ofExcept (firstValue oldObj "entryUUID")
      retrieve uuid
    else pure []
  let new ←
    if newObj.truthy then do
      let new ← ofExcept (ldapToUdm env newObj)
      if (orEmpty new).truthy then store (orEmpty new)
      pure new
    else pure (some [])
  -- `reload_udm` acts on the library only.
  sendEvent env new old

/-- `UDMTransformerController.handle_message`. -/
def handleChange (change : Body) (message : Msg) : Coro Unit :=
  tryCatch (handleChanges env change.new change.old) fun e => do
    request (.nak message)
    throw e

/-- One round of `transform_events`, once it has received a message: validate, handle,
acknowledge. -/
def transformEvent (message : Msg) : Coro Unit := do
  match message.payload with
  | .message m =>
    handleChange env m.body message
    request (.ack message)
  | .prefill _ => throw .validationError
  | .simple .. => throw .validationError

/-- One round of `transform_events`. -/
def transformOnce : Coro Unit := do
  match ← getOneMessage LDAP_STREAM with
  | none => return
  | some message => transformEvent env message

end Provisioning
