import Provisioning.Model.Adapter

/-!
# The dispatcher

`server/core/dispatcher/service/dispatcher.py`. The mapping from topics to subscriptions is
rebuilt from the whole bucket, and a message is sent to whoever the mapping names at that moment.
A set of subscriptions is kept as a list without repetitions; the order in which Python walks the
set is not specified.
-/

namespace Provisioning

open Await

/-- The incoming stream. -/
abbrev eventQueue : String := streamKey DISPATCHER_STREAM

abbrev eventWorker : String := durableKey DISPATCHER_STREAM

/-! ## The elements of the mapping -/

namespace Subscription

/-- `BaseModel.__eq__`. -/
def modelEq (self other : Subscription) : Bool :=
  self.name == other.name && self.realmsTopics == other.realmsTopics &&
    self.requestPrefill == other.requestPrefill &&
    self.prefillQueueStatus == other.prefillQueueStatus

/-- `BaseSubscription.__eq__`. -/
def baseEq (self other : Subscription) : Bool :=
  if !self.modelEq other then false
  else if self.name != other.name || self.realmsTopics != other.realmsTopics then false
  else if self.realmsTopics.length != other.realmsTopics.length then false
  else self.realmsTopics.all fun realmTopic => other.realmsTopics.contains realmTopic

/-- `Subscription.__eq__`. -/
def eq (self other : Subscription) : Bool :=
  if !self.baseEq other then false
  else self.prefillQueueStatus == other.prefillQueueStatus

/-- `Subscription.__hash__`; every process hashes strings its own way. -/
def hash (strHash : String → Int) (self : Subscription) : Int := strHash self.name

end Subscription

namespace Mapping

/-- `set.add`: an element is there if one with its hash equals it. -/
def hashAdd (strHash : String → Int) (sub : Subscription) (subs : List Subscription) :
    List Subscription :=
  if subs.any fun s => s.hash strHash == sub.hash strHash && s.eq sub then subs
  else subs ++ [sub]

/-- `d.setdefault(key, default)[..] = f(..)` on an insertion-ordered dictionary. -/
def upsert {V : Type} (key : String) (default : V) (f : V → V) :
    List (String × V) → List (String × V)
  | [] => [(key, f default)]
  | (k, v) :: rest => if k = key then (k, f v) :: rest else (k, v) :: upsert key default f rest

/-- `set.add`, for a set whose elements are the same if they are equal in all fields. -/
def addToSet (sub : Subscription) (subs : List Subscription) : List Subscription :=
  if sub ∈ subs then subs else subs ++ [sub]

/-- `mapping.setdefault(realm, {}).setdefault(topic, set()).add(sub)`. -/
def add (mapping : Mapping) (realmTopic : RealmTopic) (sub : Subscription) : Mapping :=
  upsert realmTopic.realm [] (upsert realmTopic.topic [] (addToSet sub)) mapping

/-- The mapping of a list of subscriptions. -/
def ofSubscriptions (subs : List Subscription) : Mapping :=
  subs.foldl (fun mapping sub =>
    sub.realmsTopics.foldl (fun mapping realmTopic => add mapping realmTopic sub) mapping) []

/-- `mapping.get(realm, {}).get(topic, [])`. -/
def subscribers (mapping : Mapping) (realm topic : String) : List Subscription :=
  ((mapping.lookup realm).getD []).lookup topic |>.getD []

end Mapping

def updateSubscriptionsMapping : Coro Unit := do
  let subs ← getAllSubscriptions
  request (.mappingSet (Mapping.ofSubscriptions subs))

/-- `Message.model_validate`. -/
def validatedMessage (message : Msg) : Coro Message :=
  match message.payload with
  | .message m => return m
  | .prefill _ => throw .validationError
  | .simple .. => throw .validationError

/-- `DispatcherService.handle_message`. -/
def handleEvent (message : Msg) : Coro Unit := do
  let validatedMsg ← validatedMessage message
  let mapping ← request .mappingGet
  Prog.forEach (mapping.subscribers validatedMsg.realm validatedMsg.topic) fun sub =>
    addMessage sub.name (mainSubject sub.name) (.message validatedMsg)
  request (.ack message)

/-- One round of `dispatch_events`: the next event of the queue, if there is one. -/
def dispatchOnce : Coro Unit := do
  match ← getOneMessage DISPATCHER_STREAM with
  | none => return
  | some message => handleEvent message

/-- `subscribe_to_queue` and the first mapping, before any event is handled. -/
def startDispatcher : Coro Unit := do
  ensureStream DISPATCHER_STREAM false [DISPATCHER_STREAM]
  ensureConsumer DISPATCHER_STREAM
  updateSubscriptionsMapping

end Provisioning
