import Provisioning.Lib.Bucket

/-!
# The data the services exchange

`univention/provisioning/models`, as far as a modelled function reads it. A pydantic model is a
structure; a `str` enumeration is an inductive type. The timestamp `ts` of a message is left out:
every service passes it on or logs it and none decides anything by it.

A JSON object is an association list. Of its values the services only ever look at strings and,
in an LDAP entry, at lists of byte strings; anything else is kept as its JSON text.
-/

namespace Provisioning

structure RealmTopic where
  realm : String
  topic : String
deriving DecidableEq, Repr

inductive FillQueueStatus where
  /-- Pre-filling the queue was not yet started. -/
  | pending
  /-- The queue is being pre-filled. -/
  | running
  /-- The pre-fill task failed. -/
  | failed
  /-- The queue was pre-filled successfully. -/
  | done
deriving DecidableEq, Repr

/-- Request to register a subscription. -/
structure NewSubscription where
  name : String
  realmsTopics : List RealmTopic
  requestPrefill : Bool
  password : String
deriving DecidableEq, Repr

/-- A registered subscription. -/
structure Subscription where
  name : String
  realmsTopics : List RealmTopic
  requestPrefill : Bool
  prefillQueueStatus : FillQueueStatus
deriving DecidableEq, Repr

inductive Value where
  | str (s : String)
  /-- The values of an LDAP attribute, decoded. -/
  | bytes (xs : List String)
  | other (json : String)
deriving DecidableEq, Repr

abbrev Obj : Type := List (String × Value)

namespace Obj

def get (o : Obj) (key : String) : Option Value := (o.find? (·.1 == key)).map (·.2)

/-- `if obj:`, an empty dictionary is false. -/
def truthy (o : Obj) : Bool := !o.isEmpty

@[simp] theorem truthy_nil : truthy [] = false := rfl
@[simp] theorem truthy_cons (kv : String × Value) (o : Obj) : truthy (kv :: o) = true := rfl

theorem truthy_eq_true {o : Obj} : o.truthy = true ↔ o ≠ [] := by
  cases o <;> simp

end Obj

/-- Python's truth value of a JSON value. -/
def Value.truthy : Value → Bool
  | .str s => s != ""
  | .bytes xs => !xs.isEmpty
  | .other json => !(["null", "false", "0", "0.0", "[]", "{}"].contains json)

inductive PublisherName where
  | udmListener
  | ldifProducer
  | udmPreFill
  | consumerRegistration
  | consumerClientTest
deriving DecidableEq, Repr

structure Body where
  old : Obj
  new : Obj
deriving DecidableEq, Repr

/-- The validator of both fields: `v or {}`. -/
def Body.setEmptyDict (v : Option Obj) : Obj := v.getD []

/-- The base class for any kind of message sent via the queues. -/
structure Message where
  publisherName : PublisherName
  realm : String
  topic : String
  body : Body
deriving DecidableEq, Repr

/-- A request to the prefill service. -/
structure PrefillMessage where
  publisherName : PublisherName
  subscriptionName : String
  realmsTopics : List RealmTopic
deriving DecidableEq, Repr

/-- What is published to a stream. -/
inductive Payload where
  | message (m : Message)
  | prefill (m : PrefillMessage)
  /-- A `SimpleMessage`; its body is the data of a failed prefill request. -/
  | simple (publisherName : PublisherName) (body : PrefillMessage)
deriving DecidableEq, Repr

structure ProvisioningMessage where
  message : Message
  sequenceNumber : Nat
  numDelivered : Nat
deriving DecidableEq, Repr

structure HTTPBasicCredentials where
  username : String
  password : String
deriving DecidableEq, Repr

inductive Bucket where
  | subscriptions
  | credentials
  | cache
deriving DecidableEq, Repr

/-- What a bucket holds: JSON dumps of subscriptions, password hashes, JSON dumps of UDM
objects. -/
abbrev Bucket.Val : Bucket → Type
  | .subscriptions => Subscription
  | .credentials => String
  | .cache => Obj

/-- Avoid creating a pair with an empty value: `not value`, for what is passed to `put_value`. A
dumped model has fields, and `json.dumps` of anything is a text with characters. -/
def Bucket.Val.empty : {b : Bucket} → b.Val → Bool
  | .subscriptions, _ => false
  | .credentials, (hash : String) => hash == ""
  | .cache, _ => false

/-! ## Names of streams and subjects -/

def DISPATCHER_STREAM : String := "incoming"
def PREFILL_STREAM : String := "prefill"
def PREFILL_FAILURES_STREAM : String := "prefill-failures"
def LDAP_STREAM : String := "ldap-producer"
def LDAP_SUBJECT : String := "ldap-producer-subject"
def LDIF_STREAM : String := "ldif-producer"

/-- `DISPATCHER_SUBJECT_TEMPLATE`. -/
def mainSubject (subscription : String) : String := subscription ++ ".main"

/-- `PREFILL_SUBJECT_TEMPLATE`. -/
def prefillSubject (subscription : String) : String := subscription ++ ".prefill"

/-- `NatsKeys.stream`. -/
def streamKey (subject : String) : String := "stream:" ++ subject

/-- `NatsKeys.durable_name`. -/
def durableKey (subject : String) : String := "durable_name:" ++ subject

theorem streamKey_inj {a b : String} : streamKey a = streamKey b ↔ a = b := by
  simp [streamKey, String.append_right_inj]

theorem mainSubject_inj {a b : String} : mainSubject a = mainSubject b ↔ a = b := by
  simp [mainSubject, String.append_left_inj]

theorem prefillSubject_inj {a b : String} : prefillSubject a = prefillSubject b ↔ a = b := by
  simp [prefillSubject, String.append_left_inj]

/-- Subjects that do not end in `.prefill` belong to no prefill. -/
theorem ne_prefillSubject {subject name : String} (h : ¬ ".prefill".toList <:+ subject.toList) :
    subject ≠ prefillSubject name := by
  intro heq
  refine h ⟨name.toList, ?_⟩
  rw [heq]
  unfold prefillSubject
  rw [String.toList_append]

theorem mainSubject_no_prefill (name : String) :
    ¬ ".prefill".toList <:+ (mainSubject name).toList := by
  intro ⟨front, h⟩
  have hlast := congrArg List.getLast? h
  unfold mainSubject at hlast
  rw [String.toList_append] at hlast
  simp at hlast

theorem mainSubject_ne_prefillSubject (name name' : String) :
    mainSubject name ≠ prefillSubject name' :=
  ne_prefillSubject (mainSubject_no_prefill name)

end Provisioning
