import Provisioning.Model.Subscriptions

/-!
# The registry of subscriptions

What `SubscriptionService` is for, said without buckets, streams or hashes: a map from names to
what was registered under them. A call is answered from the map and changes it at one name, or not
at all. Only the listing is not determined by the map: it names each entry once, in some order.

Whether a password is the registered one is left to `same`, and which passwords are none at all to
`refuses`. With equality for the one and nothing for the other this is the obvious specification;
with what the hash scheme can tell apart, and what it takes, it is the one that is met.
-/

namespace Provisioning

/-- What is registered under a name. -/
structure Registration where
  realmsTopics : List RealmTopic
  requestPrefill : Bool
  password : String
  status : FillQueueStatus
deriving DecidableEq, Repr

abbrev Registry : Type := String → Option Registration

/-- The calls of the service; `salt` is what `hash_password` draws. -/
inductive Call where
  | create (salt : String) (subscription : NewSubscription)
  | delete (name : String)
  | setStatus (name : String) (status : FillQueueStatus)
  | get (name : String)
  | getStatus (name : String)
  | getAll

/-- What a call returns. A registration returns the status of its route: 201 where
`register_subscription` returns `True`, 200 where it returns `False`. -/
inductive Answer where
  | code (status : Nat)
  | finished
  | subscription (subscription : Subscription)
  | status (status : FillQueueStatus)
  | subscriptions (subscriptions : List (Option Subscription))
deriving DecidableEq, Repr

/-- The name that a call is about. -/
def Call.name? : Call → Option String
  | .create _ subscription => some subscription.name
  | .delete name => some name
  | .setStatus name _ => some name
  | .get name => some name
  | .getStatus name => some name
  | .getAll => none

namespace Registration

/-- What a new registration is entered as. -/
def ofNew (sub : NewSubscription) : Registration where
  realmsTopics := sub.realmsTopics
  requestPrefill := sub.requestPrefill
  password := sub.password
  status := if sub.requestPrefill then .pending else .done

/-- The entry as a reader of the service sees it. -/
def toSubscription (name : String) (entry : Registration) : Subscription where
  name := name
  realmsTopics := entry.realmsTopics
  requestPrefill := entry.requestPrefill
  prefillQueueStatus := entry.status

end Registration

namespace Registry

def empty : Registry := fun _ => none

/-- What is compared before the password, whatever the status. -/
def Agrees (sub : NewSubscription) (entry : Registration) : Prop :=
  sub.realmsTopics = entry.realmsTopics ∧ sub.requestPrefill = entry.requestPrefill

/-- The same parameters as those registered, whatever the status. -/
def Matches (same : String → String → Bool) (sub : NewSubscription) (entry : Registration) : Prop :=
  Agrees sub entry ∧ same sub.password entry.password = true

def conflict : Exc := .httpException 409
  "Subscription with the given name already registered but with different parameters."

def notFound : Exc := .valueError "Subscription was not found."

/-- **The calls on the map.** A password that is refused is an error as soon as it is looked at,
which in a conflict of other parameters it is not. -/
inductive Step (refuses : String → Bool) (same : String → String → Bool) (m : Registry) :
    Call → Except Exc Answer → Registry → Prop where
  | created (salt : String) (sub : NewSubscription) (h : m sub.name = none)
      (hpassword : refuses sub.password = false) :
      Step refuses same m (.create salt sub) (.ok (.code 201))
        (Function.update m sub.name (some (.ofNew sub)))
  | matching (salt : String) (sub : NewSubscription) (entry : Registration)
      (h : m sub.name = some entry) (hpassword : refuses sub.password = false)
      (hsame : Matches same sub entry) :
      Step refuses same m (.create salt sub) (.ok (.code 200)) m
  | conflicting (salt : String) (sub : NewSubscription) (entry : Registration)
      (h : m sub.name = some entry)
      (hpassword : Agrees sub entry → refuses sub.password = false)
      (hother : ¬ Matches same sub entry) :
      Step refuses same m (.create salt sub) (.error conflict) m
  | refused (salt : String) (sub : NewSubscription) (hpassword : refuses sub.password = true)
      (hagrees : ∀ entry, m sub.name = some entry → Agrees sub entry) :
      Step refuses same m (.create salt sub) (.error (.call .passwordValue)) m
  | deleted (name : String) (entry : Registration) (h : m name = some entry) :
      Step refuses same m (.delete name) (.ok .finished) (Function.update m name none)
  | statusSet (name : String) (status : FillQueueStatus) (entry : Registration)
      (h : m name = some entry) :
      Step refuses same m (.setStatus name status) (.ok .finished)
        (Function.update m name (some { entry with status := status }))
  | got (name : String) (entry : Registration) (h : m name = some entry) :
      Step refuses same m (.get name) (.ok (.subscription (entry.toSubscription name))) m
  | gotStatus (name : String) (entry : Registration) (h : m name = some entry) :
      Step refuses same m (.getStatus name) (.ok (.status entry.status)) m
  | listed (names : List String) (hnodup : names.Nodup) (hall : ∀ n, n ∈ names ↔ (m n).isSome) :
      Step refuses same m .getAll
        (.ok (.subscriptions (names.map fun n => (m n).map (·.toSubscription n)))) m
  | absent (call : Call) (name : String) (hname : call.name? = some name) (h : m name = none)
      (hcreate : ∀ salt sub, call ≠ .create salt sub) :
      Step refuses same m call (.error notFound) m

/-- Calls one after the other, with what each is answered. -/
inductive Run (refuses : String → Bool) (same : String → String → Bool) :
    Registry → List Call → List (Except Exc Answer) → Registry → Prop where
  | nil (m : Registry) : Run refuses same m [] [] m
  | cons {m m' m'' : Registry} {call : Call} {calls : List Call} {a : Except Exc Answer}
      {answers : List (Except Exc Answer)} (step : Step refuses same m call a m')
      (rest : Run refuses same m' calls answers m'') :
      Run refuses same m (call :: calls) (a :: answers) m''

end Registry

end Provisioning
