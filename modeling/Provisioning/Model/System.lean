import Provisioning.Model.Prefill
import Provisioning.Model.Dispatcher
import Provisioning.Model.Transformer

/-!
# The system

Every coroutine the services start, as one type. A run of the system is a run of a pool of these
jobs over one `World`: the requests to the API, the rounds of the three workers, and two things
that happen by themselves, the ack wait of a delivery passing and an entry of the password cache
reaching its age.

The rounds of one worker are separate jobs. A pool may interleave them, which a live worker does
not, but a worker that was restarted while the API still handled a request of its predecessor
does.

Whatever is said of any jobs, under any schedule, is said of families of these: how many requests
there are, how often a worker was restarted and how many deliveries have expired is a matter of the
family, and in which order they go on is one of the schedule.
-/

namespace Provisioning

open Await

/-- What a coroutine ends with. -/
inductive Reply where
  | status (code : Nat)
  | message (message : Option ProvisioningMessage)
  | finished
deriving DecidableEq, Repr

inductive Job where
  | create (salt : String) (subscription : NewSubscription)
  | delete (settings : AppSettings) (salt : String) (credentials : HTTPBasicCredentials)
      (name : String)
  | deleteService (name : String)
  | setStatus (name : String) (status : FillQueueStatus)
  | authenticate (salt : String) (credentials : HTTPBasicCredentials)
      (subscriptionName : Option String)
  | getNext (name : String) (rounds : Nat) (pop : Bool)
  | postStatus (name : String) (seqNum : Nat) (status : MessageProcessingStatus)
  | postEvent (message : Message)
  | prefill
  | dispatch
  | updateMapping
  | dispatcherStart
  | prefillStart
  | transform
  | ackWaitExpires (stream durable : String)
  | passwordCacheExpires (password : String) (hash subscription : Option String)
  | idle

variable (env : Env)

def Job.program : Job → Coro Reply
  | .create salt subscription => return .status (← createSubscription env salt subscription)
  | .delete settings salt credentials name =>
    return .status (← deleteSubscriptionRoute settings salt credentials name)
  | .deleteService name => do deleteSubscription name; return .finished
  | .setStatus name status => do setSubscriptionQueueStatus name status; return .finished
  | .authenticate salt credentials subscriptionName => do
    authenticateUser salt credentials subscriptionName; return .finished
  | .getNext name rounds pop => return .message (← getNextMessage name rounds pop)
  | .postStatus name seqNum status => return .status (← updateMessageStatus name seqNum status)
  | .postEvent message => return .status (← createNewMessage message)
  | .prefill => do prefillOnce env; return .finished
  | .dispatch => do dispatchOnce; return .finished
  | .updateMapping => do updateSubscriptionsMapping; return .finished
  | .dispatcherStart => do startDispatcher; return .finished
  | .prefillStart => do prepareQueues; return .finished
  | .transform => do transformOnce env; return .finished
  | .ackWaitExpires stream durable => do request (.ackWaitExpires stream durable); return .finished
  | .passwordCacheExpires password hash subscription => do
    request (.cachePop password hash subscription); return .finished
  | .idle => return .finished

abbrev System : Type := Config Op Op.Res CallError Exc Outage World Reply

abbrev Schedule : Type := List (Nat × Fault Outage)

abbrev History : Type := List (Event Op Op.Res CallError Outage World)

/-- The jobs at their start. -/
def System.start (w : World) (jobs : Nat → Job) : System :=
  .init w fun i => (jobs i).program env

@[simp] theorem System.start_world (w : World) (jobs : Nat → Job) :
    (System.start env w jobs).world = w := rfl
@[simp] theorem System.start_prog (w : World) (jobs : Nat → Job) (i : Nat) :
    (System.start env w jobs).prog i = (jobs i).program env := rfl
@[simp] theorem System.start_hist (w : World) (jobs : Nat → Job) :
    (System.start env w jobs).hist = [] := rfl

/-- Finitely many jobs, in their order; the rest of the pool is idle. -/
def Job.pool : List Job → Nat → Job
  | [], _ => .idle
  | job :: _, 0 => job
  | _ :: jobs, i + 1 => pool jobs i

theorem Job.pool_idle {jobs : List Job} {i : Nat} (h : jobs.length ≤ i) :
    Job.pool jobs i = .idle := by
  induction jobs generalizing i with
  | nil => rfl
  | cons job jobs ih =>
    cases i with
    | zero => exact absurd h (Nat.not_succ_le_zero _)
    | succ i => exact ih (Nat.le_of_succ_le_succ h)

/-- The rest of the pool has nothing to do. -/
theorem System.finished_idle (w : World) (jobs : List Job) {i : Nat} (h : jobs.length ≤ i) :
    ((System.start env w (Job.pool jobs)).prog i).Finished := by
  rw [System.start_prog, Job.pool_idle h]
  rfl

theorem Job.pool_forall {P : Job → Prop} {jobs : List Job} (h : ∀ job ∈ jobs, P job)
    (hidle : P .idle) (i : Nat) : P (Job.pool jobs i) := by
  induction jobs generalizing i with
  | nil => exact hidle
  | cons job jobs ih =>
    cases i with
    | zero => exact h job List.mem_cons_self
    | succ i => exact ih (fun j hj => h j (List.mem_cons_of_mem job hj)) i

/-! ## A concrete environment

An instance of the libraries for concrete runs: hashes that keep the password behind the salt, or
that keep of it what bcrypt does; regular expressions made of characters, `.` and `*`; and a
directory of one user. -/

/-- `x*` and then `rest`. -/
def matchStar (x : Char) (rest : List Char → Bool) : List Char → Bool
  | [] => rest []
  | c :: cs => rest (c :: cs) || ((x == '.' || x == c) && matchStar x rest cs)

/-- Does the text as a whole match the pattern? -/
def matchPattern : List Char → List Char → Bool
  | [], text => text.isEmpty
  | x :: '*' :: re, text => matchStar x (matchPattern re) text
  | _ :: _, [] => false
  | x :: re, c :: cs => (x == '.' || x == c) && matchPattern re cs

/-- What bcrypt does not take: a NUL, or more than 4096 characters. -/
def refusedByBcrypt (pw : String) : Bool := pw.toList.contains '\x00' || decide (4096 < pw.length)

def Env.sample : Env where
  refuses := refusedByBcrypt
  hash salt pw := salt ++ "$" ++ pw
  verify pw hashed := !refusedByBcrypt pw && decide (("$" ++ pw).toList <:+ hashed.toList)
  needsUpdate hashed pw := decide (("old$" ++ pw).toList <:+ hashed.toList)
  verify_refused pw hashed h := by rw [h]; rfl
  verify_hash salt pw h := by
    rw [h, Bool.not_false, Bool.true_and, decide_eq_true_eq]
    simp only [String.toList_append]
    exact ⟨salt.toList, by simp⟩
  hash_ne_empty salt pw h := by
    have hlist := congrArg String.toList h
    simp at hlist
  fullmatch pattern text := some (matchPattern pattern.toList text.toList)
  objectTypes := ["users/user", "groups/group"]
  listObjects objectType := if objectType = "users/user" then ["u1"] else []
  getObject url := [("dn", .str url)]
  maxPrefillAttempts := 5
  ldapPublisherName := .udmListener
  hasModule _ := true
  representation objectType entry :=
    match firstValue entry "entryUUID", firstValue entry "displayName" with
    | .ok uuid, .ok name =>
      .ok [("objectType", .str objectType), ("uuid", .str uuid), ("displayName", .str name)]
    | _, _ => .error .udm
  deployment := .sample

/-- What bcrypt looks at: the first 72 bytes. -/
def significant (pw : String) : List UInt8 := (pw.toList.flatMap String.utf8EncodeChar).take 72

/-- A hash that shows what it is made of. -/
def bcryptDigest (pw : String) : String := String.ofList ('$' :: (significant pw).map Char.ofUInt8)

/-- The environment of the samples, with hashes of the significant part only. -/
def Env.bcrypt : Env where
  __ := Env.sample
  hash _ pw := bcryptDigest pw
  verify pw hashed := !refusedByBcrypt pw && hashed == bcryptDigest pw
  needsUpdate _ _ := false
  verify_refused pw hashed h := by
    have h : refusedByBcrypt pw = true := h
    rw [h]
    rfl
  verify_hash _ pw h := by
    have h : refusedByBcrypt pw = false := h
    rw [h, beq_self_eq_true]
    rfl
  hash_ne_empty _ pw h := by
    have hlist := congrArg String.toList h
    simp [bcryptDigest] at hlist

theorem bcryptDigest_inj {pw pw' : String} :
    bcryptDigest pw = bcryptDigest pw' ↔ significant pw = significant pw' := by
  have hinj : Function.Injective Char.ofUInt8 := by
    intro b b' h
    have hval : (Char.ofUInt8 b).val = (Char.ofUInt8 b').val := congrArg Char.val h
    exact UInt8.toUInt32_inj.mp hval
  unfold bcryptDigest
  rw [String.ofList_inj, List.cons.injEq, List.map_inj_right fun _ _ h => hinj h]
  exact and_iff_right rfl

theorem significant_of_verify {salt pw pw' : String}
    (h : Env.bcrypt.verify pw (Env.bcrypt.hash salt pw') = true) :
    significant pw = significant pw' := by
  have hdigest : bcryptDigest pw' = bcryptDigest pw := eq_of_beq (Bool.and_eq_true_iff.mp h).2
  exact (bcryptDigest_inj.mp hdigest).symm

def sameSignificant (pw pw' : String) : Bool := significant pw == significant pw'

/-- Two passwords are told apart by their first 72 bytes alone. -/
theorem verify_bcrypt {salt pw pw' : String} (h : refusedByBcrypt pw = false) :
    Env.bcrypt.verify pw (Env.bcrypt.hash salt pw') = sameSignificant pw pw' := by
  show (!refusedByBcrypt pw && bcryptDigest pw' == bcryptDigest pw) =
    (significant pw == significant pw')
  rw [h, Bool.not_false, Bool.true_and, Bool.eq_iff_iff, beq_iff_eq, beq_iff_eq, bcryptDigest_inj]
  exact eq_comm

/-- Nothing is stored anywhere. -/
def World.empty : World where
  bucket _ := .empty
  streams _ := none
  prefillDone _ := false
  passwordCache := []
  mapping := []

/-- The internal streams exist, each with its consumer. -/
def World.prepared : World :=
  [DISPATCHER_STREAM, PREFILL_STREAM, PREFILL_FAILURES_STREAM].foldl (fun w name =>
    w.setStream (streamKey name)
      (some ((Store.Stream.new [name] true).setDurable (durableKey name) (some .fresh)))) .empty

/-- A subscription to users, with a prefill. -/
def NewSubscription.sample : NewSubscription where
  name := "a"
  realmsTopics := [⟨"udm", "users/user"⟩]
  requestPrefill := true
  password := "pw"

/-- The state that registering a subscription leaves. -/
def World.registering (sub : NewSubscription) : World :=
  ((createSubscription .sample "s" sub).alone (serve .sample) 0 .prepared).world

def World.registered : World := .registering .sample

/-- The same without a prefill. -/
def NewSubscription.withoutPrefill : NewSubscription := { sample with requestPrefill := false }

/-- A change of a user. -/
def Message.sample : Message := ⟨.udmListener, "udm", "users/user", ⟨[], [("dn", .str "u1")]⟩⟩

/-- "a" registered without a prefill, and a live message in its stream. -/
def World.withMessage : World :=
  (answer .sample 0 (.publish (mainSubject "a") (.message .sample) (streamKey "a"))
    (.registering .withoutPrefill)).2

def AppSettings.sample : AppSettings := ⟨"admin", "secret"⟩

def HTTPBasicCredentials.admin : HTTPBasicCredentials := ⟨"admin", "secret"⟩

end Provisioning
