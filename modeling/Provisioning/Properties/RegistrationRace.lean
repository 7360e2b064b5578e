import Provisioning.Properties.RegistrationRetry

/-!
# Registrations of one name at once

A registration looks for a record and, if there is none, writes the hash and then the record.
Nothing keeps a second one from looking in between: then both go on, both write, and what is left
is whatever was written last, which may be the password of the one and the topics of the other.

**`serialised_iff`** says that this is the whole of it, for any number of registrations: they behave
as if they had come one after the other exactly when none of them looks for the record while
another is on its way to writing it.

## The phases

An orderly race goes through three phases, and each is a predicate on the whole system: `Untouched`,
where nobody has looked; `Storing`, where one request has found no record and is about to write; and
`Registered`, where the record is written and everybody else finds it. A step of whatever request
stays in the phase or goes on to the next one, with one exception: in `Storing` another request
looks for the record, and finds none.

That exception is the violation of the condition, and from there on the race is `Overlapped`: two
requests have found no record. Nothing leads back, since a request that has found none is answered
201 or fails. So along a run there are two possibilities (`run_orderly`), and they are told apart
both by the condition and by the result, which makes the theorem an equivalence.

## How much a phase says

For every request a phase says exactly where it stands, up to the calls that do not matter. After
the record is written the winner still provides the stream, and its program is only known by its
calls (`ProvideCall`) and by the way it can end (`Succeeds`). The losers are known exactly: their
answer is part of the property.
-/

namespace Provisioning

open Await Store Prog

section Race

variable (env : Env) (salts : Nat → String) (subs : Nat → NewSubscription) (count : Nat)

/-- So many requests for registration. -/
def registrations (i : Nat) : Job :=
  if i < count then .create (salts i) (subs i) else .idle

/-- What a registration answers when there is a record already. -/
def verdict (found : Bool) : Coro Reply :=
  if found then .pure (.status 200)
  else .throw (.httpException 409
    "Subscription with the given name already registered but with different parameters.")

/-- Request `i` has won: it is answered 201, the others as they match it, and everything stored is
its own. -/
structure Serialised (name : String) (w : World) (d : System) (i : Nat) : Prop where
  lt : i < count
  winner : d.prog i = .pure (.status 201)
  losers : ∀ j < count, j ≠ i → ∃ found calls,
    (isSubscriptionsMatching env (subs j) (newSubInfo (subs i))).Runs (serve env) j d.world found
      d.world calls ∧ d.prog j = verdict found
  hash : d.world.credential name = some (env.hash (salts i) (subs i).password)
  record : d.world.record name = some (newSubInfo (subs i))
  queue : ∀ m, RequestQueued d.world name m →
    RequestQueued w name m ∨ (m.origin = i ∧ m.payload = .prefill (prefillRequest (subs i)))
  queued : (subs i).requestPrefill = true → ∃ m, RequestQueued d.world name m ∧ m.origin = i ∧
    m.payload = .prefill (prefillRequest (subs i))

/-- The step is not one that looks for the record while another request is about to write the hash
or the record. -/
def ChecksAlone (name : String) (c : System) (l : Nat × Fault Outage) : Prop :=
  (c.prog l.1).next? = some (.kvGet .subscriptions name) → ∀ j, j ≠ l.1 → ∀ op,
    (c.prog j).next? = some op → ¬ PutsHash name op ∧ ¬ PutsRecord name op

/-! ## The stages of a request -/

/-! A registration as the job runs it is cut at its writes: `registerNew`, then `storeRecord`, then
`provide`. The stage of a request is which of these its program is. -/

/-- The request's reply is the status of its answer. -/
def finish (p : Coro Nat) : Coro Reply := p.bind fun code => .pure (.status code)

/-- What is left once the record is written. -/
def provide (sub : NewSubscription) : Coro Nat :=
  (ensureStream sub.name true [mainSubject sub.name, prefillSubject sub.name]).bind fun _ =>
    (ensureConsumer sub.name).bind fun _ =>
      if sub.requestPrefill then (sendRequestToPrefill sub).bind fun _ => .pure 201 else .pure 201

/-- What is left once the hash is written. -/
def storeRecord (sub : NewSubscription) : Coro Nat :=
  (request (.kvPut .subscriptions sub.name (newSubInfo sub))).bind fun _ => provide sub

variable {env salts subs count}

theorem registerNew_eq (salt : String) (sub : NewSubscription) : registerNew env salt sub =
    (request (.kvPut .credentials sub.name (env.hash salt sub.password))).bind fun _ =>
      storeRecord sub := by
  unfold registerNew storeRecord provide
  cases sub.requestPrefill <;> rfl

/-- The program of a registration: its look for the record, and what follows on either answer. -/
theorem program_create (salt : String) (sub : NewSubscription) :
    (Job.create salt sub).program env = (getValue sub.name .subscriptions).bind fun
      | some existingSub => finish (registerAgain env sub existingSub)
      | none =>
        if env.refuses sub.password then .throw (.call .passwordValue)
        else finish (registerNew env salt sub) := by
  show finish (createSubscription env salt sub) = _
  unfold finish
  rw [createSubscription_eq, bind_assoc]
  refine congrArg (Prog.bind _) (funext fun found => ?_)
  cases found with
  | some existingSub => rfl
  | none => cases env.refuses sub.password <;> rfl

/-- A program that, unless a call fails, answers 201. -/
def Succeeds (p : Coro Reply) : Prop :=
  p.Ends fun x => x = .ok (.status 201) ∨ ∃ e, x = .error (.call e)

/-- The calls that `provide` makes touch neither the hash nor the record. -/
inductive ProvideCall (sub : NewSubscription) : Op → Prop where
  | streamInfo : ProvideCall sub (.streamInfo (streamKey sub.name))
  | addStream : ProvideCall sub (.addStream (subscriptionStream sub.name))
  | updateStream : ProvideCall sub (.updateStream (subscriptionStream sub.name))
  | consumerInfo : ProvideCall sub (.consumerInfo (streamKey sub.name) (durableKey sub.name))
  | addConsumer : ProvideCall sub (.addConsumer (streamKey sub.name) (durableKey sub.name))
  | publish : ProvideCall sub
      (.publish PREFILL_STREAM (.prefill (prefillRequest sub)) (streamKey PREFILL_STREAM))

/-- What is left once the record is written makes no other calls. -/
theorem uses_provide (sub : NewSubscription) : (finish (provide sub)).Uses (ProvideCall sub) := by
  refine Uses.bind (Uses.bind (uses_ensureStream .streamInfo .addStream .updateStream) fun _ =>
    Uses.bind (uses_ensureConsumer .consumerInfo .addConsumer) fun _ => ?_) fun _ => trivial
  split
  · exact Uses.bind (uses_addMessage .publish) fun _ => trivial
  · trivial

/-- The program raises nothing but the errors of its calls. -/
def RaisesCalls {α : Type} (p : Coro α) : Prop :=
  p.Ends fun x => ∀ e, x = .error e → ∃ e', e = .call e'

/-! Of the adapters it has to be known that they raise nothing of their own: then a registration
that has got past its look fails only where a call of it fails. -/
theorem raisesCalls_request (op : Op) : RaisesCalls (request op) := by
  intro r
  cases r with
  | ok a => exact nofun
  | error x => exact fun e h => ⟨x, (Except.error.inj h).symm⟩

theorem RaisesCalls.bind {α β : Type} {p : Coro α} {f : α → Coro β} (hp : RaisesCalls p)
    (hf : ∀ a, RaisesCalls (f a)) : RaisesCalls (p.bind f) :=
  Ends.bind hp (fun a _ => hf a) fun e he e' h => he e' (by rw [← Except.error.inj h])

theorem RaisesCalls.catching {α : Type} {e : CallError} {p handler : Coro α} (hp : RaisesCalls p)
    (hh : RaisesCalls handler) : RaisesCalls (catching e p handler) := by
  apply Ends.tryCatch hp (fun _ _ => nofun)
  intro x hx
  split
  · exact hh
  · exact fun e h => hx e (by rw [← Except.error.inj h])

theorem raisesCalls_pure {α : Type} (a : α) : RaisesCalls (.pure a) := nofun

theorem raisesCalls_ensureStream (stream : String) (manualDelete : Bool)
    (subjects : List String) : RaisesCalls (ensureStream stream manualDelete subjects) := by
  refine RaisesCalls.bind (RaisesCalls.catching
    ((raisesCalls_request _).bind fun _ => raisesCalls_pure _)
    ((raisesCalls_request _).bind fun _ => raisesCalls_pure _)) fun found => ?_
  cases found with
  | true => exact raisesCalls_request _
  | false => exact raisesCalls_pure _

theorem raisesCalls_ensureConsumer (stream : String) : RaisesCalls (ensureConsumer stream) :=
  (raisesCalls_request _).catching (raisesCalls_request _)

/-- A program succeeds if its rest does and what precedes it raises only what its calls raise. -/
theorem Succeeds.bind {α : Type} {p : Coro α} {f : α → Coro Reply} (hp : RaisesCalls p)
    (hf : ∀ a, Succeeds (f a)) : Succeeds (p.bind f) := by
  apply Ends.bind hp (fun a _ => hf a)
  intro e he
  obtain ⟨e', rfl⟩ := he e rfl
  exact Or.inr ⟨e', rfl⟩

theorem succeeds_provide (sub : NewSubscription) : Succeeds (finish (provide sub)) := by
  have h201 : Succeeds (.pure (.status 201)) := Or.inl rfl
  unfold finish provide
  rw [bind_assoc]
  refine Succeeds.bind (raisesCalls_ensureStream _ _ _) fun _ => ?_
  rw [bind_assoc]
  refine Succeeds.bind (raisesCalls_ensureConsumer _) fun _ => ?_
  split
  · rw [bind_assoc]
    exact Succeeds.bind ((raisesCalls_request _).bind fun _ => raisesCalls_pure _) fun _ => h201
  · exact h201

theorem succeeds_storeRecord (sub : NewSubscription) : Succeeds (finish (storeRecord sub)) := by
  unfold finish storeRecord
  rw [bind_assoc]
  exact Succeeds.bind (raisesCalls_request _) fun _ => succeeds_provide sub

theorem succeeds_registerNew (salt : String) (sub : NewSubscription) :
    Succeeds (finish (registerNew env salt sub)) := by
  unfold finish
  rw [registerNew_eq, bind_assoc]
  exact Succeeds.bind (raisesCalls_request _) fun _ => succeeds_storeRecord sub

/-! ### Matching an existing subscription -/

/-- What `is_subscriptions_matching` finds when the stored hash is `hashed`. -/
def matchesHash (env : Env) (newSub : NewSubscription) (existingSub : Subscription)
    (hashed : String) : Bool :=
  existingSub.requestPrefill == newSub.requestPrefill &&
    newSub.realmsTopics == existingSub.realmsTopics && env.verify newSub.password hashed

/-- What is left of the comparison when the fields agree and the hash is read. -/
def comparePassword (env : Env) (password : String) (hashed : Option String) : Coro Bool :=
  if env.raises password hashed then .throw (.call .passwordValue)
  else .pure (env.verifyPassword password hashed)

/-- Either the fields decide, or the hash is read and decides. -/
theorem isSubscriptionsMatching_cases (env : Env) (newSub : NewSubscription)
    (existingSub : Subscription) :
    (isSubscriptionsMatching env newSub existingSub = .pure false ∧
      ∀ hashed, matchesHash env newSub existingSub hashed = false) ∨
    (isSubscriptionsMatching env newSub existingSub =
      (getValue newSub.name .credentials).bind (comparePassword env newSub.password)) ∧
      ∀ hashed, matchesHash env newSub existingSub hashed =
        env.verify newSub.password hashed := by
  unfold isSubscriptionsMatching matchesHash
  by_cases hprefill : existingSub.requestPrefill = newSub.requestPrefill
  · by_cases htopics : newSub.realmsTopics = existingSub.realmsTopics
    · right
      simp only [hprefill, htopics, bne_self_eq_false, beq_self_eq_true, Bool.true_and]
      exact ⟨rfl, fun _ => trivial⟩
    · left
      simp [hprefill, htopics]
  · left
    simp [hprefill]

/-- A stored hash is compared, and with a password that the scheme refuses that raises. -/
theorem comparePassword_some {password hashed : String} (h : env.refuses password = false) :
    comparePassword env password (some hashed) = .pure (env.verify password hashed) := by
  unfold comparePassword Env.raises
  rw [h]
  rfl

theorem comparePassword_refused {password hashed : String} (h : env.refuses password = true) :
    comparePassword env password (some hashed) = .throw (.call .passwordValue) := by
  unfold comparePassword Env.raises
  rw [h]
  rfl

/-- The comparison does not come to a password that cannot be verified. -/
def Comparable (env : Env) (newSub : NewSubscription) (existingSub : Subscription) : Prop :=
  isSubscriptionsMatching env newSub existingSub = .pure false ∨
    env.refuses newSub.password = false

/-- The comparison of a request, run alone: nothing is changed, and the result is the one of the
fields and the hash. -/
theorem runs_isSubscriptionsMatching {tid : Nat} {w : World} {newSub : NewSubscription}
    {hashed : String} {existingSub : Subscription} (hc : Comparable env newSub existingSub)
    (h : w.credential newSub.name = some hashed) :
    ∃ calls, (isSubscriptionsMatching env newSub existingSub).Runs (serve env) tid w
      (matchesHash env newSub existingSub hashed) w calls := by
  rcases isSubscriptionsMatching_cases env newSub existingSub with ⟨heq, hm⟩ | ⟨heq, hm⟩
  · rw [heq, hm]
    exact ⟨[], Runs.pure false w⟩
  · have hrefuses : env.refuses newSub.password = false := by
      rcases hc with hfields | hrefuses
      · rw [heq, getValue_bind] at hfields
        cases hfields
      · exact hrefuses
    have hcompare : (comparePassword env newSub.password (some hashed)).Runs (serve env) tid w
        (env.verify newSub.password hashed) w [] := by
      rw [comparePassword_some hrefuses]
      exact Runs.pure _ w
    rw [heq, hm]
    exact ⟨_, (runs_getValue h).bind hcompare⟩

/-- What a request does that has found a record. -/
theorem registerAgain_eq (env : Env) (newSub : NewSubscription) (existingSub : Subscription) :
    finish (registerAgain env newSub existingSub) =
      (isSubscriptionsMatching env newSub existingSub).bind verdict := by
  unfold finish registerAgain
  rw [bind_eq, bind_assoc]
  refine congrArg (Prog.bind _) (funext fun found => ?_)
  cases found <;> rfl

/-! ## The phases of a race -/

variable (env salts subs count) in
/-- Request `j` has not looked for the record yet. -/
def AtStart (c : System) (j : Nat) : Prop :=
  c.prog j = (registrations salts subs count j).program env

variable (env salts subs count) in
/-- Nobody has looked for the record. -/
structure Untouched (name : String) (w : World) (c : System) : Prop where
  start : ∀ j, AtStart env salts subs count c j
  record : c.world.record name = none
  queue : ∀ m, RequestQueued c.world name m → RequestQueued w name m

variable (env salts subs count) in
/-- Request `i` has found no record and is about to write the hash or the record. -/
structure Storing (name : String) (w : World) (c : System) (i : Nat) : Prop where
  lt : i < count
  stage : c.prog i = finish (registerNew env (salts i) (subs i)) ∨
    (c.prog i = finish (storeRecord (subs i)) ∧
      c.world.credential name = some (env.hash (salts i) (subs i).password))
  start : ∀ j, j ≠ i → AtStart env salts subs count c j
  record : c.world.record name = none
  queue : ∀ m, RequestQueued c.world name m → RequestQueued w name m

variable (env salts subs count) in
/-- Request `i` has written the record, and the others find it. -/
structure Registered (name : String) (w : World) (c : System) (i : Nat) : Prop where
  lt : i < count
  hash : c.world.credential name = some (env.hash (salts i) (subs i).password)
  record : c.world.record name = some (newSubInfo (subs i))
  uses : (c.prog i).Uses (ProvideCall (subs i))
  succeeds : Succeeds (c.prog i)
  others : ∀ j, j ≠ i → AtStart env salts subs count c j ∨
    (j < count ∧
      c.prog j = (isSubscriptionsMatching env (subs j) (newSubInfo (subs i))).bind verdict) ∨
    (c.prog j = verdict (matchesHash env (subs j) (newSubInfo (subs i))
      (env.hash (salts i) (subs i).password)) ∧ Comparable env (subs j) (newSubInfo (subs i)))
  queue : ∀ m, RequestQueued c.world name m →
    RequestQueued w name m ∨ (m.origin = i ∧ m.payload = .prefill (prefillRequest (subs i)))

variable (count) in
/-- Two requests have found no record. -/
def Overlapped (c : System) : Prop :=
  ∃ i j, i ≠ j ∧ i < count ∧ j < count ∧ Succeeds (c.prog i) ∧ Succeeds (c.prog j)

variable {name : String} {w : World} {c d : System} {i j : Nat}

/-- The program of a request that has a number below the count. -/
theorem program_registrations (hj : j < count) :
    (registrations salts subs count j).program env =
      (getValue (subs j).name .subscriptions).bind fun
        | some existingSub =>
          (isSubscriptionsMatching env (subs j) existingSub).bind verdict
        | none =>
          if env.refuses (subs j).password then .throw (.call .passwordValue)
          else finish (registerNew env (salts j) (subs j)) := by
  unfold registrations
  rw [if_pos hj, program_create]
  refine congrArg (Prog.bind _) (funext fun found => ?_)
  cases found with
  | none => rfl
  | some existingSub => exact registerAgain_eq env (subs j) existingSub

/-- Only a request that is not over takes a step; at its start it is one of the requests. -/
theorem lt_of_step (hstart : AtStart env salts subs count c j)
    (hs : c.step (serve env) (j, .ok) = some d) : j < count := by
  by_contra hj
  obtain ⟨op, k, hp, -⟩ := Config.step_cases hs
  have hidle : c.prog j = .pure .finished := by
    rw [hstart]
    unfold registrations
    rw [if_neg hj]
    rfl
  rw [hidle] at hp
  cases hp

/-- Its first call is the look for the record. -/
theorem next_start (hname : (subs j).name = name) (hj : j < count)
    (hstart : AtStart env salts subs count c j) :
    (c.prog j).next? = some (.kvGet .subscriptions name) := by
  rw [hstart, program_registrations hj, getValue_bind, hname]
  rfl

/-- A request at its start writes nothing with its next call. -/
theorem start_reads (hnames : ∀ j < count, (subs j).name = name)
    (hstart : AtStart env salts subs count c j) {op : Op} (hop : (c.prog j).next? = some op) :
    ¬ PutsHash name op ∧ ¬ PutsRecord name op := by
  by_cases hj : j < count
  · rw [next_start (hnames j hj) hj hstart] at hop
    obtain rfl := Option.some.inj hop
    exact ⟨nofun, nofun⟩
  · rw [hstart] at hop
    unfold registrations at hop
    rw [if_neg hj] at hop
    cases hop

/-- The first request that looks for the record. -/
theorem Untouched.step (h : Untouched env salts subs count name w c)
    (hnames : ∀ j < count, (subs j).name = name) (hs : c.step (serve env) (j, .ok) = some d)
    (hfail : ∀ e, d.prog j ≠ .throw (.call e)) :
    ChecksAlone name c (j, .ok) ∧ Storing env salts subs count name w d j := by
  have hj := lt_of_step (h.start j) hs
  have hp := h.start j
  rw [AtStart, program_registrations hj] at hp
  obtain ⟨hprog, hworld, hrest⟩ := step_getValue hp hs
  have hnone : (c.world.bucket .subscriptions).value? (subs j).name = none := by
    rw [hnames j hj]
    exact h.record
  rw [hnone] at hprog
  have htaken : ¬ env.refuses (subs j).password = true :=
    fun hrefused => hfail _ (hprog.trans (if_pos hrefused))
  rw [if_neg htaken] at hprog
  refine ⟨fun _ k _ op hop => start_reads hnames (h.start k) hop, hj, Or.inl hprog,
    fun k hk => (hrest k hk).trans (h.start k), ?_, ?_⟩
  · rw [hworld]
    exact h.record
  · rw [hworld]
    exact h.queue

theorem finish_registerNew (salt : String) (sub : NewSubscription) :
    finish (registerNew env salt sub) =
      (request (.kvPut .credentials sub.name (env.hash salt sub.password))).bind fun _ =>
        finish (storeRecord sub) := by
  unfold finish
  rw [registerNew_eq, bind_assoc]

theorem finish_storeRecord (sub : NewSubscription) : finish (storeRecord sub) =
    (request (.kvPut .subscriptions sub.name (newSubInfo sub))).bind fun _ =>
      finish (provide sub) := by
  unfold finish storeRecord
  rw [bind_assoc]

/-- A request on its way to the record is answered 201, unless one of its calls fails. -/
theorem Storing.succeeds (h : Storing env salts subs count name w c i) : Succeeds (c.prog i) := by
  rcases h.stage with hstage | ⟨hstage, -⟩
  · rw [hstage]
    exact succeeds_registerNew (salts i) (subs i)
  · rw [hstage]
    exact succeeds_storeRecord (subs i)

/-- The request that is about to write, writes. -/
theorem Storing.step_self (h : Storing env salts subs count name w c i)
    (hname : (subs i).name = name) (hs : c.step (serve env) (i, .ok) = some d) :
    ChecksAlone name c (i, .ok) ∧
      (Storing env salts subs count name w d i ∨ Registered env salts subs count name w d i) := by
  -- The two calls of this stage: the hash, and then the record, which ends it.
  rcases h.stage with hstage | ⟨hstage, hhash⟩
  · rw [finish_registerNew] at hstage
    obtain ⟨hprog, hworld, hrest⟩ := step_request hstage rfl hs
    refine ⟨fun hnext => ?_, Or.inl ⟨h.lt, Or.inr ⟨hprog, ?_⟩,
      fun j hj => (hrest j hj).trans (h.start j hj), ?_, ?_⟩⟩
    · rw [hstage] at hnext
      cases hnext
    · rw [hworld, ← hname]
      exact Bucket.value?_put_self ..
    · rw [hworld]
      exact h.record
    · rw [hworld]
      exact h.queue
  · rw [finish_storeRecord] at hstage
    obtain ⟨hprog, hworld, hrest⟩ := step_request hstage rfl hs
    refine ⟨fun hnext => ?_, Or.inr ⟨h.lt, ?_, ?_, ?_, ?_,
      fun j hj => Or.inl ((hrest j hj).trans (h.start j hj)), fun m hm => Or.inl (h.queue m ?_)⟩⟩
    · rw [hstage] at hnext
      cases hnext
    · rw [hworld]
      exact hhash
    · rw [hworld, ← hname]
      exact Bucket.value?_put_self ..
    · rw [hprog]
      exact uses_provide (subs i)
    · rw [hprog]
      exact succeeds_provide (subs i)
    · rw [hworld] at hm
      exact hm

/-- Another one that looks for the record now finds none, and the two overlap. -/
theorem Storing.step_other (h : Storing env salts subs count name w c i)
    (hnames : ∀ j < count, (subs j).name = name) (hij : j ≠ i)
    (hs : c.step (serve env) (j, .ok) = some d) :
    ¬ ChecksAlone name c (j, .ok) ∧ Overlapped count d := by
  have hj := lt_of_step (h.start j hij) hs
  have hp := h.start j hij
  rw [AtStart, program_registrations hj] at hp
  obtain ⟨hprog, -, hrest⟩ := step_getValue hp hs
  have hnone : (c.world.bucket .subscriptions).value? (subs j).name = none := by
    rw [hnames j hj]
    exact h.record
  rw [hnone] at hprog
  constructor
  · intro halone
    have hwrites := halone (next_start (hnames j hj) hj (h.start j hij)) i (Ne.symm hij)
    rcases h.stage with hstage | ⟨hstage, -⟩
    · rw [finish_registerNew] at hstage
      exact (hwrites _ (by rw [hstage]; rfl)).1 ⟨_, by rw [hnames i h.lt]⟩
    · rw [finish_storeRecord] at hstage
      exact (hwrites _ (by rw [hstage]; rfl)).2 ⟨_, by rw [hnames i h.lt]⟩
  · refine ⟨i, j, Ne.symm hij, h.lt, hj, ?_, ?_⟩
    · rw [hrest i (Ne.symm hij)]
      exact h.succeeds
    · rw [hprog]
      show Succeeds (ite _ _ _)
      split
      · exact Or.inr ⟨_, rfl⟩
      · exact succeeds_registerNew (salts j) (subs j)

theorem finished_verdict (found : Bool) : (verdict found).Finished := by
  cases found <;> rfl

/-- Nobody writes the hash or the record any more. -/
theorem Registered.reads (h : Registered env salts subs count name w c i)
    (hnames : ∀ j < count, (subs j).name = name) (k : Nat) {op : Op}
    (hop : (c.prog k).next? = some op) : ¬ PutsHash name op ∧ ¬ PutsRecord name op := by
  by_cases hk : k = i
  · subst hk
    have hcall := h.uses.of_next? hop
    constructor
    · intro ⟨hash, hput⟩
      subst hput
      cases hcall
    · intro ⟨sub, hput⟩
      subst hput
      cases hcall
  · rcases h.others k hk with hstart | ⟨-, hmatching⟩ | ⟨hverdict, -⟩
    · exact start_reads hnames hstart hop
    · rw [hmatching] at hop
      rcases isSubscriptionsMatching_cases env (subs k) (newSubInfo (subs i)) with
        ⟨heq, -⟩ | ⟨heq, -⟩
      · rw [heq] at hop
        cases hop
      · rw [heq, bind_assoc, getValue_bind] at hop
        obtain rfl := Option.some.inj hop
        exact ⟨nofun, nofun⟩
    · rw [hverdict] at hop
      exact absurd ((finished_verdict _).symm.trans hop) nofun

/-- The winner goes on to provide the rest. -/
theorem Registered.step_self (h : Registered env salts subs count name w c i)
    (hs : c.step (serve env) (i, .ok) = some d) :
    ChecksAlone name c (i, .ok) ∧ Registered env salts subs count name w d i := by
  obtain ⟨op, k, hp, rfl⟩ := Config.step_cases hs
  have huses := h.uses
  have hsucceeds := h.succeeds
  rw [hp] at huses hsucceeds
  have hcall : ProvideCall (subs i) op := huses.1
  have hput : ∀ b key v, op ≠ .kvPut b key v := fun b key v heq => by subst heq; cases hcall
  have hdel : ∀ b key, op ≠ .kvDelete b key := fun b key heq => by subst heq; cases hcall
  -- What is left to do concerns streams and the request, so both buckets stay.
  have hkeep : ∀ b, ((answer env i op c.world).2.bucket b).value? name =
      (c.world.bucket b).value? name := by
    intro b
    rcases value_answer env i op c.world b name with hsame | ⟨v, heq, -⟩ | ⟨heq, -⟩
    · exact hsame
    · exact absurd heq (hput b name v)
    · exact absurd heq (hdel b name)
  refine ⟨fun hnext => ?_, h.lt, (hkeep .credentials).trans h.hash,
    (hkeep .subscriptions).trans h.record, ?_, ?_, fun j hj => ?_, fun m hm => ?_⟩
  · rw [hp] at hnext
    obtain rfl := Option.some.inj hnext
    cases hcall
  · rw [Config.next_prog_self]
    exact huses.2 _
  · rw [Config.next_prog_self]
    exact hsucceeds _
  · unfold AtStart
    rw [Config.next_prog_of_ne hj]
    exact h.others j hj
  · rcases requestQueued_answer hm with hold | ⟨subject, r, hpublish, horigin, hpayload, -⟩
    · exact h.queue m hold
    · refine Or.inr ⟨horigin, ?_⟩
      subst hpublish
      cases hcall
      exact hpayload

/-- Another request compares itself with the winner. -/
theorem Registered.step_other (h : Registered env salts subs count name w c i)
    (hnames : ∀ j < count, (subs j).name = name) (hij : j ≠ i)
    (hs : c.step (serve env) (j, .ok) = some d) (hfail : ∀ e, d.prog j ≠ .throw (.call e)) :
    ChecksAlone name c (j, .ok) ∧ Registered env salts subs count name w d i := by
  have halone : ChecksAlone name c (j, .ok) := fun _ k _ op hop => h.reads hnames k hop
  -- It only reads, so all that changes is where it stands itself.
  have hmove : ∀ {p : Coro Reply}, d.prog j = p → d.world = c.world →
      (∀ k, k ≠ j → d.prog k = c.prog k) →
      ((j < count ∧
          p = (isSubscriptionsMatching env (subs j) (newSubInfo (subs i))).bind verdict) ∨
        (p = verdict (matchesHash env (subs j) (newSubInfo (subs i))
          (env.hash (salts i) (subs i).password)) ∧
          Comparable env (subs j) (newSubInfo (subs i)))) →
      Registered env salts subs count name w d i := by
    intro p hprog hworld hrest hcases
    refine ⟨h.lt, hworld ▸ h.hash, hworld ▸ h.record, (hrest i (Ne.symm hij)).symm ▸ h.uses,
      (hrest i (Ne.symm hij)).symm ▸ h.succeeds, fun k hk => ?_, hworld ▸ h.queue⟩
    by_cases hkj : k = j
    · subst hkj
      rw [hprog]
      exact Or.inr hcases
    · unfold AtStart
      rw [hrest k hkj]
      exact h.others k hk
  refine ⟨halone, ?_⟩
  rcases h.others j hij with hstart | ⟨hj, hmatching⟩ | ⟨hverdict, -⟩
  · have hj := lt_of_step hstart hs
    rw [AtStart, program_registrations hj] at hstart
    obtain ⟨hprog, hworld, hrest⟩ := step_getValue hstart hs
    have hsome : (c.world.bucket .subscriptions).value? (subs j).name =
        some (newSubInfo (subs i)) := by
      rw [hnames j hj]
      exact h.record
    rw [hsome] at hprog
    exact hmove hprog hworld hrest (Or.inl ⟨hj, rfl⟩)
  · rcases isSubscriptionsMatching_cases env (subs j) (newSubInfo (subs i)) with
      ⟨heq, -⟩ | ⟨heq, hmatches⟩
    · rw [heq] at hmatching
      obtain ⟨op, k, hp, -⟩ := Config.step_cases hs
      rw [hmatching] at hp
      cases hp
    · rw [heq, bind_assoc] at hmatching
      obtain ⟨hprog, hworld, hrest⟩ := step_getValue hmatching hs
      have hread : (c.world.bucket .credentials).value? (subs j).name =
          some (env.hash (salts i) (subs i).password) := by
        rw [hnames j hj]
        exact h.hash
      rw [hread] at hprog
      cases hrefuses : env.refuses (subs j).password with
      | true =>
        rw [comparePassword_refused hrefuses] at hprog
        exact absurd hprog (hfail _)
      | false =>
        rw [comparePassword_some hrefuses] at hprog
        refine hmove hprog hworld hrest (Or.inr ⟨?_, Or.inr hrefuses⟩)
        rw [hmatches]
        rfl
  · obtain ⟨op, k, hp, -⟩ := Config.step_cases hs
    have hfin := finished_verdict (matchesHash env (subs j) (newSubInfo (subs i))
      (env.hash (salts i) (subs i).password))
    rw [← hverdict, hp] at hfin
    exact absurd hfin (not_finished_await op k)

/-- Two requests that have found no record stay two. -/
theorem Overlapped.step (h : Overlapped count c) (hs : c.step (serve env) (j, .ok) = some d) :
    Overlapped count d := by
  obtain ⟨i, i', hne, hi, hi', hsucc, hsucc'⟩ := h
  have hkeep : ∀ k, Succeeds (c.prog k) → Succeeds (d.prog k) := by
    intro k hk
    obtain ⟨op, f, hp, rfl⟩ := Config.step_cases hs
    by_cases hkj : k = j
    · subst hkj
      rw [hp] at hk
      rw [Config.next_prog_self]
      exact hk _
    · rw [Config.next_prog_of_ne hkj]
      exact hk
  exact ⟨i, i', hne, hi, hi', hkeep i hsucc, hkeep i' hsucc'⟩

/-! ## Every run -/

variable (env salts subs count) in
/-- One after the other, so far. -/
def Orderly (name : String) (w : World) (c : System) : Prop :=
  Untouched env salts subs count name w c ∨
    (∃ i, Storing env salts subs count name w c i) ∨
    ∃ i, Registered env salts subs count name w c i

/-- **A step of an orderly race**: it looks alone and stays orderly, or does not, and overlaps. -/
theorem Orderly.step (h : Orderly env salts subs count name w c)
    (hnames : ∀ j < count, (subs j).name = name) (hs : c.step (serve env) (j, .ok) = some d)
    (hfail : ∀ j e, d.prog j ≠ .throw (.call e)) :
    (ChecksAlone name c (j, .ok) ∧ Orderly env salts subs count name w d) ∨
      (¬ ChecksAlone name c (j, .ok) ∧ Overlapped count d) := by
  rcases h with h | ⟨i, h⟩ | ⟨i, h⟩
  · obtain ⟨halone, hd⟩ := h.step hnames hs (hfail j)
    exact Or.inl ⟨halone, Or.inr (Or.inl ⟨j, hd⟩)⟩
  · by_cases hij : j = i
    · subst hij
      obtain ⟨halone, hd | hd⟩ := h.step_self (hnames j h.lt) hs
      · exact Or.inl ⟨halone, Or.inr (Or.inl ⟨j, hd⟩)⟩
      · exact Or.inl ⟨halone, Or.inr (Or.inr ⟨j, hd⟩)⟩
    · exact Or.inr (h.step_other hnames hij hs)
  · by_cases hij : j = i
    · subst hij
      obtain ⟨halone, hd⟩ := h.step_self hs
      exact Or.inl ⟨halone, Or.inr (Or.inr ⟨j, hd⟩)⟩
    · obtain ⟨halone, hd⟩ := h.step_other hnames hij hs (hfail j)
      exact Or.inl ⟨halone, Or.inr (Or.inr ⟨i, hd⟩)⟩

/-- A run in which nothing fails: the order in which the requests take their steps. -/
def inOrder (order : List Nat) : Schedule := order.map fun i => (i, .ok)

/-- An overlap lasts to the end of the run. -/
theorem run_overlapped {order : List Nat} (h : Overlapped count c)
    (hrun : c.run (serve env) (inOrder order) = some d) : Overlapped count d := by
  induction order generalizing c with
  | nil => exact Option.some.inj hrun ▸ h
  | cons j order ih =>
    obtain ⟨e, hs, hr⟩ := Config.run_cons hrun
    exact ih (h.step hs) hr

/-- **One after the other as long as they look alone**, and overlapped from then on. -/
theorem run_orderly {order : List Nat} (h : Orderly env salts subs count name w c)
    (hnames : ∀ j < count, (subs j).name = name)
    (hrun : c.run (serve env) (inOrder order) = some d)
    (hfail : ∀ j e, d.prog j ≠ .throw (.call e)) :
    (c.Along (serve env) (ChecksAlone name) (inOrder order) ∧
      Orderly env salts subs count name w d) ∨
    (¬ c.Along (serve env) (ChecksAlone name) (inOrder order) ∧ Overlapped count d) := by
  induction order generalizing c with
  | nil => exact Or.inl ⟨trivial, Option.some.inj hrun ▸ h⟩
  | cons j order ih =>
    obtain ⟨e, hs, hr⟩ := Config.run_cons hrun
    have honly : ∀ e', c.step (serve env) (j, .ok) = some e' → e' = e := fun e' he' =>
      Option.some.inj (he'.symm.trans hs)
    -- What has failed stays failed.
    have hfail' : ∀ j x, e.prog j ≠ .throw (.call x) := by
      intro j x hx
      exact hfail j x ((Config.run_prog_of_finished (hx ▸ finished_throw _) hr).trans hx)
    rcases h.step hnames hs hfail' with ⟨halone, he⟩ | ⟨hnot, he⟩
    · rcases ih he hr with ⟨halong, hd⟩ | ⟨hnot, hd⟩
      · exact Or.inl ⟨⟨halone, fun e' he' => honly e' he' ▸ halong⟩, hd⟩
      · exact Or.inr ⟨fun halong => hnot (halong.2 e hs), hd⟩
    · exact Or.inr ⟨fun halong => hnot halong.1, run_overlapped he hr⟩

/-! ### The request of the winner -/

/-! The property includes the request to the prefill service, of which the phases say only that
nobody but the winner can have put one there. That there is one is another argument: the winner was
answered 201, so it has heard of its publication, so it is in the queue, and the registrations take
nothing out. -/

/-- A registration that asks for a prefill is not answered 201 before it has heard of the request.
-/
theorem guarded_create_request (salt : String) {sub : NewSubscription}
    (hp : sub.requestPrefill = true) :
    ((Job.create salt sub).program env).Guarded (SeesRequest sub) (fun _ => False)
      fun x => x = .ok (.status 201) := by
  rw [program_create]
  refine guarded_getValue_bind.mpr ⟨id, fun e _ => ?_, fun _ => ?_, fun _ _ _ => nofun⟩
  · dsimp only
    rw [registerAgain_eq]
    refine Guarded.bind (Uses.guarded (P := fun _ => True) (uses_isSubscriptionsMatching trivial)
      fun _ _ => id) (fun found _ => ?_) fun _ _ => nofun
    cases found <;> exact nofun
  · show (ite _ _ _ : Coro Reply).Guarded _ _ _
    split
    · exact nofun
    · refine Guarded.bind (registerNew_sees_request env salt hp) (fun code hcode => ?_)
        fun _ _ => nofun
      intro h
      cases h
      exact hcode rfl

/-- A request whose publication was answered is in the queue, under the one who published it. -/
theorem run_request_queued {ls : Schedule}
    (huses : ∀ i, (c.prog i).Uses fun op => i < count ∧ CreateCall (subs i) op)
    (hnone : ∀ i, ¬ c.Heard i (SeesRequest (subs i))) (hrun : c.run (serve env) ls = some d)
    (hheard : d.Heard i (SeesRequest (subs i))) :
    ∃ m, RequestQueued d.world (subs i).name m ∧ m.origin = i ∧
      m.payload = .prefill (prefillRequest (subs i)) := by
  refine (Config.run_invariant (C := fun _ _ => True)
    (P := fun c => (∀ i, (c.prog i).Uses fun op => i < count ∧ CreateCall (subs i) op) ∧
      ∀ i, c.Heard i (SeesRequest (subs i)) → ∃ m, RequestQueued c.world (subs i).name m ∧
        m.origin = i ∧ m.payload = .prefill (prefillRequest (subs i)))
    (fun c l d hc _ hs => ⟨Config.step_uses hc.1 hs, fun i hi => ?_⟩)
    ⟨huses, fun i hi => absurd hi (hnone i)⟩ (Config.along_trivial ls) hrun).2 i hheard
  obtain ⟨op, k, hp, rfl⟩ := Config.step_cases hs
  have hcall : CreateCall (subs l.1) op := ((hc.1 l.1).of_next? (next?_of_await hp)).2
  rw [Config.next_world]
  rcases Config.heard_next.mp hi with ⟨rfl, hop, seq, hseq⟩ | hbefore
  · obtain ⟨hf, hans⟩ := Server.heard_eq_ok hseq
    rw [hf, Server.left_ok, serve_answer]
    subst hop
    exact requestQueued_publish hans
  · obtain ⟨m, hm, hrest⟩ := hc.2 i hbefore
    refine ⟨m, ?_, hrest⟩
    exact Server.left_preserves (P := fun w => RequestQueued w (subs i).name m) hm fun _ =>
      requestQueued_create hcall hm

/-- The calls of the pool, with the number of the request. -/
theorem uses_registrations (i : Nat) : ((registrations salts subs count i).program env).Uses
    fun op => i < count ∧ CreateCall (subs i) op := by
  unfold registrations
  by_cases hi : i < count
  · rw [if_pos hi]
    exact Uses.bind ((uses_createSubscription env (salts i) (subs i)).mono fun _ hop => ⟨hi, hop⟩)
      fun _ => trivial
  · rw [if_neg hi]
    exact trivial

/-! ### The result -/

/-- A request that is over, and none of whose calls failed, has been answered 201. -/
theorem Succeeds.status {p : Coro Reply} (h : Succeeds p) (hfin : p.Finished)
    (hfail : ∀ e, p ≠ .throw (.call e)) : p = .pure (.status 201) := by
  cases p with
  | pure a =>
    rcases h with h | ⟨e, h⟩
    · rw [Except.ok.inj h]
    · cases h
  | throw x =>
    rcases h with h | ⟨e, h⟩
    · cases h
    · exact absurd (by rw [Except.error.inj h]) (hfail e)
  | await op k => exact absurd hfin (not_finished_await op k)

/-- The one who was refused or found everything the same was not answered 201. -/
theorem verdict_ne_created (found : Bool) : verdict found ≠ .pure (.status 201) := by
  cases found <;> exact nofun

/-- Two winners are not one. -/
theorem not_serialised_of_overlapped (h : Overlapped count d) (hfin : ∀ j, (d.prog j).Finished)
    (hfail : ∀ j e, d.prog j ≠ .throw (.call e)) :
    ¬ ∃ i, Serialised env salts subs count name w d i := by
  intro ⟨k, hk⟩
  obtain ⟨i, j, hij, hi, hj, hsucci, hsuccj⟩ := h
  have hother : ∀ x < count, Succeeds (d.prog x) → x = k := by
    intro x hx hsucc
    by_contra hne
    obtain ⟨found, calls, -, hverdict⟩ := hk.losers x hx hne
    rw [hsucc.status (hfin x) (hfail x)] at hverdict
    exact verdict_ne_created found hverdict.symm
  exact hij ((hother i hi hsucci).trans (hother j hj hsuccj).symm)

theorem not_finished_start (hname : (subs j).name = name) (hj : j < count)
    (hstart : AtStart env salts subs count c j) : ¬ (c.prog j).Finished := by
  intro hfin
  exact absurd (hfin.symm.trans (next_start hname hj hstart)) nofun

/-- A race that is over and has been orderly all the time has its winner. -/
theorem Registered.serialised (h : Registered env salts subs count name w d i)
    (hnames : ∀ j < count, (subs j).name = name) (hfin : ∀ j, (d.prog j).Finished)
    (hfail : ∀ j e, d.prog j ≠ .throw (.call e))
    (hqueued : d.prog i = .pure (.status 201) → (subs i).requestPrefill = true →
      ∃ m, RequestQueued d.world (subs i).name m ∧ m.origin = i ∧
        m.payload = .prefill (prefillRequest (subs i))) :
    Serialised env salts subs count name w d i := by
  have hwinner := h.succeeds.status (hfin i) (hfail i)
  refine ⟨h.lt, hwinner, fun j hj hij => ?_, h.hash, h.record, h.queue, fun hprefill => ?_⟩
  · have hhash : d.world.credential (subs j).name =
        some (env.hash (salts i) (subs i).password) := by
      rw [hnames j hj]
      exact h.hash
    have hover : d.prog j = verdict (matchesHash env (subs j) (newSubInfo (subs i))
        (env.hash (salts i) (subs i).password)) ∧
        Comparable env (subs j) (newSubInfo (subs i)) := by
      rcases h.others j hij with hstart | ⟨-, hmatching⟩ | hverdict
      · exact absurd (hfin j) (not_finished_start (hnames j hj) hj hstart)
      · rcases isSubscriptionsMatching_cases env (subs j) (newSubInfo (subs i)) with
          ⟨heq, hmatches⟩ | ⟨heq, -⟩
        · refine ⟨?_, Or.inl heq⟩
          rw [hmatching, heq, hmatches]
          rfl
        · have hover := hfin j
          rw [hmatching, heq, bind_assoc, getValue_bind] at hover
          exact absurd hover (not_finished_await _ _)
      · exact hverdict
    exact (runs_isSubscriptionsMatching hover.2 hhash).elim fun calls hruns =>
      ⟨_, calls, hruns, hover.1⟩
  · have hm := hqueued hwinner hprefill
    rw [hnames i h.lt] at hm
    exact hm

end Race

/-- **When registrations of one name are serialisable.** For any number of registrations of a name
without a record, in any order of their steps and with no call failing, once all are answered: one
of them has won, with everything stored its own, and the others are answered as they match it, if
and only if none of them looked for the record while another was about to write the hash or the
record. -/
theorem serialised_iff (env : Env) (w : World) (salts : Nat → String)
    (subs : Nat → NewSubscription) (count : Nat) (name : String) (order : List Nat) {d : System}
    (hcount : 0 < count) (hnames : ∀ j < count, (subs j).name = name)
    (hnone : w.record name = none)
    (hrun : (System.start env w (registrations salts subs count)).run (serve env)
      (inOrder order) = some d)
    (hfin : ∀ j, (d.prog j).Finished) (hfail : ∀ j e, d.prog j ≠ .throw (.call e)) :
    (∃ i, Serialised env salts subs count name w d i) ↔
      (System.start env w (registrations salts subs count)).Along (serve env) (ChecksAlone name)
        (inOrder order) := by
  have hstart : Orderly env salts subs count name w
      (System.start env w (registrations salts subs count)) :=
    Or.inl ⟨fun _ => rfl, hnone, fun _ hm => hm⟩
  rcases run_orderly hstart hnames hrun hfail with ⟨halong, hd⟩ | ⟨hnot, hd⟩
  · -- When all are over, one of them must have stored the record: nobody can be over before.
    refine iff_of_true ?_ halong
    rcases hd with h | ⟨i, h⟩ | ⟨i, h⟩
    · exact absurd (hfin 0) (not_finished_start (hnames 0 hcount) hcount (h.start 0))
    · have hstage := hfin i
      rcases h.stage with heq | ⟨heq, -⟩
      · rw [heq, finish_registerNew] at hstage
        exact absurd hstage (not_finished_await _ _)
      · rw [heq, finish_storeRecord] at hstage
        exact absurd hstage (not_finished_await _ _)
    · refine ⟨i, h.serialised hnames hfin hfail fun hwinner hprefill => ?_⟩
      have huses : ∀ j, ((System.start env w (registrations salts subs count)).prog j).Uses
          fun op => j < count ∧ CreateCall (subs j) op := fun j => uses_registrations j
      refine run_request_queued huses
        (fun j => Config.not_heard_init _ _) hrun ?_
      have hg := Config.run_guarded (i := i) (S := serve env)
        (by rw [System.start_prog, registrations, if_pos h.lt]
            exact guarded_create_request (salts i) hprefill) hrun
      rcases hg with hg | hheard
      · rw [hwinner] at hg
        exact absurd rfl hg
      · exact hheard
  · exact iff_of_false (not_serialised_of_overlapped hd hfin hfail) hnot

/-! ## Two requests that overlap -/

/-! Both sides of the equivalence can be run. In the first order the second request comes in before
the record is written, and everything is mixed up; in the second one it comes in after that, while
the first is still at work, and that does no harm. -/

/-- One request wants the users, the other the groups, and each has a password of its own. -/
def rivals (i : Nat) : NewSubscription :=
  if i = 0 then .sample else ⟨"a", [⟨"udm", "groups/group"⟩], true, "pw2"⟩

/-- Both find no record; the second one writes both of its entries between those of the first. -/
def rivalsOrder : List Nat := [0, 1, 0, 1, 1, 0, 0, 0, 0, 0, 0, 1, 1, 1, 1]

/-- Both are answered 201, and the password of the one guards the topics of the other. -/
theorem mixed_registration : ∃ d,
    (System.start .sample .prepared (registrations (fun _ => "s") rivals 2)).run (serve .sample)
      (inOrder rivalsOrder) = some d ∧
    d.prog 0 = .pure (.status 201) ∧ d.prog 1 = .pure (.status 201) ∧
    d.world.credential "a" = some (Env.sample.hash "s" (rivals 1).password) ∧
    d.world.record "a" = some (newSubInfo (rivals 0)) :=
  ⟨_, rfl, rfl, rfl, rfl, rfl⟩

/-- With both requests answered, the whole pool has returned. -/
theorem returned_registrations {env : Env} {w : World} {salts : Nat → String}
    {subs : Nat → NewSubscription} {ls : Schedule} {d : System} {r₀ r₁ : Reply}
    (hrun : (System.start env w (registrations salts subs 2)).run (serve env) ls = some d)
    (h0 : d.prog 0 = .pure r₀) (h1 : d.prog 1 = .pure r₁) (j : Nat) :
    ∃ r, d.prog j = .pure r := by
  by_cases hj : j < 2
  · have hcases : j = 0 ∨ j = 1 := by omega
    rcases hcases with rfl | rfl
    · exact ⟨r₀, h0⟩
    · exact ⟨r₁, h1⟩
  · have hidle : (System.start env w (registrations salts subs 2)).prog j = .pure .finished := by
      rw [System.start_prog, registrations, if_neg hj]
      rfl
    exact ⟨.finished, (Config.run_prog_of_finished (hidle ▸ finished_pure _) hrun).trans hidle⟩

theorem finished_of_returned {d : System} (h : ∀ j, ∃ r, d.prog j = .pure r) (j : Nat) :
    (d.prog j).Finished := by
  obtain ⟨r, hr⟩ := h j
  rw [hr]
  exact finished_pure r

theorem not_failed_of_returned {d : System} (h : ∀ j, ∃ r, d.prog j = .pure r) (j : Nat)
    (e : CallError) : d.prog j ≠ .throw (.call e) := by
  obtain ⟨r, hr⟩ := h j
  rw [hr]
  exact nofun

/-- So registrations of one name are not serialised in general. -/
theorem not_serialised : ¬ ∀ (env : Env) (w : World) (salts : Nat → String)
    (subs : Nat → NewSubscription) (name : String) (order : List Nat) (d : System),
    (∀ j < 2, (subs j).name = name) → w.record name = none →
    (System.start env w (registrations salts subs 2)).run (serve env) (inOrder order) = some d →
    (∀ j, (d.prog j).Finished) → (∀ j e, d.prog j ≠ .throw (.call e)) →
    ∃ i, Serialised env salts subs 2 name w d i := by
  intro h
  obtain ⟨d, hrun, h0, h1, -, -⟩ := mixed_registration
  have hreturned := returned_registrations hrun h0 h1
  have hnames : ∀ j < 2, (rivals j).name = "a" := by
    intro j _
    unfold rivals
    split <;> rfl
  obtain ⟨i, hi⟩ := h .sample .prepared _ rivals "a" _ d hnames rfl hrun
    (finished_of_returned hreturned) (not_failed_of_returned hreturned)
  -- The other one should have been refused.
  have hrefused : ∀ j < 2, d.prog j = .pure (.status 201) → j = i := by
    intro j hj hcreated
    by_contra hne
    obtain ⟨found, calls, -, hverdict⟩ := hi.losers j hj hne
    rw [hcreated] at hverdict
    exact verdict_ne_created found hverdict.symm
  exact absurd ((hrefused 0 (by decide) h0).trans (hrefused 1 (by decide) h1).symm) (by decide)

/-- The second request comes in when the record of the first is written, and is answered while the
first is still providing the stream. -/
def overlappingOrder : List Nat := [0, 0, 0, 1, 0, 1, 0, 0, 0, 0]

/-- The same request twice. -/
theorem repeated_registration : ∃ d,
    (System.start .sample .prepared (registrations (fun _ => "s") (fun _ => .sample) 2)).run
      (serve .sample) (inOrder overlappingOrder) = some d ∧
    d.prog 0 = .pure (.status 201) ∧ d.prog 1 = .pure (.status 200) :=
  ⟨_, rfl, rfl, rfl⟩

theorem serialised_iff_sample : ∃ d,
    (System.start .sample .prepared (registrations (fun _ => "s") (fun _ => .sample) 2)).run
      (serve .sample) (inOrder overlappingOrder) = some d ∧
    ((∃ i, Serialised .sample (fun _ => "s") (fun _ => .sample) 2 "a" .prepared d i) ↔
      (System.start .sample .prepared (registrations (fun _ => "s") (fun _ => .sample) 2)).Along
        (serve .sample) (ChecksAlone "a") (inOrder overlappingOrder)) := by
  obtain ⟨d, hrun, h0, h1⟩ := repeated_registration
  have hreturned := returned_registrations hrun h0 h1
  exact ⟨d, hrun, serialised_iff .sample .prepared _ _ 2 "a" _ (by decide) (fun _ _ => rfl) rfl hrun
    (finished_of_returned hreturned) (not_failed_of_returned hreturned)⟩

end Provisioning
