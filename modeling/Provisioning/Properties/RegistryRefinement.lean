import Provisioning.Model.Calls
import Provisioning.Model.Registry

/-!
# The service refines the registry

One call after the other, each served to its end: the two buckets together then are the map of
`Registry`, whatever the streams hold. `Linked` is that relation. A record is an entry without its
password; the credential of the same name is what the password was hashed to, which says besides
that the scheme has taken it.

Of the streams only that of the prefill service matters, which takes the request that a
registration ends with. It is not touched by anything that concerns a subscription of another name.

## What the map leaves out, and what it cannot

The map has no salts: which one a password was hashed with is `∃ salt` in the link. So it also
cannot say how passwords are compared, and takes the comparison as a parameter, `same`. That
parameter is not equality for the scheme the service uses. **The last section shows that it must
not be**: two passwords that agree up to their 72nd byte are the same to the registry that the
service refines, and no registry with equality has this run.

## One call at a time

Interleavings are not in this module; that two registrations can get in each other's way is the
subject of `RegistrationRace`. Here every call is alone, and nothing is lost. So each call has one
outcome, `finish` computes it, and the proof of one call is a walk along its code with the link in
hand: what it reads is what the map has, what it writes is what the map becomes.
-/

namespace Provisioning

open Await Store Prog

/-! ## Calls one after the other -/

variable (env : Env)

/-- The service's function for each call, with its answer. -/
def Call.program : Call → Coro Answer
  | .create salt subscription => return .code (← createSubscription env salt subscription)
  | .delete name => do deleteSubscription name; return .finished
  | .setStatus name status => do setSubscriptionQueueStatus name status; return .finished
  | .get name => return .subscription (← getSubscription name)
  | .getStatus name => return .status (← getSubscriptionQueueStatus name)
  | .getAll => return .subscriptions (← getSubscriptions)

/-- One call, served to its end. -/
def Call.serve (call : Call) (w : World) : Except Exc Answer × World :=
  (call.program env).finish (Provisioning.serve env) 0 w

/-- What the calls are answered with, and the state they leave. -/
def serveAll : List Call → World → List (Except Exc Answer) × World
  | [], w => ([], w)
  | call :: calls, w =>
    let (a, w') := call.serve env w
    let (answers, w'') := serveAll calls w'
    (a :: answers, w'')

/-- **The buckets hold the map.** The field on the missing credentials is not implied by the one on
the records: it is what makes the listing, which goes over the credentials, find the names. -/
structure Linked (w : World) (m : Registry) : Prop where
  record : ∀ n, w.record n = (m n).map (·.toSubscription n)
  credential : ∀ n entry, m n = some entry → ∃ salt hash,
    env.hashPassword salt entry.password = .ok hash ∧ w.credential n = some hash
  noCredential : ∀ n, m n = none → w.credential n = none
  prefill : ∃ s, w.streams (streamKey PREFILL_STREAM) = some s ∧ PREFILL_STREAM ∈ s.subjects

variable {env} {w w' : World} {m : Registry} {name : String}

/-! ## Keeping the link -/

/-! A call changes one name, and one stream of that name. The two lemmas are for these two: the
link after a change at a name, and the link after a change of a stream that it does not speak of. -/

/-- What a change at one name has to establish there. -/
theorem Linked.update (h : Linked env w m) {found : Option Registration}
    (hrecord : ∀ n, w'.record n =
      if n = name then found.map (·.toSubscription name) else w.record n)
    (hother : ∀ n, n ≠ name → w'.credential n = w.credential n)
    (hsome : ∀ entry, found = some entry → ∃ salt hash,
      env.hashPassword salt entry.password = .ok hash ∧ w'.credential name = some hash)
    (hnone : found = none → w'.credential name = none) (hstreams : w'.streams = w.streams) :
    Linked env w' (Function.update m name found) := by
  refine ⟨fun n => ?_, fun n entry hn => ?_, fun n hn => ?_, ?_⟩
  · rw [hrecord]
    by_cases hname : n = name
    · subst hname
      rw [if_pos rfl, Function.update_self]
    · rw [if_neg hname, Function.update_of_ne hname]
      exact h.record n
  · by_cases hname : n = name
    · subst hname
      rw [Function.update_self] at hn
      exact hsome entry hn
    · rw [Function.update_of_ne hname] at hn
      rw [hother n hname]
      exact h.credential n entry hn
  · by_cases hname : n = name
    · subst hname
      rw [Function.update_self] at hn
      exact hnone hn
    · rw [Function.update_of_ne hname] at hn
      rw [hother n hname]
      exact h.noCredential n hn
  · rw [hstreams]
    exact h.prefill

/-- The two states differ in the stream of one subscription at most. -/
structure StreamOnly (name : String) (w w' : World) : Prop where
  bucket : w'.bucket = w.bucket
  streams : ∀ x, x ≠ streamKey name → w'.streams x = w.streams x

-- Composed along a call that manages a stream and then its consumer.
theorem StreamOnly.refl (name : String) (w : World) : StreamOnly name w w := ⟨rfl, fun _ _ => rfl⟩

theorem streamOnly_setStream (s : Option (Store.Stream Payload)) :
    StreamOnly name w (w.setStream (streamKey name) s) :=
  ⟨rfl, fun _ hx => World.streams_setStream_of_ne hx ..⟩

/-- The link does not see the streams of subscriptions. A subscription named like the stream of the
prefill service is excluded for that reason, here and in every theorem below. -/
theorem Linked.streamOnly (h : Linked env w m) (hw : StreamOnly name w w')
    (hname : name ≠ PREFILL_STREAM) : Linked env w' m := by
  refine ⟨fun n => ?_, fun n entry hn => ?_, fun n hn => ?_, ?_⟩
  · rw [World.record, hw.bucket]
    exact h.record n
  · rw [World.credential, hw.bucket]
    exact h.credential n entry hn
  · rw [World.credential, hw.bucket]
    exact h.noCredential n hn
  · rw [hw.streams _ fun heq => hname (streamKey_inj.mp heq).symm]
    exact h.prefill

/-- A stream is ensured, whether or not it was there. -/
theorem finish_ensureStream (env : Env) (w : World) (name : String) (manualDelete : Bool)
    (subjects : List String) : ∃ w' s,
    (ensureStream name manualDelete subjects).finish (Provisioning.serve env) 0 w = (.ok (), w') ∧
      StreamOnly name w w' ∧ w'.streams (streamKey name) = some s := by
  cases hs : w.streams (streamKey name) with
  | none =>
    refine ⟨w.setStream (streamKey name) (some (.new subjects !manualDelete)), _, ?_,
      streamOnly_setStream _, World.streams_setStream_self ..⟩
    simp [ensureStream, catching, call, finish_await, answer, hs]
  | some s =>
    refine ⟨w.setStream (streamKey name) (some (s.reconfigure subjects !manualDelete)), _, ?_,
      streamOnly_setStream _, World.streams_setStream_self ..⟩
    simp [ensureStream, catching, call, finish_await, answer, hs]

/-- A consumer is ensured on a stream that is there. -/
theorem finish_ensureConsumer (env : Env) {s : Store.Stream Payload}
    (hs : w.streams (streamKey name) = some s) : ∃ w',
    (ensureConsumer name).finish (Provisioning.serve env) 0 w = (.ok (), w') ∧
      StreamOnly name w w' := by
  cases hd : s.durables (durableKey name) with
  | none =>
    refine ⟨w.setStream (streamKey name) (some (s.setDurable (durableKey name) (some .fresh))), ?_,
      streamOnly_setStream _⟩
    simp [ensureConsumer, catching, call, finish_await, answer, World.durable, hs, hd]
  | some d =>
    refine ⟨w, ?_, StreamOnly.refl name w⟩
    simp [ensureConsumer, catching, call, finish_await, answer, World.durable, hs, hd]

/-- Deleting a stream or a consumer succeeds whether or not it is there. -/
theorem finish_deleteStream (env : Env) (w : World) (name : String) : ∃ w',
    (deleteStream name).finish (Provisioning.serve env) 0 w = (.ok (), w') ∧
      StreamOnly name w w' := by
  cases hs : w.streams (streamKey name) with
  | none =>
    refine ⟨w, ?_, StreamOnly.refl name w⟩
    simp [deleteStream, catching, call, finish_await, answer, hs]
  | some s =>
    refine ⟨w.setStream (streamKey name) none, ?_, streamOnly_setStream _⟩
    simp [deleteStream, catching, call, finish_await, answer, hs]

theorem finish_deleteConsumer (env : Env) (w : World) (name : String) : ∃ w',
    (deleteConsumer name).finish (Provisioning.serve env) 0 w = (.ok (), w') ∧
      StreamOnly name w w' := by
  cases hs : w.streams (streamKey name) with
  | none =>
    refine ⟨w, ?_, StreamOnly.refl name w⟩
    simp [deleteConsumer, catching, call, finish_await, answer, hs]
  | some s =>
    cases hd : s.durables (durableKey name) with
    | none =>
      refine ⟨w, ?_, StreamOnly.refl name w⟩
      simp [deleteConsumer, catching, call, finish_await, answer, hs, hd]
    | some d =>
      refine ⟨w.setStream (streamKey name) (some (s.setDurable (durableKey name) none)), ?_,
        streamOnly_setStream _⟩
      simp [deleteConsumer, catching, call, finish_await, answer, hs, hd]

/-! ## One call -/

/-! In each proof the case split is on the entry of the map. An absent name is answered in the same
way by all calls but the registration, and that is one lemma; a present one goes on with the record
that the link gives. -/

/-- The request of a registration is taken. -/
theorem finish_sendRequest (h : Linked env w m) (sub : NewSubscription) : ∃ w',
    (sendRequestToPrefill sub).finish (Provisioning.serve env) 0 w = (.ok (), w') ∧
      Linked env w' m := by
  obtain ⟨s, hs, hsubject⟩ := h.prefill
  have hpublish : answer env 0 (.publish PREFILL_STREAM (.prefill (prefillRequest sub))
      (streamKey PREFILL_STREAM)) w = (.ok (s.last + 1), w.setStream (streamKey PREFILL_STREAM)
        (some (s.append PREFILL_STREAM (.prefill (prefillRequest sub)) 0))) := by
    simp only [answer, hs, hsubject, if_true]
  exact ⟨_, finish_request_bind hpublish, h.record, h.credential, h.noCredential, _,
    World.streams_setStream_self .., hsubject⟩

/-- A name that is not there is entered. -/
theorem enters_registerNew (h : Linked env w m) (salt : String) (sub : NewSubscription)
    (hpassword : env.refuses sub.password = false) (hname : sub.name ≠ PREFILL_STREAM) : ∃ w',
    (registerNew env salt sub).finish (Provisioning.serve env) 0 w = (.ok 201, w') ∧
      Linked env w' (Function.update m sub.name (some (.ofNew sub))) := by
  -- The two writes, …
  obtain ⟨w₁, hw₁⟩ : ∃ w₁, w₁ = w.setBucket .credentials
      ((w.bucket .credentials).put sub.name (env.hash salt sub.password)) := ⟨_, rfl⟩
  obtain ⟨w₂, hw₂⟩ : ∃ w₂, w₂ = w₁.setBucket .subscriptions
      ((w₁.bucket .subscriptions).put sub.name (newSubInfo sub)) := ⟨_, rfl⟩
  have hputHash : answer env 0 (.kvPut .credentials sub.name (env.hash salt sub.password)) w
      = (.ok (), w₁) := by
    rw [hw₁]
    rfl
  have hputRecord : answer env 0 (.kvPut .subscriptions sub.name (newSubInfo sub)) w₁
      = (.ok (), w₂) := by
    rw [hw₂]
    rfl
  have hcredential : ∀ n, w₂.credential n =
      if n = sub.name then some (env.hash salt sub.password) else w.credential n := by
    intro n
    rw [hw₂, credential_setRecords, hw₁, credential_put]
  have hlinked : Linked env w₂ (Function.update m sub.name (some (.ofNew sub))) := by
    refine h.update (fun n => ?_) (fun n hn => ?_) (fun entry hentry => ?_) nofun ?_
    · rw [hw₂, record_put, hw₁, record_setCredentials]
      rfl
    · rw [hcredential, if_neg hn]
    · cases hentry
      exact ⟨salt, _, hashPassword_eq_ok.mpr ⟨hpassword, rfl⟩, by rw [hcredential, if_pos rfl]; rfl⟩
    · rw [hw₂, hw₁]
      rfl
  -- …then the stream and its consumer, …
  obtain ⟨w₃, s, hstream, honly₃, hs⟩ := finish_ensureStream env w₂ sub.name true
    [mainSubject sub.name, prefillSubject sub.name]
  obtain ⟨w₄, hconsumer, honly₄⟩ := finish_ensureConsumer env hs
  have hlinked₄ := (hlinked.streamOnly honly₃ hname).streamOnly honly₄ hname
  have hrun : (registerNew env salt sub).finish (Provisioning.serve env) 0 w =
      (do
        if sub.requestPrefill then sendRequestToPrefill sub
        return 201 : Coro Nat).finish (Provisioning.serve env) 0 w₄ := by
    unfold registerNew
    rw [bind_eq, finish_request_bind hputHash, bind_eq, finish_request_bind hputRecord, bind_eq,
      finish_bind hstream, bind_eq, finish_bind hconsumer]
  -- …and the request, if there is to be one.
  cases hprefill : sub.requestPrefill with
  | false =>
    refine ⟨w₄, ?_, hlinked₄⟩
    rw [hrun, hprefill]
    rfl
  | true =>
    obtain ⟨w₅, hsend, hlinked₅⟩ := finish_sendRequest hlinked₄ sub
    refine ⟨w₅, ?_, hlinked₅⟩
    rw [hrun, hprefill]
    exact finish_bind hsend

/-- A name that is there is compared, with the password last: the answer is whether all is the same,
or else the password could not be looked at. -/
theorem finish_matching (h : Linked env w m) {same : String → String → Bool}
    (hverify : ∀ salt pw pw', env.refuses pw = false → env.refuses pw' = false →
      env.verify pw (env.hash salt pw') = same pw pw')
    (sub : NewSubscription) {entry : Registration} (hentry : m sub.name = some entry) :
    (env.refuses sub.password = true ∧ Registry.Agrees sub entry ∧
      (isSubscriptionsMatching env sub (entry.toSubscription sub.name)).finish
        (Provisioning.serve env) 0 w = (.error (.call .passwordValue), w)) ∨
    ∃ found, (Registry.Agrees sub entry → env.refuses sub.password = false) ∧
      (isSubscriptionsMatching env sub (entry.toSubscription sub.name)).finish
        (Provisioning.serve env) 0 w = (.ok found, w) ∧
      (found = true ↔ Registry.Matches same sub entry) := by
  obtain ⟨salt, hash, hhash, hcredential⟩ := h.credential sub.name entry hentry
  obtain ⟨haccepted, rfl⟩ := hashPassword_eq_ok.mp hhash
  unfold isSubscriptionsMatching Registry.Matches Registry.Agrees
  -- Two comparisons come before the password is looked at.
  by_cases hprefill : sub.requestPrefill = entry.requestPrefill
  · by_cases htopics : sub.realmsTopics = entry.realmsTopics
    · simp only [Registration.toSubscription, hprefill, htopics, bne_self_eq_false,
        Bool.false_eq_true, if_false, bind_eq]
      rw [finish_getValue_bind, show (w.bucket .credentials).value? sub.name = _ from hcredential]
      cases hpassword : env.refuses sub.password with
      | true =>
        refine Or.inl ⟨rfl, ⟨trivial, trivial⟩, ?_⟩
        rw [show env.raises sub.password (some (env.hash salt entry.password)) = true from
          hpassword]
        rfl
      | false =>
        refine Or.inr ⟨same sub.password entry.password, fun _ => rfl, ?_, by simp⟩
        rw [show env.raises sub.password (some (env.hash salt entry.password)) = false from
          hpassword]
        show (Except.ok (env.verify sub.password (env.hash salt entry.password)), w) = _
        rw [hverify salt _ _ hpassword haccepted]
    · refine Or.inr ⟨false, fun hsame => absurd hsame.1 htopics, ?_, ?_⟩
      · simp [Registration.toSubscription, hprefill, htopics]
      · simp [htopics]
  · refine Or.inr ⟨false, fun hsame => absurd hsame.2 hprefill, ?_, ?_⟩
    · simp [Registration.toSubscription, Ne.symm hprefill]
    · simp [hprefill]

/-- The call ends as the registry says, with the buckets and the map still linked. -/
def Refines (env : Env) (same : String → String → Bool) (call : Call) (w : World)
    (m : Registry) : Prop :=
  ∃ a w' m', call.serve env w = (a, w') ∧ Registry.Step env.refuses same m call a m' ∧
    Linked env w' m'

/-- Every call about a name begins by looking for its record. -/
theorem Linked.read (h : Linked env w m) (name : String) :
    (w.bucket .subscriptions).value? name = (m name).map (·.toSubscription name) :=
  h.record name

/-- Where there is none, all but a registration are told so. -/
theorem absent_refines (h : Linked env w m) {same : String → String → Bool} {call : Call}
    (hname : call.name? = some name) (hcreate : ∀ salt sub, call ≠ .create salt sub)
    (hentry : m name = none) {k : Option Subscription → Coro Answer}
    (hprogram : call.program env = (getValue name .subscriptions).bind k)
    (hk : k none = .throw Registry.notFound) : Refines env same call w m := by
  have hread := h.read name
  rw [hentry] at hread
  refine ⟨.error Registry.notFound, w, m, ?_, .absent call name hname hentry hcreate, h⟩
  unfold Call.serve
  rw [hprogram, finish_getValue_bind, hread]
  show (k none).finish (Provisioning.serve env) 0 w = _
  rw [hk]
  rfl

/-- A registration: of a new name, of a new name with a password that cannot be hashed, or of one
that is compared. -/
theorem create_refines (h : Linked env w m) {same : String → String → Bool}
    (hverify : ∀ salt pw pw', env.refuses pw = false → env.refuses pw' = false →
      env.verify pw (env.hash salt pw') = same pw pw')
    (salt : String) (sub : NewSubscription) (hname : sub.name ≠ PREFILL_STREAM) :
    Refines env same (.create salt sub) w m := by
  have hserve : Call.serve env (.create salt sub) w =
      ((createSubscription env salt sub).bind fun code => Prog.pure (.code code)).finish
        (Provisioning.serve env) 0 w := rfl
  have hread := h.read sub.name
  -- What happens is decided by the registry's entry and by whether bcrypt takes the password.
  cases hentry : m sub.name with
  | none =>
    rw [hentry] at hread
    cases hpassword : env.refuses sub.password with
    | true =>
      refine ⟨.error (.call .passwordValue), w, m, ?_, .refused salt sub hpassword ?_, h⟩
      · rw [hserve, createSubscription_eq, bind_assoc, finish_getValue_bind, hread]
        simp only [Option.map_none, hpassword, if_true]
        rfl
      · intro entry hsome
        rw [hentry] at hsome
        cases hsome
    | false =>
      obtain ⟨w', hregister, hlinked⟩ := enters_registerNew h salt sub hpassword hname
      refine ⟨.ok (.code 201), w', _, ?_, .created salt sub hentry hpassword, hlinked⟩
      rw [hserve, createSubscription_eq, bind_assoc, finish_getValue_bind, hread]
      simp only [Option.map_none, hpassword, Bool.false_eq_true, if_false]
      exact finish_bind hregister
  | some entry =>
    rw [hentry] at hread
    rcases finish_matching h hverify sub hentry with
      ⟨hpassword, hagrees, hraised⟩ | ⟨found, hpassword, hmatching, hfound⟩
    · refine ⟨.error (.call .passwordValue), w, m, ?_, .refused salt sub hpassword ?_, h⟩
      · rw [hserve, createSubscription_eq, bind_assoc, finish_getValue_bind, hread]
        exact finish_bind_error (finish_bind_error hraised)
      · intro entry' hsome
        rw [hentry] at hsome
        cases hsome
        exact hagrees
    · cases found with
      | true =>
        have hsame := hfound.mp rfl
        refine ⟨.ok (.code 200), w, m, ?_,
          .matching salt sub entry hentry (hpassword hsame.1) hsame, h⟩
        rw [hserve, createSubscription_eq, bind_assoc, finish_getValue_bind, hread]
        exact finish_bind (finish_bind hmatching)
      | false =>
        have hother : ¬ Registry.Matches same sub entry := fun hsame => nomatch hfound.mpr hsame
        refine ⟨.error Registry.conflict, w, m, ?_,
          .conflicting salt sub entry hentry hpassword hother, h⟩
        rw [hserve, createSubscription_eq, bind_assoc, finish_getValue_bind, hread]
        exact finish_bind_error (finish_bind hmatching)

/-- A deletion takes record and credential, so the map loses the name. -/
theorem delete_refines (h : Linked env w m) {same : String → String → Bool} (name : String)
    (hname : name ≠ PREFILL_STREAM) : Refines env same (.delete name) w m := by
  have hserve : Call.serve env (.delete name) w =
      ((deleteSubscription name).bind fun _ => Prog.pure .finished).finish
        (Provisioning.serve env) 0 w := rfl
  have hread := h.read name
  cases hentry : m name with
  | none => exact absent_refines h rfl nofun hentry (bind_assoc _ _ _) rfl
  | some entry =>
    rw [hentry] at hread
    obtain ⟨w₁, hw₁⟩ : ∃ w₁, w₁ = w.setBucket .credentials
        ((w.bucket .credentials).delete name) := ⟨_, rfl⟩
    obtain ⟨w₂, hw₂⟩ : ∃ w₂, w₂ = w₁.setBucket .subscriptions
        ((w₁.bucket .subscriptions).delete name) := ⟨_, rfl⟩
    have hdeleteHash : answer env 0 (.kvDelete .credentials name) w = (.ok (), w₁) := by
      rw [hw₁]
      rfl
    have hdeleteRecord : answer env 0 (.kvDelete .subscriptions name) w₁ = (.ok (), w₂) := by
      rw [hw₂]
      rfl
    have hcredential : ∀ n, w₂.credential n = if n = name then none else w.credential n := by
      intro n
      rw [hw₂, credential_setRecords, hw₁, credential_delete]
    have hlinked : Linked env w₂ (Function.update m name none) := by
      refine h.update (fun n => ?_) (fun n hn => ?_) nofun (fun _ => ?_) ?_
      · rw [hw₂, record_delete, hw₁, record_setCredentials]
        rfl
      · rw [hcredential, if_neg hn]
      · rw [hcredential, if_pos rfl]
      · rw [hw₂, hw₁]
        rfl
    -- What is left concerns the stream, of which the registry knows nothing.
    obtain ⟨w₃, hstream, honly₃⟩ := finish_deleteStream env w₂ name
    obtain ⟨w₄, hconsumer, honly₄⟩ := finish_deleteConsumer env w₃ name
    refine ⟨.ok .finished, w₄, _, ?_, .deleted name entry hentry,
      (hlinked.streamOnly honly₃ hname).streamOnly honly₄ hname⟩
    rw [hserve]
    unfold deleteSubscription getSubscriptionInfo
    rw [bind_eq, bind_assoc, finish_getValue_bind, hread]
    refine finish_bind (x := ()) ?_
    exact (finish_request_bind hdeleteHash).trans <| (finish_request_bind hdeleteRecord).trans <|
      (finish_bind hstream).trans hconsumer

/-- An update changes the status in the entry and leaves its password alone. -/
theorem setStatus_refines (h : Linked env w m) {same : String → String → Bool} (name : String)
    (status : FillQueueStatus) : Refines env same (.setStatus name status) w m := by
  have hserve : Call.serve env (.setStatus name status) w =
      ((setSubscriptionQueueStatus name status).bind fun _ => Prog.pure .finished).finish
        (Provisioning.serve env) 0 w := rfl
  have hread := h.read name
  cases hentry : m name with
  | none => exact absent_refines h rfl nofun hentry (bind_assoc _ _ _) rfl
  | some entry =>
    rw [hentry] at hread
    have hlinked : Linked env (w.setBucket .subscriptions ((w.bucket .subscriptions).put name
        (({ entry with status := status } : Registration).toSubscription name)))
        (Function.update m name (some { entry with status := status })) := by
      refine h.update (fun n => record_put _ n) (fun n _ => credential_setRecords _ n)
        (fun e he => ?_) nofun rfl
      cases he
      rw [credential_setRecords]
      exact h.credential name entry hentry
    refine ⟨.ok .finished, _, _, ?_, .statusSet name status entry hentry, hlinked⟩
    rw [hserve]
    unfold setSubscriptionQueueStatus getSubscriptionInfo
    rw [bind_eq, bind_assoc, finish_getValue_bind, hread]
    rfl

/-- Reading a subscription changes nothing. -/
theorem get_refines (h : Linked env w m) {same : String → String → Bool} (name : String) :
    Refines env same (.get name) w m := by
  have hserve : Call.serve env (.get name) w =
      ((getSubscription name).bind fun sub => Prog.pure (.subscription sub)).finish
        (Provisioning.serve env) 0 w := rfl
  have hread := h.read name
  cases hentry : m name with
  | none => exact absent_refines h rfl nofun hentry (bind_assoc _ _ _) rfl
  | some entry =>
    rw [hentry] at hread
    refine ⟨_, w, m, ?_, .got name entry hentry, h⟩
    rw [hserve]
    unfold getSubscription getSubscriptionInfo
    rw [bind_eq, bind_assoc, finish_getValue_bind, hread]
    rfl

/-- And neither does reading its status. -/
theorem getStatus_refines (h : Linked env w m) {same : String → String → Bool} (name : String) :
    Refines env same (.getStatus name) w m := by
  have hserve : Call.serve env (.getStatus name) w =
      ((getSubscriptionQueueStatus name).bind fun status => Prog.pure (.status status)).finish
        (Provisioning.serve env) 0 w := rfl
  have hread := h.read name
  cases hentry : m name with
  | none => exact absent_refines h rfl nofun hentry (bind_assoc _ _ _) rfl
  | some entry =>
    rw [hentry] at hread
    refine ⟨_, w, m, ?_, .gotStatus name entry hentry, h⟩
    rw [hserve]
    unfold getSubscriptionQueueStatus getSubscriptionInfo
    rw [bind_eq, bind_assoc, finish_getValue_bind, hread]
    rfl

/-- A name has an entry exactly when it has a credential. -/
theorem Linked.mem_keys (h : Linked env w m) (n : String) :
    n ∈ (w.bucket .credentials).keys ↔ (m n).isSome = true := by
  have hcredential : (w.credential n).isSome = true ↔ (m n).isSome = true := by
    cases hentry : m n with
    | none => simp [h.noCredential n hentry]
    | some entry =>
      obtain ⟨salt, hash, -, hhash⟩ := h.credential n entry hentry
      simp [hhash]
  rw [← hcredential]
  constructor
  · intro hn
    obtain ⟨e, he⟩ := Bucket.get?_of_mem_keys hn
    simp [World.credential, Bucket.value?, he]
  · intro hn
    obtain ⟨hash, hhash⟩ := Option.isSome_iff_exists.mp hn
    obtain ⟨e, he, -⟩ := Bucket.value?_eq_some hhash
    exact Bucket.mem_keys_of_get? he

/-- The listing goes over the credentials and looks up the records. Both come from the map, so no
record is missing. -/
theorem getAll_refines (h : Linked env w m) {same : String → String → Bool} :
    Refines env same .getAll w m := by
  have hserve : Call.serve env .getAll w =
      (getSubscriptions.bind fun subs => Prog.pure (.subscriptions subs)).finish
        (Provisioning.serve env) 0 w := rfl
  have hrecord : w.record = fun n => (m n).map (·.toSubscription n) := funext h.record
  refine ⟨_, w, m, ?_, .listed (w.bucket .credentials).keys
    (w.bucket .credentials).entries.keys_nodup h.mem_keys, h⟩
  rw [hserve, finish_bind finish_getSubscriptions, hrecord]
  rfl

/-- **One call of the service is one step of the registry.** -/
theorem call_refines (h : Linked env w m) {same : String → String → Bool}
    (hverify : ∀ salt pw pw', env.refuses pw = false → env.refuses pw' = false →
      env.verify pw (env.hash salt pw') = same pw pw')
    (call : Call) (hname : call.name? ≠ some PREFILL_STREAM) : Refines env same call w m := by
  cases call with
  | create salt sub =>
    exact create_refines h hverify salt sub fun heq => hname (congrArg some heq)
  | delete name => exact delete_refines h name fun heq => hname (congrArg some heq)
  | setStatus name status => exact setStatus_refines h name status
  | get name => exact get_refines h name
  | getStatus name => exact getStatus_refines h name
  | getAll => exact getAll_refines h

/-! ## Any number of calls -/

/-! The induction is on the calls, with the map and the state generalized: each call starts where
the one before has ended, linked to the map that it has left. -/

/-- Nothing is registered, and the prefill service is there. -/
structure Vacant (w : World) : Prop where
  record : ∀ n, w.record n = none
  credential : ∀ n, w.credential n = none
  prefill : ∃ s, w.streams (streamKey PREFILL_STREAM) = some s ∧ PREFILL_STREAM ∈ s.subjects

/-- Empty buckets hold the empty map. -/
theorem Vacant.linked (h : Vacant w) : Linked env w .empty :=
  ⟨h.record, nofun, fun n _ => h.credential n, h.prefill⟩

/-- From a linked state, whatever it holds. -/
theorem serveAll_refines {same : String → String → Bool}
    (hverify : ∀ salt pw pw', env.refuses pw = false → env.refuses pw' = false →
      env.verify pw (env.hash salt pw') = same pw pw')
    (h : Linked env w m) {calls : List Call}
    (hnames : ∀ call ∈ calls, call.name? ≠ some PREFILL_STREAM) : ∃ m',
    Registry.Run env.refuses same m calls (serveAll env calls w).1 m' ∧
      Linked env (serveAll env calls w).2 m' := by
  induction calls generalizing w m with
  | nil => exact ⟨m, .nil m, h⟩
  | cons call calls ih =>
    obtain ⟨a, w', m', hserve, hstep, hlinked⟩ :=
      call_refines h hverify call (hnames call List.mem_cons_self)
    obtain ⟨m'', hrun, hlast⟩ := ih hlinked fun c hc => hnames c (List.mem_cons_of_mem call hc)
    unfold serveAll
    rw [hserve]
    exact ⟨m'', .cons hstep hrun, hlast⟩

/-- **From empty buckets, any sequence of calls is a run of the registry**, with the passwords
compared as the hash scheme compares them. -/
theorem service_refines_registry (env : Env) (same : String → String → Bool) (w : World)
    (calls : List Call)
    (hverify : ∀ salt pw pw', env.refuses pw = false → env.refuses pw' = false →
      env.verify pw (env.hash salt pw') = same pw pw')
    (hvacant : Vacant w) (hnames : ∀ call ∈ calls, call.name? ≠ some PREFILL_STREAM) :
    ∃ m, Registry.Run env.refuses same .empty calls (serveAll env calls w).1 m ∧
      Linked env (serveAll env calls w).2 m :=
  serveAll_refines hverify hvacant.linked hnames

/-! ## A password is compared up to its 72nd byte -/

/-! The scheme of the service looks at 72 bytes of a password and refuses one with a NUL in it. Both
can be seen at the registry. -/

theorem vacant_prepared : Vacant .prepared :=
  ⟨fun _ => rfl, fun _ => rfl, _, rfl, by decide⟩

/-- The sample subscription with a long password. -/
def NewSubscription.longPassword (last : Char) : NewSubscription :=
  { sample with password := String.ofList (List.replicate 72 'x' ++ [last]) }

/-- "a" is registered, and again with a password that differs in its last character; "b" with one
that cannot be hashed. -/
def longPasswords : List Call :=
  [.create "s" (.longPassword 'a'), .create "t" (.longPassword 'b'),
    .create "u" { NewSubscription.sample with name := "b", password := "\x00" }]

theorem service_refines_registry_bcrypt : ∃ m,
    Registry.Run refusedByBcrypt sameSignificant .empty longPasswords
        (serveAll .bcrypt longPasswords .prepared).1 m ∧
      Linked .bcrypt (serveAll .bcrypt longPasswords .prepared).2 m :=
  service_refines_registry .bcrypt sameSignificant .prepared longPasswords
    (fun _ _ _ h _ => verify_bcrypt h) vacant_prepared (by decide)

/-- The second registration is taken for a repetition of the first. -/
theorem answers_longPasswords : (serveAll .bcrypt longPasswords .prepared).1 =
    [.ok (.code 201), .ok (.code 200), .error (.call .passwordValue)] := by
  rfl

/-- So a registry that compares passwords by equality and refuses none is not what the service
implements: the run above has an answer that it does not give. -/
theorem not_refines_with_equality : ¬ ∀ (env : Env) (w : World) (calls : List Call), Vacant w →
    (∀ call ∈ calls, call.name? ≠ some PREFILL_STREAM) →
    ∃ m, Registry.Run (fun _ => false) (· == ·) .empty calls (serveAll env calls w).1 m := by
  intro h
  obtain ⟨m, hrun⟩ := h .bcrypt .prepared longPasswords vacant_prepared (by decide)
  rw [answers_longPasswords] at hrun
  cases hrun with
  | cons hfirst hrest =>
    cases hfirst with
    | created salt sub hnone =>
      cases hrest with
      | cons hsecond hnil =>
        cases hsecond with
        | matching salt' sub' entry hentry _ hsame =>
          -- The entry is that of the first call, whose password ends in another character.
          have hname : (NewSubscription.longPassword 'b').name =
              (NewSubscription.longPassword 'a').name := rfl
          rw [hname, Function.update_self] at hentry
          cases hentry
          exact absurd hsame.2 (by decide)

end Provisioning
