import Provisioning.Model.Calls

/-!
# A deleted subscription stays deleted

Two operations write to a subscription that is there already: the prefill status is set by reading
the record and writing it back, and a user who authenticates with a hash of an old scheme has it
replaced by a new one. Neither write is conditional on the revision that was read, so a deletion
that takes place between the read and the write is undone by it.

`deleted_stays_deleted` says that nothing else undoes a deletion. The proof is a race told from
the programs: once the entry is gone, no program can come to a write without hearing an answer
that is no longer given.

## Told from the programs

There is no list of places where the other threads can be. Each program is *guarded*: on every way
through it an answer of a certain kind is heard before the first call of a certain kind is made.
For the record the answer is the record itself and the call is the one that writes it. A program
that starts out guarded stays so until it hears such an answer; and the answers are chosen so that
none of them is given any more when the entry is gone. That the deletion happened is thus turned
into a statement about the programs that are left, which no step can break.

A program that has heard the answer already is not guarded, and it is the one that
`DeletesUndisturbed` looks for, at the very step of the deletion. What it looks at is the next call
of the others, so it speaks of the state before the step.

## The cache of verifications

A hash may also be read long before, by somebody else: the result of a verification, with the new
hash in it, is taken from the table in the process. `CacheConsistent` says that the table has no new
hash for a hash that is not due to be replaced. With this an answer from the table counts as one
about the hash that the caller has read.
-/

namespace Provisioning

open Await Store Prog

variable (env : Env)

/-- The hash verifies the password and is due to be replaced. -/
def Rehashes (password : String) (hash : Option String) : Prop :=
  ∃ hashed, hash = some hashed ∧ env.verify password hashed = true ∧
    env.needsUpdate hashed password = true

/-- The password cache holds results of `verify_and_update_password`. -/
def CacheConsistent (w : World) : Prop :=
  ∀ x ∈ w.passwordCache, x.2.2 ≠ none → Rehashes env x.1.1 x.1.2.1

/-- The call writes the hash, or its answer is going to make the caller write it. -/
def WritesHash (name : String) (op : Op) : Prop :=
  PutsHash name op ∨ ∃ salt password hash subscription,
    op = .verifyCached salt password hash subscription ∧ Rehashes env password hash

/-- What a served call has to find: when the hash is deleted, no authentication is on its way from
reading it to replacing it; when the record is deleted, no status update is on its way from
reading it to writing it back. -/
def DeletesUndisturbed (name : String) (c : System) (l : Nat × Fault Outage) : Prop :=
  l.2 = .ok → ∀ j op, (c.prog j).next? = some op →
    ((c.prog l.1).next? = some (.kvDelete .credentials name) → ¬ WritesHash env name op) ∧
    ((c.prog l.1).next? = some (.kvDelete .subscriptions name) → ¬ PutsRecord name op)

/-- Deletions, status updates and authentications for `name`. -/
def Job.Concerns (name : String) : Job → Prop
  | .deleteService n => n = name
  | .setStatus n _ => n = name
  | .authenticate _ credentials _ => credentials.username = name
  | .passwordCacheExpires .. => True
  | .idle => True
  | _ => False

/-! ## What the programs wait for -/

/-! Two kinds of answers and calls, one for each bucket. -/

/-- An answer that is not given once the hash is gone and the cache is consistent. -/
def ReadsHash (name : String) : (op : Op) → Except CallError op.Res → Prop
  | .kvGet .credentials n, .ok _ => n = name
  | .verifyCached _ password hash _, .ok (_, some _) => ¬ Rehashes env password hash
  | _, _ => False

/-- An answer that is not given once the record is gone. -/
def ReadsRecord (name : String) : (op : Op) → Except CallError op.Res → Prop
  | .kvGet .subscriptions n, .ok _ => n = name
  | _, _ => False

/-- The program writes the hash only if it reads it, unless it has done so already. -/
def HashWriter (name : String) (p : Coro Reply) : Prop :=
  p.Guarded (ReadsHash env name) (PutsHash name) (fun _ => False) ∨
    ∃ op, p.next? = some op ∧ WritesHash env name op

/-- The program writes the record only if it reads it, unless it has done so already. -/
def RecordWriter (name : String) (p : Coro Reply) : Prop :=
  p.Guarded (ReadsRecord name) (PutsRecord name) (fun _ => False) ∨
    ∃ op, p.next? = some op ∧ PutsRecord name op

section Everywhere

variable {α : Type} {Q : Coro α → Prop}

/-- What holds all along a program is shown call by call. -/
theorem everywhere_request_bind {op : Op} {f : op.Res → Coro α} (hQ : Q ((request op).bind f))
    (hthrow : ∀ e, Q (.throw (.call e))) (hf : ∀ a, (f a).Everywhere Q) :
    ((request op).bind f).Everywhere Q := by
  refine ⟨hQ, fun r => ?_⟩
  cases r with
  | ok a => exact hf a
  | error e => exact hthrow e

theorem everywhere_getValue_bind {b : Bucket} {key : String} {f : Option b.Val → Coro α}
    (hQ : Q ((getValue key b).bind f)) (hthrow : ∀ e, Q (.throw (.call e)))
    (hf : ∀ v, (f v).Everywhere Q) : ((getValue key b).bind f).Everywhere Q := by
  rw [getValue_bind] at hQ ⊢
  refine ⟨hQ, fun r => ?_⟩
  cases r with
  | ok e => exact hf (some e.value)
  | error x =>
    by_cases hx : x = .keyNotFound
    · simpa [hx] using hf none
    · simpa [hx] using hthrow x

end Everywhere

variable {env} {name : String}

theorem hashWriter_of_guarded {p : Coro Reply}
    (h : p.Guarded (ReadsHash env name) (PutsHash name) fun _ => False) :
    HashWriter env name p := Or.inl h

/-- A program that never writes the hash is guarded wherever it is. -/
theorem hashWriter_of_uses {P : Op → Prop} {p : Coro Reply} (hp : p.Uses P)
    (hP : ∀ op, P op → ¬ PutsHash name op) : p.Everywhere (HashWriter env name) :=
  hp.everywhere fun _ hq => hashWriter_of_guarded (hq.guarded hP)

theorem recordWriter_of_uses {P : Op → Prop} {p : Coro Reply} (hp : p.Uses P)
    (hP : ∀ op, P op → ¬ PutsRecord name op) : p.Everywhere (RecordWriter name) :=
  hp.everywhere fun _ hq => Or.inl (hq.guarded hP)

/-! ### Authentication -/

/-- What follows the verification. -/
def afterVerification (credentials : HTTPBasicCredentials) (hashed subscription : Option String)
    (r : Bool × Option String) : Coro Unit :=
  if r.1 then
    match r.2 with
    | some newHash =>
      if newHash != "" then putValue credentials.username .credentials newHash else .pure ()
    | none => .pure ()
  else
    (request (.cachePop credentials.password hashed subscription)).bind fun _ =>
      handleAuthenticationError "Incorrect username or password"

theorem authenticateUser_eq (salt : String) (credentials : HTTPBasicCredentials)
    (subscription : Option String) :
    authenticateUser salt credentials subscription =
      if subscription.any (fun n => n != "" && n != credentials.username) then
        handleAuthenticationError "You do not have access to this data"
      else
        (getValue credentials.username .credentials).bind fun hashed =>
          (request (.verifyCached salt credentials.password hashed subscription)).bind
            (afterVerification credentials hashed subscription) := rfl

/-- A program that at most drops an entry of the password cache writes no hash. -/
theorem not_putsHash_cachePop {password : String} {hashed subscription : Option String} {op : Op}
    (h : op = .cachePop password hashed subscription) : ¬ PutsHash name op := by
  intro ⟨hash, hput⟩
  rw [h] at hput
  cases hput

/-- A refusal makes one more call, and it is in the process. -/
theorem uses_refusal (credentials : HTTPBasicCredentials) (hashed subscription newHash :
    Option String) : ((afterVerification credentials hashed subscription (false, newHash)).bind
      fun _ => Prog.pure Reply.finished).Uses
        fun op => op = .cachePop credentials.password hashed subscription :=
  Uses.bind (Uses.bind (uses_request rfl) fun _ => trivial) fun _ => trivial

theorem guarded_afterVerification {credentials : HTTPBasicCredentials}
    {hashed subscription : Option String} {r : Bool × Option String} (hr : r.2 = none) :
    ((afterVerification credentials hashed subscription r).bind fun _ =>
      Prog.pure Reply.finished).Guarded (ReadsHash env name) (PutsHash name) fun _ => False := by
  obtain ⟨valid, newHash⟩ := r
  dsimp only at hr
  subst hr
  cases valid with
  | true => exact id
  | false => exact (uses_refusal ..).guarded fun _ hop => not_putsHash_cachePop hop

/-- A verification that yields no new hash is not followed by a write. -/
theorem guarded_verify {salt : String} {credentials : HTTPBasicCredentials}
    {hashed subscription : Option String} (h : ¬ Rehashes env credentials.password hashed) :
    ((request (.verifyCached salt credentials.password hashed subscription)).bind fun r =>
      (afterVerification credentials hashed subscription r).bind fun _ =>
        Prog.pure Reply.finished).Guarded (ReadsHash env name) (PutsHash name)
      fun _ => False := by
  refine guarded_request_bind.mpr ⟨nofun, fun r hM => guarded_afterVerification ?_, fun _ _ => id⟩
  obtain ⟨valid, newHash⟩ := r
  cases newHash with
  | none => rfl
  | some newHash => exact absurd h hM

theorem hashWriter_afterVerification (credentials : HTTPBasicCredentials)
    (hashed subscription : Option String) (r : Bool × Option String) :
    ((afterVerification credentials hashed subscription r).bind fun _ =>
      Prog.pure Reply.finished).Everywhere (HashWriter env credentials.username) := by
  obtain ⟨valid, newHash⟩ := r
  cases valid with
  | false => exact hashWriter_of_uses (uses_refusal ..) fun _ hop => not_putsHash_cachePop hop
  | true =>
    cases newHash with
    | none => exact Or.inl id
    | some newHash =>
      by_cases hne : newHash = ""
      · simp only [afterVerification, hne]
        exact Or.inl id
      · have hput : (afterVerification credentials hashed subscription (true, some newHash)) =
            request (.kvPut .credentials credentials.username newHash) := by
          simp [afterVerification, putValue, Bucket.Val.empty, hne]
        rw [hput]
        exact everywhere_request_bind (Or.inr ⟨_, rfl, Or.inl ⟨newHash, rfl⟩⟩)
          (fun _ => Or.inl id) fun _ => Or.inl id

/-- **An authentication** is a writer of its user's hash. -/
theorem hashWriter_authenticate (salt : String) (credentials : HTTPBasicCredentials)
    (subscription : Option String) :
    ((Job.authenticate salt credentials subscription).program env).Everywhere
      (HashWriter env credentials.username) := by
  show ((authenticateUser salt credentials subscription).bind fun _ =>
    Prog.pure Reply.finished).Everywhere _
  rw [authenticateUser_eq]
  split
  · exact Or.inl id
  · rw [bind_assoc]
    refine everywhere_getValue_bind (Or.inl ?_) (fun _ => Or.inl id) fun hashed => ?_
    · -- Nothing is written unless the hash is read; one that is not there is not replaced.
      refine guarded_getValue_bind.mpr ⟨nofun, fun e hM => absurd rfl hM, fun _ => ?_,
        fun _ _ _ => id⟩
      rw [bind_assoc]
      exact guarded_verify nofun
    · rw [bind_assoc]
      refine everywhere_request_bind ?_ (fun _ => Or.inl id) fun r =>
        hashWriter_afterVerification credentials hashed subscription r
      by_cases hre : Rehashes env credentials.password hashed
      · exact Or.inr ⟨_, rfl, Or.inr ⟨_, _, _, _, rfl, hre⟩⟩
      · exact Or.inl (guarded_verify hre)

/-! ### The status -/

theorem setSubscriptionQueueStatus_eq (name : String) (status : FillQueueStatus) :
    setSubscriptionQueueStatus name status = (getValue name .subscriptions).bind fun
      | none => .throw (.valueError "Subscription was not found.")
      | some subInfo => setSubInfo name { subInfo with prefillQueueStatus := status } := by
  refine congrArg ((getValue name .subscriptions).bind ·) (funext fun found => ?_)
  cases found <;> rfl

/-- **A status update** is a writer of the record. -/
theorem recordWriter_setStatus (name : String) (status : FillQueueStatus) :
    ((Job.setStatus name status).program env).Everywhere (RecordWriter name) := by
  show ((setSubscriptionQueueStatus name status).bind fun _ =>
    Prog.pure Reply.finished).Everywhere _
  rw [setSubscriptionQueueStatus_eq, bind_assoc]
  refine everywhere_getValue_bind (Or.inl ?_) (fun _ => Or.inl id) fun found => ?_
  · exact guarded_getValue_bind.mpr ⟨nofun, fun e hM => absurd rfl hM, fun _ => id,
      fun _ _ _ => id⟩
  · cases found with
    | none => exact Or.inl id
    | some sub =>
      exact everywhere_request_bind (Or.inr ⟨_, rfl, _, rfl⟩) (fun _ => Or.inl id)
        fun _ => Or.inl id

/-! ### The jobs -/

/-- All that run beside the deletion. -/
theorem hashWriter_job {job : Job} (h : job.Concerns name) :
    (job.program env).Everywhere (HashWriter env name) := by
  cases job with
  | deleteService n =>
    apply hashWriter_of_uses (uses_program env (.deleteService n))
    intro op hop ⟨hash, hput⟩
    subst hput
    cases hop
  | setStatus n status =>
    apply hashWriter_of_uses (uses_program env (.setStatus n status))
    intro op hop ⟨hash, hput⟩
    subst hput
    cases hop
  | authenticate salt credentials subscription =>
    have hname : credentials.username = name := h
    exact hname ▸ hashWriter_authenticate salt credentials subscription
  | passwordCacheExpires password hash subscription =>
    apply hashWriter_of_uses (uses_program env (.passwordCacheExpires password hash subscription))
    exact fun op hop => not_putsHash_cachePop hop
  | idle => exact Or.inl id
  | _ => exact h.elim

theorem recordWriter_job {job : Job} (h : job.Concerns name) :
    (job.program env).Everywhere (RecordWriter name) := by
  cases job with
  | deleteService n =>
    apply recordWriter_of_uses (uses_program env (.deleteService n))
    intro op hop ⟨sub, hput⟩
    subst hput
    cases hop
  | setStatus n status =>
    have hname : n = name := h
    exact hname ▸ recordWriter_setStatus n status
  | authenticate salt credentials subscription =>
    apply recordWriter_of_uses (uses_program env (.authenticate salt credentials subscription))
    intro op hop ⟨sub, hput⟩
    subst hput
    cases hop
  | passwordCacheExpires password hash subscription =>
    apply recordWriter_of_uses (uses_program env (.passwordCacheExpires password hash subscription))
    intro op hop ⟨sub, hput⟩
    rw [show op = _ from hop] at hput
    cases hput
  | idle => exact Or.inl id
  | _ => exact h.elim

/-! ## One call -/

theorem rehashes_verifyAndUpdate (salt : String) {password : String} {hash : Option String}
    (h : (env.verifyAndUpdate salt password hash).2 ≠ none) : Rehashes env password hash := by
  unfold Env.verifyAndUpdate at h
  cases hash with
  | none => exact absurd rfl h
  | some hashed =>
    dsimp only at h
    split at h
    · exact absurd rfl h
    · next hverify =>
      split at h
      · next hupdate => exact ⟨hashed, rfl, by simpa using hverify, hupdate⟩
      · exact absurd rfl h

theorem cacheConsistent_answer (tid : Nat) (op : Op) {w : World} (h : CacheConsistent env w) :
    CacheConsistent env (answer env tid op w).2 := by
  intro x hx hnew
  rcases passwordCache_answer env tid op w hx with hold | ⟨salt, password, hash, sub, -, rfl⟩
  · exact h x hold hnew
  · exact rehashes_verifyAndUpdate salt hnew

/-- **A hash that is gone is not read**, and the cache makes up none. -/
theorem not_readsHash_answer (tid : Nat) {op : Op} {w : World} (hcache : CacheConsistent env w)
    (hgone : w.credential name = none) : ¬ ReadsHash env name op (answer env tid op w).1 := by
  intro h
  unfold ReadsHash at h
  split at h
  · next n e hr =>
    subst h
    rw [kvGet_missing env tid hgone] at hr
    cases hr
  · next salt password hash sub valid newHash hr =>
    refine h ?_
    simp only [answer] at hr
    split at hr
    · next r hlookup =>
      obtain ⟨l₁, l₂, hsplit, -⟩ := List.lookup_eq_some_iff.mp hlookup
      have hmem : ((password, hash, sub), r) ∈ w.passwordCache := by
        rw [hsplit]
        exact List.mem_append_right _ List.mem_cons_self
      refine hcache _ hmem ?_
      rw [Except.ok.inj hr]
      exact Option.some_ne_none newHash
    · split at hr
      · cases hr
      · refine rehashes_verifyAndUpdate salt ?_
        rw [Except.ok.inj hr]
        exact Option.some_ne_none newHash
  · exact h

/-- **A record that is gone is not read.** -/
theorem not_readsRecord_answer (env : Env) (tid : Nat) {op : Op} {w : World}
    (hgone : w.record name = none) : ¬ ReadsRecord name op (answer env tid op w).1 := by
  intro h
  unfold ReadsRecord at h
  split at h
  · next n e hr =>
    subst h
    rw [kvGet_missing env tid hgone] at hr
    cases hr
  · exact h

/-- Nothing is read off an error. -/
theorem not_readsHash_error (op : Op) (e : CallError) : ¬ ReadsHash env name op (.error e) := by
  unfold ReadsHash
  split
  · next h => cases h
  · next h => cases h
  · exact id

theorem not_readsRecord_error (op : Op) (e : CallError) : ¬ ReadsRecord name op (.error e) := by
  unfold ReadsRecord
  split
  · next h => cases h
  · exact id

/-! ## One step -/

/-- The entry of `name` is deleted, and the caller learns so. -/
def Drops (b : Bucket) (name : String) : (op : Op) → Except CallError op.Res → Prop
  | .kvDelete b' n, .ok _ => b' = b ∧ n = name
  | _, _ => False

/-- Such an answer means that the call was carried out. -/
theorem drops_heard {b : Bucket} {tid : Nat} {op : Op} {w : World} {f : Fault Outage}
    (h : Drops b name op ((serve env).heard tid op w f)) :
    f = .ok ∧ op = .kvDelete b name := by
  cases op with
  | kvDelete b' n =>
    obtain ⟨hf, hans⟩ := Server.heard_answered (M := Drops b name (.kvDelete b' n)) (fun _ => id) h
    obtain ⟨hb, hn⟩ := hans
    exact ⟨hf, by rw [hb, hn]⟩
  | _ =>
    unfold Drops at h
    split at h
    · next heq _ => cases heq
    · exact h.elim

/-- Once an entry has been deleted it is gone, and no program can write it any more without
hearing an answer that is no longer given. -/
structure StaysDeleted (env : Env) (name : String) (c : System) : Prop where
  cache : CacheConsistent env c.world
  hashWriters : ∀ j, (c.prog j).Everywhere (HashWriter env name)
  recordWriters : ∀ j, (c.prog j).Everywhere (RecordWriter name)
  hash : ∀ i, c.Heard i (Drops .credentials name) → c.world.credential name = none ∧
    ∀ j, (c.prog j).Guarded (ReadsHash env name) (PutsHash name) fun _ => False
  record : ∀ i, c.Heard i (Drops .subscriptions name) → c.world.record name = none ∧
    ∀ j, (c.prog j).Guarded (ReadsRecord name) (PutsRecord name) fun _ => False

variable {c d : System} {l : Nat × Fault Outage}

/-- A program that has not issued a call is guarded as it stands. -/
theorem guarded_of_hashWriter {p : Coro Reply} (h : HashWriter env name p)
    (hnext : ∀ op, p.next? = some op → ¬ WritesHash env name op) :
    p.Guarded (ReadsHash env name) (PutsHash name) fun _ => False := by
  rcases h with hg | ⟨op, hop, hwrites⟩
  · exact hg
  · exact absurd hwrites (hnext op hop)

theorem guarded_of_recordWriter {p : Coro Reply} (h : RecordWriter name p)
    (hnext : ∀ op, p.next? = some op → ¬ PutsRecord name op) :
    p.Guarded (ReadsRecord name) (PutsRecord name) fun _ => False := by
  rcases h with hg | ⟨op, hop, hputs⟩
  · exact hg
  · exact absurd hputs (hnext op hop)

/-- **Gone for good**, for either bucket: `M` are the answers a program has to hear before it
writes the entry, and the calls that write it are among `B`. -/
theorem gone_step {b : Bucket} {M : (op : Op) → Except CallError op.Res → Prop} {B : Op → Prop}
    (h : ∀ i, c.Heard i (Drops b name) → (c.world.bucket b).value? name = none ∧
      ∀ j, (c.prog j).Guarded M B fun _ => False)
    (hputs : ∀ v, B (.kvPut b name v)) (hdrops : ∀ r, ¬ M (.kvDelete b name) r)
    (hdelete : l.2 = .ok → (c.prog l.1).next? = some (.kvDelete b name) →
      ∀ j, (c.prog j).Guarded M B fun _ => False)
    (hanswer : ∀ op, (c.world.bucket b).value? name = none → ¬ M op (answer env l.1 op c.world).1)
    (herror : ∀ op e, ¬ M op (.error e)) (hs : c.step (serve env) l = some d) {i : Nat}
    (hheard : d.Heard i (Drops b name)) : (d.world.bucket b).value? name = none ∧
      ∀ j, (d.prog j).Guarded M B fun _ => False := by
  obtain ⟨op, k, hp, rfl⟩ := Config.step_cases hs
  have hnext : (c.prog l.1).next? = some op := next?_of_await hp
  rcases Config.heard_next.mp hheard with ⟨-, hnow⟩ | hbefore
  · -- It is deleted now, and nobody is on the way to writing it.
    obtain ⟨hf, hop⟩ := drops_heard hnow
    subst hop
    refine ⟨?_, Config.guarded_next (hdelete hf hnext) hp (hdrops _)⟩
    rw [Config.next_world, hf, Server.left_ok, serve_answer]
    show ((c.world.setBucket b ((c.world.bucket b).delete name)).bucket b).value? name = none
    rw [World.bucket_setBucket_self]
    exact Bucket.value?_delete_self ..
  · obtain ⟨hgone, hguarded⟩ := h i hbefore
    refine ⟨?_, Config.guarded_next hguarded hp ?_⟩
    · rw [Config.next_world]
      refine Server.left_preserves (P := fun w : World => (w.bucket b).value? name = none) hgone
        fun _ => ?_
      rw [serve_answer]
      rcases value_answer env l.1 op c.world b name with hsame | ⟨v, hput, -⟩ | ⟨-, hdel⟩
      · rw [hsame, hgone]
      · exact absurd (hput ▸ hputs v) ((hguarded l.1).of_next? hnext)
      · exact hdel
    · exact fun hM => hanswer op hgone (Server.heard_answered (herror op) hM).2

/-- **One step.** For each bucket the step is the deletion of the entry, or the entry was gone
before. -/
theorem StaysDeleted.step (h : StaysDeleted env name c) (hmeets : DeletesUndisturbed env name c l)
    (hs : c.step (serve env) l = some d) : StaysDeleted env name d := by
  refine ⟨?_, Config.step_everywhere h.hashWriters hs, Config.step_everywhere h.recordWriters hs,
    fun i hheard => ?_, fun i hheard => ?_⟩
  · obtain ⟨op, k, hp, rfl⟩ := Config.step_cases hs
    rw [Config.next_world]
    exact Server.left_preserves (P := CacheConsistent env) h.cache fun _ =>
      cacheConsistent_answer l.1 op h.cache
  · refine gone_step (B := PutsHash name) h.hash (fun hash => ⟨hash, rfl⟩) (fun _ => id)
      (fun hf hnext j => ?_) (fun op hgone => not_readsHash_answer l.1 h.cache hgone)
      not_readsHash_error hs hheard
    exact guarded_of_hashWriter (h.hashWriters j).here fun op hop => (hmeets hf j op hop).1 hnext
  · refine gone_step (B := PutsRecord name) h.record (fun sub => ⟨sub, rfl⟩) (fun _ => id)
      (fun hf hnext j => ?_) (fun op hgone => not_readsRecord_answer env l.1 hgone)
      not_readsRecord_error hs hheard
    exact guarded_of_recordWriter (h.recordWriters j).here fun op hop =>
      (hmeets hf j op hop).2 hnext

/-! ## Every run -/

/-- A deletion that succeeds has heard that both are gone. -/
theorem guarded_deletion (b : Bucket) (hb : b = .credentials ∨ b = .subscriptions)
    (name : String) : (deleteSubscription name).Guarded (Drops b name) (fun _ => False)
      fun r => r = .ok () := by
  refine guarded_getValue_bind.mpr ⟨id, fun e _ => ?_, fun _ => nofun, fun _ _ _ => nofun⟩
  refine guarded_request_bind.mpr ⟨id, fun _ hhash => ?_, fun _ _ => nofun⟩
  refine guarded_request_bind.mpr ⟨id, fun _ hrecord => ?_, fun _ _ => nofun⟩
  -- One of the two was the deletion asked for.
  rcases hb with rfl | rfl
  · exact absurd ⟨rfl, rfl⟩ hhash
  · exact absurd ⟨rfl, rfl⟩ hrecord

theorem guarded_deleteService (b : Bucket) (hb : b = .credentials ∨ b = .subscriptions)
    (name : String) : ((Job.deleteService name).program env).Guarded (Drops b name)
      (fun _ => False) fun r => r = .ok .finished := by
  refine Guarded.bind (guarded_deletion b hb name) (fun _ h => ?_) fun _ _ => nofun
  exact absurd rfl h

/-- **When a deleted subscription stays deleted.** In every run of deletions, status updates and
authentications for a name, under any interleaving and any lost calls: where the two deletions
find nobody on the way from reading the entry to writing it, a deletion that succeeded leaves
neither a record nor credentials, then and ever after. -/
theorem deleted_stays_deleted (env : Env) (w : World) (jobs : Nat → Job) (i : Nat)
    (name : String) (ls : Schedule) {d : System} (hjobs : ∀ j, (jobs j).Concerns name)
    (hjob : jobs i = .deleteService name) (hw : CacheConsistent env w)
    (hmeets : (System.start env w jobs).Along (serve env) (DeletesUndisturbed env name) ls)
    (hrun : (System.start env w jobs).run (serve env) ls = some d)
    (hret : d.prog i = .pure .finished) :
    d.world.record name = none ∧ d.world.credential name = none := by
  have hstart : StaysDeleted env name (System.start env w jobs) :=
    ⟨hw, fun j => hashWriter_job (hjobs j), fun j => recordWriter_job (hjobs j),
      fun j hheard => absurd hheard (Config.not_heard_init _ _),
      fun j hheard => absurd hheard (Config.not_heard_init _ _)⟩
  have hend := Config.run_invariant (P := StaysDeleted env name)
    (fun _ _ _ hc hmeets hs => hc.step hmeets hs) hstart hmeets hrun
  -- A deletion that has returned has been told of both.
  have hheard : ∀ b, b = .credentials ∨ b = .subscriptions → d.Heard i (Drops b name) := by
    intro b hb
    have hg := Config.run_guarded (i := i) (S := serve env)
      (by rw [System.start_prog, hjob]; exact guarded_deleteService b hb name) hrun
    rcases hg with hg | hheard
    · rw [hret] at hg
      exact absurd rfl hg
    · exact hheard
  exact ⟨(hend.record i (hheard _ (Or.inr rfl))).1, (hend.hash i (hheard _ (Or.inl rfl))).1⟩

/-! ## A status update across the deletion -/

/-- A status update reads the record, the subscription is deleted, the status update writes the
record back. -/
theorem record_after_deletion : ∃ d,
    (System.start .sample .registered
        (Job.pool [.deleteService "a", .setStatus "a" .running])).run (serve .sample)
      [(1, .ok), (0, .ok), (0, .ok), (0, .ok), (0, .ok), (0, .ok), (1, .ok)] = some d ∧
    d.prog 0 = .pure .finished ∧ d.prog 1 = .pure .finished ∧
    d.world.record "a" ≠ none ∧ d.world.streams (streamKey "a") = none :=
  ⟨_, rfl, rfl, rfl, by decide, rfl⟩

theorem not_deleted_stays_deleted : ¬ ∀ (env : Env) (w : World) (jobs : Nat → Job) (i : Nat)
    (name : String) (ls : Schedule) (d : System), (∀ j, (jobs j).Concerns name) →
    jobs i = .deleteService name → CacheConsistent env w →
    (System.start env w jobs).run (serve env) ls = some d → (∀ j, (d.prog j).Finished) →
    d.prog i = .pure .finished →
    d.world.record name = none ∧ d.world.credential name = none := by
  intro h
  obtain ⟨d, hrun, hdelete, hstatus, hrecord, -⟩ := record_after_deletion
  refine hrecord (h .sample .registered _ 0 "a" _ d
    (Job.pool_forall (by simp [Job.Concerns]) trivial) rfl nofun hrun (fun j => ?_) hdelete).1
  by_cases hj : 2 ≤ j
  · exact Config.run_finished (System.finished_idle .sample _
      [.deleteService "a", .setStatus "a" .running] hj) hrun
  · have hcases : j = 0 ∨ j = 1 := by omega
    rcases hcases with rfl | rfl
    · rw [hdelete]
      exact finished_pure _
    · rw [hstatus]
      exact finished_pure _

/-! ## A deletion with others beside it -/

/-- The two writes that can undo a deletion, and what they undo. -/
def undoes (env : Env) (name : String) : (deletion write : Op) → Bool
  | .kvDelete .credentials n, .kvPut .credentials key _ => n == name && key == name
  | .kvDelete .credentials n, .verifyCached _ password hash _ => n == name &&
    hash.any fun hashed => env.verify password hashed && env.needsUpdate hashed password
  | .kvDelete .subscriptions n, .kvPut .subscriptions key _ => n == name && key == name
  | _, _ => false

theorem undoes_hash {env : Env} {name : String} {op : Op} (h : WritesHash env name op) :
    undoes env name (.kvDelete .credentials name) op = true := by
  rcases h with ⟨hash, rfl⟩ | ⟨salt, password, hash, sub, rfl, hashed, rfl, hverify, hupdate⟩
  · simp [undoes]
  · simp [undoes, hverify, hupdate]

theorem undoes_record {env : Env} {name : String} {op : Op} (h : PutsRecord name op) :
    undoes env name (.kvDelete .subscriptions name) op = true := by
  obtain ⟨sub, rfl⟩ := h
  simp [undoes]

/-- Of the first `n` programs none is about to undo the deletion. -/
def undisturbed (env : Env) (name : String) (n : Nat) (c : System) (i : Nat) : Bool :=
  (List.range n).all fun j => (c.prog i).next?.all fun deletion =>
    (c.prog j).next?.all fun write => !undoes env name deletion write

/-- The other programs of a pool are over, so the first ones are all there is to look at. -/
theorem deletesUndisturbed_pool {env : Env} {name : String} {w : World} {jobs : List Job}
    {ls : Schedule} (h : (System.start env w (Job.pool jobs)).Along (serve env)
      (fun c l => undisturbed env name jobs.length c l.1 = true) ls) :
    (System.start env w (Job.pool jobs)).Along (serve env) (DeletesUndisturbed env name) ls := by
  have hidle : (System.start env w (Job.pool jobs)).Always (serve env)
      (fun c => ∀ j, jobs.length ≤ j → (c.prog j).Finished) ls :=
    Config.always_of_invariant (C := fun _ _ => True)
      (fun _ _ _ hc _ hs j hj => Config.step_finished (hc j hj) hs)
      (fun _ hj => System.finished_idle env w jobs hj) (Config.along_trivial ls)
  refine (Config.along_and h (hidle.along fun _ _ hc => hc)).mono ?_
  intro c l hboth _ j op hop
  obtain ⟨hundisturbed, hrest⟩ := hboth
  have hj : j < jobs.length := by
    by_contra hj
    rw [hrest j (Nat.le_of_not_lt hj)] at hop
    cases hop
  have hnone : ∀ deletion ∈ (c.prog l.1).next?, undoes env name deletion op = false := by
    intro deletion hdeletion
    have hall := List.all_eq_true.mp hundisturbed j (List.mem_range.mpr hj)
    rw [show (c.prog l.1).next? = some deletion from hdeletion, hop] at hall
    simpa using hall
  refine ⟨fun hdelete hwrites => ?_, fun hdelete hputs => ?_⟩
  · exact Bool.false_ne_true ((hnone _ hdelete).symm.trans (undoes_hash hwrites))
  · exact Bool.false_ne_true ((hnone _ hdelete).symm.trans (undoes_record hputs))

def crowded : List Job :=
  [.deleteService "a", .setStatus "a" .running, .authenticate "s" ⟨"a", "pw"⟩ (some "a"),
    .setStatus "a" .done]

/-- While the deletion has only read the record, a status update takes place and a consumer is let
in. The second update comes when the record is gone. -/
def crowdedSchedule : Schedule :=
  [2, 0, 1, 2, 1, 0, 0, 3, 0, 0].map fun i => (i, .ok)

theorem deleted_stays_deleted_sample : ∃ d,
    (System.start .sample .registered (Job.pool crowded)).run (serve .sample) crowdedSchedule =
      some d ∧ d.world.record "a" = none ∧ d.world.credential "a" = none :=
  ⟨_, rfl, deleted_stays_deleted .sample .registered (Job.pool crowded) 0 "a" crowdedSchedule
    (Job.pool_forall (by simp [crowded, Job.Concerns]) trivial) rfl nofun
    (deletesUndisturbed_pool (by decide +kernel)) rfl rfl⟩

end Provisioning
