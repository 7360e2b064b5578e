import Provisioning.Properties.DeletionFinal

/-!
# The two listings of subscriptions

`server/services/subscriptions.py`, `get_subscriptions`, goes by the keys of the credentials, and
`get_all_subscriptions` of the adapter by those of the records. Registering writes the two buckets
one after the other, and so does deleting; in between the listings differ, and if the second write
never comes they go on differing.

**A write that leaves one half at a name therefore needs someone who is about to write the other.**

## The invariant

`Covered` says that of every name, and of both directions: where there is a hash and no record,
somebody is about to put the record, and where there is a record and no hash, somebody is about to
delete it. "About to" means that it is the next call. That is enough because of the code: whoever
writes a hash goes on to the record in its very next call (`Paired`), so there is no further point
in between at which a job could stand.

It does not say who. In a race of several registrations and deletions of one name the one who covers
a half may be another one than the one who left it, and it may be called for nothing when a third
one completes the half first. An invariant that named the job would be lost in such runs.

## The condition

The agreement does not hold in every run; a process that dies between its two writes leaves a half.
So the condition is on the steps: `NoHalf` says of one write, with the state before it, whether it
leaves a half that nobody is about to complete. It is stated for each of the four kinds of writes,
and the proof is the same for all of them: `WritesEntry` has the bucket and the direction as
parameters, and `Covered.writeHash` and `Covered.writeRecord` are one lemma each for putting and
deleting.

When no operation is going on nobody is about to do anything, so nothing can be covered, and the
buckets have the same keys. Then the listings agree.
-/

namespace Provisioning

open Await Store Prog

/-! ## Operations -/

/-! Registering is taken up to the record, for what comes after it writes to neither bucket. -/

/-- The operations that write a record. -/
inductive Operation where
  | register (salt : String) (newSub : NewSubscription)
  | delete (name : String)
  | setStatus (name : String) (status : FillQueueStatus)
  | none

/-- The service's function for each of them. -/
def Operation.program (env : Env) : Operation → Coro Reply
  | .register salt newSub => do let _ ← registerSubscription env salt newSub; return .finished
  | .delete name => do deleteSubscription name; return .finished
  | .setStatus name status => do setSubscriptionQueueStatus name status; return .finished
  | .none => return .finished

/-- Whoever writes a credential goes on to the record. -/
def Paired : Coro Reply → Prop
  | .await (.kvPut .credentials n _) k =>
    ∃ sub k', k (.ok ()) = .await (.kvPut .subscriptions n sub) k'
  | .await (.kvDelete .credentials n) k => ∃ k', k (.ok ()) = .await (.kvDelete .subscriptions n) k'
  | _ => True

/-- The call writes a hash or deletes one. -/
def WritesCredentials : Op → Prop
  | .kvPut .credentials .. => True
  | .kvDelete .credentials _ => True
  | _ => False

-- `Everywhere` is a property of all points of a program, in whatever way it gets there.
theorem paired_of_not_writes {op : Op} {k : Except CallError op.Res → Coro Reply}
    (h : ¬ WritesCredentials op) : Paired (.await op k) := by
  unfold Paired
  split
  · next heq => cases heq; exact absurd trivial h
  · next heq => cases heq; exact absurd trivial h
  · trivial

theorem paired_of_uses {p : Coro Reply} (hp : p.Uses fun op => ¬ WritesCredentials op) :
    p.Everywhere Paired := by
  apply hp.everywhere
  intro q hq
  cases q with
  | pure a => trivial
  | throw e => trivial
  | await op k => exact paired_of_not_writes hq.1

/-- A look at a value comes before. -/
theorem paired_getValue_bind {b : Bucket} {key : String} {f : Option b.Val → Coro Reply}
    (hf : ∀ v, (f v).Everywhere Paired) : ((getValue key b).bind f).Everywhere Paired := by
  refine everywhere_getValue_bind ?_ (fun _ => trivial) hf
  rw [getValue_bind]
  exact paired_of_not_writes id

/-- A registration puts the record right after the hash. -/
theorem paired_register (env : Env) (salt : String) (sub : NewSubscription) :
    ((Operation.register salt sub).program env).Everywhere Paired := by
  show ((registerSubscription env salt sub).bind fun _ => Prog.pure Reply.finished).Everywhere _
  unfold registerSubscription getSubscriptionInfo prepareAndStoreSubscriptionInfo
  simp only [bind_eq, bind_assoc]
  apply paired_getValue_bind
  intro found
  cases found with
  | some existingSub =>
    simp only [bind_assoc]
    exact paired_of_uses
      (Uses.bind (uses_isSubscriptionsMatching id) fun found => by cases found <;> trivial)
  | none =>
    simp only [bind_assoc, ofExcept_hashPassword]
    split
    · trivial
    · simp only [bind_pure, putValue_hash]
      refine everywhere_request_bind ⟨_, _, rfl⟩ (fun _ => trivial) fun _ => ?_
      refine everywhere_request_bind (paired_of_not_writes id) (fun _ => trivial) fun _ => ?_
      refine paired_of_uses (Uses.bind (uses_ensureStream id id id) fun _ => ?_)
      exact Uses.bind (uses_ensureConsumer id id) fun _ => trivial

/-- **So does every operation**: a deletion deletes the two in the same order. -/
theorem paired_operation (env : Env) (operation : Operation) :
    (operation.program env).Everywhere Paired := by
  cases operation with
  | register salt sub => exact paired_register env salt sub
  | delete name =>
    show ((deleteSubscription name).bind fun _ => Prog.pure Reply.finished).Everywhere _
    unfold deleteSubscription getSubscriptionInfo
    simp only [bind_eq, bind_assoc]
    apply paired_getValue_bind
    intro found
    cases found with
    | none => trivial
    | some sub =>
      simp only [bind_assoc]
      refine everywhere_request_bind ⟨_, rfl⟩ (fun _ => trivial) fun _ => ?_
      refine everywhere_request_bind (paired_of_not_writes id) (fun _ => trivial) fun _ => ?_
      refine paired_of_uses (Uses.bind (uses_deleteStream id) fun _ => ?_)
      exact Uses.bind (uses_deleteConsumer id) fun _ => trivial
  | setStatus name status =>
    refine paired_of_uses (Uses.bind ((uses_setSubscriptionQueueStatus name status).mono ?_)
      fun _ => trivial)
    intro op h
    cases h <;> exact id
  | none => trivial

/-- An operation begins with a read. -/
theorem operation_reads (env : Env) (operation : Operation) :
    operation.program env = .pure .finished ∨
      ∃ n, ((operation.program env).next?) = some (.kvGet .subscriptions n) := by
  cases operation with
  | none => exact Or.inl rfl
  | _ => exact Or.inr ⟨_, rfl⟩

/-! ## Agreement -/

/-! Each of the listings is one scan, computed at a state at which nothing else is going on. They
agree up to the order, in which the keys of two buckets may differ. -/

/-- What the two listings return, called at `w` with nothing else going on. -/
def ListingsAgree (env : Env) (w : World) : Prop :=
  ∀ tid, ∃ listed subs, getSubscriptions.finish (serve env) tid w = (.ok listed, w) ∧
    getAllSubscriptions.finish (serve env) tid w = (.ok subs, w) ∧ listed.Perm (subs.map some)

/-- The two buckets have the same keys. -/
def SameKeys (w : World) : Prop := ∀ n, w.credential n ≠ none ↔ w.record n ≠ none

/-- The records of the bucket, one for each key. -/
theorem finish_getAllSubscriptions (env : Env) (tid : Nat) (w : World) : ∃ subs,
    getAllSubscriptions.finish (serve env) tid w = (.ok subs, w) ∧
      subs.map some = (w.bucket .subscriptions).keys.map w.record := by
  have hread : ∀ keys : List String, (∀ key ∈ keys, key ∈ (w.bucket .subscriptions).keys) →
      ∃ subs, Prog.finish (serve env) tid (keys.foldr (fun key rest =>
        (request (.kvGet .subscriptions key)).bind fun entry =>
          rest.bind fun subscriptions => .pure (entry.value :: subscriptions))
        (.pure [] : Coro (List Subscription))) w = (.ok subs, w) ∧
        subs.map some = keys.map w.record := by
    intro keys
    induction keys with
    | nil => exact fun _ => ⟨[], rfl, rfl⟩
    | cons key keys ih =>
      intro hmem
      obtain ⟨subs, hrun, hsubs⟩ := ih fun k hk => hmem k (List.mem_cons_of_mem key hk)
      obtain ⟨e, he⟩ := Bucket.get?_of_mem_keys (hmem key List.mem_cons_self)
      have hget : answer env tid (.kvGet .subscriptions key) w = (.ok e, w) := by
        simp only [answer, he]
      have hrec : w.record key = some e.value := by
        rw [World.record, Bucket.value?, he, Option.map_some]
      refine ⟨e.value :: subs, (finish_request_bind hget).trans (finish_bind hrun), ?_⟩
      rw [List.map_cons, List.map_cons, hrec, hsubs]
  have hkeys : answer env tid (.kvKeys .subscriptions) w =
      (.ok (w.bucket .subscriptions).keys, w) := rfl
  obtain ⟨subs, hrun, hsubs⟩ := hread (w.bucket .subscriptions).keys fun _ h => h
  exact ⟨subs, (finish_request_bind hkeys).trans hrun, hsubs⟩

theorem mem_keys_iff {V : Type} (b : Store.Bucket V) (n : String) :
    n ∈ b.keys ↔ b.value? n ≠ none := by
  rw [ne_eq, Bucket.value?_eq_none]
  constructor
  · intro h hnone
    obtain ⟨e, he⟩ := Bucket.get?_of_mem_keys h
    rw [hnone] at he
    cases he
  · intro h
    obtain ⟨e, he⟩ := Option.ne_none_iff_exists'.mp h
    exact Bucket.mem_keys_of_get? he

/-- The listings agree if the buckets have the same keys. -/
theorem listingsAgree_of_sameKeys (env : Env) {w : World} (h : SameKeys w) :
    ListingsAgree env w := by
  intro tid
  obtain ⟨subs, hall, hsubs⟩ := finish_getAllSubscriptions env tid w
  refine ⟨_, subs, finish_getSubscriptions, hall, ?_⟩
  rw [hsubs]
  have hmem : ∀ n, n ∈ (w.bucket .credentials).keys ↔ n ∈ (w.bucket .subscriptions).keys := by
    intro n
    rw [mem_keys_iff, mem_keys_iff]
    exact h n
  have hkeys : (w.bucket .credentials).keys.Perm (w.bucket .subscriptions).keys :=
    (List.perm_ext_iff_of_nodup (AList.keys_nodup _) (AList.keys_nodup _)).mpr hmem
  exact hkeys.map w.record

/-! ## Half-written names -/

/-! A step is seen from one name. The call is a write of its hash, a write of its record, or leaves
both alone; and it is served, or lost. -/

/-- Someone else than `i` is about to put the record of `n`. -/
def AnotherPuts (c : System) (i : Nat) (n : String) : Prop :=
  ∃ j sub, j ≠ i ∧ (c.prog j).next? = some (.kvPut .subscriptions n sub)

/-- Someone else than `i` is about to delete the record of `n`. -/
def AnotherDrops (c : System) (i : Nat) (n : String) : Prop :=
  ∃ j, j ≠ i ∧ (c.prog j).next? = some (.kvDelete .subscriptions n)

/-- A write that leaves no half behind, where `puts` and `drops` are the names at which someone
else writes the record next. -/
def NoHalf (puts drops : String → Prop) (w : World) (f : Fault Outage) : Op → Prop
  -- The caller goes on to the record only if it hears of the write.
  | .kvPut .credentials n _ => ¬ f.Lands ∨ f.isOk = true ∨ w.record n ≠ none ∨ puts n
  | .kvDelete .credentials n => ¬ f.Lands ∨ f.isOk = true ∨ w.record n = none ∨ drops n
  | .kvPut .subscriptions n _ =>
    (f.Lands ∧ (w.record n ≠ none ∨ w.credential n ≠ none ∨ drops n)) ∨
      (¬ f.Lands ∧ (w.record n ≠ none ∨ w.credential n = none ∨ puts n))
  | .kvDelete .subscriptions n =>
    (f.Lands ∧ (w.record n = none ∨ w.credential n = none ∨ puts n)) ∨
      (¬ f.Lands ∧ (w.record n = none ∨ w.credential n ≠ none ∨ drops n))
  | _ => True

/-- The step leaves no half behind that nobody is about to complete. -/
def LeavesNoHalf (c : System) (l : Nat × Fault Outage) : Prop :=
  ∀ op, (c.prog l.1).next? = some op →
    NoHalf (AnotherPuts c l.1) (AnotherDrops c l.1) c.world l.2 op

/-- Where `n` is in one bucket only, someone is about to write the other. -/
structure Covered (c : System) (n : String) : Prop where
  missing : c.world.credential n ≠ none → c.world.record n = none →
    ∃ i sub, (c.prog i).next? = some (.kvPut .subscriptions n sub)
  extra : c.world.credential n = none → c.world.record n ≠ none →
    ∃ i, (c.prog i).next? = some (.kvDelete .subscriptions n)

/-- A name that is in both buckets or in neither needs no cover. -/
theorem covered_of_same {c : System} {n : String}
    (h : c.world.credential n ≠ none ↔ c.world.record n ≠ none) : Covered c n :=
  ⟨fun hhash hrec => absurd hrec (h.mp hhash), fun hhash hrec => absurd hhash (h.mpr hrec)⟩

section Step

variable {env : Env} {c : System} {i : Nat} {f : Fault Outage} {op : Op}
  {k : Except CallError op.Res → Coro Reply} {n : String}

/-- Whoever else is about to make a call still is. -/
theorem next?_other {j : Nat} {o : Op} (hp : c.prog i = .await op k) (hne : op ≠ o)
    (hj : (c.prog j).next? = some o) : ((c.next (serve env) i f op k).prog j).next? = some o := by
  rw [Config.next_prog_of_ne]
  · exact hj
  · intro heq
    rw [heq, hp, next?_await] at hj
    exact hne (Option.some.inj hj)

theorem next?_of_another {j : Nat} {o : Op} (hji : j ≠ i) (hj : (c.prog j).next? = some o) :
    ((c.next (serve env) i f op k).prog j).next? = some o := by
  rw [Config.next_prog_of_ne hji]
  exact hj

/-- A call that leaves the name alone, and is no write to its record. -/
theorem Covered.keep (h : Covered c n) (hp : c.prog i = .await op k)
    (hput : ∀ sub, op ≠ .kvPut .subscriptions n sub) (hdrop : op ≠ .kvDelete .subscriptions n)
    (hhash : ((serve env).left i op c.world f).credential n = c.world.credential n)
    (hrec : ((serve env).left i op c.world f).record n = c.world.record n) :
    Covered (c.next (serve env) i f op k) n := by
  refine ⟨?_, ?_⟩
  · rw [Config.next_world, hhash, hrec]
    intro hsome hnone
    obtain ⟨j, sub, hj⟩ := h.missing hsome hnone
    exact ⟨j, sub, next?_other hp (hput sub) hj⟩
  · rw [Config.next_world, hhash, hrec]
    intro hnone hsome
    obtain ⟨j, hj⟩ := h.extra hnone hsome
    exact ⟨j, next?_other hp hdrop hj⟩

/-- A call that is not served leaves every name alone. -/
theorem Covered.unserved (h : Covered c n) (hp : c.prog i = .await op k) (hf : ¬ f.Lands)
    (hput : ∀ sub, op ≠ .kvPut .subscriptions n sub) (hdrop : op ≠ .kvDelete .subscriptions n) :
    Covered (c.next (serve env) i f op k) n := by
  refine h.keep hp hput hdrop ?_ ?_ <;> rw [Server.left_of_not_lands hf]

/-- The entry of `n` in the bucket is written, and is `there` afterwards; or it is deleted. -/
inductive WritesEntry (b : Bucket) (n : String) : (there : Bool) → Op → Prop where
  | put (value : b.Val) : WritesEntry b n true (.kvPut b n value)
  | drop : WritesEntry b n false (.kvDelete b n)

/-- Someone is about to write the record so. -/
def Writer (c : System) (n : String) (there : Bool) (i : Nat) : Prop :=
  ∃ op, WritesEntry .subscriptions n there op ∧ (c.prog i).next? = some op

/-- `Covered`, for both directions at once: where the hash is `there` or not and the record is not
as the hash is, someone is about to make it so. -/
theorem covered_iff {c : System} : Covered c n ↔ ∀ there, (c.world.credential n).isSome = there →
    (c.world.record n).isSome = !there → ∃ i, Writer c n there i := by
  constructor
  · intro h there hhash hrec
    cases there with
    | true =>
      obtain ⟨i, sub, hi⟩ := h.missing (Option.isSome_iff_ne_none.mp hhash)
        (Option.isNone_iff_eq_none.mp (Option.isSome_eq_false_iff.mp hrec))
      exact ⟨i, _, .put sub, hi⟩
    | false =>
      obtain ⟨i, hi⟩ := h.extra (Option.isNone_iff_eq_none.mp (Option.isSome_eq_false_iff.mp hhash))
        (Option.isSome_iff_ne_none.mp hrec)
      exact ⟨i, _, .drop, hi⟩
  · intro h
    refine ⟨fun hhash hrec => ?_, fun hhash hrec => ?_⟩
    · obtain ⟨i, op, hop, hi⟩ := h true (Option.isSome_iff_ne_none.mpr hhash)
        (Option.isSome_eq_false_iff.mpr (Option.isNone_iff_eq_none.mpr hrec))
      cases hop with
      | put sub => exact ⟨i, sub, hi⟩
    · obtain ⟨i, op, hop, hi⟩ := h false
        (Option.isSome_eq_false_iff.mpr (Option.isNone_iff_eq_none.mpr hhash))
        (Option.isSome_iff_ne_none.mpr hrec)
      cases hop with
      | drop => exact ⟨i, hi⟩

theorem Writer.of_another {there : Bool} {j : Nat} (hji : j ≠ i) (h : Writer c n there j) :
    Writer (c.next (serve env) i f op k) n there j :=
  h.imp fun _ h => ⟨h.1, next?_of_another hji h.2⟩

/-- Who is about to write it the other way is someone else. -/
theorem Writer.of_opposite {there there' : Bool} (hp : c.prog i = .await op k)
    (hop : WritesEntry .subscriptions n there op) (hne : there ≠ there') {j : Nat}
    (h : Writer c n there' j) : Writer (c.next (serve env) i f op k) n there' j := by
  obtain ⟨o, ho, hj⟩ := h
  refine ⟨o, ho, next?_other hp (fun heq => ?_) hj⟩
  subst heq
  cases hop <;> cases ho
  · exact hne rfl
  · exact hne rfl

/-- A served write does what it says. -/
theorem WritesEntry.isSome {b : Bucket} {there : Bool} (hop : WritesEntry b n there op)
    (hf : f.Lands) (w : World) :
    ((((serve env).left i op w f).bucket b).value? n).isSome = there := by
  rw [Server.left_of_lands hf]
  cases hop with
  | put value => exact congrArg Option.isSome ((value?_setBucket_put b value n).trans (if_pos rfl))
  | drop => exact congrArg Option.isSome ((value?_setBucket_delete b n).trans (if_pos rfl))

/-- It does not touch the other bucket. -/
theorem WritesEntry.other {b b' : Bucket} {there : Bool} (hop : WritesEntry b n there op)
    (hb : b' ≠ b) (w : World) :
    (((serve env).left i op w f).bucket b').value? n = (w.bucket b').value? n := by
  by_cases hf : f.Lands
  · rw [Server.left_of_lands hf]
    cases hop <;> exact congrArg (·.value? n) (World.bucket_setBucket_of_ne hb ..)
  · rw [Server.left_of_not_lands hf]

/-- A write of a hash leaves no half behind: its caller goes on, there is none, or someone else is
at the record. -/
theorem noHalf_hash {there : Bool} (hop : WritesEntry .credentials n there op)
    (h : NoHalf (AnotherPuts c i) (AnotherDrops c i) c.world f op) :
    ¬ f.Lands ∨ f.isOk = true ∨ (c.world.record n).isSome = there ∨
      ∃ j, j ≠ i ∧ Writer c n there j := by
  cases hop with
  | put hash =>
    refine h.imp_right (Or.imp_right (Or.imp Option.isSome_iff_ne_none.mpr ?_))
    exact fun ⟨j, sub, hji, hj⟩ => ⟨j, hji, _, .put sub, hj⟩
  | drop =>
    refine h.imp_right (Or.imp_right (Or.imp (fun hnone => ?_) ?_))
    · exact Option.isSome_eq_false_iff.mpr (Option.isNone_iff_eq_none.mpr hnone)
    · exact fun ⟨j, hji, hj⟩ => ⟨j, hji, _, .drop, hj⟩

/-- …and a write of a record. -/
theorem noHalf_record {there : Bool} (hop : WritesEntry .subscriptions n there op)
    (h : NoHalf (AnotherPuts c i) (AnotherDrops c i) c.world f op) :
    (f.Lands ∧ ((c.world.record n).isSome = there ∨ (c.world.credential n).isSome = there ∨
        ∃ j, j ≠ i ∧ Writer c n (!there) j)) ∨
      (¬ f.Lands ∧ ((c.world.record n).isSome = there ∨ (c.world.credential n).isSome = !there ∨
        ∃ j, j ≠ i ∧ Writer c n there j)) := by
  have hputs : AnotherPuts c i n → ∃ j, j ≠ i ∧ Writer c n true j :=
    fun ⟨j, sub, hji, hj⟩ => ⟨j, hji, _, .put sub, hj⟩
  have hdrops : AnotherDrops c i n → ∃ j, j ≠ i ∧ Writer c n false j :=
    fun ⟨j, hji, hj⟩ => ⟨j, hji, _, .drop, hj⟩
  have hnone : ∀ {α : Type} {o : Option α}, o = none → o.isSome = false :=
    fun h => Option.isSome_eq_false_iff.mpr (Option.isNone_iff_eq_none.mpr h)
  have hsome : ∀ {α : Type} {o : Option α}, o ≠ none → o.isSome = true :=
    Option.isSome_iff_ne_none.mpr
  cases hop with
  | put sub =>
    exact h.imp (And.imp_right (Or.imp hsome (Or.imp hsome hdrops)))
      (And.imp_right (Or.imp hsome (Or.imp hnone hputs)))
  | drop =>
    exact h.imp (And.imp_right (Or.imp hnone (Or.imp hnone hputs)))
      (And.imp_right (Or.imp hnone (Or.imp hsome hdrops)))

/-- Whoever has heard that the hash is written is about to write the record. -/
theorem writer_of_paired {there : Bool} (hop : WritesEntry .credentials n there op)
    (hpaired : Paired (.await op k)) :
    Writer (c.next (serve env) i .ok op k) n there i := by
  unfold Writer
  rw [Config.next_prog_self]
  cases hop with
  | put hash =>
    obtain ⟨sub, k', hk⟩ := hpaired
    exact ⟨_, .put sub, congrArg next? hk⟩
  | drop =>
    obtain ⟨k', hk⟩ := hpaired
    exact ⟨_, .drop, congrArg next? hk⟩

/-- The hash is written or deleted. -/
theorem Covered.writeHash {there : Bool} (h : Covered c n) (hp : c.prog i = .await op k)
    (hop : WritesEntry .credentials n there op) (hpaired : Paired (.await op k))
    (hhalf : NoHalf (AnotherPuts c i) (AnotherDrops c i) c.world f op) :
    Covered (c.next (serve env) i f op k) n := by
  by_cases hf : f.Lands
  · refine covered_iff.mpr fun there' hhash hrec => ?_
    obtain rfl : there = there' := (hop.isSome hf c.world).symm.trans hhash
    have hsame : ((serve env).left i op c.world f).record n = c.world.record n :=
      hop.other (fun heq => by cases heq) c.world
    rw [Config.next_world, hsame] at hrec
    rcases noHalf_hash hop hhalf with hnot | hok | hthere | ⟨j, hji, hj⟩
    · exact absurd hf hnot
    · -- The caller goes on to the record.
      obtain rfl := Fault.eq_ok hok
      exact ⟨i, writer_of_paired hop hpaired⟩
    · rw [hthere] at hrec
      exact absurd hrec (Bool.eq_not_self there).mp
    · exact ⟨j, hj.of_another hji⟩
  · refine h.unserved hp hf (fun sub heq => ?_) fun heq => ?_
    all_goals
      subst heq
      cases hop

/-- The record is written or deleted. -/
theorem Covered.writeRecord {there : Bool} (h : Covered c n) (hp : c.prog i = .await op k)
    (hop : WritesEntry .subscriptions n there op)
    (hhalf : NoHalf (AnotherPuts c i) (AnotherDrops c i) c.world f op) :
    Covered (c.next (serve env) i f op k) n := by
  -- Who was to write it the other way still is.
  have hopposite : (c.world.credential n).isSome = !there → (c.world.record n).isSome = there →
      ∃ j, Writer (c.next (serve env) i f op k) n (!there) j := by
    intro hhash hrec
    obtain ⟨j, hj⟩ := covered_iff.mp h (!there) hhash (by rw [hrec, Bool.not_not])
    exact ⟨j, hj.of_opposite hp hop (Bool.eq_not_self there).mp⟩
  refine covered_iff.mpr fun there' hhash hrec => ?_
  rw [Config.next_world] at hhash hrec
  rcases noHalf_record hop hhalf with ⟨hf, hhalf⟩ | ⟨hf, hhalf⟩
  · have hsame : ((serve env).left i op c.world f).credential n = c.world.credential n :=
      hop.other (fun heq => by cases heq) c.world
    have hthere : there = !there' := (hop.isSome hf c.world).symm.trans hrec
    obtain rfl : there' = !there := by rw [hthere, Bool.not_not]
    rw [hsame] at hhash
    rcases hhalf with hrec' | hhash' | ⟨j, hji, hj⟩
    · exact hopposite hhash hrec'
    · exact absurd (hhash'.symm.trans hhash) (Bool.eq_not_self there).mp
    · exact ⟨j, hj.of_another hji⟩
  · rw [Server.left_of_not_lands hf] at hhash hrec
    by_cases hthere : there' = there
    · subst hthere
      rcases hhalf with hrec' | hhash' | ⟨j, hji, hj⟩
      · exact absurd (hrec'.symm.trans hrec) (Bool.eq_not_self there').mp
      · exact absurd (hhash.symm.trans hhash') (Bool.eq_not_self there').mp
      · exact ⟨j, hj.of_another hji⟩
    · obtain rfl : there' = !there := Bool.eq_not.mpr hthere
      exact hopposite hhash (hrec.trans (Bool.not_not there))

/-- A step that leaves no half behind covers every name. -/
theorem Covered.next (h : Covered c n) (hp : c.prog i = .await op k)
    (hpaired : Paired (.await op k)) (hhalf : LeavesNoHalf c (i, f)) :
    Covered (c.next (serve env) i f op k) n := by
  have hop := hhalf op (by rw [hp, next?_await])
  -- the call writes the hash of the name, or its record, or neither
  by_cases hhash : ∃ there, WritesEntry .credentials n there op
  · obtain ⟨there, hwrites⟩ := hhash
    exact h.writeHash hp hwrites hpaired hop
  by_cases hrec : ∃ there, WritesEntry .subscriptions n there op
  · obtain ⟨there, hwrites⟩ := hrec
    exact h.writeRecord hp hwrites hop
  -- Any other call leaves both entries alone.
  have hkept : ∀ {b : Bucket}, (¬ ∃ there, WritesEntry b n there op) →
      (((serve env).left i op c.world f).bucket b).value? n = (c.world.bucket b).value? n := by
    intro b hnot
    by_cases hf : f.Lands
    · rw [Server.left_of_lands hf]
      rcases value_answer env i op c.world b n with hsame | ⟨v, heq, -⟩ | ⟨heq, -⟩
      · exact hsame
      · exact absurd ⟨true, heq ▸ .put v⟩ hnot
      · exact absurd ⟨false, heq ▸ .drop⟩ hnot
    · rw [Server.left_of_not_lands hf]
  exact h.keep hp (fun sub heq => hrec ⟨true, heq ▸ .put sub⟩)
    (fun heq => hrec ⟨false, heq ▸ .drop⟩) (hkept hhash) (hkept hrec)

end Step

/-! ## All states on the way -/

/-! The run lemma, and what it says of a state in which nobody is on the way. -/

/-- No operation is going on: each is over, or has not begun. -/
def Idle (start : Nat → Coro Reply) (c : System) : Prop :=
  ∀ i, (c.prog i).Finished ∨ c.prog i = start i

/-- With nobody on the way, what is covered is the same in both buckets. -/
theorem sameKeys_of_idle {env : Env} {operations : Nat → Operation} {c : System}
    (hidle : Idle (fun i => (operations i).program env) c) (h : ∀ n, Covered c n) :
    SameKeys c.world := by
  -- Neither an operation that is over nor one that has not begun is about to write.
  have hread : ∀ i o, (c.prog i).next? = some o → ∃ n, o = .kvGet .subscriptions n := by
    intro i o hi
    rcases hidle i with hfin | hstart
    · unfold Finished at hfin
      rw [hfin] at hi
      cases hi
    · have hbegins : c.prog i = (operations i).program env := hstart
      rw [hbegins] at hi
      rcases operation_reads env (operations i) with hnone | ⟨n, hn⟩
      · rw [hnone] at hi
        cases hi
      · rw [hn] at hi
        exact ⟨n, (Option.some.inj hi).symm⟩
  intro n
  constructor
  · intro hhash hnone
    obtain ⟨i, sub, hi⟩ := (h n).missing hhash hnone
    obtain ⟨n', heq⟩ := hread i _ hi
    cases heq
  · intro hrec hnone
    obtain ⟨i, hi⟩ := (h n).extra hnone hrec
    obtain ⟨n', heq⟩ := hread i _ hi
    cases heq

/-- **The listings agree whenever no operation is going on**, in every run that starts with the
same keys in both buckets and none of whose steps leaves a half behind. -/
theorem listings_agree (env : Env) (w : World) (operations : Nat → Operation) (ls : Schedule)
    (hkeys : SameKeys w)
    (hhalf : (Config.init w fun i => (operations i).program env : System).Along (serve env)
      LeavesNoHalf ls) :
    (Config.init w fun i => (operations i).program env : System).Always (serve env)
      (fun c => Idle (fun i => (operations i).program env) c → ListingsAgree env c.world) ls := by
  have hstep : ∀ (c : System) l d,
      ((∀ i, (c.prog i).Everywhere Paired) ∧ ∀ n, Covered c n) → LeavesNoHalf c l →
      c.step (serve env) l = some d →
      (∀ i, (d.prog i).Everywhere Paired) ∧ ∀ n, Covered d n := by
    intro c l d hc hl hs
    have hpaired := Config.step_everywhere hc.1 hs
    obtain ⟨op, k, hp, rfl⟩ := Config.step_cases hs
    exact ⟨hpaired, fun n => (hc.2 n).next hp (hp ▸ hc.1 l.1).here hl⟩
  have hinit : (∀ i, ((operations i).program env).Everywhere Paired) ∧
      ∀ n, Covered (.init w fun i => (operations i).program env) n :=
    ⟨fun i => paired_operation env (operations i), fun n => covered_of_same (hkeys n)⟩
  apply (Config.always_of_invariant hstep hinit hhalf).mono
  intro c hc hidle
  exact listingsAgree_of_sameKeys env (sameKeys_of_idle hidle hc.2)

/-! ## Registering and deleting -/

theorem NoHalf.mono {puts drops puts' drops' : String → Prop} {w : World} {f : Fault Outage}
    {op : Op} (h : NoHalf puts drops w f op) (hputs : ∀ n, puts n → puts' n)
    (hdrops : ∀ n, drops n → drops' n) : NoHalf puts' drops' w f op := by
  unfold NoHalf at h ⊢
  split at h
  · exact h.imp_right (Or.imp_right (Or.imp_right (hputs _)))
  · exact h.imp_right (Or.imp_right (Or.imp_right (hdrops _)))
  · exact h.imp (And.imp_right (Or.imp_right (Or.imp_right (hdrops _))))
      (And.imp_right (Or.imp_right (Or.imp_right (hputs _))))
  · exact h.imp (And.imp_right (Or.imp_right (Or.imp_right (hputs _))))
      (And.imp_right (Or.imp_right (Or.imp_right (hdrops _))))
  · trivial

/-- With no one else about to write, it can be checked. -/
def noHalfAlone (w : World) (f : Fault Outage) : Op → Bool
  | .kvPut .credentials n _ => !decide f.Lands || f.isOk || (w.record n).isSome
  | .kvDelete .credentials n => !decide f.Lands || f.isOk || (w.record n).isNone
  | .kvPut .subscriptions n _ =>
    if f.Lands then (w.record n).isSome || (w.credential n).isSome
    else (w.record n).isSome || (w.credential n).isNone
  | .kvDelete .subscriptions n =>
    if f.Lands then (w.record n).isNone || (w.credential n).isNone
    else (w.record n).isNone || (w.credential n).isSome
  | _ => true

theorem noHalf_of_alone {w : World} {f : Fault Outage} {op : Op}
    (h : noHalfAlone w f op = true) : NoHalf (fun _ => False) (fun _ => False) w f op := by
  unfold noHalfAlone at h
  unfold NoHalf
  split
  · simpa [or_assoc, Option.isSome_iff_ne_none] using h
  · simpa [or_assoc] using h
  · by_cases hf : f.Lands
    · exact Or.inl ⟨hf, by simpa [hf, Option.isSome_iff_ne_none] using h⟩
    · exact Or.inr ⟨hf, by simpa [hf, Option.isSome_iff_ne_none] using h⟩
  · by_cases hf : f.Lands
    · exact Or.inl ⟨hf, by simpa [hf] using h⟩
    · exact Or.inr ⟨hf, by simpa [hf, Option.isSome_iff_ne_none] using h⟩
  · trivial

def AloneNoHalf (c : System) (l : Nat × Fault Outage) : Prop :=
  (c.prog l.1).next?.all (noHalfAlone c.world l.2) = true

instance (c : System) (l : Nat × Fault Outage) : Decidable (AloneNoHalf c l) :=
  inferInstanceAs (Decidable (_ = _))

theorem leavesNoHalf_of_alone {c : System} {l : Nat × Fault Outage} (h : AloneNoHalf c l) :
    LeavesNoHalf c l := by
  intro op hop
  unfold AloneNoHalf at h
  rw [hop] at h
  exact (noHalf_of_alone h).mono (fun _ => False.elim) fun _ => False.elim

def Operation.pool (operations : List Operation) (i : Nat) : Operation := operations.getD i .none

def someOperations : List Operation :=
  [.register "s" .sample, .setStatus "a" .done, .delete "a", .register "t" .sample]

/-- The status of "a" is updated while it is being registered; then it is deleted, and another
registration is refused before it has written anything. -/
def someSteps : Schedule :=
  List.replicate 4 (0, .ok) ++ List.replicate 2 (1, .ok) ++ List.replicate 3 (0, .ok) ++
    List.replicate 5 (2, .ok) ++ [(3, .ok), (3, .before .connection)]

theorem sameKeys_empty : SameKeys .empty := fun _ =>
  iff_of_false (fun h => h rfl) (fun h => h rfl)

theorem listings_agree_someSteps :
    (Config.init .empty fun i => (Operation.pool someOperations i).program .sample : System).Always
      (serve .sample)
      (fun c => Idle (fun i => (Operation.pool someOperations i).program .sample) c →
        ListingsAgree .sample c.world) someSteps :=
  listings_agree .sample .empty _ someSteps sameKeys_empty
    (Config.Along.mono (C := AloneNoHalf) (fun _ _ => leavesNoHalf_of_alone) (by decide +kernel))

/-- The connection is lost between the two writes of a registration: `None` is listed. -/
theorem not_listings_agree : ¬ ∀ (env : Env) (w : World) (operations : Nat → Operation)
    (ls : Schedule), SameKeys w →
    (Config.init w fun i => (operations i).program env : System).Always (serve env)
      (fun c => Idle (fun i => (operations i).program env) c → ListingsAgree env c.world) ls := by
  intro h
  have halways := h .sample .empty (Operation.pool [.register "s" .sample])
    [(0, .ok), (0, .ok), (0, .before .connection)] sameKeys_empty
  obtain ⟨d, hrun, hraised, hother, hlisted, hkept⟩ : ∃ d,
      (Config.init .empty fun i =>
        (Operation.pool [.register "s" .sample] i).program .sample : System).run (serve .sample)
        [(0, .ok), (0, .ok), (0, .before .connection)] = some d ∧
      d.prog 0 = .throw (.call .connection) ∧ (∀ i, i ≠ 0 → d.prog i = .pure .finished) ∧
      getSubscriptions.finish (serve .sample) 0 d.world = (.ok [none], d.world) ∧
      getAllSubscriptions.finish (serve .sample) 0 d.world = (.ok [], d.world) := by
    refine ⟨_, rfl, rfl, fun i hi => ?_, rfl, rfl⟩
    cases i with
    | zero => exact absurd rfl hi
    | succ i => rfl
  have hidle : Idle (fun i => (Operation.pool [.register "s" .sample] i).program .sample) d := by
    intro i
    by_cases hi : i = 0
    · rw [hi, hraised]
      exact Or.inl rfl
    · rw [hother i hi]
      exact Or.inl rfl
  obtain ⟨listed, subs, hget, hall, hperm⟩ := halways.run hrun hidle 0
  rw [hlisted] at hget
  rw [hkept] at hall
  cases hget
  cases hall
  exact absurd hperm.length_eq (by decide)

end Provisioning
