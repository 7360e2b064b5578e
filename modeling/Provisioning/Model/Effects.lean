import Provisioning.Model.Nats

/-!
# What one call can change

`answer` is a match over all calls, and what a call answers and what it changes are decided by
nested cases: is there a stream, has it the consumer, is a message waiting. The proofs about runs
never look at it. They ask what a call did **to one bucket, one stream, one flag**, and the answer
is one of the few alternatives below.

## The shape of the lemmas

For each part of the state one lemma with the same reading: the part is as it was, or the call is
one of those that change it, and then it is changed like this. `bucket_answer` and `streams_answer`
are the two main ones. A run lemma splits on that disjunction, and its first case is the frame:
most calls leave most parts alone, and there the invariant is rewritten and nothing is proved.

The alternatives name the call, and not only the change. That is what lets an invariant about one
job use the calls of the others: from `op = .kvDelete b n` and the predicate of a job that never
deletes there is nothing left to show.

What a call **answers** is not in these lemmas. Where a proof needs both, the last section has the
answer together with the state, for the few calls that need it.
-/

namespace Provisioning

open Await Store

variable {w : World}

namespace World

/-! ### Frames

What setting one part leaves alone, tagged for `simp` where the part is another field of the state
and stated with `≠` where it is another key of the same field. -/
@[simp] theorem bucket_setBucket_self (w : World) (b : Bucket) (kv : Store.Bucket b.Val) :
    (w.setBucket b kv).bucket b = kv := Function.update_self ..
theorem bucket_setBucket_of_ne {b b' : Bucket} (h : b' ≠ b) (w : World)
    (kv : Store.Bucket b.Val) : (w.setBucket b kv).bucket b' = w.bucket b' :=
  Function.update_of_ne h ..
@[simp] theorem streams_setBucket (w : World) (b : Bucket) (kv : Store.Bucket b.Val) :
    (w.setBucket b kv).streams = w.streams := rfl
@[simp] theorem prefillDone_setBucket (w : World) (b : Bucket) (kv : Store.Bucket b.Val) :
    (w.setBucket b kv).prefillDone = w.prefillDone := rfl
@[simp] theorem passwordCache_setBucket (w : World) (b : Bucket) (kv : Store.Bucket b.Val) :
    (w.setBucket b kv).passwordCache = w.passwordCache := rfl

@[simp] theorem bucket_setStream (w : World) (name : String)
    (s : Option (Store.Stream Payload)) : (w.setStream name s).bucket = w.bucket := rfl
@[simp] theorem prefillDone_setStream (w : World) (name : String)
    (s : Option (Store.Stream Payload)) : (w.setStream name s).prefillDone = w.prefillDone := rfl
@[simp] theorem passwordCache_setStream (w : World) (name : String)
    (s : Option (Store.Stream Payload)) :
    (w.setStream name s).passwordCache = w.passwordCache := rfl
@[simp] theorem streams_setStream_self (w : World) (name : String)
    (s : Option (Store.Stream Payload)) : (w.setStream name s).streams name = s := if_pos rfl
theorem streams_setStream_of_ne {name name' : String} (h : name' ≠ name) (w : World)
    (s : Option (Store.Stream Payload)) : (w.setStream name s).streams name' = w.streams name' :=
  if_neg h

variable {msg : Msg} {f : Durable → Durable} {g : Store.Stream Payload → Store.Stream Payload}

/-- Settling never changes a bucket: it sets a stream, if there is one to be set. -/
@[simp] theorem bucket_settle : (w.settle msg f g).bucket = w.bucket := by
  unfold settle
  split
  · rfl
  · split <;> rfl

@[simp] theorem prefillDone_settle : (w.settle msg f g).prefillDone = w.prefillDone := by
  unfold settle
  split
  · rfl
  · split <;> rfl

@[simp] theorem passwordCache_settle : (w.settle msg f g).passwordCache = w.passwordCache := by
  unfold settle
  split
  · rfl
  · split <;> rfl

/-- Settling changes one stream, and only if it has the consumer. -/
theorem streams_settle (w : World) (msg : Msg) (f : Durable → Durable)
    (g : Store.Stream Payload → Store.Stream Payload) (x : String) :
    (w.settle msg f g).streams x = w.streams x ∨
      ∃ s d, x = msg.stream ∧ w.streams x = some s ∧ s.durables msg.durable = some d ∧
        (w.settle msg f g).streams x = some (g (s.setDurable msg.durable (some (f d)))) := by
  unfold settle
  cases hs : w.streams msg.stream with
  | none => exact Or.inl rfl
  | some s =>
    -- a stream without the consumer is left alone as well
    cases hd : s.durables msg.durable with
    | none => exact Or.inl (by simp [hd])
    | some d =>
      by_cases hx : x = msg.stream
      · subst hx
        exact Or.inr ⟨s, d, rfl, hs, hd, by simp [hd]⟩
      · exact Or.inl (by simp [hd, streams_setStream_of_ne hx])

end World

/-! ## Buckets -/

/-- A bucket is as it was, or the call was a write to it. -/
theorem bucket_answer (env : Env) (tid : Nat) (op : Op) (w : World) (b : Bucket) :
    (answer env tid op w).2.bucket b = w.bucket b ∨
      (∃ key v, op = .kvPut b key v ∧
        (answer env tid op w).2.bucket b = (w.bucket b).put key v) ∨
      ∃ key, op = .kvDelete b key ∧
        (answer env tid op w).2.bucket b = (w.bucket b).delete key := by
  cases op with
  | kvPut b' key v =>
    by_cases hb : b = b'
    · subst hb
      exact Or.inr (Or.inl ⟨key, v, rfl, World.bucket_setBucket_self ..⟩)
    · exact Or.inl (World.bucket_setBucket_of_ne hb ..)
  | kvDelete b' key =>
    by_cases hb : b = b'
    · subst hb
      exact Or.inr (Or.inr ⟨key, rfl, World.bucket_setBucket_self ..⟩)
    · exact Or.inl (World.bucket_setBucket_of_ne hb ..)
  | ack msg => exact Or.inl (congrFun World.bucket_settle b)
  | nak msg => exact Or.inl (congrFun World.bucket_settle b)
  | _ =>
    -- The rest does not touch it, whatever it answers.
    first
      | exact Or.inl rfl
      | refine Or.inl ?_; simp only [answer]; (repeat' split) <;> rfl

/-- An entry is as it was, or the call wrote or deleted its key. -/
theorem entry_answer (env : Env) (tid : Nat) (op : Op) (w : World) (b : Bucket) (n : String) :
    ((answer env tid op w).2.bucket b).get? n = (w.bucket b).get? n ∨
      (∃ v, op = .kvPut b n v ∧
        ((answer env tid op w).2.bucket b).get? n = some ((w.bucket b).fresh n v)) ∨
      (op = .kvDelete b n ∧ ((answer env tid op w).2.bucket b).get? n = none) := by
  rcases bucket_answer env tid op w b with
    h | ⟨key, v, rfl, h⟩ | ⟨key, rfl, h⟩
  · exact Or.inl (by rw [h])
  · by_cases hn : n = key
    · subst hn
      exact Or.inr (Or.inl ⟨v, rfl, by rw [h, Bucket.get?_put, if_pos rfl]⟩)
    · exact Or.inl (by rw [h, Bucket.get?_put_of_ne hn])
  · by_cases hn : n = key
    · subst hn
      exact Or.inr (Or.inr ⟨rfl, by rw [h, Bucket.get?_delete, if_pos rfl]⟩)
    · exact Or.inl (by rw [h, Bucket.get?_delete_of_ne hn])

/-- The same for the value alone. The revision of the entry is only looked at where the writes are
compared with each other. -/
theorem value_answer (env : Env) (tid : Nat) (op : Op) (w : World) (b : Bucket) (n : String) :
    ((answer env tid op w).2.bucket b).value? n = (w.bucket b).value? n ∨
      (∃ v, op = .kvPut b n v ∧ ((answer env tid op w).2.bucket b).value? n = some v) ∨
      (op = .kvDelete b n ∧ ((answer env tid op w).2.bucket b).value? n = none) := by
  unfold Store.Bucket.value?
  rcases entry_answer env tid op w b n with
    h | ⟨v, rfl, h⟩ | ⟨rfl, h⟩
  · exact Or.inl (by rw [h])
  · exact Or.inr (Or.inl ⟨v, rfl, by rw [h]; rfl⟩)
  · exact Or.inr (Or.inr ⟨rfl, by rw [h]; rfl⟩)

/-- And for the two buckets under their own names. -/
theorem record_answer (env : Env) (tid : Nat) (op : Op) (w : World) (n : String) :
    (answer env tid op w).2.record n = w.record n ∨
      (∃ sub, op = .kvPut .subscriptions n sub ∧ (answer env tid op w).2.record n = some sub) ∨
      (op = .kvDelete .subscriptions n ∧ (answer env tid op w).2.record n = none) :=
  value_answer env tid op w .subscriptions n

theorem credential_answer (env : Env) (tid : Nat) (op : Op) (w : World) (n : String) :
    (answer env tid op w).2.credential n = w.credential n ∨
      (∃ hash, op = .kvPut .credentials n hash ∧
        (answer env tid op w).2.credential n = some hash) ∨
      (op = .kvDelete .credentials n ∧ (answer env tid op w).2.credential n = none) :=
  value_answer env tid op w .credentials n

/-! What a write to a bucket does to every key of it, in one equation: the invariants about
records speak of all names at once, and there the case split on the name is part of the goal. -/
section Writes

variable {w : World} {name : String}

theorem value?_setBucket_put (b : Bucket) (v : b.Val) (n : String) :
    ((w.setBucket b ((w.bucket b).put name v)).bucket b).value? n =
      if n = name then some v else (w.bucket b).value? n := by
  rw [World.bucket_setBucket_self, Bucket.value?_put]

theorem value?_setBucket_delete (b : Bucket) (n : String) :
    ((w.setBucket b ((w.bucket b).delete name)).bucket b).value? n =
      if n = name then none else (w.bucket b).value? n := by
  rw [World.bucket_setBucket_self]
  by_cases hn : n = name
  · rw [if_pos hn, hn, Bucket.value?_delete_self]
  · rw [if_neg hn, Bucket.value?_delete_of_ne hn]

theorem record_put (sub : Subscription) (n : String) :
    (w.setBucket .subscriptions ((w.bucket .subscriptions).put name sub)).record n =
      if n = name then some sub else w.record n := value?_setBucket_put .subscriptions sub n

theorem record_delete (n : String) :
    (w.setBucket .subscriptions ((w.bucket .subscriptions).delete name)).record n =
      if n = name then none else w.record n := value?_setBucket_delete .subscriptions n

theorem credential_put (hash : String) (n : String) :
    (w.setBucket .credentials ((w.bucket .credentials).put name hash)).credential n =
      if n = name then some hash else w.credential n := value?_setBucket_put .credentials hash n

theorem credential_delete (n : String) :
    (w.setBucket .credentials ((w.bucket .credentials).delete name)).credential n =
      if n = name then none else w.credential n := value?_setBucket_delete .credentials n

/-- The records are in the one bucket, the credentials in the other. -/
theorem record_setCredentials (kv : Store.Bucket String) (n : String) :
    (w.setBucket .credentials kv).record n = w.record n := by
  have hne : Bucket.subscriptions ≠ .credentials := nofun
  rw [World.record, World.bucket_setBucket_of_ne hne]
  rfl

theorem credential_setRecords (kv : Store.Bucket Subscription) (n : String) :
    (w.setBucket .subscriptions kv).credential n = w.credential n := by
  have hne : Bucket.credentials ≠ .subscriptions := nofun
  rw [World.credential, World.bucket_setBucket_of_ne hne]
  rfl

end Writes

/-- Reading a key that is not there. -/
theorem kvGet_missing (env : Env) (tid : Nat) {w : World} {b : Bucket} {key : String}
    (h : (w.bucket b).value? key = none) :
    answer env tid (.kvGet b key) w = (.error .keyNotFound, w) := by
  simp only [answer, Bucket.value?_eq_none.mp h]

/-- Reading changes nothing, whatever it finds. -/
@[simp] theorem kvGet_world (env : Env) (tid : Nat) (w : World) (b : Bucket) (key : String) :
    (answer env tid (.kvGet b key) w).2 = w := by
  simp only [answer]
  split <;> rfl

/-! ## Streams -/

/-! A stream is changed by far more calls than a bucket, and in more ways. So the second half of
the disjunction is a relation of its own, and facts about a change, that it publishes nothing new
for example, are proved once by `cases` on it, for every call at the same time. -/

/-- The ways in which a call of `tid` can change the stream named `x`. -/
inductive StreamChange (tid : Nat) (x : String) :
    Op → Option (Store.Stream Payload) → Option (Store.Stream Payload) → Prop where
  | add (config : StreamConfig) (h : config.name = x) :
      StreamChange tid x (.addStream config) none (some (.new config.subjects config.workQueue))
  | update (config : StreamConfig) (h : config.name = x) (s : Store.Stream Payload) :
      StreamChange tid x (.updateStream config) (some s)
        (some (s.reconfigure config.subjects config.workQueue))
  | remove (s : Store.Stream Payload) : StreamChange tid x (.deleteStream x) (some s) none
  | addConsumer (durable : String) (s : Store.Stream Payload) (h : s.durables durable = none) :
      StreamChange tid x (.addConsumer x durable) (some s)
        (some (s.setDurable durable (some .fresh)))
  | removeConsumer (durable : String) (s : Store.Stream Payload) (d : Durable)
      (h : s.durables durable = some d) :
      StreamChange tid x (.deleteConsumer x durable) (some s) (some (s.setDurable durable none))
  | publish (subject : String) (payload : Payload) (s : Store.Stream Payload)
      (h : subject ∈ s.subjects) :
      StreamChange tid x (.publish subject payload x) (some s)
        (some (s.append subject payload tid))
  | fetch (durable : String) (s : Store.Stream Payload) (d : Durable)
      (h : s.durables durable = some d) (m : Stored Payload) (hm : s.fetch d = some m) :
      StreamChange tid x (.fetch x durable) (some s)
        (some (s.setDurable durable (some (d.deliver m.seq))))
  | ack (msg : Msg) (hx : msg.stream = x) (s : Store.Stream Payload) (d : Durable)
      (h : s.durables msg.durable = some d) :
      StreamChange tid x (.ack msg) (some s)
        (some (if (s.setDurable msg.durable (some (d.ack msg.streamSeq))).workQueue then
          (s.setDurable msg.durable (some (d.ack msg.streamSeq))).keep (·.seq != msg.streamSeq)
          else s.setDurable msg.durable (some (d.ack msg.streamSeq))))
  | nak (msg : Msg) (hx : msg.stream = x) (s : Store.Stream Payload) (d : Durable)
      (h : s.durables msg.durable = some d) :
      StreamChange tid x (.nak msg) (some s)
        (some (s.setDurable msg.durable (some (d.release msg.streamSeq))))
  | deleteMsg (seq : Nat) (s : Store.Stream Payload) :
      StreamChange tid x (.deleteMsg x seq) (some s) (some (s.keep (·.seq != seq)))
  | purge (subject : String) (s : Store.Stream Payload) :
      StreamChange tid x (.purgeStream x subject) (some s) (some (s.keep (·.subject != subject)))
  | expire (durable : String) (s : Store.Stream Payload) (d : Durable)
      (h : s.durables durable = some d) :
      StreamChange tid x (.ackWaitExpires x durable) (some s)
        (some (s.setDurable durable (some d.expire)))

/-- One stream set, in one of these ways: any other is as it was. -/
theorem StreamChange.setStream {tid : Nat} {op : Op} {name : String}
    {old new : Option (Store.Stream Payload)} (hs : w.streams name = old)
    (h : StreamChange tid name op old new) (x : String) :
    (w.setStream name new).streams x = w.streams x ∨
      StreamChange tid x op (w.streams x) ((w.setStream name new).streams x) := by
  by_cases hx : x = name
  · subst hx
    rw [World.streams_setStream_self, hs]
    exact Or.inr h
  · exact Or.inl (World.streams_setStream_of_ne hx ..)

/-- **A stream is as it was, or changed in one of the ways above.** -/
theorem streams_answer (env : Env) (tid : Nat) (op : Op) (w : World) (x : String) :
    (answer env tid op w).2.streams x = w.streams x ∨
      StreamChange tid x op (w.streams x) ((answer env tid op w).2.streams x) := by
  cases op with
  | addStream config =>
    simp only [answer]
    split
    · next hs =>
      exact StreamChange.setStream hs (.add config rfl) x
    · split <;> exact Or.inl rfl
  | updateStream config =>
    simp only [answer]
    split
    · exact Or.inl rfl
    · next s hs =>
      exact StreamChange.setStream hs (.update config rfl s) x
  | deleteStream stream =>
    simp only [answer]
    split
    · exact Or.inl rfl
    · next s hs =>
      exact StreamChange.setStream hs (.remove s) x
  | addConsumer stream durable =>
    simp only [answer]
    split
    · exact Or.inl rfl
    · next s hs =>
      split
      · exact Or.inl rfl
      · next hd =>
        exact StreamChange.setStream hs (.addConsumer durable s hd) x
  | deleteConsumer stream durable =>
    simp only [answer]
    split
    · exact Or.inl rfl
    · next s hs =>
      split
      · exact Or.inl rfl
      · next d hd =>
        exact StreamChange.setStream hs (.removeConsumer durable s d hd) x
  | publish subject payload stream =>
    simp only [answer]
    split
    · exact Or.inl rfl
    · next s hs =>
      split
      · next hsub =>
        exact StreamChange.setStream hs (.publish subject payload s hsub) x
      · exact Or.inl rfl
  | fetch stream durable =>
    simp only [answer]
    split
    · exact Or.inl rfl
    · next s hs =>
      split
      · exact Or.inl rfl
      · next d hd =>
        split
        · exact Or.inl rfl
        · next m hm =>
          exact StreamChange.setStream hs (.fetch durable s d hd m hm) x
  | ack msg =>
    rcases World.streams_settle w msg (·.ack msg.streamSeq)
      (fun s => if s.workQueue then s.keep (·.seq != msg.streamSeq) else s) x with
      h | ⟨s, d, hx, hs, hd, h⟩
    · exact Or.inl h
    · refine Or.inr ?_
      simp only [answer]
      rw [h, hs]
      exact .ack msg hx.symm s d hd
  | nak msg =>
    rcases World.streams_settle w msg (·.release msg.streamSeq) id x with h | ⟨s, d, hx, hs, hd, h⟩
    · exact Or.inl h
    · refine Or.inr ?_
      simp only [answer]
      rw [h, hs]
      exact .nak msg hx.symm s d hd
  | deleteMsg stream seq =>
    simp only [answer]
    split
    · exact Or.inl rfl
    · next s hs =>
      split
      · exact StreamChange.setStream hs (.deleteMsg seq s) x
      · exact Or.inl rfl
  | purgeStream stream subject =>
    simp only [answer]
    split
    · exact Or.inl rfl
    · next s hs =>
      exact StreamChange.setStream hs (.purge subject s) x
  | ackWaitExpires stream durable =>
    simp only [answer]
    split
    · exact Or.inl rfl
    · next s hs =>
      split
      · exact Or.inl rfl
      · next d hd =>
        exact StreamChange.setStream hs (.expire durable s d hd) x
  | _ =>
    -- The rest does not touch it, whatever it answers.
    first
      | exact Or.inl rfl
      | refine Or.inl ?_; simp only [answer]; (repeat' split) <;> rfl

/-- What is in a stream after a change was there before, or was published just now. -/
theorem StreamChange.mem_msgs {tid : Nat} {x : String} {op : Op} {s s' : Store.Stream Payload}
    (h : StreamChange tid x op (some s) (some s')) {m : Stored Payload} (hm : m ∈ s'.msgs) :
    m ∈ s.msgs ∨ ∃ subject payload, op = .publish subject payload x ∧
      m = ⟨s.last + 1, subject, payload, tid⟩ := by
  cases h with
  | publish subject payload =>
    rcases Stream.mem_append hm with hm | hm
    · exact Or.inl hm
    · exact Or.inr ⟨subject, payload, rfl, hm⟩
  | ack msg hx s d h =>
    split at hm
    · exact Or.inl (Stream.mem_of_keep hm)
    · exact Or.inl hm
  | deleteMsg seq => exact Or.inl (Stream.mem_of_keep hm)
  | purge subject => exact Or.inl (Stream.mem_of_keep hm)
  | _ => exact Or.inl hm

/-- A stream that is not deleted only gives out new numbers. -/
theorem StreamChange.grows {tid : Nat} {x : String} {op : Op} {s s' : Store.Stream Payload}
    (h : StreamChange tid x op (some s) (some s')) : s.Grows s' := by
  cases h with
  | publish subject payload => exact Stream.grows_append ..
  | ack msg hx s d h =>
    split
    · exact ⟨Nat.le_refl _, fun m hm => Or.inl (Stream.mem_of_keep hm)⟩
    · exact Stream.grows_setDurable ..
  | deleteMsg seq => exact Stream.grows_keep ..
  | purge subject => exact Stream.grows_keep ..
  | _ => exact ⟨Nat.le_refl _, fun m hm => Or.inl hm⟩

/-- The call is none that could change the stream. -/
def Op.spares (x : String) : Op → Bool
  | .addStream config => config.name != x
  | .updateStream config => config.name != x
  | .deleteStream stream => stream != x
  | .addConsumer stream _ => stream != x
  | .deleteConsumer stream _ => stream != x
  | .publish _ _ stream => stream != x
  | .fetch stream _ => stream != x
  | .ack msg => msg.stream != x
  | .nak msg => msg.stream != x
  | .deleteMsg stream _ => stream != x
  | .purgeStream stream _ => stream != x
  | .ackWaitExpires stream _ => stream != x
  | _ => true

/-- Where the call spares the stream it is as it was. `spares` is a test that computes, so for a
given call this is closed by `rfl`. -/
theorem streams_answer_of_spares (env : Env) (tid : Nat) {op : Op} (w : World) {x : String}
    (h : op.spares x = true) : (answer env tid op w).2.streams x = w.streams x := by
  rcases streams_answer env tid op w x with hsame | hchange
  · exact hsame
  · generalize w.streams x = before, (answer env tid op w).2.streams x = after at hchange
    cases hchange <;> simp_all [Op.spares]

/-- An acknowledgement is lost only with the consumer. -/
theorem StreamChange.acked {tid : Nat} {x durable : String} {op : Op}
    {s s' : Store.Stream Payload} (h : StreamChange tid x op (some s) (some s'))
    (hop : op ≠ .deleteConsumer x durable) {seq : Nat} (hseq : seq ∈ s.acked durable) :
    seq ∈ s'.acked durable := by
  -- three calls replace the consumer's state by one with other deliveries and the same
  -- acknowledgements, and one adds to them; the rest has no consumer to replace
  cases h with
  | addConsumer name s h =>
    refine Stream.acked_setDurable (fun seq hseq => ?_) hseq
    rw [Stream.acked_of_no_durable h] at hseq
    cases hseq
  | removeConsumer name s d h =>
    have hname : durable ≠ name := fun hname => hop (by rw [hname])
    unfold Stream.acked at hseq ⊢
    rw [Stream.durables_setDurable_of_ne hname]
    exact hseq
  | fetch name s d h m hm =>
    refine Stream.acked_setDurable (fun seq hseq => ?_) hseq
    rw [Stream.acked_of_durable h] at hseq
    exact hseq
  | ack msg hx s d h =>
    have hacked : seq ∈ (s.setDurable msg.durable (some (d.ack msg.streamSeq))).acked durable := by
      refine Stream.acked_setDurable (fun seq hseq => ?_) hseq
      rw [Stream.acked_of_durable h] at hseq
      exact List.mem_cons_of_mem _ hseq
    split
    · exact hacked
    · exact hacked
  | nak msg hx s d h =>
    refine Stream.acked_setDurable (fun seq hseq => ?_) hseq
    rw [Stream.acked_of_durable h] at hseq
    exact hseq
  | expire name s d h =>
    refine Stream.acked_setDurable (fun seq hseq => ?_) hseq
    rw [Stream.acked_of_durable h] at hseq
    exact hseq
  | _ => exact hseq

/-- A stream that is there after a call is new and empty, or what the call made of the one that
was there: nothing in it but what was in it and what the call published. -/
theorem stream_after {env : Env} {tid : Nat} {op : Op} {w : World} {x : String}
    {s' : Store.Stream Payload} (h : (answer env tid op w).2.streams x = some s') :
    s'.msgs = [] ∨ ∃ s, w.streams x = some s ∧
      (∀ m ∈ s'.msgs, m ∈ s.msgs ∨ ∃ subject payload, op = .publish subject payload x ∧
        m = ⟨s.last + 1, subject, payload, tid⟩) ∧
      ∀ durable, op ≠ .deleteConsumer x durable →
        ∀ seq ∈ s.acked durable, seq ∈ s'.acked durable := by
  rcases streams_answer env tid op w x with hsame | hchange
  · exact Or.inr ⟨s', hsame ▸ h, fun m hm => Or.inl hm, fun _ _ _ hseq => hseq⟩
  · rw [h] at hchange
    cases hbefore : w.streams x with
    | none =>
      rw [hbefore] at hchange
      cases hchange with
      | add config => exact Or.inl rfl
    | some s =>
      rw [hbefore] at hchange
      exact Or.inr ⟨s, rfl, fun m hm => hchange.mem_msgs hm,
        fun durable hop seq hseq => hchange.acked hop hseq⟩

/-! ## Where something is missing afterwards

Exactly where it was missing before, or the call removed it. -/

/-- A key that is not put is missing afterwards if it was missing before or is deleted now. The
answer stands on the right because the deletion has to be served to count. -/
theorem value_none_answer (env : Env) (tid : Nat) {op : Op} (w : World) {b : Bucket} {n : String}
    (hput : ∀ v, op ≠ .kvPut b n v) :
    ((answer env tid op w).2.bucket b).value? n = none ↔ (w.bucket b).value? n = none ∨
      (op = .kvDelete b n ∧ ∃ r, (answer env tid op w).1 = .ok r) := by
  rcases value_answer env tid op w b n with h | ⟨v, rfl, -⟩ | ⟨rfl, h⟩
  · rw [h]
    refine ⟨Or.inl, ?_⟩
    intro h
    rcases h with h' | ⟨rfl, -⟩
    · exact h'
    · rw [← h]
      exact (value?_setBucket_delete b n).trans (if_pos rfl)
  · exact absurd rfl (hput v)
  · exact ⟨fun _ => Or.inr ⟨rfl, (), rfl⟩, fun _ => h⟩

/-- The same for a stream. A deletion of a stream that is missing is refused, so the two sides of
the disjunction exclude each other here. -/
theorem stream_none_answer (env : Env) (tid : Nat) {op : Op} (w : World) {x : String}
    (hadd : ∀ config, op = .addStream config → config.name ≠ x) :
    (answer env tid op w).2.streams x = none ↔ w.streams x = none ∨
      (op = .deleteStream x ∧ ∃ r, (answer env tid op w).1 = .ok r) := by
  constructor
  · intro hnone
    rcases streams_answer env tid op w x with h | h
    · exact Or.inl (h ▸ hnone)
    · rw [hnone] at h
      generalize hbefore : w.streams x = before at h
      cases h with
      | remove s => exact Or.inr ⟨rfl, (), by simp only [answer, hbefore]⟩
  · intro h
    rcases h with hnone | ⟨rfl, r, hr⟩
    · rcases streams_answer env tid op w x with h | h
      · rw [h, hnone]
      · rw [hnone] at h
        generalize (answer env tid op w).2.streams x = after at h
        cases h with
        | add config hname => exact absurd hname (hadd config rfl)
    · cases hs : w.streams x with
      | none => simp only [answer, hs]
      | some s =>
        simp only [answer, hs]
        exact World.streams_setStream_self ..

/-! ## Where something is there afterwards

Exactly where it was before, or the call put it there. -/

/-- A key that is not deleted is there afterwards if it was there before or is put now. -/
theorem value_some_answer (env : Env) (tid : Nat) {op : Op} (w : World) {b : Bucket} {n : String}
    (hdel : op ≠ .kvDelete b n) :
    ((answer env tid op w).2.bucket b).value? n ≠ none ↔ (w.bucket b).value? n ≠ none ∨
      ((∃ v, op = .kvPut b n v) ∧ ∃ r, (answer env tid op w).1 = .ok r) := by
  rcases value_answer env tid op w b n with h | ⟨v, rfl, h⟩ | ⟨rfl, -⟩
  · rw [h]
    refine ⟨Or.inl, ?_⟩
    intro h
    rcases h with h' | ⟨⟨v, rfl⟩, -⟩
    · exact h'
    · rw [← h]
      have hput : ((answer env tid (.kvPut b n v) w).2.bucket b).value? n = some v :=
        (value?_setBucket_put b v n).trans (if_pos rfl)
      rw [hput]
      nofun
  · rw [h]
    exact ⟨fun _ => Or.inr ⟨⟨v, rfl⟩, (), rfl⟩, fun _ => nofun⟩
  · exact absurd rfl hdel

/-! ## The memory of the API process -/

/-! The three parts of the state that are no store: two belong to the API process and one to the
dispatcher. A restart empties them, so what is proved about them is what one call adds. -/

/-- The password cache loses entries, or gains the one of a verification. -/
theorem passwordCache_answer (env : Env) (tid : Nat) (op : Op) (w : World) {x}
    (h : x ∈ (answer env tid op w).2.passwordCache) :
    x ∈ w.passwordCache ∨ ∃ salt password hash subscription,
      op = .verifyCached salt password hash subscription ∧
      x = ((password, hash, subscription), env.verifyAndUpdate salt password hash) := by
  cases op with
  | verifyCached salt password hash subscription =>
    simp only [answer] at h
    split at h
    · exact Or.inl h
    · split at h
      · exact Or.inl h
      · rcases List.mem_cons.mp h with rfl | h
        · exact Or.inr ⟨salt, password, hash, subscription, rfl, rfl⟩
        · exact Or.inl h
  | cachePop password hash subscription => exact Or.inl (List.mem_filter.mp h).1
  | ack msg => exact Or.inl (by simpa [answer] using h)
  | nak msg => exact Or.inl (by simpa [answer] using h)
  | _ =>
    -- The rest does not touch it, whatever it answers.
    first
      | exact Or.inl h
      | refine Or.inl ?_; simp only [answer] at h; (repeat' split at h) <;> exact h

/-! ## The memory of the API -/

/-- The flag of a name is only ever set, and only by the call that says so. -/
theorem prefillDone_answer (env : Env) (tid : Nat) {op : Op} (w : World) {name : String}
    (h : op ≠ .prefillDoneSet name) :
    (answer env tid op w).2.prefillDone name = w.prefillDone name := by
  cases op with
  | prefillDoneSet n =>
    have hn : name ≠ n := fun heq => h (by rw [heq])
    exact if_neg hn
  | ack msg => exact congrFun World.prefillDone_settle name
  | nak msg => exact congrFun World.prefillDone_settle name
  | _ =>
    -- The rest does not touch it, whatever it answers.
    first
      | rfl
      | simp only [answer]; (repeat' split) <;> rfl

/-! ## The memory of the dispatcher -/

theorem mapping_settle (w : World) (msg : Msg) (f : Durable → Durable)
    (g : Store.Stream Payload → Store.Stream Payload) : (w.settle msg f g).mapping = w.mapping := by
  unfold World.settle
  repeat' split
  all_goals rfl

/-- The mapping is replaced as a whole. -/
theorem mapping_answer (env : Env) (tid : Nat) {op : Op} (w : World)
    (h : ∀ mapping, op ≠ .mappingSet mapping) : (answer env tid op w).2.mapping = w.mapping := by
  cases op with
  | mappingSet mapping => exact absurd rfl (h mapping)
  | ack msg => exact mapping_settle ..
  | nak msg => exact mapping_settle ..
  | _ =>
    -- The rest does not touch it, whatever it answers.
    first
      | rfl
      | simp only [answer]; (repeat' split) <;> rfl

/-! ## Calls that are answered

Answer and state together, for the three calls of a conversation with a consumer: a message is
handed out, published, or acknowledged. -/

/-- What a message is delivered as. -/
def deliveryOf (stream durable : String) (d : Durable) (m : Stored Payload) : Msg :=
  ⟨stream, durable, m.subject, m.payload, m.seq, (d.deliver m.seq).numDelivered m.seq, m.origin⟩

/-- A fetch that is answered. -/
theorem answer_fetch_ok {env : Env} {tid : Nat} {stream durable : String} {msg : Msg} {w' : World}
    (h : answer env tid (.fetch stream durable) w = (.ok msg, w')) :
    ∃ s d m, w.streams stream = some s ∧ s.durables durable = some d ∧ s.fetch d = some m ∧
      msg = deliveryOf stream durable d m ∧
      w' = w.setStream stream (some (s.setDurable durable (some (d.deliver m.seq)))) := by
  simp only [answer] at h
  split at h
  · cases h
  · next s hs =>
    split at h
    · cases h
    · next d hd =>
      split at h
      · cases h
      · next m hm =>
        cases h
        exact ⟨s, d, m, hs, hd, hm, rfl, rfl⟩

/-- A publish is stored, or refused and nothing is changed. -/
theorem answer_publish (env : Env) (tid : Nat) (subject : String) (payload : Payload)
    (stream : String) (w : World) :
    (∃ s, w.streams stream = some s ∧ subject ∈ s.subjects ∧
      answer env tid (.publish subject payload stream) w =
        (.ok (s.last + 1), w.setStream stream (some (s.append subject payload tid)))) ∨
    answer env tid (.publish subject payload stream) w = (.error .noStream, w) := by
  simp only [answer]
  split
  · exact Or.inr rfl
  · next s hs =>
    split
    · next hsubject => exact Or.inl ⟨s, hs, hsubject, rfl⟩
    · exact Or.inr rfl

/-- An acknowledged message leaves a work queue. -/
theorem answer_ack (env : Env) (tid : Nat) {msg : Msg} {s : Store.Stream Payload} {d : Durable}
    (hs : w.streams msg.stream = some s) (hd : s.durables msg.durable = some d)
    (hwork : s.workQueue = true) :
    (answer env tid (.ack msg) w).2 = w.setStream msg.stream
      (some ((s.setDurable msg.durable (some (d.ack msg.streamSeq))).keep
        (·.seq != msg.streamSeq))) := by
  simp only [answer, World.settle, hs, hd]
  exact congrArg (fun t => w.setStream msg.stream (some t)) (if_pos hwork)

end Provisioning
