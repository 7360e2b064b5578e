import Provisioning.Lib.Attempt
import Provisioning.Model.Adapter
import Provisioning.Model.KeyValue

/-!
# Putting a value under a revision

`put_value` promises a compare-and-set: with a revision, the value is put if that is still the
revision of the key, and otherwise `UpdateConflict` is raised. Two tests come before the revision is
looked at. An empty value deletes the key, and a revision that is false, which is 0, is no revision.

`put_value_iff` says for which calls the promise is kept, and what becomes of writers that rely on
it.

## One call, and many writers

One call is computed. The writers are what the promise is for: each looks its key up and puts what
it makes of the value under the revision it got. That they lose nothing is said of the history:
whatever a put has overwritten was what its writer had read (`NothingLost`).

A key that is at the revision that was read holds what was read. This is the only thing that the
proof needs of revisions, and it is not true of single moments: a revision says nothing about a key
unless all writes go through the counter. It is true along a run, where every store is later than
the ones before it (`Contending.later`); then the revision of a key can only have stayed or grown.

The condition `NotOvertaken` is asked of each step, of the state before it. It is not asked of puts
that do compare, which is the point of the theorem.
-/

namespace Provisioning

open Await Store Prog

/-- The call writes to the store. -/
def KvOp.applies (s : KvStore) : KvOp → Bool
  | .get .. => false
  | .update b key _ last => s.revision b key == last
  | _ => true

/-- The call writes whatever the revision is. -/
def KvOp.unchecked : Option KvOp → Bool
  | some (.put ..) => true
  | some (.delete ..) => true
  | _ => false

/-- What the writer finds under its key. -/
def KvWriter.entry (writer : KvWriter) (s : KvStore) : Option (Entry String) :=
  (s writer.bucket).get? writer.key

namespace NatsKVAdapter

variable {dumps : Storable → String}

/-! ## One call -/

/-! Three cases, by what the tests in front make of the value and the revision. -/

/-- What `put_value` leaves when it takes effect. -/
def written (dumps : Storable → String) (s : KvStore) (b : Bucket) (key : String)
    (value : Storable) : KvStore :=
  s.set b (if value.truthy then (s b).put key (text dumps value) else (s b).delete key)

/-- The call takes effect if the key has the revision, and is refused otherwise. -/
def ComparesAndSets (dumps : Storable → String) (s : KvStore) (b : Bucket) (key : String)
    (value : Storable) (revision : Nat) : Prop :=
  (putValue dumps key value b (some revision)).finish kvServe 0 s =
    if s.revision b key = revision then (.ok (), written dumps s b key value)
    else (.error .updateConflict, s)

section PutValue

variable {s : KvStore} {b : Bucket} {key : String} {value : Storable}

/-- An empty value is a deletion, under any revision. -/
theorem putValue_empty {revision : Option Nat} (h : value.truthy = false) :
    putValue dumps key value b revision = kvRequest (.delete b key) := by
  unfold putValue
  rw [h]
  rfl

/-- Revision 0 is none, so the value is put in any case. -/
theorem putValue_zero (h : value.truthy = true) :
    putValue dumps key value b (some 0) = kvRequest (.put b key (text dumps value)) := by
  unfold putValue
  rw [h]
  rfl

/-- Any other one is compared, by the server. -/
theorem putValue_succ (h : value.truthy = true) (last : Nat) : ∃ k,
    putValue dumps key value b (some (last + 1)) =
        .await (.update b key (text dumps value) (last + 1)) k ∧
      k (.ok ()) = .pure () ∧ k (.error .wrongLastSequence) = .throw .updateConflict ∧
      ∀ r, (k r).Finished := by
  unfold putValue
  rw [h]
  refine ⟨_, rfl, rfl, rfl, ?_⟩
  intro r
  cases r with
  | ok a => rfl
  | error e => cases e <;> rfl

/-- **One call.** It compares and sets unless its value is empty or its revision zero, or the key
has the revision anyway. -/
theorem comparesAndSets_iff (dumps : Storable → String) (s : KvStore) (b : Bucket) (key : String)
    (value : Storable) (revision : Nat) :
    ComparesAndSets dumps s b key value revision ↔
      s.revision b key = revision ∨ (value.truthy = true ∧ revision ≠ 0) := by
  unfold ComparesAndSets written
  cases htruthy : value.truthy with
  | false =>
    rw [putValue_empty htruthy]
    by_cases hrevision : s.revision b key = revision
    · rw [if_pos hrevision]
      exact iff_of_true rfl (Or.inl hrevision)
    · rw [if_neg hrevision]
      refine iff_of_false nofun fun h => ?_
      rcases h with h | h
      · exact hrevision h
      · cases h.1
  | true =>
    cases revision with
    | zero =>
      rw [putValue_zero htruthy]
      by_cases hrevision : s.revision b key = 0
      · rw [if_pos hrevision]
        exact iff_of_true rfl (Or.inl hrevision)
      · rw [if_neg hrevision]
        refine iff_of_false nofun fun h => ?_
        rcases h with h | h
        · exact hrevision h
        · exact h.2 rfl
    | succ last =>
      obtain ⟨k, hprog, hok, hconflict, -⟩ := putValue_succ htruthy last
      rw [hprog, finish_await]
      refine iff_of_true ?_ (Or.inr ⟨rfl, Nat.succ_ne_zero last⟩)
      show (k (kvAnswer (.update b key (text dumps value) (last + 1)) s).1).finish kvServe 0
        (kvAnswer (.update b key (text dumps value) (last + 1)) s).2 = _
      unfold kvAnswer
      by_cases hrevision : s.revision b key = last + 1
      · simp only [if_pos hrevision]
        rw [hok]
        rfl
      · simp only [if_neg hrevision]
        rw [hconflict]
        rfl

end PutValue

/-- Without a revision it is what the services call: it leaves the credentials the same. -/
theorem putValue_without_revision (env : Env) (dumps : Storable → String) (key hash : String)
    {s : KvStore} {w : World} (h : (s .credentials).bucket = w.bucket .credentials) :
    (((putValue dumps key (.str hash) .credentials none).finish kvServe 0 s).2
        .credentials).bucket =
      ((Provisioning.putValue key .credentials hash).finish (serve env) 0 w).2.bucket
        .credentials := by
  unfold putValue Provisioning.putValue
  by_cases hempty : hash = ""
  · have htruthy : (Storable.str hash).truthy = false := by simp [Storable.truthy, hempty]
    have hvalue : Bucket.Val.empty (b := .credentials) hash = true := by
      simp [Bucket.Val.empty, hempty]
    rw [htruthy, if_pos hvalue]
    show ((s .credentials).bucket.delete key) = (w.bucket .credentials).delete key
    rw [h]
  · have htruthy : (Storable.str hash).truthy = true := by simp [Storable.truthy, hempty]
    have hvalue : Bucket.Val.empty (b := .credentials) hash = false := by
      simp [Bucket.Val.empty, hempty]
    rw [htruthy, hvalue]
    show ((s .credentials).bucket.put key hash) = (w.bucket .credentials).put key hash
    rw [h]

/-! ## Many writers -/

abbrev KvEvent : Type := Event KvOp KvOp.Res KvError KvOutage KvStore

abbrev KvSystem : Type := Config KvOp KvOp.Res KvError KvExc KvOutage KvStore Unit

section Writers

variable (writers : Nat → KvWriter)

/-- Writer `i` has looked its key up, in this event. -/
structure Read (i : Nat) (ev : KvEvent) : Prop where
  tid : ev.tid = i
  op : ev.op = .get (writers i).bucket (writers i).key

/-- **Nothing is lost.** Whatever a writer has overwritten or deleted is what it had read. -/
def NothingLost (c : KvSystem) : Prop :=
  ∀ ev ∈ c.hist, ev.fault.Lands → ev.op.applies ev.before = true →
    ∃ read ∈ c.hist, Read writers ev.tid read ∧
      (writers ev.tid).entry ev.before = (writers ev.tid).entry read.before

/-- A put of an empty value, or under revision 0, that is carried out comes when the key still has
the revision it had for the writer. -/
def NotOvertaken (c : KvSystem) (l : Nat × Fault KvOutage) : Prop :=
  KvOp.unchecked (c.prog l.1).next? = true → l.2.Lands →
    ∃ read ∈ c.hist, Read writers l.1 read ∧
      c.world.revision (writers l.1).bucket (writers l.1).key =
        read.before.revision (writers l.1).bucket (writers l.1).key

/-- Where a writer can be: before it has read its key, with a value to put, or at its end. -/
inductive WriterAt (dumps : Storable → String) (i : Nat) (hist : List KvEvent) :
    KvCoro Unit → Prop where
  | start : WriterAt dumps i hist ((writers i).program dumps)
  | writing (read : KvEvent) (hmem : read ∈ hist) (hread : Read writers i read)
      (found : Option (Entry String)) (hfound : (writers i).entry read.before = found) :
      WriterAt dumps i hist (putValue dumps (writers i).key
        ((writers i).change (found.map (·.value))) (writers i).bucket
        (some (read.before.revision (writers i).bucket (writers i).key)))
  | ended (p : KvCoro Unit) (h : p.Finished) : WriterAt dumps i hist p

/-- What holds between two steps. -/
structure Contending (dumps : Storable → String) (c : KvSystem) : Prop where
  later : ∀ ev ∈ c.hist, ∀ b, Revisioned.Later (ev.before b) (c.world b)
  writer : ∀ i, WriterAt writers dumps i c.hist (c.prog i)

end Writers

section Contending

variable {writers : Nat → KvWriter} {c d : KvSystem}

/-- A bucket that is replaced by a later one leaves the others. -/
theorem later_set {s : KvStore} {b : Bucket} {kv : Revisioned String}
    (h : Revisioned.Later (s b) kv) (b' : Bucket) : Revisioned.Later (s b') (s.set b kv b') := by
  unfold KvStore.set
  by_cases hb : b' = b
  · subst hb
    rw [Function.update_self]
    exact h
  · rw [Function.update_of_ne hb]
    exact .refl _

/-- Every call leaves a later store. -/
theorem later_left (i : Nat) (op : KvOp) (s : KvStore) (f : Fault KvOutage) (b : Bucket) :
    Revisioned.Later (s b) (kvServe.left i op s f b) := by
  have hanswer : Revisioned.Later (s b) ((kvAnswer op s).2 b) := by
    cases op with
    | get b' key =>
      unfold kvAnswer
      dsimp only
      split
      · exact .refl _
      · exact .refl _
    | put b' key value => exact later_set (Revisioned.later_put ..) b
    | update b' key value last =>
      unfold kvAnswer
      dsimp only
      split
      · exact later_set (Revisioned.later_put ..) b
      · exact .refl _
    | delete b' key => exact later_set (Revisioned.later_delete ..) b
  exact Server.left_preserves (P := fun s' : KvStore => Revisioned.Later (s b) (s' b)) (.refl _)
    fun _ => hanswer

/-- A writer begins with a look at its key. -/
theorem program_eq (dumps : Storable → String) (writer : KvWriter) : ∃ k,
    writer.program dumps = .await (.get writer.bucket writer.key) k ∧
      (∀ e, k (.ok e) = putValue dumps writer.key (writer.change (some e.value)) writer.bucket
        (some e.revision)) ∧
      k (.error .keyNotFound) =
        putValue dumps writer.key (writer.change none) writer.bucket (some 0) ∧
      ∀ x, x ≠ .keyNotFound → (k (.error x)).Finished := by
  refine ⟨_, rfl, fun _ => rfl, rfl, ?_⟩
  intro x hx
  cases x with
  | keyNotFound => exact absurd rfl hx
  | _ => rfl

/-- A put is one call. -/
theorem putValue_next (dumps : Storable → String) (key : String) (value : Storable) (b : Bucket)
    (revision : Nat) : ∃ op k, putValue dumps key value b (some revision) = .await op k ∧
      (∀ r, (k r).Finished) ∧
      ((KvOp.unchecked (some op) = true ∧ ∀ s, op.applies s = true) ∨
        (KvOp.unchecked (some op) = false ∧
          ∀ s, op.applies s = (s.revision b key == revision))) := by
  cases htruthy : value.truthy with
  | false =>
    rw [putValue_empty htruthy]
    refine ⟨_, _, rfl, ?_, Or.inl ⟨rfl, fun _ => rfl⟩⟩
    intro r
    cases r <;> rfl
  | true =>
    cases revision with
    | zero =>
      rw [putValue_zero htruthy]
      refine ⟨_, _, rfl, ?_, Or.inl ⟨rfl, fun _ => rfl⟩⟩
      intro r
      cases r <;> rfl
    | succ last =>
      obtain ⟨k, hprog, -, -, hfin⟩ := @putValue_succ dumps b key value htruthy last
      exact ⟨_, k, hprog, hfin, Or.inr ⟨rfl, fun _ => rfl⟩⟩

/-- What can be heard of a look at a key. -/
theorem heard_get (i : Nat) (b : Bucket) (key : String) (s : KvStore) (f : Fault KvOutage) :
    (∃ e, kvServe.heard i (.get b key) s f = .ok e ∧ (s b).get? key = some e) ∨
      (kvServe.heard i (.get b key) s f = .error .keyNotFound ∧ (s b).get? key = none) ∨
      ∃ x, x ≠ .keyNotFound ∧ kvServe.heard i (.get b key) s f = .error x := by
  have hlost : ∀ e : KvOutage, e.error ≠ .keyNotFound := by
    intro e
    cases e <;> exact nofun
  cases f with
  | before e => exact Or.inr (Or.inr ⟨e.error, hlost e, rfl⟩)
  | after e => exact Or.inr (Or.inr ⟨e.error, hlost e, rfl⟩)
  | ok =>
    show (∃ e, (kvAnswer (.get b key) s).1 = .ok e ∧ _) ∨
      ((kvAnswer (.get b key) s).1 = .error .keyNotFound ∧ _) ∨ _
    unfold kvAnswer
    dsimp only
    cases hget : (s b).get? key with
    | some e => exact Or.inl ⟨e, rfl, rfl⟩
    | none => exact Or.inr (Or.inl ⟨rfl, rfl⟩)

/-- What a writer had once read stays read. -/
theorem WriterAt.mono {i : Nat} {hist : List KvEvent} {p : KvCoro Unit} (ev : KvEvent)
    (h : WriterAt writers dumps i hist p) : WriterAt writers dumps i (ev :: hist) p := by
  cases h with
  | start => exact .start
  | writing read hmem hread found hfound =>
    exact .writing read (List.mem_cons_of_mem ev hmem) hread found hfound
  | ended _ h => exact .ended p h

/-- **A step of a writer.** It looks its key up, or puts its value. -/
theorem WriterAt.next {i : Nat} {hist : List KvEvent} {op : KvOp}
    {k : Except KvError op.Res → KvCoro Unit} (h : WriterAt writers dumps i hist (.await op k))
    (s : KvStore) (f : Fault KvOutage) :
    WriterAt writers dumps i (⟨i, op, f, s, kvServe.heard i op s f⟩ :: hist)
        (k (kvServe.heard i op s f)) ∧
      ((∀ s', op.applies s' = false) ∧ KvOp.unchecked (some op) = false ∨
        ∃ read ∈ hist, Read writers i read ∧
          ((KvOp.unchecked (some op) = true ∧ ∀ s, op.applies s = true) ∨
            (KvOp.unchecked (some op) = false ∧ ∀ s : KvStore, op.applies s =
              (s.revision (writers i).bucket (writers i).key ==
                read.before.revision (writers i).bucket (writers i).key)))) := by
  generalize hp : Prog.await op k = p at h
  cases h with
  | start =>
    obtain ⟨k', hprog, hok, hnone, herror⟩ := program_eq dumps (writers i)
    rw [hprog] at hp
    cases hp
    refine ⟨?_, Or.inl ⟨fun _ => rfl, rfl⟩⟩
    -- What it has found, it has found together with the revision.
    have hwriting : ∀ (r : Except KvError (KvOp.get (writers i).bucket (writers i).key).Res)
        (found : Option (Entry String)) (revision : Nat),
        (s (writers i).bucket).get? (writers i).key = found →
        s.revision (writers i).bucket (writers i).key = revision →
        WriterAt writers dumps i (⟨i, .get (writers i).bucket (writers i).key, f, s, r⟩ :: hist)
          (putValue dumps (writers i).key ((writers i).change (found.map (·.value)))
            (writers i).bucket (some revision)) := by
      intro r found revision hfound hrevision
      rw [← hrevision]
      exact .writing ⟨i, _, f, s, r⟩ List.mem_cons_self ⟨rfl, rfl⟩ found hfound
    rcases heard_get i (writers i).bucket (writers i).key s f with
      ⟨e, hr, hget⟩ | ⟨hr, hget⟩ | ⟨x, hx, hr⟩
    · rw [hr, hok]
      exact hwriting _ (some e) _ hget (Revisioned.revision_of_get? hget)
    · rw [hr, hnone]
      exact hwriting _ none _ hget (Revisioned.revision_eq_zero.mpr hget)
    · rw [hr]
      exact .ended _ (herror x hx)
  | writing read hmem hread found hfound =>
    obtain ⟨op', k', hprog, hfin, hcall⟩ := putValue_next dumps (writers i).key
      ((writers i).change (found.map (·.value))) (writers i).bucket
      (read.before.revision (writers i).bucket (writers i).key)
    rw [hprog] at hp
    cases hp
    exact ⟨.ended _ (hfin _), Or.inr ⟨read, hmem, hread, hcall⟩⟩
  | ended _ h =>
    rw [← hp] at h
    exact absurd h (Prog.not_finished_await op k)

/-- What holds between two steps is kept. -/
theorem Contending.step {l : Nat × Fault KvOutage} (h : Contending writers dumps c)
    (hs : c.step kvServe l = some d) : Contending writers dumps d := by
  obtain ⟨op, k, hp, rfl⟩ := Config.step_cases hs
  obtain ⟨i, f⟩ := l
  dsimp only at hp ⊢
  have hlater : ∀ b, Revisioned.Later (c.world b) ((c.next kvServe i f op k).world b) :=
    later_left i op c.world f
  refine ⟨?_, ?_⟩
  · intro ev hev b
    rcases List.mem_cons.mp hev with rfl | hev
    · exact hlater b
    · exact (h.later ev hev b).trans (hlater b)
  · intro j
    by_cases hj : j = i
    · subst hj
      rw [Config.next_prog_self]
      exact ((hp ▸ h.writer j : WriterAt writers dumps j c.hist (.await op k)).next c.world f).1
    · rw [Config.next_prog_of_ne hj]
      exact (h.writer j).mono _

/-- **A revision that is still there** means that the key holds what it held. -/
theorem Contending.entry_iff (h : Contending writers dumps c) {i : Nat} {read : KvEvent}
    (hmem : read ∈ c.hist) : (writers i).entry c.world = (writers i).entry read.before ↔
      c.world.revision (writers i).bucket (writers i).key =
        read.before.revision (writers i).bucket (writers i).key := by
  constructor
  · intro hentry
    unfold KvWriter.entry at hentry
    unfold KvStore.revision Revisioned.revision
    rw [hentry]
  · intro hrevision
    exact (h.later read hmem _).same hrevision

/-- Whether a step loses something. -/
theorem nothingLost_step {l : Nat × Fault KvOutage} (h : Contending writers dumps c)
    (hnone : NothingLost writers c) (hs : c.step kvServe l = some d) :
    NothingLost writers d ↔ NotOvertaken writers c l := by
  obtain ⟨op, k, hp, rfl⟩ := Config.step_cases hs
  obtain ⟨i, f⟩ := l
  dsimp only at hp
  obtain ⟨-, hcall⟩ :=
    (hp ▸ h.writer i : WriterAt writers dumps i c.hist (.await op k)).next c.world f
  have hnext : (c.prog i).next? = some op := next?_of_await hp
  constructor
  · -- An unchecked put takes effect, and what its writer has read is still there; so is the
    -- revision.
    intro hlost hunchecked hlands
    dsimp only at hunchecked hlands
    rw [hnext] at hunchecked
    have happlies : op.applies c.world = true := by
      cases op with
      | put b key value => rfl
      | delete b key => rfl
      | _ => cases hunchecked
    obtain ⟨read, hmem, hread, hentry⟩ := hlost _ List.mem_cons_self hlands happlies
    rcases List.mem_cons.mp hmem with rfl | hmem
    · -- A put is no look at the key.
      have hop : op = .get (writers i).bucket (writers i).key := hread.op
      rw [hop] at hunchecked
      cases hunchecked
    · exact ⟨read, hmem, hread, (h.entry_iff hmem).mp hentry⟩
  · -- A put that takes effect was unchecked, and then it is the condition, or the server has
    -- compared.
    intro hstill ev hev hlands happlies
    rcases List.mem_cons.mp hev with rfl | hev
    · dsimp only at hlands happlies ⊢
      rcases hcall with ⟨hnever, -⟩ | ⟨read, hmem, hread, ⟨hunchecked, -⟩ | ⟨-, hchecked⟩⟩
      · rw [hnever] at happlies
        cases happlies
      · obtain ⟨read', hmem', hread', hrevision⟩ := hstill (hnext ▸ hunchecked) hlands
        exact ⟨read', List.mem_cons_of_mem _ hmem', hread', (h.entry_iff hmem').mpr hrevision⟩
      · rw [hchecked] at happlies
        exact ⟨read, List.mem_cons_of_mem _ hmem, hread,
          (h.entry_iff hmem).mpr (beq_iff_eq.mp happlies)⟩
    · obtain ⟨read, hmem, hread, hentry⟩ := hnone ev hev hlands happlies
      exact ⟨read, List.mem_cons_of_mem _ hmem, hread, hentry⟩

/-- A writer that is at its end puts nothing. -/
theorem notOvertaken_stuck {l : Nat × Fault KvOutage} (h : c.step kvServe l = none) :
    NotOvertaken writers c l := by
  intro hunchecked _
  have hover : (c.prog l.1).next? = none := Config.finished_of_stuck h
  rw [hover] at hunchecked
  cases hunchecked

end Contending

/-- **Many writers.** Nothing is lost as long as no unchecked put is overtaken. -/
theorem nothing_lost_iff (dumps : Storable → String) (writers : Nat → KvWriter) (s : KvStore)
    (ls : List (Nat × Fault KvOutage)) :
    (Config.init s (fun i => (writers i).program dumps) : KvSystem).Always kvServe
        (NothingLost writers) ls ↔
      (Config.init s (fun i => (writers i).program dumps) : KvSystem).Along kvServe
        (NotOvertaken writers) ls := by
  apply Config.always_iff_along (I := Contending writers dumps)
  · exact fun c l d h hs => h.step hs
  · exact fun c l h => notOvertaken_stuck h
  · exact fun c l d h hnone hs => nothingLost_step h hnone hs
  · exact ⟨nofun, fun i => .start⟩
  · exact nofun

/-- **What a revision is good for.** A call of `put_value` with a revision is a compare-and-set if
and only if the key has that revision, or the value is not empty and the revision not 0. And any
number of writers that put their values under the revisions they got, however their calls are
interleaved and whichever are lost, overwrite and delete only what they had read, if and only if
every put of an empty value or under revision 0 that is carried out finds the key at the revision
it had for its writer. -/
theorem put_value_iff (dumps : Storable → String) :
    (∀ (s : KvStore) (b : Bucket) (key : String) (value : Storable) (revision : Nat),
      ComparesAndSets dumps s b key value revision ↔
        s.revision b key = revision ∨ (value.truthy = true ∧ revision ≠ 0)) ∧
    ∀ (writers : Nat → KvWriter) (s : KvStore) (ls : List (Nat × Fault KvOutage)),
      (Config.init s (fun i => (writers i).program dumps) : KvSystem).Always kvServe
          (NothingLost writers) ls ↔
        (Config.init s (fun i => (writers i).program dumps) : KvSystem).Along kvServe
          (NotOvertaken writers) ls := by
  exact ⟨comparesAndSets_iff dumps, nothing_lost_iff dumps⟩

/-! ## A value that is not there, and one that is overwritten -/

/-- One key with one value. -/
def oneKey : KvStore := KvStore.set (fun _ => .empty) .cache (Revisioned.empty.put "k" "a")

/-- Both create the key, each with its own value. -/
def creators (i : Nat) : KvWriter := ⟨.cache, "k", fun _ => .str (if i = 0 then "a" else "b")⟩

instance (writers : Nat → KvWriter) (i : Nat) (ev : KvEvent) : Decidable (Read writers i ev) :=
  decidable_of_iff (ev.tid = i ∧ ev.op = .get (writers i).bucket (writers i).key)
    ⟨fun h => ⟨h.1, h.2⟩, fun h => ⟨h.tid, h.op⟩⟩

instance (writers : Nat → KvWriter) (c : KvSystem) (l : Nat × Fault KvOutage) :
    Decidable (NotOvertaken writers c l) :=
  inferInstanceAs (Decidable (_ → _ → _))

/-- An empty value is put under a revision the key does not have; and of two writers that create a
key, the second one overwrites what the first one has put. -/
theorem not_put_value :
    (¬ ∀ (dumps : Storable → String) (s : KvStore) (b : Bucket) (key : String) (value : Storable)
      (revision : Nat), ComparesAndSets dumps s b key value revision) ∧
    ¬ ∀ (dumps : Storable → String) (writers : Nat → KvWriter) (s : KvStore)
      (ls : List (Nat × Fault KvOutage)),
      (Config.init s (fun i => (writers i).program dumps) : KvSystem).Always kvServe
        (NothingLost writers) ls := by
  constructor
  · intro h
    have hcall := (comparesAndSets_iff ..).mp (h (fun _ => "{}") oneKey .cache "k" (.str "") 2)
    rcases hcall with hrevision | ⟨htruthy, -⟩
    · exact absurd hrevision (by decide)
    · cases htruthy
  · intro h
    have hrun := h (fun _ => "{}") creators (fun _ => .empty)
      [(0, .ok), (1, .ok), (0, .ok), (1, .ok)]
    rw [nothing_lost_iff] at hrun
    revert hrun
    decide +kernel

end NatsKVAdapter

end Provisioning
