import Provisioning.Model.Effects
import Provisioning.Model.Calls

/-!
# Retrying a deletion

A deletion removes the hash, the record, the stream and the consumer, in this order, and asks only
for the record whether there is anything to delete. Once the record is gone, a retry is told 404
and the rest is never looked at again. The stream is what can be left over: the hash goes before
the record, and the consumer goes with its stream.

`deletion_complete_iff` says that this is the only way in which it goes wrong.

## What is followed

An attempt may be cut after any of its calls, and a call that was carried out may still have gone
unanswered. Instead of going through the cuts, the proof asks of each of the three entries whether
it is there after the attempt: it is not, if it was not before or if the one call that removes it
was carried out (`gone_after`). The order of the three calls is a fact about the program, whatever
it is answered (`hash_before_record`, `record_before_stream_removal`).

## Why the induction stops early

The attempts are looked at one after the other until the record is gone. From then on nothing
changes, so all there is to ask is what the attempt that removed it has left, which is what the
condition says of it. This is why the condition is about single attempts and the result about all
of them.
-/

namespace Provisioning

open Await Store Prog

/-- Nothing of the subscription is left. -/
def Gone (w : World) (name : String) : Prop :=
  w.credential name = none ∧ w.record name = none ∧ w.streams (streamKey name) = none ∧
    w.durable (streamKey name) (durableKey name) = none

/-- Whoever registers the name finds only messages of its own in the stream. -/
def StartsEmpty (env : Env) (w : World) (name : String) : Prop :=
  ∀ salt sub tid plan s, sub.name = name →
    ((createSubscription env salt sub).attempt (serve env) tid plan w).world.streams
      (streamKey name) = some s →
    ∀ m ∈ s.msgs, m.origin = tid

/-- The attempt was not cut between the record and the stream. -/
def RemovesBoth (name : String) (a : Attempt Op Exc World Nat) : Prop :=
  .kvDelete .subscriptions name ∈ a.landed → .deleteStream (streamKey name) ∈ a.landed

variable {env : Env} {settings : AppSettings} {salt : String}
  {credentials : HTTPBasicCredentials} {name : String}

/-! ## The route, for the admin -/

/-- The deletion as the admin requests it. -/
abbrev deletion (name : String) : Coro Nat :=
  (orNotFound (deleteSubscription name)).bind fun _ => .pure 200

/-- The administrator is let in without a call. -/
theorem deleteSubscriptionRoute_admin (hadmin : authenticateAdmin settings credentials = true) :
    deleteSubscriptionRoute settings salt credentials name = deletion name := by
  simp [deleteSubscriptionRoute, hadmin]

/-- Its calls are those of a deletion. -/
theorem uses_delete (name : String) :
    (deletion name).Uses (DeleteCall name) :=
  Uses.bind (Uses.orNotFound (uses_deleteSubscription name)) fun _ => trivial

section Guards

variable {M : (op : Op) → Except CallError op.Res → Prop} {B : Op → Prop}
  {R : Except Exc Nat → Prop}

/-- To guard the route it is enough to guard the deletion. -/
theorem guarded_delete
    (h : (deleteSubscription name).Guarded M B fun x => R ((notFoundOutcome x).map fun _ => 200)) :
    (deletion name).Guarded M B R :=
  guarded_bind_pure (guarded_orNotFound h)

end Guards

/-- The hash goes before the record. -/
theorem hash_before_record (name : String) :
    (deletion name).Guarded
      (fun op r => op = .kvDelete .credentials name ∧ ∃ a, r = .ok a)
      (· = .kvDelete .subscriptions name) fun _ => False := by
  refine guarded_delete ?_
  unfold deleteSubscription getSubscriptionInfo deleteKvPair
  refine guarded_getValue_bind.mpr ⟨nofun, fun e _ => ?_, fun _ => id, fun _ _ _ => id⟩
  refine guarded_request_bind.mpr ⟨nofun, fun a ha => ?_, fun _ _ => id⟩
  exact absurd ⟨rfl, a, rfl⟩ ha

/-- The record goes before the stream. -/
theorem record_before_stream_removal (name : String) :
    (deletion name).Guarded
      (fun op r => op = .kvDelete .subscriptions name ∧ ∃ a, r = .ok a)
      (· = .deleteStream (streamKey name)) fun _ => False := by
  refine guarded_delete ?_
  unfold deleteSubscription getSubscriptionInfo deleteSubInfo deleteKvPair
  refine guarded_getValue_bind.mpr ⟨nofun, fun e _ => ?_, fun _ => id, fun _ _ _ => id⟩
  refine guarded_request_bind.mpr ⟨nofun, fun _ _ => ?_, fun _ _ => id⟩
  refine guarded_request_bind.mpr ⟨nofun, fun a ha => ?_, fun _ _ => id⟩
  exact absurd ⟨rfl, a, rfl⟩ ha

/-- What the deletion does once it has found the record. -/
def removal (name : String) : Coro Unit := do
  deleteKvPair name .credentials
  deleteSubInfo name
  deleteStream name
  deleteConsumer name

/-- The route is a look at the record, and then a 404 or the removal. -/
theorem deletion_eq (name : String) : deletion name =
    (getValue name .subscriptions).bind fun
      | none => .throw (.httpException 404 "Subscription was not found.")
      | some _ => (orNotFound (removal name)).bind fun _ => .pure 200 := by
  unfold deletion deleteSubscription getSubscriptionInfo
  rw [bind_eq, orNotFound_getValue_bind, bind_assoc]
  refine congrArg (Prog.bind _) (funext fun found => ?_)
  cases found <;> rfl

/-- So are those of what it does after the look at the record. -/
theorem uses_removal (name : String) :
    ((orNotFound (removal name)).bind fun _ => Prog.pure 200).Uses (DeleteCall name) := by
  refine Uses.bind (Uses.orNotFound ?_) fun _ => trivial
  refine Uses.bind (uses_request .dropHash) fun _ => ?_
  refine Uses.bind (uses_request .dropRecord) fun _ => ?_
  exact Uses.bind (uses_deleteStream .deleteStream) fun _ => uses_deleteConsumer .deleteConsumer

/-- The answer that says there is no record any longer. -/
def SeesNoRecord (name : String) (op : Op) (r : Except CallError op.Res) : Prop :=
  op = .kvDelete .subscriptions name ∧ ∃ a, r = .ok a

/-- The answers that say there is no stream any longer. -/
def SeesNoStream (name : String) (op : Op) (r : Except CallError op.Res) : Prop :=
  op = .deleteStream (streamKey name) ∧ ((∃ a, r = .ok a) ∨ r = .error .notFound)

/-- An accepted removal has heard that the record is gone. -/
theorem removal_sees_no_record (name : String) :
    ((orNotFound (removal name)).bind fun _ => Prog.pure 200).Guarded (SeesNoRecord name)
      (fun _ => False) fun x => answered [200, 404] x = true := by
  refine guarded_bind_pure (guarded_orNotFound ?_)
  unfold removal deleteSubInfo deleteKvPair
  -- An error that a call was answered with is a 500.
  refine guarded_request_bind.mpr ⟨id, fun _ _ => ?_, fun _ _ => nofun⟩
  refine guarded_request_bind.mpr ⟨id, fun a ha => ?_, fun _ _ => nofun⟩
  exact absurd ⟨rfl, a, rfl⟩ ha

/-- …and that the stream is. -/
theorem removal_sees_no_stream (name : String) :
    ((orNotFound (removal name)).bind fun _ => Prog.pure 200).Guarded (SeesNoStream name)
      (fun _ => False) fun x => answered [200, 404] x = true := by
  refine guarded_bind_pure (guarded_orNotFound ?_)
  unfold removal deleteSubInfo deleteKvPair deleteStream
  refine guarded_request_bind.mpr ⟨id, fun _ _ => ?_, fun _ _ => nofun⟩
  refine guarded_request_bind.mpr ⟨id, fun _ _ => ?_, fun _ _ => nofun⟩
  refine guarded_catching_bind.mpr ⟨id, fun a ha => ?_, fun ha => ?_, fun _ _ _ => nofun⟩
  · exact absurd ⟨rfl, Or.inl ⟨a, rfl⟩⟩ ha
  · exact absurd ⟨rfl, Or.inr rfl⟩ ha

/-! ## What one attempt leaves -/

section Attempt

variable (env) (tid : Nat) (plan : List (Fault Outage)) (w : World) (name : String)

variable {name} in
/-- What only `final` can do away with is gone if it was before, or if that call was served. -/
theorem gone_after {M : World → Prop} {final : Op}
    (h : ∀ op w, DeleteCall name op → (M (answer env tid op w).2 ↔
      M w ∨ (op = final ∧ ∃ r, (answer env tid op w).1 = .ok r))) :
    M ((deletion name).attempt (serve env) tid plan w).world ↔
      M w ∨ final ∈ ((deletion name).attempt (serve env) tid plan w).landed := by
  have hfact := attempt_fact (S := serve env) tid M (· = final) (uses_delete name) h plan w
  simpa using hfact

/-- The entry in a bucket… -/
theorem value_none_after (b : Bucket) :
    (((deletion name).attempt (serve env) tid plan w).world.bucket b).value? name = none ↔
      (w.bucket b).value? name = none ∨
        .kvDelete b name ∈ ((deletion name).attempt (serve env) tid plan w).landed :=
  gone_after (M := fun w => (w.bucket b).value? name = none) env tid plan w fun op w hop =>
    value_none_answer env tid w fun v heq => by subst heq; cases hop

/-- …and the stream. -/
theorem stream_none_after :
    ((deletion name).attempt (serve env) tid plan w).world.streams (streamKey name) = none ↔
      w.streams (streamKey name) = none ∨ .deleteStream (streamKey name) ∈
        ((deletion name).attempt (serve env) tid plan w).landed :=
  gone_after (M := fun w => w.streams (streamKey name) = none) env tid plan w fun op w hop =>
    stream_none_answer env tid w fun _ heq => by subst heq; cases hop

variable {env tid plan w name}

/-- What was carried out came in order: where the record was removed, the hash was… -/
theorem hash_landed
    (h : .kvDelete .subscriptions name ∈
      ((deletion name).attempt (serve env) tid plan w).landed) :
    .kvDelete .credentials name ∈ ((deletion name).attempt (serve env) tid plan w).landed := by
  have hmark := attempt_guard_landed tid (· = .kvDelete .credentials name)
    (hash_before_record name) plan w h (by rfl)
  simpa using hmark

/-- …and where the stream was, the record was. -/
theorem record_landed
    (h : .deleteStream (streamKey name) ∈
      ((deletion name).attempt (serve env) tid plan w).landed) :
    .kvDelete .subscriptions name ∈ ((deletion name).attempt (serve env) tid plan w).landed := by
  have hmark := attempt_guard_landed tid (· = .kvDelete .subscriptions name)
    (record_before_stream_removal name) plan w h (by rfl)
  simpa using hmark

/-- An accepted removal leaves neither record nor stream. -/
theorem removal_accepted {x : Except Exc Nat}
    (hx : (((orNotFound (removal name)).bind fun _ => Prog.pure 200).attempt (serve env) tid plan
      w).outcome = some x) (hacc : answered [200, 404] x = true) :
    (((orNotFound (removal name)).bind fun _ => Prog.pure 200).attempt (serve env) tid plan
        w).world.record name = none ∧
      (((orNotFound (removal name)).bind fun _ => Prog.pure 200).attempt (serve env) tid plan
        w).world.streams (streamKey name) = none := by
  have hput : ∀ {op}, DeleteCall name op → ∀ sub, op ≠ .kvPut .subscriptions name sub := by
    intro op hop sub heq
    subst heq
    cases hop
  have hadd : ∀ {op}, DeleteCall name op → ∀ config, op = .addStream config →
      config.name ≠ streamKey name := by
    intro op hop config heq
    subst heq
    cases hop
  constructor
  · refine attempt_guarded (G := fun w => w.record name = none) (uses_removal name)
      (removal_sees_no_record name) ?_ ?_ ?_ plan w hx hacc
    · intro op w hop hnone
      exact (value_none_answer env tid w (hput hop)).mpr (Or.inl hnone)
    · intro op w hop h
      obtain ⟨rfl, r, hr⟩ := h
      exact (value_none_answer env tid w (hput hop)).mpr (Or.inr ⟨rfl, r, hr⟩)
    · intro op e h
      obtain ⟨-, a, ha⟩ := h
      cases ha
  · refine attempt_guarded (G := fun w => w.streams (streamKey name) = none) (uses_removal name)
      (removal_sees_no_stream name) ?_ ?_ ?_ plan w hx hacc
    · intro op w hop hnone
      exact (stream_none_answer env tid w (hadd hop)).mpr (Or.inl hnone)
    · intro op w hop h
      rcases h with ⟨rfl, ⟨r, hr⟩ | hr⟩
      · exact (stream_none_answer env tid w (hadd hop)).mpr (Or.inr ⟨rfl, r, hr⟩)
      · -- It was not found, so it was gone already.
        refine (stream_none_answer env tid w (hadd hop)).mpr (Or.inl ?_)
        cases hs : w.streams (streamKey name) with
        | none => rfl
        | some s => simp [answer, hs] at hr
    · intro op e h
      rcases h with ⟨rfl, ⟨a, ha⟩ | ha⟩
      · cases ha
      · cases e <;> cases ha

/-- So does an accepted deletion of a recorded name. -/
theorem deletion_accepted (hrecord : w.record name ≠ none)
    (h : ((deletion name).attempt (serve env) tid plan w).outcome.any
      (answered [200, 404]) = true) :
    ((deletion name).attempt (serve env) tid plan w).world.record name = none ∧
      ((deletion name).attempt (serve env) tid plan w).world.streams (streamKey name) = none := by
  obtain ⟨sub, hsub⟩ := Option.ne_none_iff_exists'.mp hrecord
  have hsub : (w.bucket .subscriptions).value? name = some sub := hsub
  revert h
  rw [deletion_eq]
  refine attempt_getValue (P := fun a => a.outcome.any (answered [200, 404]) = true →
    a.world.record name = none ∧ a.world.streams (streamKey name) = none) plan nofun
    (fun fs h => ?_) (fun e => ?_) fun e => ?_
  · rw [Attempt.after_outcome] at h
    rw [Attempt.after_world]
    simp only [hsub] at h ⊢
    obtain ⟨x, hx, hacc⟩ := (Option.any_eq_true _ _).mp h
    exact removal_accepted hx hacc
  · nofun
  · rw [Attempt.after_outcome]
    nofun

/-- Without a record there is nothing an attempt does. -/
theorem attempt_of_no_record (h : w.record name = none) :
    ((deletion name).attempt (serve env) tid plan w).world = w ∧
      ((deletion name).attempt (serve env) tid plan w).landed = [] := by
  have h : (w.bucket .subscriptions).value? name = none := h
  have hget : (answer env tid (.kvGet .subscriptions name) w).1 = .error .keyNotFound :=
    congrArg Prod.fst (kvGet_missing env tid h)
  rw [deletion_eq]
  refine attempt_getValue (P := fun a => a.world = w ∧ a.landed = []) plan ⟨rfl, rfl⟩
    (fun fs => ?_) (fun e => ⟨rfl, rfl⟩) fun e => ?_
  · rw [hget, h]
    exact ⟨rfl, rfl⟩
  · rw [hget]
    exact ⟨rfl, rfl⟩

end Attempt

/-! ## The next registration -/

/-- A registration where there is no stream finds nobody else's messages. -/
theorem startsEmpty_of_none {w : World} (h : w.streams (streamKey name) = none) :
    StartsEmpty env w name := by
  intro salt sub tid plan s heq hs
  subst heq
  revert s
  refine attempt_invariant
    (I := fun w : World =>
      ∀ s, w.streams (streamKey sub.name) = some s → ∀ m ∈ s.msgs, m.origin = tid)
    (uses_createSubscription env salt sub) ?_ plan ?_
  · intro op w hop hI s hs
    -- Only the publication of a registration adds a message, and it is its own.
    rcases create_streams env tid w hop (streamKey sub.name) with hsame | hchange
    · exact hI s (by rw [← hsame]; exact hs)
    · rw [serve_answer] at hs
      rw [hs] at hchange
      generalize w.streams (streamKey sub.name) = before at hchange hI
      cases hchange with
      | add => exact nofun
      | update _ s => exact hI s rfl
      | addConsumer _ s => exact hI s rfl
      | publish _ s =>
        intro m hm
        rcases Stream.mem_append hm with hm | rfl
        · exact hI s rfl m hm
        · rfl
  · intro s hs
    rw [h] at hs
    cases hs

/-! ## Retrying -/

variable {w : World} {plans : List (List (Fault Outage))} {a : Attempt Op Exc World Nat}

/-- Without a record all attempts together do nothing. -/
theorem retry_of_no_record (h : w.record name = none)
    (hretry : retry (serve env) (fun _ => deletion name) (answered [200, 404]) plans w = some a) :
    a.world = w :=
  retry_accepted (I := fun v => v = w) (Q := fun a => a.world = w)
    (fun _ _ _ hv _ => hv ▸ (attempt_of_no_record (hv ▸ h)).1)
    (fun _ _ _ hv _ => hv ▸ (attempt_of_no_record (hv ▸ h)).1) rfl hretry

theorem eachRejected_of_no_record (h : w.record name = none) :
    EachRejected (serve env) (fun _ => deletion name) (answered [200, 404])
      (fun _ => RemovesBoth name) plans w := by
  refine eachRejected_of_invariant (I := fun v => v = w) ?_ ?_ rfl
  · intro i plan v heq _
    subst heq
    exact (attempt_of_no_record h).1
  · intro i plan v heq hmem
    subst heq
    rw [(attempt_of_no_record h).2] at hmem
    cases hmem

/-- When record and hash are gone, it is all about the stream. -/
theorem gone_iff_of_accepted (h : w.record name = none ∧ w.credential name = none) :
    Gone w name ∧ StartsEmpty env w name ↔ w.streams (streamKey name) = none := by
  refine ⟨fun hgone => hgone.1.2.2.1, fun hs => ⟨⟨h.2, h.1, hs, ?_⟩, startsEmpty_of_none hs⟩⟩
  unfold World.durable
  rw [hs]
  rfl

/-- **When retrying a deletion is complete.** From a registered name with its stream, in whatever
way the attempts before the accepted one were cut: nothing is left, and the next registration
starts with an empty stream, if and only if no attempt was cut after the record was deleted and
before the stream was. -/
theorem deletion_complete_iff (env : Env) (settings : AppSettings) (salt : String)
    (credentials : HTTPBasicCredentials) (name : String) (w : World)
    (plans : List (List (Fault Outage))) (a : Attempt Op Exc World Nat)
    (hadmin : authenticateAdmin settings credentials = true)
    (hrecord : w.record name ≠ none) (hstream : w.streams (streamKey name) ≠ none)
    (hretry : retry (serve env) (fun _ => deleteSubscriptionRoute settings salt credentials name)
      (answered [200, 404]) plans w = some a) :
    Gone a.world name ∧ StartsEmpty env a.world name ↔
      EachRejected (serve env) (fun _ => deleteSubscriptionRoute settings salt credentials name)
        (answered [200, 404]) (fun _ => RemovesBoth name) plans w := by
  rw [deleteSubscriptionRoute_admin hadmin] at hretry ⊢
  induction plans generalizing w with
  | nil => cases hretry
  | cons plan plans ih =>
    let b := (deletion name).attempt (serve env) plans.length plan w
    have hrec : b.world.record name = none ↔ .kvDelete .subscriptions name ∈ b.landed :=
      (value_none_after env plans.length plan w name .subscriptions).trans (or_iff_right hrecord)
    have hstr : b.world.streams (streamKey name) = none ↔
        .deleteStream (streamKey name) ∈ b.landed := by
      rw [stream_none_after]
      exact or_iff_right hstream
    -- Once the record is gone, so is the hash, and all is decided by the stream.
    have hdecided : b.world.record name = none →
        (Gone b.world name ∧ StartsEmpty env b.world name ↔
          b.world.streams (streamKey name) = none) := by
      intro hnone
      have hhash : b.world.credential name = none :=
        (value_none_after env plans.length plan w name .credentials).mpr
          (Or.inr (hash_landed (hrec.mp hnone)))
      exact gone_iff_of_accepted ⟨hnone, hhash⟩
    rcases retry_cons hretry with ⟨hb, hacc⟩ | ⟨hrej, hrest⟩
    · -- The first attempt is the accepted one.
      have hab : a = b := hb.symm
      have hacc : b.outcome.any (answered [200, 404]) = true := hab ▸ hacc
      obtain ⟨hnone, hgone⟩ := deletion_accepted hrecord hacc
      rw [hab, hdecided hnone]
      refine ⟨fun _ hrej => ?_, fun _ => hgone⟩
      rw [hacc] at hrej
      cases hrej
    · by_cases hnone : b.world.record name = none
      · -- The record is gone: later attempts change nothing.
        have haw : a.world = b.world := retry_of_no_record hnone hrest
        rw [haw, hdecided hnone, hstr]
        exact ⟨fun h _ => ⟨fun _ => h, eachRejected_of_no_record hnone⟩,
          fun h => (h hrej).1 (hrec.mp hnone)⟩
      · -- The record is still there, and so is the stream: start over.
        have hnot : .kvDelete .subscriptions name ∉ b.landed := fun h => hnone (hrec.mpr h)
        have hstill : b.world.streams (streamKey name) ≠ none :=
          fun h => hnot (record_landed (hstr.mp h))
        rw [ih b.world hnone hstill hrest]
        exact ⟨fun h _ => ⟨fun hmem => absurd hmem hnot, h⟩, fun h => (h hrej).2⟩

/-- Cut after the third call and asked again, the deletion is answered 404, and the stream stays. -/
theorem stream_left_over : ∃ a,
    retry (serve .sample) (fun _ => deleteSubscriptionRoute .sample "s" .admin "a")
      (answered [200, 404]) [[.ok, .ok, .ok], [.ok]] .registered = some a ∧
    a.world.streams (streamKey "a") ≠ none :=
  ⟨_, rfl, nofun⟩

theorem not_deletion_complete : ¬ ∀ (env : Env) (settings : AppSettings) (salt : String)
    (credentials : HTTPBasicCredentials) (name : String) (w : World)
    (plans : List (List (Fault Outage))) (a : Attempt Op Exc World Nat),
    authenticateAdmin settings credentials = true →
    w.record name ≠ none → w.streams (streamKey name) ≠ none →
    retry (serve env) (fun _ => deleteSubscriptionRoute settings salt credentials name)
      (answered [200, 404]) plans w = some a →
    Gone a.world name ∧ StartsEmpty env a.world name := by
  intro h
  obtain ⟨a, hretry, hstream⟩ := stream_left_over
  have hgone := h .sample .sample "s" .admin "a" .registered _ a (by decide) (by decide) nofun
    hretry
  exact hstream hgone.1.2.2.1

/-- The deletion is cut right after its first call; the retry does the rest. -/
theorem deletion_complete_iff_sample : ∃ a,
    retry (serve .sample) (fun _ => deleteSubscriptionRoute .sample "s" .admin "a")
      (answered [200, 404]) [[.ok], [.ok, .ok, .ok, .ok, .ok]] .registered = some a ∧
    (Gone a.world "a" ∧ StartsEmpty .sample a.world "a" ↔
      EachRejected (serve .sample) (fun _ => deleteSubscriptionRoute .sample "s" .admin "a")
        (answered [200, 404]) (fun _ => RemovesBoth "a") [[.ok], [.ok, .ok, .ok, .ok, .ok]]
        .registered) :=
  ⟨_, rfl, deletion_complete_iff .sample .sample "s" .admin "a" .registered _ _ (by decide)
    (by decide) nofun rfl⟩

end Provisioning
