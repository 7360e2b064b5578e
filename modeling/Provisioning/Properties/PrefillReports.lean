import Provisioning.Model.InternalApi
import Provisioning.Properties.RegistryRefinement

/-!
# The prefill status reaches its subscription

The name of a subscription is any string. The adapter pastes it into an address as it is, and the
app takes it out of the address that arrives. The two are inverse only on the names that an address
shows unchanged: one segment, not empty, in which nothing ends the path and nothing is an escape
(`status_reaches_iff`).

With another name the request still arrives somewhere. Either no route takes it and it raises, or it
sets the status of another subscription, whose name is shorter. The subscription that is meant is
left alone in any case, so its prefill is never reported done (`never_reported`).
-/

namespace Provisioning

open Await Store Prog Url

variable {d : Deployment} {name other : String} {status status' : FillQueueStatus}

/-! ## Which names come through -/

/-- `set_subscription_queue_status` is called with this name and this status. -/
def Reaches (d : Deployment) (name : String) (status : FillQueueStatus) : Prop :=
  receive d.app (d.adapter.statusRequest name status) = .ok (name, status)

/-- **Main theorem.** Writing the address and reading it are inverse on a name if and only if the
name can be sent. -/
theorem status_reaches_iff (d : Deployment) (name : String) (status : FillQueueStatus) :
    Reaches d name status ↔ Sendable name := by
  unfold Reaches
  rw [receive_ok_iff, takenFor_self_iff]
  exact ⟨fun h => h.1, fun h => ⟨h, rfl⟩⟩

/-! ## What becomes of the others -/

theorem statusAddress_length (name : String) :
    (statusAddress name).length = 26 + name.toList.length := by
  rw [statusAddress_eq, List.length_append, List.length_append]
  show 18 + (name.toList.length + 8) = _
  omega

/-- **A status that does not reach its subscription reaches one with a shorter name**, if any. -/
theorem reaches_shorter
    (h : receive d.app (d.adapter.statusRequest name status) = .ok (other, status')) :
    other = name ∨ other.toList.length < name.toList.length := by
  have hreceived : received (statusAddress name) = statusAddress other :=
    (receive_ok_iff.mp h).1.received
  by_cases hlength : name.toList.length ≤ other.toList.length
  · -- Nothing has been lost on the way, so nothing has been touched.
    left
    have hfull : (statusAddress name).length ≤ (received (statusAddress name)).length := by
      rw [hreceived, statusAddress_length, statusAddress_length]
      omega
    obtain ⟨hunmarked, hunescaped⟩ := untouched_of_length hfull
    rw [received_of_untouched hunmarked hunescaped, statusAddress_eq, statusAddress_eq] at hreceived
    have hname := List.append_cancel_right (List.append_cancel_left hreceived)
    exact String.toList_injective hname.symm
  · exact Or.inr (Nat.lt_of_not_le hlength)

/-! ## What the prefill service sees of it -/

/-- **The request is handled for the subscription that is meant** if and only if its name can be
sent. -/
theorem updates_iff (env : Env) (name : String) (status : FillQueueStatus) :
    updateSubscriptionQueueStatus env name status =
      internalRequest (updateSubscriptionPrefillStatus name status) ↔ Sendable name := by
  rw [← takenFor_self_iff]
  constructor
  · intro h
    rcases updateSubscriptionQueueStatus_cases env name status with
      ⟨other, htaken, heq⟩ | ⟨-, code, heq⟩
    · rw [heq] at h
      -- Both begin by reading a record, so it is the same one.
      have hread : some (Op.kvGet .subscriptions other) = some (Op.kvGet .subscriptions name) :=
        congrArg Prog.next? h
      injection hread with hread
      injection hread with _ hother
      exact hother ▸ htaken
    · rw [heq] at h
      cases h
  · intro h
    exact updateSubscriptionQueueStatus_eq env h status

/-- **A subscription whose name cannot be sent is left alone**: no update of its status writes its
record, whatever else is going on. -/
theorem never_reported (env : Env) (h : ¬ Sendable name) (status : FillQueueStatus) :
    (updateSubscriptionQueueStatus env name status).Uses
      fun op => ∀ sub, op ≠ .kvPut .subscriptions name sub := by
  refine (uses_updateSubscriptionQueueStatus name status).mono fun op hop => ?_
  obtain ⟨other, htaken, hop⟩ := hop
  have hother : other ≠ name := by
    intro heq
    exact h ((takenFor_self_iff name).mp (heq ▸ htaken))
  cases hop with
  | get => exact nofun
  | put sub =>
    intro sub' heq
    injection heq with _ hname
    exact hother hname

/-! ## Names that are registered and cannot be sent -/

/-- `create_subscription` has answered 201 to a registration of this name. -/
def Created (env : Env) (name : String) : Prop :=
  ∃ salt sub w w', sub.name = name ∧
    (createSubscription env salt sub).finish (Provisioning.serve env) 0 w = (.ok 201, w')

/-- Nothing about a name is looked at when it is registered. -/
theorem created_any (env : Env) (hpassword : env.refuses "" = false)
    (hname : name ≠ PREFILL_STREAM) : Created env name := by
  obtain ⟨sub, hsub, hempty⟩ : ∃ sub : NewSubscription, sub.name = name ∧ sub.password = "" :=
    ⟨⟨name, [], true, ""⟩, rfl, rfl⟩
  have haccepted : env.refuses sub.password = false := hempty ▸ hpassword
  have hlinked : Linked env .prepared .empty := vacant_prepared.linked
  have hread := hlinked.read sub.name
  obtain ⟨w', hregister, -⟩ := enters_registerNew hlinked "" sub haccepted (hsub ▸ hname)
  refine ⟨"", sub, .prepared, w', hsub, ?_⟩
  rw [createSubscription_eq, finish_getValue_bind, hread]
  show (ite _ _ _ : Coro Nat).finish _ _ _ = _
  rw [if_neg (Bool.eq_false_iff.mp haccepted)]
  exact hregister

/-- What is reported for "%61" is set for "a". -/
theorem reaches_another (status : FillQueueStatus) :
    receive Deployment.sample.app (Deployment.sample.adapter.statusRequest "%61" status) =
      .ok ("a", status) :=
  receive_ok_iff.mpr ⟨by decide, rfl⟩

theorem not_status_reaches : ¬ ∀ (env : Env) (d : Deployment) (name : String)
    (status : FillQueueStatus), Created env name → Reaches d name status := by
  intro hall
  have hreaches := hall .sample .sample "a?b" .done (created_any _ rfl (by decide))
  -- The address of "a?b" ends after the "a".
  have hsendable := (takenFor_self_iff "a?b").mp (receive_ok_iff.mp hreaches).1
  exact absurd hsendable (by decide)

end Provisioning
