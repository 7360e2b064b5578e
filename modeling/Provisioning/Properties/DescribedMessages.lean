import Provisioning.Model.Consumer

/-!
# A message is described before it is handled

`run` describes every message for its log before it calls a callback, and an exception of the
description is an exception of `run`: the message stays where it is, and the next process gets it
again. The description looks the `dn` up on whichever side is there, but what may be posted is any
pair of dictionaries.

`described_iff` says which messages reach the first callback.
-/

namespace Provisioning

open Await MessageHandler

variable {diff : Obj → Obj → Obj} {message : Message}

/-- There is an object on one side, and every object that is there has a `dn`. -/
def Describable (message : Message) : Prop :=
  message.realm = "udm" →
    (message.body.old ≠ [] ∨ message.body.new ≠ []) ∧
    (message.body.old ≠ [] → ∃ dn, message.body.old.get "dn" = some dn) ∧
    (message.body.new ≠ [] → ∃ dn, message.body.new.get "dn" = some dn)

/-- The description raises nothing, and the process goes on to the first callback, with the message
as it was delivered. -/
structure HandsOver (diff : Obj → Obj → Obj) (h : MessageHandler)
    (message : ProvisioningMessage) : Prop where
  described : ∃ text, debugMsg diff message.message = .ok text
  invoked : ∀ k, h.describedTurn diff = .await (.getSubscriptionMessage h.subscriptionName) k →
    (k (.ok (some message))).next? =
      some (.callback (h.callbacks.head h.callbacks_ne_nil) message)

/-! ## One side and the other -/

theorem item_ok_iff {obj : Obj} {key : String} {v : Value} :
    item obj key = .ok v ↔ obj.get key = some v := by
  unfold item
  cases obj.get key with
  | none => exact iff_of_false nofun nofun
  | some v' =>
    constructor
    · exact fun h => congrArg some (Except.ok.inj h)
    · exact fun h => congrArg Except.ok (Option.some.inj h)

theorem item_error_of_none {obj : Obj} {key : String} (h : obj.get key = none) :
    item obj key = .error (.keyError key) := by
  unfold item
  rw [h]

/-- What is left to do with a `dn`: the description succeeds if it is there. -/
theorem described_by_item {α : Type} (obj : Obj) (f : Value → Except Exc α)
    (hf : ∀ v, ∃ text, f v = .ok text) :
    (∃ text, (item obj "dn" >>= f) = .ok text) ↔ ∃ dn, obj.get "dn" = some dn := by
  cases hget : obj.get "dn" with
  | none =>
    rw [item_error_of_none hget]
    exact iff_of_false (fun ⟨_, h⟩ => nomatch h) nofun
  | some dn =>
    rw [item_ok_iff.mpr hget]
    exact iff_of_true (hf dn) ⟨dn, rfl⟩

/-- **The description** succeeds for what is describable. -/
theorem debugMsg_ok_iff (diff : Obj → Obj → Obj) (message : Message) :
    (∃ text, debugMsg diff message = .ok text) ↔ Describable message := by
  obtain ⟨publisherName, realm, topic, ⟨old, new⟩⟩ := message
  unfold debugMsg Describable
  dsimp only
  by_cases hrealm : realm = "udm"
  · rw [if_pos hrealm, imp_iff_right hrealm]
    cases old with
    | nil =>
      -- A creation; without a new object either, the look for its `dn` fails all the same.
      rw [if_neg nofun, if_pos (show (!Obj.truthy []) = true from rfl)]
      refine (described_by_item new _ fun _ => ⟨_, rfl⟩).trans ?_
      cases new with
      | nil => exact iff_of_false nofun fun h => h.1.elim (absurd rfl) (absurd rfl)
      | cons kv rest =>
        refine ⟨fun h => ⟨Or.inr nofun, fun hne => absurd rfl hne, fun _ => h⟩, fun h => ?_⟩
        exact h.2.2 nofun
    | cons kv rest =>
      cases new with
      | nil =>
        -- A deletion.
        rw [if_neg nofun, if_neg nofun, if_pos (show (!Obj.truthy []) = true from rfl)]
        refine (described_by_item (kv :: rest) _ fun _ => ⟨_, rfl⟩).trans ?_
        refine ⟨fun h => ⟨Or.inl nofun, fun _ => h, fun hne => absurd rfl hne⟩, fun h => ?_⟩
        exact h.2.1 nofun
      | cons kv' rest' =>
        -- A change: both are looked up, one after the other.
        rw [if_pos (show (Obj.truthy (kv :: rest) && Obj.truthy (kv' :: rest')) = true from rfl)]
        constructor
        · intro ⟨text, h⟩
          refine ⟨Or.inl nofun, fun _ => ?_, fun _ => ?_⟩
          · cases hold : Obj.get (kv :: rest) "dn" with
            | none =>
              rw [item_error_of_none hold] at h
              cases h
            | some dn => exact ⟨dn, rfl⟩
          · cases hnew : Obj.get (kv' :: rest') "dn" with
            | none =>
              rw [item_error_of_none hnew] at h
              cases hold : item (kv :: rest) "dn" with
              | error e =>
                rw [hold] at h
                cases h
              | ok dn =>
                rw [hold] at h
                cases h
            | some dn => exact ⟨dn, rfl⟩
        · intro ⟨_, hold, hnew⟩
          obtain ⟨oldDn, hold⟩ := hold nofun
          obtain ⟨newDn, hnew⟩ := hnew nofun
          rw [item_ok_iff.mpr hold, item_ok_iff.mpr hnew]
          by_cases hmoved : oldDn ≠ newDn
          · exact ⟨_, if_pos hmoved⟩
          · exact ⟨_, if_neg hmoved⟩
  · rw [if_neg hrealm]
    exact iff_of_true ⟨_, rfl⟩ fun h => absurd h hrealm

/-! ## The loop -/

/-- A described message is handled. -/
theorem describedTurn_of_ok {h : MessageHandler} {message : ProvisioningMessage}
    {text : List Piece} (htext : debugMsg diff message.message = .ok text)
    {k : Except ClientError (Option ProvisioningMessage) → ClientCoro Bool}
    (hk : h.describedTurn diff = .await (.getSubscriptionMessage h.subscriptionName) k) :
    k (.ok (some message)) = h.handleMessage message h.callbacks := by
  cases hk
  dsimp only [Prog.bind_eq, Prog.bind_pure]
  rw [htext]

/-- Every other one ends the process. -/
theorem describedTurn_of_error {h : MessageHandler} {message : ProvisioningMessage} {e : Exc}
    (htext : debugMsg diff message.message = .error e)
    {k : Except ClientError (Option ProvisioningMessage) → ClientCoro Bool}
    (hk : h.describedTurn diff = .await (.getSubscriptionMessage h.subscriptionName) k) :
    k (.ok (some message)) = .throw .other := by
  cases hk
  dsimp only [Prog.bind_eq, Prog.bind_pure]
  rw [htext]
  rfl

/-- **A turn of the loop**, by what the request for a message is answered with. -/
theorem turn_eq (h : MessageHandler) : ∃ k,
    h.turn = .await (.getSubscriptionMessage h.subscriptionName) k ∧
      k (.ok none) = .pure false ∧
      (∀ message, Describable message.message →
        k (.ok (some message)) = h.handleMessage message h.callbacks) ∧
      (∀ message, ¬ Describable message.message → k (.ok (some message)) = .throw .other) ∧
      ∀ e, k (.error e) = .throw e := by
  refine ⟨_, rfl, rfl, fun message hdescribable => ?_, fun message hnot => ?_, fun _ => rfl⟩
  · obtain ⟨text, htext⟩ := (debugMsg_ok_iff h.diff message.message).mpr hdescribable
    exact describedTurn_of_ok htext rfl
  · cases htext : debugMsg h.diff message.message with
    | ok text => exact absurd ((debugMsg_ok_iff h.diff message.message).mp ⟨text, htext⟩) hnot
    | error e => exact describedTurn_of_error htext rfl

/-- **Which messages reach the callbacks.** For every message, every list of callbacks and every
`diff`: `run` describes the message and hands it over, as it was delivered, to the first callback,
if and only if its realm is not `udm`, or there is an object on one side and every object that is
there has a `dn`. -/
theorem described_iff (diff : Obj → Obj → Obj) (h : MessageHandler)
    (message : ProvisioningMessage) :
    HandsOver diff h message ↔ Describable message.message := by
  rw [← debugMsg_ok_iff diff message.message]
  refine ⟨fun hhands => hhands.described, fun ⟨text, htext⟩ => ⟨⟨text, htext⟩, ?_⟩⟩
  intro k hk
  rw [describedTurn_of_ok htext hk]
  obtain ⟨callback, rest, hcallbacks⟩ := List.exists_cons_of_ne_nil h.callbacks_ne_nil
  simp only [hcallbacks, List.head_cons]
  rfl

theorem describable_sample : Describable .sample := by
  refine fun _ => ⟨Or.inr (List.cons_ne_nil _ _), fun hne => absurd rfl hne, fun _ => ?_⟩
  exact ⟨.str "u1", rfl⟩

/-! ## Nothing on either side -/

/-- A change without objects, as anyone may post it. -/
def Message.noObjects : Message := ⟨.udmListener, "udm", "users/user", ⟨[], []⟩⟩

/-- It is taken for a creation, whose object has no `dn`. -/
theorem not_described : ¬ ∀ (diff : Obj → Obj → Obj) (h : MessageHandler)
    (message : ProvisioningMessage), HandsOver diff h message := by
  intro h
  obtain ⟨text, htext⟩ := (h (fun _ new => new) .sample ⟨.noObjects, 1, 1⟩).described
  cases htext

end Provisioning
