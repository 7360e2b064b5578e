import Provisioning.Model.Conversation
import Provisioning.Properties.PoppedMessages

/-!
# Acknowledging again

`acknowledge_message_with_retries` repeats the request until one is answered well. For the law
that it does not matter whether a request or its response got lost, the second request for the same
message would have to be answered as the first: but the route looks the message up before it
deletes it, and answers 404 when it is gone. So when the response to the deletion is lost, every
further attempt is answered with an error, and the client concludes that the message will be
redelivered.

`retries_insensitive_iff` says for which sequences of losses the law holds.

## Two situations

From the client's side the rounds are all alike, but for the server there are two: the message is
still there, or it is gone. It changes once, with the first request that is handled, and whether the
client hears of that is up to the network. So there are two inductions, each on the rounds that are
left: one for a message that is gone, where every answer is a failure (`lawful_gone`), and one for a
message that is there, which goes over into the other (`lawful_stored`).

The law is followed backwards, from the rest of the conversation to one with an attempt more in
front. An attempt that confirms nothing leaves the law as it was (`lawful_after`), and one that does
has to be the last.
-/

namespace Provisioning

open Await Store Prog

/-- `acknowledgementRounds`, with the path it ends on: was the message acknowledged, or are the
retries used up? -/
def MessageHandler.acknowledgementPath (h : MessageHandler) (message : ProvisioningMessage) :
    Nat → ClientCoro Bool
  | 0 => return false
  | left + 1 => do
    if ← h.acknowledgeMessage message.sequenceNumber then return true
    let retries := h.settings.maxAcknowledgementRetries - left
    if retries ≠ h.settings.maxAcknowledgementRetries then
      awaiting (.sleep (min (2 ^ retries) 300))
    acknowledgementPath h message left

/-- The response was received when the message was deleted. -/
def Exchange.Confirms (x : Exchange) : Prop := x.arrived = true ∧ x.deleted = true

/-- **The law**, for `r` retries: there are at most `r + 1` attempts, none after one whose response
was received when the message was deleted, and the message counts as acknowledged exactly if there
was such a response. -/
structure Insensitive (r : Nat) (c : Conversation Bool) : Prop where
  bounded : c.attempts.length ≤ r + 1
  last : ∀ before x after, c.attempts = before ++ x :: after → x.Confirms → after = []
  success : c.outcome = some (.ok true) ↔ ∃ x ∈ c.attempts, x.Confirms

/-- A loss that the client counts as a failed attempt. -/
def Delivery.Fails (d : Delivery) : Prop := d = .requestLost .client ∨ d = .responseLost .client

/-- Of the attempts before the first response that is received, none was handled. -/
def NoneHandledBefore (r : Nat) (net : Nat → Transmission) : Prop :=
  ∀ k ≤ r, (∀ l < k, (net l).delivery.Fails) → (net k).delivery = .received →
    ∀ l < k, (net l).delivery = .requestLost .client

/-- The calls that can take the message of that number out of the stream. -/
inductive Takes (name : String) (seq : Nat) : Op → Prop where
  | deleteStream : Takes name seq (.deleteStream (streamKey name))
  | deleteMsg : Takes name seq (.deleteMsg (streamKey name) seq)
  | purge (subject : String) : Takes name seq (.purgeStream (streamKey name) subject)
  | ack (msg : Msg) (hstream : msg.stream = streamKey name) (hseq : msg.streamSeq = seq) :
      Takes name seq (.ack msg)

/-- The message of that number is in the stream. -/
def MessageStored (name : String) (seq : Nat) (w : World) : Prop :=
  ∃ s, w.streams (streamKey name) = some s ∧ s.stored seq = true

variable {env : Env} {name : String} {seq : Nat} {w : World}

/-! ## What the others leave -/

theorem messageStored_answer (h : MessageStored name seq w) {op : Op} (hop : ¬ Takes name seq op)
    (env : Env) (tid : Nat) : MessageStored name seq (answer env tid op w).2 := by
  obtain ⟨s, hs, hstored⟩ := h
  obtain ⟨m, hm, heq⟩ := List.any_eq_true.mp hstored
  have hkept : ∀ {t : Store.Stream Payload},
      (answer env tid op w).2.streams (streamKey name) = some t → m ∈ t.msgs →
      MessageStored name seq (answer env tid op w).2 :=
    fun ht hmem => ⟨_, ht, List.any_eq_true.mpr ⟨m, hmem, heq⟩⟩
  rcases streams_answer env tid op w (streamKey name) with hsame | hchange
  · exact hkept (hsame.trans hs) hm
  · rw [hs] at hchange
    generalize hafter : (answer env tid op w).2.streams (streamKey name) = after at hchange
    -- A message can go by its number, by an acknowledgement of a work queue, or with its stream.
    cases hchange with
    | remove => exact absurd .deleteStream hop
    | publish subject payload => exact hkept hafter (List.mem_append_left _ hm)
    | ack msg hx s d hd =>
      refine hkept hafter ?_
      split
      · refine List.mem_filter.mpr ⟨hm, bne_iff_ne.mpr fun hseq => hop (.ack msg hx ?_)⟩
        rw [← hseq]
        exact eq_of_beq heq
      · exact hm
    | deleteMsg seq' =>
      refine hkept hafter (List.mem_filter.mpr ⟨hm, bne_iff_ne.mpr fun hseq => hop ?_⟩)
      rw [← hseq, eq_of_beq heq]
      exact .deleteMsg
    | purge subject => exact absurd (.purge subject) hop
    | _ => exact hkept hafter hm

theorem messageStored_meanwhile (env : Env) (h : MessageStored name seq w) {calls : List (Nat × Op)}
    (hcalls : ∀ c ∈ calls, ¬ Takes name seq c.2) :
    MessageStored name seq (servedMeanwhile env calls w) :=
  List.foldlRecOn calls _ h fun _ hw c hc => messageStored_answer hw (hcalls c hc) env c.1

theorem messageGone_meanwhile (env : Env) (h : MessageGone name seq w) {calls : List (Nat × Op)}
    (hcalls : ∀ c ∈ calls, ¬ Takes name seq c.2) :
    MessageGone name seq (servedMeanwhile env calls w) := by
  refine List.foldlRecOn calls _ h fun w hw c hc => ?_
  refine messageGone_answer hw (fun hop => hcalls c hc ?_) env c.1
  rw [hop]
  exact .deleteStream

theorem MessageStored.lacks (h : MessageStored name seq w) : w.lacks name seq = false := by
  obtain ⟨s, hs, hstored⟩ := h
  unfold World.lacks
  rw [hs]
  exact congrArg not hstored

theorem MessageGone.lacks (h : MessageGone name seq w) : w.lacks name seq = true := by
  obtain ⟨s, hs, -, hstored⟩ := h
  unfold World.lacks
  rw [hs]
  exact congrArg not hstored

/-! ## One attempt -/

/-- The first request deletes the message. -/
theorem handleStatus_stored (env : Env) (h : MessageStored name seq w) :
    ∃ w', handleStatus env name seq .ok w = (.ok (), w') ∧ MessageGone name seq w' := by
  obtain ⟨s, hs, hstored⟩ := h
  have hfinish : (updateMessageStatus name seq .ok).finish (serve env) 0 w =
      (.ok 200, w.setStream (streamKey name) (some (s.keep (·.seq != seq)))) :=
    finish_bind (finish_tryCatch (finish_postMessageStatus hs hstored))
  refine ⟨w.setStream (streamKey name) (some (s.keep (·.seq != seq))), ?_, _,
    World.streams_setStream_self .., ?_, Stream.not_stored_taken s seq⟩
  · unfold handleStatus
    rw [hfinish]
    rfl
  · show seq ≤ s.last
    exact Stream.le_last_of_stored hstored

/-- **A further one is refused.** -/
theorem handleStatus_gone (env : Env) (h : MessageGone name seq w) :
    handleStatus env name seq .ok w = (.error .client, w) := by
  obtain ⟨s, hs, -, hstored⟩ := h
  have hfinish : (updateMessageStatus name seq .ok).finish (serve env) 0 w =
      (.error (.httpException 404 "no message found"), w) :=
    finish_bind_error (finish_tryCatch_error (finish_postMessageStatus_gone hs hstored))
  unfold handleStatus
  rw [hfinish]

variable {x : Transmission}

/-- **What an attempt comes to** while the message is there. -/
theorem carry_stored (env : Env) (h : MessageStored name seq w)
    (hothers : ∀ c ∈ x.meanwhile, ¬ Takes name seq c.2) :
    (∃ e w', x.delivery = .requestLost e ∧ x.carry env name seq .ok w = (.error e, w') ∧
      MessageStored name seq w') ∨
    (∃ e w', x.delivery = .responseLost e ∧ x.carry env name seq .ok w = (.error e, w') ∧
      MessageGone name seq w') ∨
    ∃ w', x.delivery = .received ∧ x.carry env name seq .ok w = (.ok (), w') ∧
      MessageGone name seq w' := by
  have hbefore := messageStored_meanwhile env h hothers
  obtain ⟨w', hw', hgone⟩ := handleStatus_stored env hbefore
  unfold Transmission.carry
  cases hx : x.delivery with
  | requestLost e => exact Or.inl ⟨e, _, rfl, rfl, hbefore⟩
  | responseLost e => exact Or.inr (Or.inl ⟨e, _, rfl, rfl, hw' ▸ hgone⟩)
  | received => exact Or.inr (Or.inr ⟨w', rfl, hw', hgone⟩)

/-- …and once it has been deleted. -/
theorem carry_gone (env : Env) (h : MessageGone name seq w)
    (hothers : ∀ c ∈ x.meanwhile, ¬ Takes name seq c.2) :
    ∃ e w', x.carry env name seq .ok w = (.error e, w') ∧ MessageGone name seq w' ∧
      (x.delivery = .requestLost e ∨ x.delivery = .responseLost e ∨
        (x.delivery = .received ∧ e = .client)) := by
  have hbefore := messageGone_meanwhile env h hothers
  have hrefused := handleStatus_gone env hbefore
  unfold Transmission.carry
  cases hx : x.delivery with
  | requestLost e => exact ⟨e, _, rfl, hbefore, Or.inl rfl⟩
  | responseLost e => exact ⟨e, _, rfl, hrefused ▸ hbefore, Or.inr (Or.inl rfl)⟩
  | received => exact ⟨.client, _, hrefused, hbefore, Or.inr (Or.inr ⟨rfl, rfl⟩)⟩

/-! ## The rounds -/

section Rounds

/-- It is the loop of the client, but for what it says at its end. -/
theorem acknowledgementPath_rounds (h : MessageHandler) (message : ProvisioningMessage)
    (left : Nat) : (h.acknowledgementPath message left).bind (fun _ => .pure ()) =
      h.acknowledgementRounds message left := by
  induction left with
  | zero => rfl
  | succ left ih =>
    -- What follows an attempt is the same in both.
    have hrest : ∀ acknowledged : Bool,
        (if acknowledged = true then (.pure true : ClientCoro Bool)
          else if h.settings.maxAcknowledgementRetries - left ≠
              h.settings.maxAcknowledgementRetries then
            (awaiting (.sleep
              (min (2 ^ (h.settings.maxAcknowledgementRetries - left)) 300))).bind fun _ =>
                h.acknowledgementPath message left
          else h.acknowledgementPath message left).bind (fun _ => .pure ()) =
        if acknowledged = true then .pure ()
          else if h.settings.maxAcknowledgementRetries - left ≠
              h.settings.maxAcknowledgementRetries then
            (awaiting (.sleep
              (min (2 ^ (h.settings.maxAcknowledgementRetries - left)) 300))).bind fun _ =>
                h.acknowledgementRounds message left
          else h.acknowledgementRounds message left := by
      intro acknowledged
      rw [← ih]
      cases acknowledged with
      | true => rfl
      | false =>
        rw [if_neg Bool.false_ne_true, if_neg Bool.false_ne_true]
        split
        · exact Prog.bind_assoc ..
        · rfl
    exact (Prog.bind_assoc (h.acknowledgeMessage message.sequenceNumber) _ _).trans
      (congrArg (h.acknowledgeMessage message.sequenceNumber).bind (funext hrest))

/-- A round: an attempt, and if it fails a pause and the remaining rounds. -/
theorem acknowledgementPath_eq (env : Env) (h : MessageHandler) (message : ProvisioningMessage)
    (left : Nat) : ∃ k, h.acknowledgementPath message (left + 1) =
      .await (.setMessageStatus h.subscriptionName message.sequenceNumber .ok) k ∧
      k (.ok ()) = .pure true ∧ k (.error .other) = .throw .other ∧
      ∀ net w, converse env (k (.error .client)) net w =
        converse env (h.acknowledgementPath message left) net w := by
  refine ⟨_, rfl, rfl, rfl, fun net w => ?_⟩
  by_cases hlast : h.settings.maxAcknowledgementRetries - left ≠
      h.settings.maxAcknowledgementRetries
  · have hpause : ∀ p : ClientCoro Bool, converse env
        ((awaiting (.sleep (min (2 ^ (h.settings.maxAcknowledgementRetries - left)) 300))).bind
          fun _ => p) net w = converse env p net w := fun p => rfl
    exact (congrArg (converse env · net w) (if_pos hlast)).trans (hpause _)
  · exact congrArg (converse env · net w) (if_neg hlast)

/-- The rounds that are left go on with the requests that are left. -/
abbrev later (net : Nat → Transmission) : Nat → Transmission := fun i => net (i + 1)

/-- What an attempt leads to. -/
theorem converse_path (env : Env) (h : MessageHandler) (message : ProvisioningMessage)
    (left : Nat) (net : Nat → Transmission) {w w' : World} {r : Except ClientError Unit}
    (hcarry : (net 0).carry env h.subscriptionName message.sequenceNumber .ok w = (r, w')) :
    ∃ c : Conversation Bool, converse env (h.acknowledgementPath message (left + 1)) net w =
        c.after ⟨(net 0).delivery = .received, w'.lacks h.subscriptionName
          message.sequenceNumber⟩ ∧
      (r = .ok () → c = ⟨some (.ok true), w', []⟩) ∧
      (r = .error .other → c = ⟨some (.error .other), w', []⟩) ∧
      (r = .error .client →
        c = converse env (h.acknowledgementPath message left) (later net) w') := by
  obtain ⟨k, hpath, hok, hother, hclient⟩ := acknowledgementPath_eq env h message left
  refine ⟨converse env (k r) (later net) w', ?_, fun hr => ?_, fun hr => ?_, fun hr => ?_⟩
  · rw [hpath]
    simp only [converse, hcarry]
  · rw [hr, hok]
    rfl
  · rw [hr, hother]
    rfl
  · rw [hr, hclient]

/-- **At most so many attempts**, whatever the network and the others do. -/
theorem attempts_le (env : Env) (h : MessageHandler) (message : ProvisioningMessage) (left : Nat)
    (net : Nat → Transmission) (w : World) :
    (converse env (h.acknowledgementPath message left) net w).attempts.length ≤ left := by
  induction left generalizing net w with
  | zero => exact Nat.le_refl 0
  | succ left ih =>
    obtain ⟨c, hc, hok, hother, hclient⟩ := converse_path env h message left net (w := w) rfl
    rw [hc]
    refine Nat.succ_le_succ ?_
    cases hr : ((net 0).carry env h.subscriptionName message.sequenceNumber .ok w).1 with
    | ok u =>
      rw [hok hr]
      exact Nat.zero_le left
    | error e =>
      cases e with
      | client =>
        rw [hclient hr]
        exact ih _ _
      | other =>
        rw [hother hr]
        exact Nat.zero_le left

end Rounds

/-! ## What one more attempt in front does to the law -/

section Law

variable {c : Conversation Bool} {x : Exchange}

/-- The law, but for the bound. -/
structure Lawful (c : Conversation Bool) : Prop where
  last : ∀ before x after, c.attempts = before ++ x :: after → x.Confirms → after = []
  success : c.outcome = some (.ok true) ↔ ∃ x ∈ c.attempts, x.Confirms

/-- An attempt that confirms nothing leaves it to the others. -/
theorem lawful_after (hx : ¬ x.Confirms) : Lawful (c.after x) ↔ Lawful c := by
  have hexists : (∃ y ∈ (c.after x).attempts, y.Confirms) ↔ ∃ y ∈ c.attempts, y.Confirms := by
    constructor
    · intro ⟨y, hy, hconfirms⟩
      rcases List.mem_cons.mp hy with rfl | hy
      · exact absurd hconfirms hx
      · exact ⟨y, hy, hconfirms⟩
    · intro ⟨y, hy, hconfirms⟩
      exact ⟨y, List.mem_cons_of_mem x hy, hconfirms⟩
  constructor
  · intro hlaw
    refine ⟨fun before y after hsplit => ?_, hlaw.success.trans hexists⟩
    exact hlaw.last (x :: before) y after (congrArg (List.cons x) hsplit)
  · intro hlaw
    refine ⟨fun before y after hsplit hconfirms => ?_, hlaw.success.trans hexists.symm⟩
    cases before with
    | nil =>
      obtain ⟨rfl, -⟩ := List.cons.inj hsplit
      exact absurd hconfirms hx
    | cons z before => exact hlaw.last before y after (List.cons.inj hsplit).2 hconfirms

/-- The client raises. -/
theorem lawful_raised (e : ClientError) (w : World) : Lawful ⟨some (.error e), w, []⟩ := by
  refine ⟨fun before x after hsplit => ?_, iff_of_false nofun fun ⟨x, hx, _⟩ => ?_⟩
  · cases before <;> cases hsplit
  · exact absurd hx List.not_mem_nil

/-- The one good end. -/
theorem lawful_confirmed (w : World) (hx : x.Confirms) :
    Lawful (Conversation.after ⟨some (.ok true), w, []⟩ x) := by
  refine ⟨fun before y after hsplit _ => ?_, iff_of_true rfl ⟨x, List.mem_cons_self, hx⟩⟩
  cases before with
  | nil => exact (List.cons.inj hsplit).2.symm
  | cons z before =>
    have hrest := (List.cons.inj hsplit).2
    cases before <;> cases hrest

/-- Where nothing succeeds, nothing may confirm. -/
theorem lawful_iff_of_failure (hfailure : c.outcome ≠ some (.ok true)) :
    Lawful c ↔ ∀ x ∈ c.attempts, ¬ x.Confirms := by
  constructor
  · intro hlaw x hx hconfirms
    exact hfailure (hlaw.success.mpr ⟨x, hx, hconfirms⟩)
  · intro hnone
    refine ⟨fun before x after hsplit hconfirms => ?_, iff_of_false hfailure ?_⟩
    · exact absurd hconfirms (hnone x (hsplit ▸ List.mem_append_right _ List.mem_cons_self))
    · intro ⟨x, hx, hconfirms⟩
      exact hnone x hx hconfirms

end Law

/-! ## When the law holds -/

/-- The first response that is received within so many rounds. -/
def HearsNothing (left : Nat) (net : Nat → Transmission) : Prop :=
  ∀ k < left, (∀ l < k, (net l).delivery.Fails) → (net k).delivery ≠ .received

theorem hearsNothing_succ {left : Nat} {net : Nat → Transmission} :
    HearsNothing (left + 1) net ↔ (net 0).delivery ≠ .received ∧
      ((net 0).delivery.Fails → HearsNothing left (later net)) := by
  unfold HearsNothing
  rw [Nat.forall_lt_succ_left]
  refine and_congr (imp_iff_right nofun) ⟨fun hall hfails k hk hbefore => ?_,
    fun hall k hk hbefore => ?_⟩
  · exact hall k hk (Nat.forall_lt_succ_left.mpr ⟨hfails, hbefore⟩)
  · obtain ⟨hfails, hlater⟩ := Nat.forall_lt_succ_left.mp hbefore
    exact hall hfails k hk hlater

section Rounds

variable {h : MessageHandler} {message : ProvisioningMessage}

/-- **Once the message is gone** no attempt succeeds, so the law holds as long as no response is
received. -/
theorem lawful_gone (env : Env) (left : Nat) {net : Nat → Transmission} {w : World}
    (hgone : MessageGone h.subscriptionName message.sequenceNumber w)
    (hothers : ∀ i, ∀ c ∈ (net i).meanwhile,
      ¬ Takes h.subscriptionName message.sequenceNumber c.2) :
    (converse env (h.acknowledgementPath message left) net w).outcome ≠ some (.ok true) ∧
    ((∀ x ∈ (converse env (h.acknowledgementPath message left) net w).attempts, ¬ x.Confirms) ↔
      HearsNothing left net) := by
  induction left generalizing net w with
  | zero =>
    refine ⟨nofun, iff_of_true (fun x hx => absurd hx List.not_mem_nil) ?_⟩
    exact fun k hk => absurd hk (Nat.not_lt_zero k)
  | succ left ih =>
    -- The message is gone, so nothing but the failure of every attempt can follow.
    obtain ⟨e, w', hcarry, hgone', hdelivery⟩ := carry_gone env hgone (hothers 0)
    obtain ⟨c, hc, -, hother, hclient⟩ := converse_path env h message left net hcarry
    rw [hc, hearsNothing_succ]
    have hfirst : ¬ (⟨(net 0).delivery = .received, w'.lacks h.subscriptionName
        message.sequenceNumber⟩ : Exchange).Confirms ↔ (net 0).delivery ≠ .received := by
      refine not_congr ⟨fun hx => of_decide_eq_true hx.1, fun hx => ?_⟩
      exact ⟨decide_eq_true hx, hgone'.lacks⟩
    have hsplit : (∀ x ∈ (c.after ⟨(net 0).delivery = .received, w'.lacks h.subscriptionName
        message.sequenceNumber⟩).attempts, ¬ x.Confirms) ↔
        (net 0).delivery ≠ .received ∧ ∀ x ∈ c.attempts, ¬ x.Confirms :=
      List.forall_mem_cons.trans (and_congr_left fun _ => hfirst)
    rw [hsplit]
    cases e with
    | client =>
      rw [hclient rfl]
      obtain ⟨hfailure, hrest⟩ := ih hgone' fun i => hothers (i + 1)
      refine ⟨hfailure, and_congr_right fun hlost => ?_⟩
      have hfails : (net 0).delivery.Fails := by
        rcases hdelivery with hd | hd | ⟨hd, -⟩
        · exact Or.inl hd
        · exact Or.inr hd
        · exact absurd hd hlost
      rw [hrest, imp_iff_right hfails]
    | other =>
      rw [hother rfl]
      refine ⟨nofun, and_congr_right fun hlost => iff_of_true ?_ fun hfails => ?_⟩
      · exact fun x hx => absurd hx List.not_mem_nil
      · -- What it has raised is no failed attempt.
        rcases hdelivery with hd | hd | ⟨-, he⟩
        · rcases hfails with hf | hf <;> cases hd.symm.trans hf
        · rcases hfails with hf | hf <;> cases hd.symm.trans hf
        · cases he

/-- What is asked of the deliveries, for so many rounds. -/
def NoneHandled (left : Nat) (net : Nat → Transmission) : Prop :=
  ∀ k < left, (∀ l < k, (net l).delivery.Fails) → (net k).delivery = .received →
    ∀ l < k, (net l).delivery = .requestLost .client

/-- An attempt that was lost on its way asks the same of the others. -/
theorem noneHandled_lost {left : Nat} {net : Nat → Transmission}
    (hlost : (net 0).delivery = .requestLost .client) :
    NoneHandled (left + 1) net ↔ NoneHandled left (later net) := by
  unfold NoneHandled
  rw [Nat.forall_lt_succ_left]
  constructor
  · intro ⟨_, hall⟩ k hk hbefore hreceived
    have hfails : ∀ l < k + 1, (net l).delivery.Fails :=
      Nat.forall_lt_succ_left.mpr ⟨Or.inl hlost, hbefore⟩
    exact (Nat.forall_lt_succ_left.mp (hall k hk hfails hreceived)).2
  · intro hall
    refine ⟨fun _ _ l hl => absurd hl (Nat.not_lt_zero l), fun k hk hbefore hreceived => ?_⟩
    have hlater := hall k hk (Nat.forall_lt_succ_left.mp hbefore).2 hreceived
    exact Nat.forall_lt_succ_left.mpr ⟨hlost, hlater⟩

/-- After one whose response was lost no response may be received. -/
theorem noneHandled_handled {left : Nat} {net : Nat → Transmission}
    (hlost : (net 0).delivery = .responseLost .client) :
    NoneHandled (left + 1) net ↔ HearsNothing left (later net) := by
  unfold NoneHandled HearsNothing
  rw [Nat.forall_lt_succ_left]
  constructor
  · intro ⟨_, hall⟩ k hk hbefore hreceived
    have hfails : ∀ l < k + 1, (net l).delivery.Fails :=
      Nat.forall_lt_succ_left.mpr ⟨Or.inr hlost, hbefore⟩
    have hfirst := (Nat.forall_lt_succ_left.mp (hall k hk hfails hreceived)).1
    rw [hlost] at hfirst
    cases hfirst
  · intro hall
    refine ⟨fun _ _ l hl => absurd hl (Nat.not_lt_zero l), fun k hk hbefore hreceived => ?_⟩
    exact absurd hreceived (hall k hk (Nat.forall_lt_succ_left.mp hbefore).2)

/-- Where the first attempt decides, nothing is asked. -/
theorem noneHandled_of_not_fails {left : Nat} {net : Nat → Transmission}
    (hdecides : ¬ (net 0).delivery.Fails) : NoneHandled (left + 1) net := by
  intro k _ hbefore _ l hl
  exact absurd (hbefore 0 (Nat.zero_lt_of_lt hl)) hdecides

/-- **As long as the message is there** the law holds if no attempt before the first response was
handled. -/
theorem lawful_stored (env : Env) (left : Nat) {net : Nat → Transmission} {w : World}
    (hstored : MessageStored h.subscriptionName message.sequenceNumber w)
    (hothers : ∀ i, ∀ c ∈ (net i).meanwhile,
      ¬ Takes h.subscriptionName message.sequenceNumber c.2) :
    Lawful (converse env (h.acknowledgementPath message left) net w) ↔ NoneHandled left net := by
  induction left generalizing net w with
  | zero =>
    have hfailure : (converse env (h.acknowledgementPath message 0) net w).outcome ≠
        some (.ok true) := fun hok => by cases hok
    rw [lawful_iff_of_failure hfailure]
    exact iff_of_true (fun x hx => absurd hx List.not_mem_nil)
      fun k hk => absurd hk (Nat.not_lt_zero k)
  | succ left ih =>
    -- The first attempt leaves the message, removes it unheard, or removes it and is heard.
    rcases carry_stored env hstored (hothers 0) with
      ⟨e, w', hd, hcarry, hstored'⟩ | ⟨e, w', hd, hcarry, hgone⟩ | ⟨w', hd, hcarry, hgone⟩
    · obtain ⟨c, hc, -, hother, hclient⟩ := converse_path env h message left net hcarry
      rw [hc, lawful_after (by rw [hd]; exact fun hx => nomatch hx.1)]
      cases e with
      | client =>
        rw [hclient rfl, noneHandled_lost hd]
        exact ih hstored' fun i => hothers (i + 1)
      | other =>
        rw [hother rfl]
        refine iff_of_true (lawful_raised ..) (noneHandled_of_not_fails ?_)
        rw [hd]
        exact fun hfails => hfails.elim nofun nofun
    · obtain ⟨c, hc, -, hother, hclient⟩ := converse_path env h message left net hcarry
      rw [hc, lawful_after (by rw [hd]; exact fun hx => nomatch hx.1)]
      cases e with
      | client =>
        obtain ⟨hfailure, hrest⟩ := lawful_gone env left hgone fun i => hothers (i + 1)
        rw [hclient rfl, noneHandled_handled hd, lawful_iff_of_failure hfailure, hrest]
      | other =>
        rw [hother rfl]
        refine iff_of_true (lawful_raised ..) (noneHandled_of_not_fails ?_)
        rw [hd]
        exact fun hfails => hfails.elim nofun nofun
    · obtain ⟨c, hc, hok, -, -⟩ := converse_path env h message left net hcarry
      rw [hc, hok rfl]
      refine iff_of_true (lawful_confirmed w' ⟨decide_eq_true hd, hgone.lacks⟩)
        (noneHandled_of_not_fails ?_)
      rw [hd]
      exact fun hfails => hfails.elim nofun nofun

end Rounds

/-- **When losses do not matter.** For every number of retries, every sequence of losses, and
whatever anyone does meanwhile that does not take the message out of the stream: with the message
there at the start, the law of the acknowledgement holds if and only if no attempt before the first
response that is received was handled. -/
theorem retries_insensitive_iff (env : Env) (h : MessageHandler) (message : ProvisioningMessage)
    (net : Nat → Transmission) (w : World)
    (hstored : MessageStored h.subscriptionName message.sequenceNumber w)
    (hothers : ∀ i, ∀ c ∈ (net i).meanwhile,
      ¬ Takes h.subscriptionName message.sequenceNumber c.2) :
    Insensitive h.settings.maxAcknowledgementRetries
        (converse env (h.acknowledgementPath message (h.settings.maxAcknowledgementRetries + 1))
          net w) ↔
      NoneHandledBefore h.settings.maxAcknowledgementRetries net := by
  have hlaw := lawful_stored env (h.settings.maxAcknowledgementRetries + 1) hstored hothers
  have hbound := attempts_le env h message (h.settings.maxAcknowledgementRetries + 1) net w
  constructor
  · intro hins k hk
    exact hlaw.mp ⟨hins.last, hins.success⟩ k (Nat.lt_succ_of_le hk)
  · intro hnone
    have hlawful := hlaw.mpr fun k hk => hnone k (Nat.le_of_lt_succ hk)
    exact ⟨hbound, hlawful.last, hlawful.success⟩

/-! ## A lost response -/

/-- The response to the first request is lost, and everything after that is received. -/
def responseLostOnce (i : Nat) : Transmission :=
  ⟨[], if i = 0 then .responseLost .client else .received⟩

/-- The live message of "a". -/
def ProvisioningMessage.sample : ProvisioningMessage := ⟨.sample, 1, 1⟩

theorem messageStored_withMessage : MessageStored "a" 1 .withMessage := ⟨_, rfl, rfl⟩

/-- With one retry: the message is deleted, the second response is received, and the client takes
its retries for used up. -/
theorem unacknowledged_after_loss :
    (converse .sample (MessageHandler.sample.acknowledgementPath .sample 2) responseLostOnce
      .withMessage).outcome = some (.ok false) ∧
    (converse .sample (MessageHandler.sample.acknowledgementPath .sample 2) responseLostOnce
      .withMessage).attempts = [⟨false, true⟩, ⟨true, true⟩] := ⟨rfl, rfl⟩

theorem retries_insensitive_iff_lost :
    Insensitive 1 (converse .sample (MessageHandler.sample.acknowledgementPath .sample 2)
      responseLostOnce .withMessage) ↔ NoneHandledBefore 1 responseLostOnce :=
  retries_insensitive_iff .sample .sample .sample responseLostOnce .withMessage
    messageStored_withMessage fun _ _ hc => absurd hc List.not_mem_nil

/-- So it matters which of the two was lost. -/
theorem not_retries_insensitive : ¬ ∀ (env : Env) (h : MessageHandler)
    (message : ProvisioningMessage) (net : Nat → Transmission) (w : World),
    MessageStored h.subscriptionName message.sequenceNumber w →
    (∀ i, ∀ c ∈ (net i).meanwhile, ¬ Takes h.subscriptionName message.sequenceNumber c.2) →
    Insensitive h.settings.maxAcknowledgementRetries
      (converse env (h.acknowledgementPath message (h.settings.maxAcknowledgementRetries + 1))
        net w) := by
  intro hall
  obtain ⟨houtcome, hattempts⟩ := unacknowledged_after_loss
  have hins := hall .sample .sample .sample responseLostOnce .withMessage messageStored_withMessage
    fun _ _ hc => absurd hc List.not_mem_nil
  have hconfirmed := hins.success.mpr
    ⟨⟨true, true⟩, hattempts ▸ List.mem_cons_of_mem _ (List.mem_singleton_self _), rfl, rfl⟩
  cases hconfirmed.symm.trans houtcome

end Provisioning
