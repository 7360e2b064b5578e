import Provisioning.Model.Pipeline
import Provisioning.Properties.DeletionEvents

/-!
# What a consumer learns of a change

A change of the directory is attempted until it is acknowledged, and each attempt may send events. A
consumer that goes by the new objects, and by the UUID of the old one when there is no new one,
learns the same from all of them: what has become of the entry. So it does not matter to it how many
there are, nor that the old objects of some are wrong (`events_right_iff`). What matters is that
there is one before the change is acknowledged, unless there is nothing to be learnt; and whether
there is anything, the transformer reads off its cache.

## The steps

`handle_changes` is a long function, but from the point where it has the old object there are only
four ways on: `Handled`. Everything afterwards is about these four and not about the code.

An attempt at one of them can be cut at any call. `Leaves` collects what is true of it wherever that
happens, in the terms of the replica: which events it has sent, what the cache holds, and what is
the case if it was acknowledged. **`Leaves.follows`** then forgets the attempt altogether: a copy
that has the directory up to this change, or including it, has it so afterwards, and including it
once the change is acknowledged.

## Why the cache is in it

The copy of the consumer and the cache of the transformer are two different things, and the cache
may be ahead of the copy. `Covers` is the relation between them that all this keeps: **what the
consumer has, the cache has**. It is what makes the silent way right, in which the transformer finds
no old object, sends nothing, and acknowledges: if the cache has no object of the entry, neither has
the consumer. And it only holds because the object is stored before the event is sent, and never
taken out.
-/

namespace Provisioning

open Await Store Prog Replica

/-! ## What the UDM libraries return -/

/-! Two assumptions about the libraries, as properties of the environment: the object of an entry
has the UUID of the entry, and it has an object type. The second is there because an event without
one is not sent. -/

/-- The representation of an entry carries its UUID and an object type. -/
structure Represents (env : Env) : Prop where
  uuid : ∀ objectType entry obj uuid, env.representation objectType entry = .ok obj →
    firstValue entry "entryUUID" = .ok uuid → obj.get "uuid" = some (.str uuid)
  objectType : ∀ objectType entry obj, env.representation objectType entry = .ok obj →
    ∃ topic, topic ≠ "" ∧ obj.get "objectType" = some (.str topic)

/-- The object is that of the entry with this UUID. -/
structure Identified (uuid : String) (obj : Obj) : Prop where
  uuid : obj.get "uuid" = some (.str uuid)
  objectType : ∃ topic, topic ≠ "" ∧ obj.get "objectType" = some (.str topic)

theorem Identified.ne_nil {uuid : String} {obj : Obj} (h : Identified uuid obj) : obj ≠ [] := by
  intro hnil
  have huuid := h.uuid
  rw [hnil] at huuid
  cases huuid

variable {env : Env} {change : Change} {start directory : Directory} {old : Obj} {msg : Msg}

/-- The first of the two is the assumption of the attempts at a single change. -/
theorem Represents.returnsUuid (henv : Represents env) : ReturnsUuid env := by
  intro entry obj uuid h hne huuid
  obtain ⟨objectType, hobj⟩ := representation_of_object h hne
  exact henv.uuid objectType entry obj uuid hobj huuid

/-! ## The change as the transformer has it -/

/-! The listener sends the attributes before and after, and the transformer computes from these what
the change means. -/

/-- The new object is computed from the new entry, if there is one. -/
theorem newObject_message (env : Env) (change : Change) :
    newObject env change.message.body =
      match change.new? with
      | some entry => ldapToUdm env entry.attributes
      | none => .ok (some []) := by
  unfold newObject
  cases change with
  | create new => exact if_pos (Obj.truthy_eq_true.mpr new.attributes_ne_nil)
  | modify old new => exact if_pos (Obj.truthy_eq_true.mpr new.attributes_ne_nil)
  | remove old => rfl

/-- What the change means is what the transformer computes. -/
theorem value_of_newObject {new : Option Obj}
    (h : newObject env change.message.body = .ok new) :
    (change.assignment env).value = if (orEmpty new).truthy then some (orEmpty new) else none := by
  rw [newObject_message] at h
  unfold Change.assignment
  cases hentry : change.new? with
  | none =>
    rw [hentry] at h
    cases h
    rfl
  | some entry =>
    rw [hentry] at h
    show shown env entry = _
    unfold shown
    dsimp only at h
    rw [h]
    cases new with
    | none => rfl
    | some obj => rfl

/-- The message of a change that the directory allows is about one entry. -/
theorem ofEntry_message (hvalid : change.Valid directory) :
    OfEntry change.uuid change.message.body := by
  cases change with
  | create new => exact ⟨fun h => absurd rfl h, fun _ => new.hasUuid⟩
  | modify old new =>
    refine ⟨fun _ => old.hasUuid, fun _ => ?_⟩
    show firstValue new.attributes "entryUUID" = .ok old.uuid
    rw [← hvalid.2]
    exact new.hasUuid
  | remove old => exact ⟨fun _ => old.hasUuid, fun h => absurd rfl h⟩

/-- It has no old attributes exactly when the entry is created. -/
theorem old_message : change.message.body.old = [] ↔ change.old? = none := by
  cases change with
  | create new => exact iff_of_true rfl rfl
  | modify old new => exact iff_of_false old.attributes_ne_nil nofun
  | remove old => exact iff_of_false old.attributes_ne_nil nofun

/-- The object of the changed entry is its own. -/
theorem identified_newObject (henv : Represents env) (hvalid : change.Valid directory) {obj : Obj}
    (h : newObject env change.message.body = .ok (some obj)) (hne : obj ≠ []) :
    Identified change.uuid obj := by
  refine ⟨uuid_newObject henv.returnsUuid (ofEntry_message hvalid) h hne, ?_⟩
  rw [newObject_message] at h
  split at h
  · obtain ⟨objectType, hobj⟩ := representation_of_object h hne
    exact henv.objectType objectType _ obj hobj
  · exact absurd (Option.some.inj (Except.ok.inj h)).symm hne

/-! ## What becomes of a change -/

/-- The ways in which `handle_changes` can go on from where it has the old object. The new object
cannot be computed; or it is stored and told; or there is none, and that is told with the object
that was there; or there is none and there was none. -/
inductive Handled (env : Env) (change : Change) (old : Obj) : Coro Unit → Prop where
  | fails (e : Exc) (h : newObject env change.message.body = .error e) :
      Handled env change old (.throw e)
  | told (obj : Obj) (m : Message) (hvalue : (change.assignment env).value = some obj)
      (hobj : Identified change.uuid obj)
      (hbody : m.body.assignment = some (change.assignment env)) :
      Handled env change old ((request (.kvPut .cache change.uuid obj)).bind fun _ =>
        internalRequest (createNewMessage m))
  | withdrawn (m : Message) (hvalue : (change.assignment env).value = none)
      (hbody : m.body.assignment = some (change.assignment env)) :
      Handled env change old (internalRequest (createNewMessage m))
  | silent (hvalue : (change.assignment env).value = none) (hold : old = []) :
      Handled env change old (.pure ())

/-- With an object type the event is sent. -/
theorem sendEvent_topic {new : Option Obj} {topic : String} (hne : topic ≠ "")
    (htype : eventObjectType new old = some (.str topic)) :
    sendEvent env new old = internalRequest (createNewMessage
      ⟨env.ldapPublisherName, "udm", topic, ⟨old, orEmpty new⟩⟩) := by
  have hmissing : missing (eventObjectType new old) = false := by
    rw [htype]
    show (!(topic != "")) = false
    rw [bne_iff_ne.mpr hne]
    rfl
  have hquiet : ¬ (!((orEmpty new).truthy || old.truthy)) = true := by
    intro hquiet
    rw [eventObjectType_quiet hquiet] at hmissing
    cases hmissing
  unfold sendEvent
  rw [if_neg hquiet]
  show (if missing (eventObjectType new old) then _ else _ : Coro Unit) = _
  rw [if_neg (Bool.eq_false_iff.mp hmissing)]
  unfold eventObjectType at htype
  rw [htype]
  rfl

/-- What is told of an entry whose object is there. -/
theorem assignment_told {obj : Obj} (hvalue : (change.assignment env).value = some obj)
    (hobj : Identified change.uuid obj) :
    (Body.mk old obj).assignment = some (change.assignment env) := by
  have htruthy : obj.truthy = true := Obj.truthy_eq_true.mpr hobj.ne_nil
  unfold Body.assignment
  simp only [htruthy, if_true, hobj.uuid]
  rw [← hvalue]
  rfl

/-- What is told of an entry whose object is gone. -/
theorem assignment_withdrawn (hvalue : (change.assignment env).value = none)
    (hold : Identified change.uuid old) :
    (Body.mk old []).assignment = some (change.assignment env) := by
  unfold Body.assignment
  simp only [Obj.truthy_nil, Bool.false_eq_true, if_false, hold.uuid]
  rw [← hvalue]
  rfl

/-- **There are no other ways.** -/
theorem handleNew_handled (henv : Represents env) (hvalid : change.Valid directory)
    (hold : old = [] ∨ Identified change.uuid old) :
    Handled env change old (handleNew env change.message.body old) := by
  cases hnew : newObject env change.message.body with
  | error e =>
    have hfails : handleNew env change.message.body old = .throw e := by
      unfold handleNew
      rw [hnew]
      rfl
    rw [hfails]
    exact .fails e hnew
  | ok new =>
    have hvalue := value_of_newObject hnew
    by_cases htruthy : (orEmpty new).truthy = true
    · -- There is an object: it is stored and sent.
      rw [if_pos htruthy] at hvalue
      cases new with
      | none => cases htruthy
      | some obj =>
        have hne : obj ≠ [] := Obj.truthy_eq_true.mp htruthy
        have hobj := identified_newObject henv hvalid hnew hne
        obtain ⟨topic, htopic, htype⟩ := hobj.objectType
        have heventType : eventObjectType (some obj) old = some (.str topic) :=
          (if_pos htruthy).trans htype
        rw [handleNew_store hnew hne hobj.uuid, sendEvent_topic htopic heventType]
        exact .told obj _ hvalue hobj (assignment_told hvalue hobj)
    · -- There is none: nothing is stored, and sent if something was known.
      rw [if_neg htruthy] at hvalue
      have hempty : orEmpty new = [] := by
        by_contra hne
        exact htruthy (Obj.truthy_eq_true.mpr hne)
      have hsend : handleNew env change.message.body old = sendEvent env new old := by
        unfold handleNew
        rw [hnew]
        simp only [ofExcept, pure_eq, bind_eq, bind_pure]
        rw [if_neg htruthy]
      rw [hsend]
      rcases hold with rfl | hold
      · have hquiet : sendEvent env new [] = .pure () := by
          unfold sendEvent
          rw [hempty]
          rfl
        rw [hquiet]
        exact .silent hvalue rfl
      · obtain ⟨topic, htopic, htype⟩ := hold.objectType
        have heventType : eventObjectType new old = some (.str topic) :=
          (if_neg htruthy).trans htype
        rw [sendEvent_topic htopic heventType]
        refine .withdrawn _ hvalue ?_
        rw [hempty]
        exact assignment_withdrawn hvalue hold

/-! ## Others at work -/

/-! Between two calls of the transformer others go on, and what they do is in the script of the
scene. Their calls are of any kind but the writes to the cache, and a change of the directory
appends to the queue. -/

section Amid

variable {scene : Scene start} {w : World} {uuid : String}

@[simp] theorem amid_answer (tid : Nat) (op : Op) (scene : Scene start) :
    (amid env).answer tid op scene =
      ((answer env tid op (scene.meanwhile env).world).1,
        { scene.meanwhile env with
          world := (answer env tid op (scene.meanwhile env).world).2 }) := rfl

/-- The object of an entry changes only if it is written. -/
theorem cached_answer {op : Op} (tid : Nat) (w : World) (h : ∀ obj, op ≠ .kvPut .cache uuid obj)
    (h' : op ≠ .kvDelete .cache uuid) : cached (answer env tid op w).2 uuid = cached w uuid := by
  unfold cached
  rcases value_answer env tid op w .cache uuid with hsame | ⟨obj, rfl, -⟩ | ⟨rfl, -⟩
  · rw [hsame]
  · exact absurd rfl (h obj)
  · exact absurd rfl h'

/-- The listener publishes and does nothing else. -/
theorem listen_world (change : Change) (w : World) :
    (change.listen.alone (serve env) Scene.listener w).world =
      (answer env Scene.listener (.publish LDAP_SUBJECT (.message change.message)
        (streamKey LDAP_STREAM)) w).2 := by
  rw [Change.listen_eq]
  unfold addMessage
  rcases answer_publish env Scene.listener LDAP_SUBJECT (.message change.message)
    (streamKey LDAP_STREAM) w with ⟨s, -, -, hanswer⟩ | hanswer
  all_goals
    simp only [bind_eq, pure_eq]
    show (Prog.alone _ _ (Prog.await _ _) _).world = _
    rw [alone_await, serve_answer, hanswer]
    rfl

/-- Nobody else writes the cache. -/
theorem cached_act (scene : Scene start) (action : Action) :
    cached (scene.act env action).world uuid = cached scene.world uuid := by
  cases action with
  | call tid op h => exact cached_answer tid _ (h.2.1 uuid) (h.2.2 uuid)
  | change change =>
    show cached (if h : change.Valid scene.chronicle.directory then
      { scene with
        world := (change.listen.alone (serve env) Scene.listener scene.world).world
        chronicle := scene.chronicle.extend change h }
      else scene).world uuid = _
    split
    · rw [listen_world]
      exact cached_answer _ _ nofun nofun
    · rfl

/-- Whatever others do between two calls, the cache is as it was. -/
theorem cached_meanwhile (scene : Scene start) :
    cached (scene.meanwhile env).world uuid = cached scene.world uuid := by
  -- the script is a list of actions: an induction, with each action by `cached_act`
  have hall : ∀ (actions : List Action) (scene : Scene start),
      cached (actions.foldl (Scene.act env) scene).world uuid = cached scene.world uuid := by
    intro actions
    induction actions with
    | nil => exact fun _ => rfl
    | cons action actions ih => exact fun scene => (ih _).trans (cached_act scene action)
  exact hall _ _

/-- An object that is stored is what the cache holds. -/
theorem cached_put (tid : Nat) (uuid : String) (obj : Obj) (w : World) :
    cached (answer env tid (.kvPut .cache uuid obj) w).2 uuid = obj := by
  have hput : ((answer env tid (.kvPut .cache uuid obj) w).2.bucket .cache).value? uuid =
      some obj := by rw [answer, World.bucket_setBucket_self, Bucket.value?_put_self]
  unfold cached
  rw [hput]
  rfl

end Amid

/-! ## One attempt -/

/-! What follows is about `settled`: the handling in its `try`, and the acknowledgement after it.
A handling that raises gives the message back and is not acknowledged. -/

/-- An attempt at a change, amid what others do. -/
abbrev Turn (start : Directory) : Type := Attempt Op Exc (Scene start) Unit

/-- The call that sends this event. -/
abbrev sending (m : Message) : Op :=
  .publish DISPATCHER_STREAM (.message m) (streamKey DISPATCHER_STREAM)

theorem event_sending (m : Message) : (sending m).event? = some m.body := by
  unfold sending Op.event?
  exact if_pos rfl

/-- The calls of an attempt, once it has the old object. -/
inductive ChangeCall (env : Env) (change : Change) (msg : Msg) : Op → Prop where
  | store (obj : Obj) (hvalue : (change.assignment env).value = some obj)
      (hobj : Identified change.uuid obj) :
      ChangeCall env change msg (.kvPut .cache change.uuid obj)
  | send (m : Message) (hbody : m.body.assignment = some (change.assignment env)) :
      ChangeCall env change msg (sending m)
  | ack : ChangeCall env change msg (.ack msg)
  | nak : ChangeCall env change msg (.nak msg)

/-- `transformFrom` with whatever `handle_changes` does. -/
def settled (msg : Msg) (handling : Coro Unit) : Coro Unit :=
  (tryCatch handling fun e => do
    request (.nak msg)
    MonadExcept.throw e).bind fun _ => request (.ack msg)

section Settled

variable {P : Op → Prop} {M : (op : Op) → Except CallError op.Res → Prop} {B : Op → Prop}

/-- The calls are those of the handling, and one of the two settlements. -/
theorem uses_settled {handling : Coro Unit} (h : handling.Uses P) (hack : P (.ack msg))
    (hnak : P (.nak msg)) : (settled msg handling).Uses P :=
  Uses.bind (Uses.tryCatch h fun _ => Uses.bind (uses_request hnak) fun _ => trivial)
    fun _ => uses_request hack

/-- What `handle_changes` waits for when it returns, the acknowledgement waits for. -/
theorem guarded_settled {handling : Coro Unit}
    (h : handling.Guarded M B fun x => ∃ a, x = .ok a) (hnak : ¬ B (.nak msg)) :
    (settled msg handling).Guarded M B fun _ => False := by
  have hhandle : (tryCatch handling fun e => do
      request (.nak msg)
      MonadExcept.throw e : Coro Unit).Guarded M B fun x => ∃ a, x = .ok a := by
    apply Guarded.tryCatch h (fun _ => id)
    intro e _
    exact guarded_request_bind.mpr ⟨hnak, fun _ _ => nofun, fun _ _ => nofun⟩
  exact Guarded.bind hhandle (fun a ha => absurd ⟨a, rfl⟩ ha) fun _ _ => id

end Settled

/-- Sending an event is one call. -/
theorem uses_sending {P : Op → Prop} {m : Message} (h : P (sending m)) :
    (internalRequest (createNewMessage m)).Uses P := Uses.internalRequest (uses_createNewMessage h)

/-- Whichever way the handling goes, these are its calls. -/
theorem Handled.uses {handling : Coro Unit} (h : Handled env change old handling) :
    (settled msg handling).Uses (ChangeCall env change msg) := by
  cases h with
  | fails e h => exact uses_settled trivial .ack .nak
  | told obj m hvalue hobj hbody =>
    refine uses_settled (Uses.bind (uses_request (.store obj hvalue hobj)) fun _ => ?_) .ack .nak
    exact uses_sending (.send m hbody)
  | withdrawn m hvalue hbody => exact uses_settled (uses_sending (.send m hbody)) .ack .nak
  | silent hvalue hold => exact uses_settled trivial .ack .nak

/-- The event has been sent when the request returns. -/
theorem guarded_sending (m : Message) :
    (internalRequest (createNewMessage m)).Guarded
      (fun op r => op = sending m ∧ ∃ a, r = .ok a) (· = .ack msg) fun x => ∃ a, x = .ok a := by
  rw [internalRequest_createNewMessage]
  refine ⟨nofun, forall_answer.mpr ⟨fun seq h => ?_, fun e _ => nofun⟩⟩
  exact absurd ⟨rfl, seq, rfl⟩ h

/-- **A change is acknowledged only once it has been told**, unless nothing is to be told. -/
theorem Handled.ack_after {handling : Coro Unit} (h : Handled env change old handling)
    {plan : List (Fault Outage)} {scene : Scene start}
    (hop : .ack msg ∈ ((settled msg handling).attempt (amid env) 0 plan scene).landed) :
    eventsOf ((settled msg handling).attempt (amid env) 0 plan scene).landed ≠ [] ∨
      ((change.assignment env).value = none ∧ old = []) := by
  -- What was sent before the acknowledgement is among the events.
  have hsent : ∀ m, (settled msg handling).Guarded
      (fun op r => op = sending m ∧ ∃ a, r = .ok a) (· = .ack msg) (fun _ => False) →
      eventsOf ((settled msg handling).attempt (amid env) 0 plan scene).landed ≠ [] := by
    intro m hguarded
    obtain ⟨op, hop, rfl⟩ := attempt_guard_landed (S := amid env) 0 (· = sending m) hguarded
      plan scene hop rfl
    exact List.ne_nil_of_mem (List.mem_filterMap.mpr ⟨_, hop, event_sending m⟩)
  cases h with
  | fails e h =>
    have huses : (settled msg (.throw e)).Uses (· = .nak msg) := by
      show (((request (.nak msg)).bind fun _ => Prog.throw e).bind fun _ =>
        request (.ack msg)).Uses _
      rw [bind_assoc]
      exact Uses.bind (uses_request rfl) fun _ => trivial
    exact absurd (attempt_uses (S := amid env) 0 huses plan scene _ hop) nofun
  | told obj m hvalue hobj hbody =>
    refine Or.inl (hsent m (guarded_settled ?_ nofun))
    exact guarded_request_bind.mpr ⟨nofun, fun _ _ => guarded_sending m, fun _ _ => nofun⟩
  | withdrawn m hvalue hbody => exact Or.inl (hsent m (guarded_settled (guarded_sending m) nofun))
  | silent hvalue hold => exact Or.inr ⟨hvalue, hold⟩

/-- **What an attempt leaves**, wherever it was cut: events that mean the change, and a cache that
is as it was but for the object of the entry, which may be there now. If it sent something and the
entry has an object, that object is in the cache. If it was acknowledged it has sent something, or
there was nothing to be told. -/
structure Leaves (env : Env) (change : Change) (msg : Msg) (scene : Scene start)
    (a : Turn start) : Prop where
  events : ∀ body ∈ eventsOf a.landed, body.assignment = some (change.assignment env)
  kept : eventsOf a.landed ≠ [] → (change.assignment env).value ≠ none →
    cached a.world.world change.uuid ≠ []
  elsewhere : ∀ uuid, uuid ≠ change.uuid → cached a.world.world uuid = cached scene.world uuid
  there : cached a.world.world change.uuid = cached scene.world change.uuid ∨
    Identified change.uuid (cached a.world.world change.uuid)
  told : .ack msg ∈ a.landed → eventsOf a.landed ≠ [] ∨
    ((change.assignment env).value = none ∧
      (change.old? = none ∨ cached scene.world change.uuid = []))

section Cache

variable {handling : Coro Unit} {plan : List (Fault Outage)} {scene : Scene start}

/-- A call of an attempt leaves the cache, or stores the object of the entry. -/
theorem ChangeCall.cached {op : Op} (h : ChangeCall env change msg op) (tid : Nat) (w : World) :
    (∀ uuid, Provisioning.cached (answer env tid op w).2 uuid = Provisioning.cached w uuid) ∨
      ∃ obj, op = .kvPut .cache change.uuid obj ∧ Identified change.uuid obj := by
  cases h with
  | store obj hvalue hobj => exact Or.inr ⟨obj, rfl, hobj⟩
  | send m hbody => exact Or.inl fun uuid => cached_answer tid w nofun nofun
  | ack => exact Or.inl fun uuid => cached_answer tid w nofun nofun
  | nak => exact Or.inl fun uuid => cached_answer tid w nofun nofun

/-- Before an event with an object is sent, the object is stored. -/
theorem Handled.stored_before (h : Handled env change old handling)
    (hvalue : (change.assignment env).value ≠ none)
    (hsent : eventsOf ((settled msg handling).attempt (amid env) 0 plan scene).landed ≠ []) :
    ∃ obj, .kvPut .cache change.uuid obj ∈
      ((settled msg handling).attempt (amid env) 0 plan scene).landed := by
  obtain ⟨body, hbody⟩ := List.exists_mem_of_ne_nil _ hsent
  obtain ⟨op, hop, hevent⟩ := List.mem_filterMap.mp hbody
  cases h with
  | told obj m hvalue' hobj hassign =>
    have hguarded : (settled msg ((request (.kvPut .cache change.uuid obj)).bind fun _ =>
        internalRequest (createNewMessage m))).Guarded
        (fun op r => op = .kvPut .cache change.uuid obj ∧ ∃ a, r = .ok a)
        (fun op => op.event? ≠ none) fun _ => False := by
      refine guarded_settled ?_ (fun hnak => hnak rfl)
      exact guarded_request_bind.mpr ⟨fun hput => hput rfl,
        fun a ha => absurd ⟨rfl, a, rfl⟩ ha, fun _ _ => nofun⟩
    obtain ⟨op', hop', rfl⟩ := attempt_guard_landed (S := amid env) 0
      (· = .kvPut .cache change.uuid obj) hguarded plan scene hop (by rw [hevent]; nofun)
    exact ⟨obj, hop'⟩
  | withdrawn m hnone hassign => exact absurd hnone hvalue
  | silent hnone hold => exact absurd hnone hvalue
  | fails e herror =>
    have hquiet : (settled msg (.throw e)).Uses fun op => op.event? = none :=
      uses_settled trivial rfl rfl
    have hcall := attempt_uses (S := amid env) 0 hquiet plan scene op hop
    rw [hcall] at hevent
    cases hevent

/-- **Each of the four ways leaves this.** -/
theorem Handled.leaves (h : Handled env change old handling)
    (hold : old = expectedOld (cached scene.world change.uuid) change.message.body) :
    Leaves env change msg scene ((settled msg handling).attempt (amid env) 0 plan scene) where
  events := by
    intro body hbody
    obtain ⟨op, hop, hevent⟩ := List.mem_filterMap.mp hbody
    have hcall := attempt_uses (S := amid env) 0 h.uses plan scene op hop
    cases hcall with
    | send m hassign =>
      rw [event_sending] at hevent
      cases hevent
      exact hassign
    | _ => cases hevent
  kept := by
    -- The object was put before the event was sent.
    intro hsent hvalue
    obtain ⟨obj, hput⟩ := h.stored_before hvalue hsent
    -- Once it is there it is not taken out again.
    have huses : (settled msg handling).Uses (ChangeCall env change msg) := h.uses
    have hstored := attempt_fact (S := amid env) 0
      (fun scene : Scene start => cached scene.world change.uuid ≠ [])
      (fun op => ∃ obj, op = .kvPut .cache change.uuid obj) huses (fun op scene hop => ?_) plan
      scene
    · exact hstored.mpr (Or.inr ⟨_, hput, obj, rfl⟩)
    · rw [amid_answer, ← cached_meanwhile scene]
      rcases hop.cached 0 (scene.meanwhile env).world with hsame | ⟨obj, rfl, hobj⟩
      · rw [hsame]
        refine ⟨Or.inl, fun h => ?_⟩
        rcases h with h | ⟨⟨obj, rfl⟩, -⟩
        · exact h
        · rw [← hsame, cached_put]
          cases hop with
          | store _ hvalue hobj => exact hobj.ne_nil
      · rw [cached_put]
        exact iff_of_true hobj.ne_nil (Or.inr ⟨⟨obj, rfl⟩, (), rfl⟩)
  elsewhere := by
    intro uuid hne
    refine attempt_invariant
      (I := fun scene' : Scene start => cached scene'.world uuid = cached scene.world uuid)
      h.uses (fun op scene' hop hsame => ?_) plan rfl
    rw [amid_answer, ← hsame, ← cached_meanwhile scene']
    rcases hop.cached 0 (scene'.meanwhile env).world with hsame | ⟨obj, rfl, -⟩
    · exact hsame uuid
    · refine cached_answer 0 _ ?_ nofun
      intro obj' heq
      cases heq
      exact hne rfl
  there := by
    refine attempt_invariant (I := fun scene' : Scene start =>
      cached scene'.world change.uuid = cached scene.world change.uuid ∨
        Identified change.uuid (cached scene'.world change.uuid))
      h.uses (fun op scene' hop hkept => ?_) plan (Or.inl rfl)
    rw [amid_answer]
    rw [← cached_meanwhile scene'] at hkept
    rcases hop.cached 0 (scene'.meanwhile env).world with hsame | ⟨obj, rfl, hobj⟩
    · rw [hsame]
      exact hkept
    · rw [cached_put]
      exact Or.inr hobj
  told := by
    intro hack
    rcases h.ack_after hack with hsent | ⟨hnone, hempty⟩
    · exact Or.inl hsent
    · refine Or.inr ⟨hnone, ?_⟩
      rw [hempty] at hold
      unfold expectedOld at hold
      split at hold
      · next hbody => exact Or.inl (old_message.mp hbody)
      · exact Or.inr hold.symm

/-- A refusal leaves everything. -/
theorem leaves_of_refused {p : Coro Unit} (h : p.Uses (· = .nak msg)) :
    Leaves env change msg scene (p.attempt (amid env) 0 plan scene) := by
  have hlanded := attempt_uses (S := amid env) 0 h plan scene
  have hsame : ∀ uuid, cached (p.attempt (amid env) 0 plan scene).world.world uuid =
      cached scene.world uuid := by
    intro uuid
    refine attempt_invariant
      (I := fun scene' : Scene start => cached scene'.world uuid = cached scene.world uuid) h
      (fun op scene' hop hsame => ?_) plan rfl
    subst hop
    have hnak : cached (answer env 0 (.nak msg) (scene'.meanwhile env).world).2 uuid =
        cached (scene'.meanwhile env).world uuid := cached_answer 0 _ nofun nofun
    rw [amid_answer, hnak, cached_meanwhile]
    exact hsame
  have hnone : eventsOf (p.attempt (amid env) 0 plan scene).landed = [] := by
    refine List.filterMap_eq_nil_iff.mpr fun op hop => ?_
    rw [hlanded op hop]
    rfl
  refine ⟨?_, fun hsent => absurd hnone hsent, fun uuid _ => hsame uuid, Or.inl (hsame _), ?_⟩
  · rw [hnone]
    exact nofun
  · intro hack
    cases hlanded _ hack

/-- A look into the cache changes nothing of this. -/
theorem Leaves.after_read {a : Turn start} {uuid : String}
    (h : Leaves env change msg (scene.meanwhile env) a)
    (r : Except CallError (Op.kvGet .cache uuid).Res) :
    Leaves env change msg scene (a.after (.kvGet .cache uuid) r) := by
  have hlanded : eventsOf (a.after (.kvGet .cache uuid) r).landed = eventsOf a.landed ∧
      (.ack msg ∈ (a.after (.kvGet .cache uuid) r).landed → .ack msg ∈ a.landed) := by
    cases r with
    | error e => exact ⟨rfl, id⟩
    | ok e => exact ⟨rfl, fun h => (List.mem_cons.mp h).resolve_left nofun⟩
  have hcached : ∀ uuid, cached (scene.meanwhile env).world uuid = cached scene.world uuid :=
    fun _ => cached_meanwhile scene
  obtain ⟨hevents, hkept, helsewhere, hthere, htold⟩ := h
  simp only [hcached] at helsewhere hthere htold
  refine ⟨?_, ?_, ?_, ?_, fun hack => ?_⟩
  · rw [hlanded.1]
    exact hevents
  · rw [hlanded.1, Attempt.after_world]
    exact hkept
  · rw [Attempt.after_world]
    exact helsewhere
  · rw [Attempt.after_world]
    exact hthere
  · rw [hlanded.1]
    exact htold (hlanded.2 hack)

/-- With the old object at hand. -/
theorem leaves_transformFrom (henv : Represents env) (hvalid : change.Valid directory)
    (hcached : cached scene.world change.uuid = [] ∨
      Identified change.uuid (cached scene.world change.uuid))
    (hold : old = expectedOld (cached scene.world change.uuid) change.message.body) :
    Leaves env change msg scene
      ((transformFrom env change.message.body msg old).attempt (amid env) 0 plan scene) := by
  refine Handled.leaves (handleNew_handled henv hvalid ?_) hold
  rw [hold]
  unfold expectedOld
  split
  · exact Or.inl rfl
  · exact hcached

/-- A look into the cache finds what others have left, and changes nothing. -/
theorem amid_kvGet (b : Bucket) (key : String) (scene : Scene start) :
    (amid env).answer 0 (.kvGet b key) scene =
      ((answer env 0 (.kvGet b key) (scene.meanwhile env).world).1, scene.meanwhile env) := by
  rw [amid_answer, kvGet_world]

/-- **One attempt at a change.** -/
theorem leaves_transformEvent (henv : Represents env) (hvalid : change.Valid directory)
    (hcached : cached scene.world change.uuid = [] ∨
      Identified change.uuid (cached scene.world change.uuid))
    (hmsg : msg.payload = .message change.message) :
    Leaves env change msg scene ((transformEvent env msg).attempt (amid env) 0 plan scene) := by
  by_cases hold : change.message.body.old = []
  · rw [transformEvent_new hmsg hold]
    refine leaves_transformFrom henv hvalid hcached ?_
    unfold expectedOld
    rw [if_pos hold]
  · rw [transformEvent_old hmsg hold ((ofEntry_message hvalid).old hold)]
    have hrefused : ∀ (x : CallError) fs (scene : Scene start),
        Leaves env change msg scene (((request (.nak msg)).bind fun _ => Prog.throw (Exc.call x) :
          Coro Unit).attempt (amid env) 0 fs scene) := fun x fs scene =>
      leaves_of_refused (Uses.bind (uses_request rfl) fun _ => trivial)
    have hread : ∀ fs old, cached (scene.meanwhile env).world change.uuid = old →
        Leaves env change msg (scene.meanwhile env) ((transformFrom env change.message.body msg
          old).attempt (amid env) 0 fs (scene.meanwhile env)) := by
      intro fs old hfound
      rw [← cached_meanwhile scene] at hcached
      refine leaves_transformFrom henv hvalid hcached ?_
      rw [← hfound]
      exact (if_neg hold).symm
    refine attempt_await (P := fun a => Leaves env change msg scene a) plan ?_ (fun fs => ?_)
      (fun e fs => ?_) fun e fs => ?_
    -- the process dies, the value is read, or the call is lost before or after it is served
    · exact ⟨nofun, fun h => absurd rfl h, fun _ _ => rfl, Or.inl rfl, nofun⟩
    · rw [amid_kvGet]
      apply Leaves.after_read
      simp only [answer]
      unfold cached Store.Bucket.value? at hread
      cases hget : ((scene.meanwhile env).world.bucket .cache).get? change.uuid with
      | some e => exact hread fs e.value (by rw [hget]; rfl)
      | none => exact hread fs [] (by rw [hget]; rfl)
    · cases e <;> exact hrefused _ fs scene
    · rw [amid_kvGet]
      apply Leaves.after_read
      cases e <;> exact hrefused _ fs _

/-! ## The replica -/

/-! From here on events are assignments: to the UUID of an entry, of its object or of nothing. A
replica is a table that takes in assignments one after the other. -/

/-- What an attempt tells a replica. -/
def tells (a : Turn start) : List (Assignment String Obj) :=
  (eventsOf a.landed).filterMap Body.assignment

/-- All that an attempt tells is what the change means. -/
theorem Leaves.assignment_of_tells {a : Turn start} (h : Leaves env change msg scene a) :
    ∀ b ∈ tells a, b = change.assignment env := by
  intro b hb
  obtain ⟨body, hbody, hassign⟩ := List.mem_filterMap.mp hb
  rw [h.events body hbody] at hassign
  exact (Option.some.inj hassign).symm

/-- The cache holds everything that the replica has, and every object under its own UUID. The
converse is false: an object is stored before it is told. -/
structure Covers (w : World) (table : String → Option Obj) : Prop where
  covers : ∀ uuid, table uuid ≠ none → cached w uuid ≠ []
  identified : ∀ uuid, cached w uuid = [] ∨ Identified uuid (cached w uuid)

/-- **One attempt, seen from the replica.** It follows the change as before, and has taken it in if
the attempt was acknowledged. -/
theorem Leaves.follows {a : Turn start} {table : String → Option Obj}
    (h : Leaves env change msg scene a) (hvalid : change.Valid directory)
    (hfollows : Replica.Follows (directory.view env) (change.assignment env) table)
    (hcovers : Covers scene.world table) :
    Replica.Follows (directory.view env) (change.assignment env) (replay table (tells a)) ∧
      Covers a.world.world (replay table (tells a)) ∧
      (.ack msg ∈ a.landed → replay table (tells a) = (change.apply directory).view env) := by
  have hnone : eventsOf a.landed = [] → tells a = [] := by
    intro hempty
    unfold tells
    rw [hempty]
    rfl
  have hsome : eventsOf a.landed ≠ [] → tells a ≠ [] := by
    intro hne
    obtain ⟨body, hbody⟩ := List.exists_mem_of_ne_nil _ hne
    exact List.ne_nil_of_mem (List.mem_filterMap.mpr ⟨body, hbody, h.events body hbody⟩)
  obtain ⟨hfollows', htaken⟩ := hfollows.replay h.assignment_of_tells
  -- Three things are left: what the cache has to hold, that it is of the right objects, and that
  -- the change was taken in.
  refine ⟨hfollows', ⟨fun uuid hthere => ?_, fun uuid => ?_⟩, fun hack => ?_⟩
  · by_cases huuid : uuid = change.uuid
    · subst huuid
      by_cases hempty : eventsOf a.landed = []
      · rw [hnone hempty, replay_nil] at hthere
        rcases h.there with hsame | hid
        · rw [hsame]
          exact hcovers.covers _ hthere
        · exact hid.ne_nil
      · apply h.kept hempty
        rw [htaken (hsome hempty)] at hthere
        have hself : (change.assignment env).apply (directory.view env) change.uuid =
            (change.assignment env).value := Assignment.apply_self
        rw [hself] at hthere
        exact hthere
    · rw [h.elsewhere uuid huuid]
      apply hcovers.covers
      have hsame : ∀ table', Replica.Follows (directory.view env) (change.assignment env) table' →
          table' uuid = directory.view env uuid := by
        intro table' hfollows
        rcases hfollows with rfl | rfl
        · rfl
        · exact Assignment.apply_of_ne huuid
      rw [hsame _ hfollows]
      rw [hsame _ hfollows'] at hthere
      exact hthere
  · by_cases huuid : uuid = change.uuid
    · subst huuid
      rcases h.there with hsame | hid
      · rw [hsame]
        exact hcovers.identified _
      · exact Or.inr hid
    · rw [h.elsewhere uuid huuid]
      exact hcovers.identified uuid
  · -- An acknowledged attempt has sent its event, or it had nothing to say.
    rw [view_apply]
    rcases h.told hack with hsent | ⟨hvalue, hquiet⟩
    · exact htaken (hsome hsent)
    · -- Nothing was known of the entry, and nothing is.
      apply hfollows'.of_agrees
      have hempty : table change.uuid = none := by
        rcases hquiet with hcreated | hcached
        · have habsent : directory.view env change.uuid = none := by
            cases change with
            | create new =>
              unfold Directory.view
              have hnone : directory new.uuid = none := hvalid
              show (directory new.uuid).bind _ = none
              rw [hnone]
              rfl
            | modify old new => cases hcreated
            | remove old => cases hcreated
          rcases hfollows with rfl | rfl
          · exact habsent
          · exact Assignment.apply_self.trans hvalue
        · by_contra hne
          exact hcovers.covers _ hne hcached
      by_cases hevents : eventsOf a.landed = []
      · rw [hnone hevents, replay_nil, hvalue]
        exact hempty
      · rw [htaken (hsome hevents)]
        exact Assignment.apply_self

end Cache

end Provisioning
