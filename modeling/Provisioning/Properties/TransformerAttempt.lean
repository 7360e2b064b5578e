import Provisioning.Model.Calls

/-!
# One attempt at a change of the directory

The transformer reads the old object of an entry from a cache, computes the new one, writes it to
the cache, sends the event and acknowledges the change. An attempt may be cut anywhere. This is
what can be said of it when it is over: **what it has sent goes back to what it found in the cache,
what it has written is the new object, and it has acknowledged the change only after that.**

## The code in two pieces

`handle_changes` reads the cache in one branch and not in the other, and the rest of it is the same.
`handleChanges_eq` separates the two: a look into the cache, if there is an old entry, and
`handleNew` with whatever was found. All the facts below are proved for the second piece, with the
old object as a variable, and then carried over the first.

## Facts about the calls, and then about the state

An attempt that was cut has no outcome, and what it leaves is the list of the calls that have
landed. So the facts come in two layers. `Uses` and `Guarded` say of the program what it calls and
in which order, whatever it is answered. `attempt_uses` and `attempt_guard_landed` make statements
about `landed` of them, and with what each call does to the cache these become statements about the
state that the next attempt starts from.
-/

namespace Provisioning

open Await Store Prog

/-- An attempt to transform a change. -/
abbrev Try : Type := Attempt Op Exc World Unit

/-- The change has been acknowledged. -/
def Acked (a : Try) : Bool := a.landed.any fun
  | .ack _ => true
  | _ => false

/-- The attempt has sent an event with this body. -/
def Sends (body : Body) (a : Try) : Prop :=
  ∃ m : Message, m.body = body ∧
    .publish DISPATCHER_STREAM (.message m) (streamKey DISPATCHER_STREAM) ∈ a.landed

/-- The attempt has written the cache. -/
def Stores (a : Try) : Prop := ∃ key value, .kvPut .cache key value ∈ a.landed

/-- The UDM object of the entry after the change, empty for a deletion. -/
def newObject (env : Env) (change : Body) : Except Exc (Option Obj) :=
  if change.new.truthy then ldapToUdm env change.new else .ok (some [])

/-- The old object that an event about the change is to carry. -/
def expectedOld (old : Obj) (change : Body) : Obj := if change.old = [] then [] else old

/-- The change is one of the entry with this UUID. An entry that is created has no old attributes
and one that is removed no new ones, so each side is only spoken of where it is there. -/
structure OfEntry (uuid : String) (change : Body) : Prop where
  old : change.old ≠ [] → firstValue change.old "entryUUID" = .ok uuid
  new : change.new ≠ [] → firstValue change.new "entryUUID" = .ok uuid

/-- The UUID of a UDM object is the one of its entry. -/
def ReturnsUuid (env : Env) : Prop :=
  ∀ entry obj uuid, ldapToUdm env entry = .ok (some obj) → obj ≠ [] →
    firstValue entry "entryUUID" = .ok uuid → obj.get "uuid" = some (.str uuid)

/-- What the cache holds for the entry. A key that is missing and an empty object come to the same,
as they do for `retrieve`. -/
def cached (w : World) (uuid : String) : Obj := ((w.bucket .cache).value? uuid).getD []

/-! ## What one attempt calls -/

/-! The two pieces are definitions of their own, and `transformEvent_new` and `transformEvent_old`
say that the source's function is made of them. -/

variable {env : Env} {uuid : String} {change : Body} {msg : Msg}

/-- The calls of an attempt once it has `old` in its hands. The body of the event is fixed by `old`
and the new object; its other fields are open. -/
inductive TransformCall (env : Env) (uuid : String) (change : Body) (old : Obj) (msg : Msg) :
    Op → Prop where
  | store (obj : Obj) (h : newObject env change = .ok (some obj)) (hne : obj ≠ []) :
      TransformCall env uuid change old msg (.kvPut .cache uuid obj)
  | send (m : Message) (new : Option Obj) (h : newObject env change = .ok new)
      (hbody : m.body = ⟨old, orEmpty new⟩) :
      TransformCall env uuid change old msg
        (.publish DISPATCHER_STREAM (.message m) (streamKey DISPATCHER_STREAM))
  | ack : TransformCall env uuid change old msg (.ack msg)
  | nak : TransformCall env uuid change old msg (.nak msg)

/-- `handle_changes` from where it has `old`. -/
def handleNew (env : Env) (change : Body) (old : Obj) : Coro Unit := do
  let new ← ofExcept (newObject env change)
  if (orEmpty new).truthy then store (orEmpty new)
  sendEvent env new old

/-- An attempt from where it has `old`. -/
def transformFrom (env : Env) (change : Body) (msg : Msg) (old : Obj) : Coro Unit :=
  (tryCatch (handleNew env change old) fun e => do
    request (.nak msg)
    MonadExcept.throw e).bind fun _ => request (.ack msg)

/-- **The cache is read first, or not at all.** -/
theorem handleChanges_eq (env : Env) (change : Body) :
    handleChanges env change.new change.old =
      if change.old.truthy then
        (ofExcept (firstValue change.old "entryUUID")).bind fun uuid =>
          (retrieve uuid).bind (handleNew env change)
      else handleNew env change [] := by
  -- The part after the first read is `handleNew`, whether there is a new entry or not.
  have hnew : ∀ old, (do
      let new ← if change.new.truthy then do
          let new ← ofExcept (ldapToUdm env change.new)
          if (orEmpty new).truthy then store (orEmpty new)
          Pure.pure new
        else Pure.pure (some [])
      sendEvent env new old : Coro Unit) = handleNew env change old := by
    intro old
    unfold handleNew newObject
    cases change.new.truthy with
    | false => rfl
    | true =>
      simp only [if_true, bind_eq]
      refine congrArg (Prog.bind _) (funext fun new => ?_)
      cases (orEmpty new).truthy with
      | false => rfl
      | true => rfl
  unfold handleChanges
  cases change.old.truthy with
  | false => exact hnew []
  | true =>
    simp only [if_true, bind_eq]
    refine congrArg (Prog.bind _) (funext fun uuid => ?_)
    refine congrArg (Prog.bind _) (funext fun old => ?_)
    exact hnew old

variable {m : Message}

/-- An attempt at a change without an old entry. -/
theorem transformEvent_new (hmsg : msg.payload = .message m) (hold : m.body.old = []) :
    transformEvent env msg = transformFrom env m.body msg [] := by
  unfold transformEvent handleChange transformFrom
  rw [hmsg]
  dsimp only
  rw [handleChanges_eq, hold]
  rfl

/-- An attempt at a change with an old entry begins with a look into the cache. -/
theorem transformEvent_old (hmsg : msg.payload = .message m) (hold : m.body.old ≠ [])
    (huuid : firstValue m.body.old "entryUUID" = .ok uuid) :
    transformEvent env msg = .await (.kvGet .cache uuid) fun
      | .ok e => transformFrom env m.body msg e.value
      | .error x =>
        if x = .keyNotFound then transformFrom env m.body msg []
        else (request (.nak msg)).bind fun _ => .throw (.call x) := by
  have hread : handleChanges env m.body.new m.body.old =
      (getValue uuid .cache).bind fun v => handleNew env m.body (v.getD []) := by
    rw [handleChanges_eq, if_pos (Obj.truthy_eq_true.mpr hold), huuid]
    unfold retrieve
    simp only [bind_eq, pure_eq, ofExcept, bind_pure, bind_assoc]
  unfold transformEvent handleChange transformFrom
  rw [hmsg]
  dsimp only
  rw [hread, getValue_bind]
  refine congrArg (Prog.await (Op.kvGet .cache uuid)) (funext fun r => ?_)
  cases r with
  | ok e => rfl
  | error x =>
    by_cases hx : x = .keyNotFound
    · simp only [hx, if_true]
      rfl
    · simp only [hx, if_false]
      show ((request (.nak msg)).bind fun _ => Prog.throw (Exc.call x)).bind
        (fun _ => request (.ack msg)) = _
      rw [bind_assoc]
      rfl

/-- With a new object: write it, then send. -/
theorem handleNew_store {old obj : Obj} (hnew : newObject env change = .ok (some obj))
    (hne : obj ≠ []) (huuid : obj.get "uuid" = some (.str uuid)) :
    handleNew env change old = (request (.kvPut .cache uuid obj)).bind fun _ =>
      sendEvent env (some obj) old := by
  have htruthy : (orEmpty (some obj)).truthy = true := Obj.truthy_eq_true.mpr hne
  have hstore : store (orEmpty (some obj)) = request (.kvPut .cache uuid obj) := by
    have hget : (orEmpty (some obj)).get "uuid" = some (.str uuid) := huuid
    unfold store
    rw [hget]
    rfl
  unfold handleNew
  rw [hnew]
  simp only [ofExcept, pure_eq, bind_eq, bind_pure]
  rw [if_pos htruthy, hstore]

/-- What follows the reading makes only these calls. -/
theorem uses_handleNew {old : Obj}
    (huuid : ∀ obj, newObject env change = .ok (some obj) → obj ≠ [] →
      obj.get "uuid" = some (.str uuid)) :
    (handleNew env change old).Uses (TransformCall env uuid change old msg) := by
  cases hnew : newObject env change with
  | error e =>
    unfold handleNew
    rw [hnew]
    trivial
  | ok new =>
    have hsend : (sendEvent env new old).Uses (TransformCall env uuid change old msg) :=
      uses_sendEvent fun m hbody => .send m new hnew hbody
    by_cases hobj : ∃ obj, new = some obj ∧ obj ≠ []
    · obtain ⟨obj, rfl, hne⟩ := hobj
      rw [handleNew_store hnew hne (huuid obj hnew hne)]
      exact Uses.bind (uses_request (.store obj hnew hne)) fun _ => hsend
    · have hempty : (orEmpty new).truthy = false := by
        cases new with
        | none => rfl
        | some obj =>
          have hnil : obj = [] := by
            by_contra hne
            exact hobj ⟨obj, rfl, hne⟩
          rw [hnil]
          rfl
      unfold handleNew
      rw [hnew]
      simp only [ofExcept, pure_eq, bind_eq, bind_pure, hempty]
      exact hsend

/-- So does the attempt, with its acknowledgement. -/
theorem uses_transformFrom {old : Obj}
    (huuid : ∀ obj, newObject env change = .ok (some obj) → obj ≠ [] →
      obj.get "uuid" = some (.str uuid)) :
    (transformFrom env change msg old).Uses (TransformCall env uuid change old msg) := by
  refine Uses.bind (Uses.tryCatch (uses_handleNew huuid) fun e => ?_) fun _ => uses_request .ack
  exact Uses.bind (uses_request .nak) fun _ => trivial

/-- What goes for the UUID of the entry goes for that of its object. -/
theorem uuid_newObject (henv : ReturnsUuid env) (hentry : OfEntry uuid change) {obj : Obj}
    (h : newObject env change = .ok (some obj)) (hne : obj ≠ []) :
    obj.get "uuid" = some (.str uuid) := by
  unfold newObject at h
  split at h
  · next hnew => exact henv _ _ _ h hne (hentry.new (Obj.truthy_eq_true.mp hnew))
  · exact absurd (Option.some.inj (Except.ok.inj h)).symm hne

/-- The calls of an attempt: the look into the cache, and what follows on it. -/
inductive AttemptCall (env : Env) (uuid : String) (change : Body) (msg : Msg) : Op → Prop where
  | read : AttemptCall env uuid change msg (.kvGet .cache uuid)
  | call {op : Op} (old : Obj) (h : TransformCall env uuid change old msg op) :
      AttemptCall env uuid change msg op

/-- And the whole attempt, with the look into the cache at its front. -/
theorem uses_transformEvent (henv : ReturnsUuid env) (hmsg : msg.payload = .message m)
    (hentry : OfEntry uuid m.body) :
    (transformEvent env msg).Uses (AttemptCall env uuid m.body msg) := by
  have hfrom : ∀ old, (transformFrom env m.body msg old).Uses (AttemptCall env uuid m.body msg) :=
    fun old => (uses_transformFrom fun obj h hne => uuid_newObject henv hentry h hne).mono
      fun op hop => .call old hop
  by_cases hold : m.body.old = []
  · rw [transformEvent_new hmsg hold]
    exact hfrom []
  · rw [transformEvent_old hmsg hold (hentry.old hold)]
    refine ⟨.read, fun r => ?_⟩
    cases r with
    | ok e => exact hfrom e.value
    | error x =>
      dsimp only
      split
      · exact hfrom []
      · exact Uses.bind (uses_request (.call [] .nak)) fun _ => trivial

/-- **A change is acknowledged only after its object was written**, if there is one. -/
theorem guarded_transformFrom {old obj : Obj} (hnew : newObject env change = .ok (some obj))
    (hne : obj ≠ []) (huuid : obj.get "uuid" = some (.str uuid)) :
    (transformFrom env change msg old).Guarded
      (fun op r => op = .kvPut .cache uuid obj ∧ ∃ a, r = .ok a) (· = .ack msg)
      fun _ => False := by
  have hstore : (handleNew env change old).Guarded
      (fun op r => op = .kvPut .cache uuid obj ∧ ∃ a, r = .ok a) (· = .ack msg)
      fun x => ∃ a, x = .ok a := by
    rw [handleNew_store hnew hne huuid]
    exact guarded_request_bind.mpr ⟨nofun, fun a ha => absurd ⟨rfl, a, rfl⟩ ha, fun _ _ => nofun⟩
  have hhandle : (tryCatch (handleNew env change old) fun e => do
      request (.nak msg)
      MonadExcept.throw e : Coro Unit).Guarded
      (fun op r => op = .kvPut .cache uuid obj ∧ ∃ a, r = .ok a) (· = .ack msg)
      fun x => ∃ a, x = .ok a := by
    apply Guarded.tryCatch hstore (fun _ => id)
    intro e _
    exact guarded_request_bind.mpr ⟨nofun, fun _ _ => nofun, fun _ _ => nofun⟩
  exact Guarded.bind hhandle (fun a ha => absurd ⟨a, rfl⟩ ha) fun _ _ => id

/-- A change whose transformation fails is refused. -/
theorem uses_transformFrom_error {old : Obj} {e : Exc} (hnew : newObject env change = .error e) :
    (transformFrom env change msg old).Uses (· = .nak msg) := by
  have hthrow : handleNew env change old = .throw e := by
    unfold handleNew
    rw [hnew]
    rfl
  unfold transformFrom
  rw [hthrow]
  show (((request (.nak msg)).bind fun _ => Prog.throw e).bind fun _ => request (.ack msg)).Uses _
  rw [bind_assoc]
  exact Uses.bind (uses_request rfl) fun _ => trivial

/-- The same with the look into the cache at its front. -/
theorem guarded_transformEvent (hmsg : msg.payload = .message m) (hentry : OfEntry uuid m.body)
    {obj : Obj} (hnew : newObject env m.body = .ok (some obj)) (hne : obj ≠ [])
    (huuid : obj.get "uuid" = some (.str uuid)) :
    (transformEvent env msg).Guarded
      (fun op r => op = .kvPut .cache uuid obj ∧ ∃ a, r = .ok a) (· = .ack msg)
      fun _ => False := by
  by_cases hold : m.body.old = []
  · rw [transformEvent_new hmsg hold]
    exact guarded_transformFrom hnew hne huuid
  · rw [transformEvent_old hmsg hold (hentry.old hold)]
    refine ⟨nofun, fun r _ => ?_⟩
    cases r with
    | ok e => exact guarded_transformFrom hnew hne huuid
    | error x =>
      dsimp only
      split
      · exact guarded_transformFrom hnew hne huuid
      · exact guarded_request_bind.mpr ⟨nofun, fun _ _ => id, fun _ _ => id⟩

/-- A change whose transformation fails is looked up and refused, nothing more. -/
theorem uses_transformEvent_error (hmsg : msg.payload = .message m)
    (hentry : OfEntry uuid m.body) {e : Exc} (hnew : newObject env m.body = .error e) :
    (transformEvent env msg).Uses fun op => op = .kvGet .cache uuid ∨ op = .nak msg := by
  have hfrom : ∀ old, (transformFrom env m.body msg old).Uses
      fun op => op = .kvGet .cache uuid ∨ op = .nak msg :=
    fun old => (uses_transformFrom_error hnew).mono fun op hop => Or.inr hop
  by_cases hold : m.body.old = []
  · rw [transformEvent_new hmsg hold]
    exact hfrom []
  · rw [transformEvent_old hmsg hold (hentry.old hold)]
    refine ⟨Or.inl rfl, fun r => ?_⟩
    cases r with
    | ok e => exact hfrom e.value
    | error x =>
      dsimp only
      split
      · exact hfrom []
      · exact Uses.bind (uses_request (Or.inr rfl)) fun _ => trivial

/-! ## What one attempt leaves -/

/-! Each of the theorems splits in the same way. Without an old entry the attempt is the second
piece itself. With one, its first call decides: the process dies, the value is read, or the call is
lost, before it was served or after it. -/

/-- A look into the cache sends nothing. -/
theorem sends_of_after {a : Try} {key : String} {r : Except CallError (Op.kvGet .cache key).Res}
    {body : Body} (h : Sends body (a.after (.kvGet .cache key) r)) : Sends body a := by
  cases r with
  | error e => exact h
  | ok e =>
    obtain ⟨m, hbody, hsend⟩ := h
    refine ⟨m, hbody, ?_⟩
    rcases List.mem_cons.mp hsend with heq | hmem
    · cases heq
    · exact hmem

section Attempt

variable (henv : ReturnsUuid env) (hmsg : msg.payload = .message m) (hentry : OfEntry uuid m.body)
  (plan : List (Fault Outage)) (w : World)

include henv hmsg hentry

/-- An attempt sends the new object and, as the old one, what it has found in the cache. -/
theorem attempt_sends {body : Body}
    (h : Sends body ((transformEvent env msg).attempt (serve env) 0 plan w)) :
    ∃ new, newObject env m.body = .ok new ∧
      body = ⟨expectedOld (cached w uuid) m.body, orEmpty new⟩ := by
  have hfrom : ∀ {old : Obj} {fs : List (Fault Outage)} {w' : World} {body : Body},
      Sends body ((transformFrom env m.body msg old).attempt (serve env) 0 fs w') →
      ∃ new, newObject env m.body = .ok new ∧ body = ⟨old, orEmpty new⟩ := by
    intro old fs w' body ⟨m', hbody, hsend⟩
    have huses : (transformFrom env m.body msg old).Uses (TransformCall env uuid m.body old msg) :=
      uses_transformFrom fun obj h hne => uuid_newObject henv hentry h hne
    have hcall := attempt_uses (S := serve env) 0 huses fs w' _ hsend
    cases hcall with
    | send _ new hnew hm => exact ⟨new, hnew, hbody.symm.trans hm⟩
  by_cases hold : m.body.old = []
  · rw [transformEvent_new hmsg hold] at h
    unfold expectedOld
    rw [if_pos hold]
    exact hfrom h
  · unfold expectedOld
    rw [if_neg hold]
    rw [transformEvent_old hmsg hold (hentry.old hold)] at h
    -- An attempt that could not read refuses the change.
    have hnak : ∀ {x : CallError} {fs : List (Fault Outage)} {w' : World} {body : Body},
        ¬ Sends body (((request (.nak msg)).bind fun _ => Prog.throw (Exc.call x) :
          Coro Unit).attempt (serve env) 0 fs w') := by
      intro x fs w' body ⟨m', _, hsend⟩
      have huses : ((request (.nak msg)).bind fun _ => Prog.throw (Exc.call x) : Coro Unit).Uses
          (· = .nak msg) := Uses.bind (uses_request rfl) fun _ => trivial
      exact absurd (attempt_uses (S := serve env) 0 huses fs w' _ hsend) nofun
    revert h
    refine attempt_await (P := fun a => Sends body a → ∃ new, newObject env m.body = .ok new ∧
      body = ⟨cached w uuid, orEmpty new⟩) plan ?_ (fun fs => ?_) (fun e fs => ?_) fun e fs => ?_
    · intro ⟨_, _, hsend⟩
      cases hsend
    · intro h
      have hsend := sends_of_after h
      rw [serve_answer] at hsend
      unfold cached Store.Bucket.value?
      cases hget : (w.bucket .cache).get? uuid with
      | some e =>
        simp only [answer, hget] at hsend
        exact hfrom hsend
      | none =>
        simp only [answer, hget, if_true] at hsend
        exact hfrom hsend
    · intro h
      cases e <;> exact absurd h hnak
    · intro h
      cases e <;> exact absurd (sends_of_after h) hnak

/-- What an attempt writes is the new object, and then that is what the cache holds. -/
theorem attempt_stores (h : Stores ((transformEvent env msg).attempt (serve env) 0 plan w)) :
    ∃ obj, newObject env m.body = .ok (some obj) ∧ obj ≠ [] ∧
      cached ((transformEvent env msg).attempt (serve env) 0 plan w).world uuid = obj := by
  have huses := uses_transformEvent henv hmsg hentry
  obtain ⟨key, obj, hput⟩ := h
  have hcall := attempt_uses (S := serve env) 0 huses plan w _ hput
  cases hcall with
  | call old hcall =>
    cases hcall with
    | store _ hnew hne =>
      refine ⟨obj, hnew, hne, ?_⟩
      have hfact := (attempt_fact (S := serve env) 0
        (fun w => (w.bucket .cache).value? uuid = some obj) (· = .kvPut .cache uuid obj) huses
        (fun op w hop => ?_) plan w).mpr (Or.inr ⟨_, hput, rfl⟩)
      · unfold cached
        rw [hfact]
        rfl
      · rw [serve_answer]
        rcases value_answer env 0 op w .cache uuid with hsame | ⟨v, rfl, hval⟩ | ⟨rfl, -⟩
        · rw [hsame]
          refine ⟨Or.inl, fun h => ?_⟩
          rcases h with h | ⟨rfl, -⟩
          · exact h
          · rw [← hsame]
            exact Bucket.value?_put_self ..
        · -- There is only one object to write.
          have hv : v = obj := by
            cases hop with
            | call old hop =>
              cases hop with
              | store _ hnew' _ =>
                rw [hnew] at hnew'
                exact (Option.some.inj (Except.ok.inj hnew')).symm
          rw [hval, hv]
          exact ⟨fun _ => Or.inr ⟨rfl, (), rfl⟩, fun _ => rfl⟩
        · cases hop with
          | call old hop => cases hop

/-- An attempt that does not write leaves the cache as it was. -/
theorem attempt_not_stores
    (h : ¬ Stores ((transformEvent env msg).attempt (serve env) 0 plan w)) :
    cached ((transformEvent env msg).attempt (serve env) 0 plan w).world uuid = cached w uuid := by
  have hkeep := attempt_unless (S := serve env) 0
    (fun w' => (w'.bucket .cache).value? uuid = (w.bucket .cache).value? uuid)
    (fun op => ∃ key value, op = .kvPut .cache key value) (uses_transformEvent henv hmsg hentry)
    (fun op w' hop hsame => ?_) plan (w := w) rfl
  · rcases hkeep with hkeep | ⟨op, hmem, key, value, rfl⟩
    · unfold cached
      rw [hkeep]
    · exact absurd ⟨key, value, hmem⟩ h
  · rw [serve_answer]
    rcases value_answer env 0 op w' .cache uuid with hkeep | ⟨v, rfl, -⟩ | ⟨rfl, -⟩
    · exact Or.inl (hkeep.trans hsame)
    · exact Or.inr ⟨⟨uuid, v, rfl⟩, (), rfl⟩
    · cases hop with
      | call old hop => cases hop

/-- A change is acknowledged only once it is transformed, and its object written. -/
theorem attempt_acked
    (h : Acked ((transformEvent env msg).attempt (serve env) 0 plan w) = true) :
    ∃ new, newObject env m.body = .ok new ∧ ((orEmpty new).truthy = true →
      Stores ((transformEvent env msg).attempt (serve env) 0 plan w)) := by
  obtain ⟨op, hmem, hack⟩ := List.any_eq_true.mp h
  cases hnew : newObject env m.body with
  -- The new object cannot be computed: the change is refused and nothing is acknowledged.
  | error e =>
    have huses := uses_transformEvent_error hmsg hentry hnew
    rcases attempt_uses (S := serve env) 0 huses plan w op hmem with rfl | rfl
    · cases hack
    · cases hack
  | ok new =>
    refine ⟨new, rfl, fun htruthy => ?_⟩
    have hack : op = .ack msg := by
      have huses := uses_transformEvent henv hmsg hentry
      have hcall := attempt_uses (S := serve env) 0 huses plan w op hmem
      cases hcall with
      | read => cases hack
      | call old hcall =>
        cases hcall with
        | ack => rfl
        | _ => cases hack
    cases new with
    | none => cases htruthy
    | some obj =>
      have hne : obj ≠ [] := Obj.truthy_eq_true.mp htruthy
      obtain ⟨op', hput, rfl⟩ := attempt_guard_landed (S := serve env) 0
        (· = .kvPut .cache uuid obj)
        (guarded_transformEvent hmsg hentry hnew hne (uuid_newObject henv hentry hnew hne)) plan w
        hmem hack
      exact ⟨uuid, obj, hput⟩

end Attempt

end Provisioning
