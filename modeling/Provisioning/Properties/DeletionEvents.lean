import Provisioning.Properties.TransformerRetry

/-!
# Which events say that an object is gone

A consumer is told that an object is gone by an event whose new object is empty. That emptiness has
three sources: the entry was deleted, its object could not be computed and `{}` stands in for it, or
the transformation failed and was only logged, and then it is the validator of the body that makes
`{}` of `None`. Nothing on the way to the event tells them apart.

`deletion_told_iff` says for which changes, and over which caches, only the first comes through.

## The condition

Whether an event goes out at all is decided by an object type, which is looked up in the new object
if there is one and in the old one otherwise. So a deletion is told if what the cache holds has a
type; and a change that leaves the entry there is told to be a deletion if it has no representation
and what the cache holds has a type. `Tellable` is the first of these and the negation of the
second. It speaks of the change, of the UDM libraries and of the cache, not of what is sent.

## One attempt at a time

What is sent depends on the cache and not on the calls that get lost, as long as the attempt
returns. So the attempt is followed once, and `sends_handleChanges` states what it has sent; the
rest is about the two objects.
-/

namespace Provisioning

open Await Store Prog

/-- The representation that the cache holds for the entry a change is about. -/
def cachedRepresentation (w : World) (change : Body) : Option Obj :=
  match firstValue change.old "entryUUID" with
  | .ok uuid => (w.bucket .cache).value? uuid
  | .error _ => none

/-- An event says that the object is gone exactly when the entry was deleted and was known, and it
carries what was known. -/
def DeletionTold (change : Body) (w : World) (a : Try) : Prop :=
  ((∃ body, Sends body a ∧ body.new = []) ↔
    change.new = [] ∧ (cachedRepresentation w change).isSome = true) ∧
  ∀ body, Sends body a → body.new = [] → cachedRepresentation w change = some body.old

/-- Of a deleted entry, what is known has an object type; and an entry that is still there has a
representation, or nothing with an object type is known of it. -/
structure Tellable (env : Env) (change : Body) (w : World) : Prop where
  deleted : change.new = [] → ∀ obj, cachedRepresentation w change = some obj →
    missing (obj.get "objectType") = false
  present : change.new ≠ [] → (∃ obj, ldapToUdm env change.new = .ok (some obj) ∧ obj ≠ []) ∨
    ∀ obj, cachedRepresentation w change = some obj → missing (obj.get "objectType") = true

variable {env : Env} {tid : Nat} {change : Body} {w : World} {plan : List (Fault Outage)}

/-! ## The event -/

/-! The event is one request to the own API, which publishes it. -/

theorem internalRequest_createNewMessage (m : Message) :
    internalRequest (createNewMessage m) =
      .await (.publish DISPATCHER_STREAM (.message m) (streamKey DISPATCHER_STREAM)) fun
        | .ok _ => .pure ()
        | .error _ => .throw (.clientResponse 500) := by
  refine congrArg (Prog.await (Op.publish ..)) (funext fun r => ?_)
  cases r with
  | ok seq => rfl
  | error e => rfl

/-- An event that went out without an error was published, and nothing else was done. -/
theorem attempt_createNewMessage {m : Message}
    (h : ((internalRequest (createNewMessage m)).attempt (serve env) tid plan w).outcome =
      some (.ok ())) :
    ((internalRequest (createNewMessage m)).attempt (serve env) tid plan w).landed =
      [.publish DISPATCHER_STREAM (.message m) (streamKey DISPATCHER_STREAM)] := by
  rw [internalRequest_createNewMessage] at h ⊢
  obtain ⟨seq, fs, -, -, hlanded⟩ := attempt_await_ok h fun e => ⟨_, rfl⟩
  rw [hlanded, attempt_pure]

/-- The object type an event is sent under. -/
def eventObjectType (new : Option Obj) (old : Obj) : Option Value :=
  if (orEmpty new).truthy then (orEmpty new).get "objectType" else old.get "objectType"

/-- An attempt that has landed nothing has sent nothing. -/
theorem sends_nothing {body : Body} {o : Option (Except Exc Unit)} :
    ¬ Sends body (⟨o, w, []⟩ : Try) := by
  intro ⟨m, _, hm⟩
  cases hm

/-- The one call of an attempt is an event. -/
theorem sends_single {m : Message} {body : Body} {a : Try}
    (h : a.landed = [.publish DISPATCHER_STREAM (.message m) (streamKey DISPATCHER_STREAM)]) :
    Sends body a ↔ body = m.body := by
  unfold Sends
  rw [h]
  constructor
  · intro ⟨m', hbody, hm⟩
    cases List.mem_singleton.mp hm
    exact hbody.symm
  · intro hbody
    exact ⟨m, hbody.symm, List.mem_singleton.mpr rfl⟩

/-- Nothing is known of the empty object. -/
theorem eventObjectType_quiet {new : Option Obj} {old : Obj}
    (h : (!((orEmpty new).truthy || old.truthy)) = true) :
    missing (eventObjectType new old) = true := by
  have hempty : (orEmpty new).truthy = false ∧ old = [] := by
    cases old with
    | nil => simpa using h
    | cons kv old => simp at h
  unfold eventObjectType
  rw [hempty.1, hempty.2]
  rfl

/-- Without an object type nothing is sent; for the log message, `None` has no `get`. -/
theorem sendEvent_untyped {new : Option Obj} {old : Obj}
    (h : missing (eventObjectType new old) = true) :
    sendEvent env new old = .pure () ∨ sendEvent env new old = .throw .attributeError := by
  unfold sendEvent
  by_cases hquiet : (!((orEmpty new).truthy || old.truthy)) = true
  · rw [if_pos hquiet]
    exact Or.inl rfl
  · rw [if_neg hquiet]
    show (if missing (eventObjectType new old) then _ else _ : Coro Unit) = _ ∨
      (if missing (eventObjectType new old) then _ else _ : Coro Unit) = _
    rw [if_pos h]
    cases new with
    | none => exact Or.inr rfl
    | some obj => exact Or.inl rfl

/-- With one there is, if the type is a string. -/
theorem sendEvent_typed {new : Option Obj} {old : Obj} {value : Value}
    (h : missing (eventObjectType new old) = false)
    (htype : eventObjectType new old = some value) :
    (∃ topic, value = .str topic ∧ sendEvent env new old = internalRequest (createNewMessage
      ⟨env.ldapPublisherName, "udm", topic, ⟨old, orEmpty new⟩⟩)) ∨
    sendEvent env new old = .throw .validationError := by
  have hquiet : ¬ (!((orEmpty new).truthy || old.truthy)) = true := by
    intro hquiet
    rw [eventObjectType_quiet hquiet] at h
    cases h
  unfold sendEvent
  rw [if_neg hquiet]
  show (∃ topic, _ ∧ (if missing (eventObjectType new old) then _ else _ : Coro Unit) = _) ∨
    (if missing (eventObjectType new old) then _ else _ : Coro Unit) = _
  rw [if_neg (Bool.eq_false_iff.mp h)]
  unfold eventObjectType at htype
  rw [htype]
  cases value with
  | str topic => exact Or.inl ⟨topic, rfl, rfl⟩
  | bytes xs => exact Or.inr rfl
  | other json => exact Or.inr rfl

/-- **The event that is sent** carries the two objects, and there is one unless the object type is
missing. -/
theorem sends_sendEvent {new : Option Obj} {old : Obj}
    (h : ((sendEvent env new old).attempt (serve env) tid plan w).outcome = some (.ok ()))
    (body : Body) : Sends body ((sendEvent env new old).attempt (serve env) tid plan w) ↔
      body = ⟨old, orEmpty new⟩ ∧ missing (eventObjectType new old) = false := by
  cases hmissing : missing (eventObjectType new old) with
  | true =>
    apply iff_of_false _ fun hbody => nomatch hbody.2
    rcases sendEvent_untyped hmissing with hsend | hsend
    · rw [hsend, attempt_pure]
      exact sends_nothing
    · rw [hsend, attempt_throw]
      exact sends_nothing
  | false =>
    rw [and_iff_left rfl]
    cases htype : eventObjectType new old with
    | none =>
      rw [htype] at hmissing
      cases hmissing
    | some value =>
      rcases sendEvent_typed hmissing htype with ⟨topic, -, hsend⟩ | hsend
      · rw [hsend] at h ⊢
        exact sends_single (attempt_createNewMessage h)
      · rw [hsend, attempt_throw] at h
        cases h

/-! ## The change -/

/-! The calls before the event go to the cache. -/

/-- Storing an object writes to the cache. -/
theorem uses_store_put (obj : Obj) :
    (store obj).Uses fun op => ∃ key value, op = .kvPut .cache key value := by
  unfold store
  split
  · next uuid _ => exact uses_putValue ⟨uuid, obj, rfl⟩ nofun
  · trivial

/-- Calls that publish nothing send no event of their own. -/
theorem sends_append {body : Body} {a b : Try} {l : List Op} (h : a.landed = l ++ b.landed)
    (hl : ∀ op ∈ l, ∀ subject payload stream, op ≠ .publish subject payload stream) :
    Sends body a ↔ Sends body b := by
  unfold Sends
  rw [h]
  apply exists_congr
  intro m
  apply and_congr_right
  intro _
  rw [List.mem_append]
  apply or_iff_right
  intro hm
  exact hl _ hm _ _ _ rfl

/-- What `handle_changes` sends, from where it has the old object. -/
theorem sends_handleNew {old : Obj}
    (h : ((handleNew env change old).attempt (serve env) tid plan w).outcome = some (.ok ())) :
    ∃ new, newObject env change = .ok new ∧ ∀ body,
      Sends body ((handleNew env change old).attempt (serve env) tid plan w) ↔
        body = ⟨old, orEmpty new⟩ ∧ missing (eventObjectType new old) = false := by
  revert h
  unfold handleNew
  cases hnew : newObject env change with
  | error e =>
    intro h
    rw [ofExcept, throw_eq, bind_eq, bind_throw, attempt_throw] at h
    cases h
  | ok new =>
    intro h
    refine ⟨new, rfl, ?_⟩
    intro body
    rw [ofExcept, pure_eq, bind_eq, bind_pure] at h ⊢
    by_cases htruthy : (orEmpty new).truthy = true
    · rw [if_pos htruthy, bind_eq] at h ⊢
      obtain ⟨_, rest, w', l, hstore, hsend, hlanded⟩ := attempt_bind_ok h
      rw [sends_append hlanded, sends_sendEvent hsend]
      intro op hop subject payload stream
      have huses := attempt_uses (S := serve env) tid (uses_store_put (orEmpty new)) plan w op
      rw [hstore] at huses
      obtain ⟨key, value, rfl⟩ := huses hop
      intro heq
      cases heq
    · rw [if_neg htruthy] at h ⊢
      exact sends_sendEvent h body

/-- A look into the cache that returns has found what is there. -/
theorem attempt_retrieve {uuid : String} {old : Obj} {w' : World} {l : List Op}
    (h : (retrieve uuid).attempt (serve env) tid plan w = ⟨some (.ok old), w', l⟩) :
    old = ((w.bucket .cache).value? uuid).getD [] := by
  change ((getValue uuid .cache).bind fun v => Prog.pure (v.getD [])).attempt .. = _ at h
  rw [getValue_bind] at h
  revert h
  apply attempt_await (P := fun a => a = ⟨some (.ok old), w', l⟩ → old = _) plan
  · intro h
    cases h
  · -- The answer arrives: a key that is not there reads as an empty object.
    intro fs h
    have hout := congrArg Attempt.outcome h
    rw [Attempt.after_outcome] at hout
    unfold Store.Bucket.value?
    cases hget : (w.bucket .cache).get? uuid with
    | none =>
      simp only [serve_answer, answer, hget, if_true, attempt_pure] at hout
      cases hout
      rfl
    | some e =>
      simp only [serve_answer, answer, hget, attempt_pure] at hout
      cases hout
      rfl
  · intro e fs h
    cases e with
    | timeout => cases h
    | connection => cases h
  · intro e fs h
    have hout := congrArg Attempt.outcome h
    rw [Attempt.after_outcome] at hout
    cases e with
    | timeout => cases hout
    | connection => cases hout

/-- What is read for the old object of a change. -/
theorem getD_cachedRepresentation {uuid : String}
    (h : firstValue change.old "entryUUID" = .ok uuid) :
    ((w.bucket .cache).value? uuid).getD [] = (cachedRepresentation w change).getD [] := by
  unfold cachedRepresentation
  rw [h]

/-- **What `handle_changes` sends**: the representation the cache holds, with what has become of the
entry. -/
theorem sends_handleChanges
    (h : ((handleChanges env change.new change.old).attempt (serve env) tid plan w).outcome =
      some (.ok ())) :
    ∃ new, newObject env change = .ok new ∧ ∀ body,
      Sends body ((handleChanges env change.new change.old).attempt (serve env) tid plan w) ↔
        body = ⟨(cachedRepresentation w change).getD [], orEmpty new⟩ ∧
          missing (eventObjectType new ((cachedRepresentation w change).getD [])) = false := by
  rw [handleChanges_eq] at h ⊢
  by_cases hold : change.old.truthy = true
  · rw [if_pos hold] at h ⊢
    cases huuid : firstValue change.old "entryUUID" with
    | error e =>
      rw [huuid, ofExcept, throw_eq, bind_throw, attempt_throw] at h
      cases h
    | ok uuid =>
      rw [huuid, ofExcept, pure_eq, bind_pure] at h
      rw [ofExcept, pure_eq, bind_pure]
      obtain ⟨old, rest, w', l, hread, hnew, hlanded⟩ := attempt_bind_ok h
      have hold := (attempt_retrieve hread).trans (getD_cachedRepresentation huuid)
      obtain ⟨new, hobj, hsends⟩ := sends_handleNew hnew
      refine ⟨new, hobj, ?_⟩
      intro body
      rw [sends_append hlanded, hsends, hold]
      intro op hop subject payload stream
      have huses : (retrieve uuid).Uses (· = .kvGet .cache uuid) :=
        Uses.bind (uses_getValue rfl) fun _ => trivial
      have hcalls := attempt_uses (S := serve env) tid huses plan w op
      rw [hread] at hcalls
      rw [hcalls hop]
      intro heq
      cases heq
  · -- Without an old entry there is nothing to look for.
    rw [if_neg hold] at h ⊢
    have hnone : cachedRepresentation w change = none := by
      unfold cachedRepresentation
      cases hentry : change.old with
      | nil => rfl
      | cons kv rest =>
        rw [hentry] at hold
        exact absurd rfl hold
    rw [hnone]
    exact sends_handleNew h

/-! ## What the event says -/

/-! From here on there are only the two objects and their types. -/

/-- The old object of an event that says that the object is gone has a type, so it was known. -/
theorem cached_of_typed
    (h : missing (((cachedRepresentation w change).getD []).get "objectType") = false) :
    ∃ obj, cachedRepresentation w change = some obj ∧ missing (obj.get "objectType") = false := by
  cases hcached : cachedRepresentation w change with
  | none =>
    rw [hcached] at h
    cases h
  | some obj =>
    rw [hcached] at h
    exact ⟨obj, rfl, h⟩

theorem typed_of_cached {obj : Obj} (h : cachedRepresentation w change = some obj) :
    missing (((cachedRepresentation w change).getD []).get "objectType") =
      missing (obj.get "objectType") := by
  rw [h]
  rfl

/-- When an event that says so is sent. -/
theorem gone_iff {a : Try} {new : Option Obj} {old : Obj}
    (h : ∀ body, Sends body a ↔
      body = ⟨old, orEmpty new⟩ ∧ missing (eventObjectType new old) = false) :
    (∃ body, Sends body a ∧ body.new = []) ↔
      orEmpty new = [] ∧ missing (old.get "objectType") = false := by
  have htype : orEmpty new = [] → eventObjectType new old = old.get "objectType" := by
    intro hempty
    unfold eventObjectType
    rw [hempty]
    rfl
  constructor
  · intro ⟨body, hsend, hempty⟩
    obtain ⟨rfl, htyped⟩ := (h body).mp hsend
    rw [htype hempty] at htyped
    exact ⟨hempty, htyped⟩
  · intro ⟨hempty, htyped⟩
    rw [← htype hempty] at htyped
    exact ⟨_, (h _).mpr ⟨rfl, htyped⟩, hempty⟩

/-- A deleted entry is told if what is known of it has a type. -/
theorem told_deleted_iff {a : Try} (hdeleted : change.new = [])
    (h : (∃ body, Sends body a ∧ body.new = []) ↔
      missing (((cachedRepresentation w change).getD []).get "objectType") = false) :
    ((∃ body, Sends body a ∧ body.new = []) ↔
        change.new = [] ∧ (cachedRepresentation w change).isSome = true) ↔
      ∀ obj, cachedRepresentation w change = some obj →
        missing (obj.get "objectType") = false := by
  rw [h]
  constructor
  · intro hiff obj hobj
    rw [← typed_of_cached hobj]
    exact hiff.mpr ⟨hdeleted, by rw [hobj]; rfl⟩
  · intro htyped
    constructor
    · intro hmissing
      obtain ⟨obj, hobj, -⟩ := cached_of_typed hmissing
      exact ⟨hdeleted, by rw [hobj]; rfl⟩
    · intro ⟨_, hsome⟩
      obtain ⟨obj, hobj⟩ := Option.isSome_iff_exists.mp hsome
      rw [typed_of_cached hobj]
      exact htyped obj hobj

/-- An entry that is there is not told if it has a representation, or nothing is known of it. -/
theorem told_present_iff {a : Try} {new : Option Obj} (hpresent : change.new ≠ [])
    (hnew : ldapToUdm env change.new = .ok new)
    (h : (∃ body, Sends body a ∧ body.new = []) ↔ orEmpty new = [] ∧
      missing (((cachedRepresentation w change).getD []).get "objectType") = false) :
    ((∃ body, Sends body a ∧ body.new = []) ↔
        change.new = [] ∧ (cachedRepresentation w change).isSome = true) ↔
      (∃ obj, ldapToUdm env change.new = .ok (some obj) ∧ obj ≠ []) ∨
        ∀ obj, cachedRepresentation w change = some obj →
          missing (obj.get "objectType") = true := by
  rw [h, hnew]
  constructor
  · intro hiff
    by_cases hempty : orEmpty new = []
    · right
      intro obj hobj
      by_contra htyped
      rw [← typed_of_cached hobj] at htyped
      exact hpresent (hiff.mp ⟨hempty, Bool.eq_false_iff.mpr htyped⟩).1
    · left
      cases new with
      | none => exact absurd rfl hempty
      | some obj => exact ⟨obj, rfl, hempty⟩
  · intro hcond
    apply iff_of_false _ fun hdeleted => hpresent hdeleted.1
    intro ⟨hempty, htyped⟩
    rcases hcond with ⟨obj, hobj, hne⟩ | hmissing
    · rw [Except.ok.inj hobj] at hempty
      exact hne hempty
    · obtain ⟨obj, hobj, htyped⟩ := cached_of_typed htyped
      rw [hmissing obj hobj] at htyped
      cases htyped

/-- **When exactly deletions are told.** For every change and every content of the cache: where
`handle_changes` returns, it has sent an event with an empty new object if and only if the entry was
deleted and the cache holds its representation, with that representation as the old object,
precisely if the change is tellable. -/
theorem deletion_told_iff (env : Env) (tid : Nat) (change : Body) (plan : List (Fault Outage))
    (w : World)
    (hret : ((handleChanges env change.new change.old).attempt (serve env) tid plan w).outcome =
      some (.ok ())) :
    DeletionTold change w
        ((handleChanges env change.new change.old).attempt (serve env) tid plan w) ↔
      Tellable env change w := by
  obtain ⟨new, hnew, hsends⟩ := sends_handleChanges hret
  have hgone := gone_iff hsends
  -- The old object of such an event is always the one that is known.
  have hold : ∀ body, Sends body
      ((handleChanges env change.new change.old).attempt (serve env) tid plan w) →
      body.new = [] → cachedRepresentation w change = some body.old := by
    intro body hsend hempty
    obtain ⟨obj, hobj, -⟩ := cached_of_typed (hgone.mp ⟨body, hsend, hempty⟩).2
    rw [((hsends body).mp hsend).1, hobj]
    rfl
  unfold DeletionTold
  rw [and_iff_left hold]
  unfold newObject at hnew
  by_cases hdeleted : change.new = []
  · rw [hdeleted, if_neg (by simp)] at hnew
    have hempty : orEmpty new = [] := by
      rw [← Except.ok.inj hnew]
      rfl
    rw [and_iff_right hempty] at hgone
    rw [told_deleted_iff hdeleted hgone]
    exact ⟨fun h => ⟨fun _ => h, fun hne => absurd hdeleted hne⟩, fun h => h.deleted hdeleted⟩
  · rw [if_pos (Obj.truthy_eq_true.mpr hdeleted)] at hnew
    rw [told_present_iff hdeleted hnew hgone]
    exact ⟨fun h => ⟨fun hnil => absurd hnil hdeleted, fun _ => h⟩, fun h => h.present hdeleted⟩

/-! ## An entry that is still there -/

/-- The LDAP entry of a computer, of which the UDM libraries can make nothing. -/
def computerEntry : Obj :=
  [("univentionObjectType", .bytes ["computers/linux"]), ("entryDN", .bytes ["cn=c1"]),
    ("entryUUID", .bytes ["c1"])]

def computerObject : Obj := [("objectType", .str "computers/linux"), ("uuid", .str "c1")]

/-- An earlier change of the computer was transformed. -/
def World.withComputer : World :=
  (answer .sample 0 (.kvPut .cache "c1" computerObject) .prepared).2

theorem deletion_told_iff_sample :
    DeletionTold ⟨computerEntry, []⟩ .withComputer
        ((handleChanges .sample [] computerEntry).attempt (serve .sample) 0 [.ok, .ok]
          .withComputer) ↔
      Tellable .sample ⟨computerEntry, []⟩ .withComputer :=
  deletion_told_iff .sample 0 ⟨computerEntry, []⟩ [.ok, .ok] .withComputer rfl

/-- The failed transformation of a change is only logged, and the event says that the computer is
gone. -/
theorem not_deletion_told : ¬ ∀ (env : Env) (tid : Nat) (change : Body)
    (plan : List (Fault Outage)) (w : World), (change.new ≠ [] ∨ change.old ≠ []) →
    ((handleChanges env change.new change.old).attempt (serve env) tid plan w).outcome =
      some (.ok ()) →
    DeletionTold change w
      ((handleChanges env change.new change.old).attempt (serve env) tid plan w) := by
  intro h
  have htold := h .sample 0 ⟨computerEntry, computerEntry⟩ [.ok, .ok] .withComputer
    (Or.inl nofun) rfl
  have hsend : Sends ⟨computerObject, []⟩
      ((handleChanges .sample computerEntry computerEntry).attempt (serve .sample) 0 [.ok, .ok]
        .withComputer) :=
    ⟨_, rfl, List.mem_cons_of_mem _ List.mem_cons_self⟩
  cases (htold.1.mp ⟨_, hsend, rfl⟩).1

end Provisioning
