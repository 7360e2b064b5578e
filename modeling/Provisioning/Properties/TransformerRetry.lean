import Provisioning.Properties.TransformerAttempt

/-!
# Retrying a change of the directory

The transformer turns a change of an LDAP entry into a pair of UDM objects. The new one is
computed, the old one is read from a cache, and the cache is written before the event is sent and
the change acknowledged. An attempt that is cut in between has changed what the next attempt at
the same change reads as the old object.

`events_right_iff` says that an event goes out wrong exactly when this has happened.

## What is carried along

What the cache should hold before a change is a function of the changes alone (`known`): the last
representation that was not empty. What it does hold is this, unless an earlier attempt at the
*present* change has stored the new object already (`CacheAt`). The second case is remembered until
the change is acknowledged and forgotten then, as by then the new object is what is known.

## An equivalence, by induction

The condition compares two attempts, an earlier one that has stored and a later one that sends, so
it is a statement about all pairs. The induction is on the plans and goes from the front; the
earlier attempts of the present change are represented by one bit, whether any of them has stored
(`transform_iff`). An attempt that is wrong is wrong by what it has read, so the direction from
right events to harmless retries needs no other argument than the one attempt.
-/

namespace Provisioning

open Await Store Prog

/-- The change number `k` as it is delivered the `n`th time. -/
def delivery (k n : Nat) (m : Message) : Msg where
  stream := streamKey LDAP_STREAM
  durable := durableKey LDAP_STREAM
  subject := LDAP_SUBJECT
  payload := .message m
  streamSeq := k + 1
  numDelivered := n + 1
  origin := 0

section Transform

variable (env : Env) (changes : List Message)

/-- Work through the changes in order, from change `k` on, which has been delivered `n` times
before: attempt it under one plan after the other until it is acknowledged. -/
def transform : Nat → Nat → List (List (Fault Outage)) → World → List (Nat × Try)
  | _, _, [], _ => []
  | k, n, plan :: plans, w =>
    match changes[k]? with
    | none => []
    | some m =>
      let a := (transformEvent env (delivery k n m)).attempt (serve env) 0 plan w
      (k, a) :: if Acked a then transform (k + 1) 0 plans a.world
        else transform k (n + 1) plans a.world

/-- What is known of the entry after the change, when `old` was known before it. -/
def advance (old : Obj) (change : Body) : Obj :=
  match newObject env change with
  | .ok new => if (orEmpty new).truthy then orEmpty new else old
  | .error _ => old

/-- What is known of the entry before change `k`, when `first` was before all of them. -/
def known (first : Obj) (k : Nat) : Obj :=
  ((changes.take k).map (·.body)).foldl (advance env) first

/-- Every event of the attempt carries the objects of the entry before and after the change. -/
def EventsRight (first : Obj) (t : Nat × Try) : Prop :=
  ∀ m, changes[t.1]? = some m → ∀ body, Sends body t.2 →
    ∃ new, newObject env m.body = .ok new ∧
      body = ⟨expectedOld (known env changes first t.1) m.body, orEmpty new⟩

/-- If a later attempt at the same change sends an event with an old object after an earlier one
has written the cache, then what was written is what was known before. -/
def HarmlessRetry (first : Obj) (earlier later : Nat × Try) : Prop :=
  later.1 = earlier.1 → Stores earlier.2 → ∀ m, changes[later.1]? = some m →
    m.body.old ≠ [] → (∃ body, Sends body later.2) →
    newObject env m.body = .ok (some (known env changes first later.1))

end Transform

variable {env : Env} {uuid : String} {m : Message}

/-! ## The attempts at all changes -/

section Run

variable {changes : List Message} {first : Obj} {k n : Nat} {w : World}

/-- The attempt, if it is one at change `k` and sends an event with an old object, could only have
found there what was known before. -/
def HarmlessAt (env : Env) (changes : List Message) (first : Obj) (k : Nat) (t : Nat × Try) :
    Prop :=
  t.1 = k → ∀ m, changes[k]? = some m → m.body.old ≠ [] → (∃ body, Sends body t.2) →
    newObject env m.body = .ok (some (known env changes first k))

/-- Of the earlier attempt only its change matters, and whether it has stored. -/
theorem harmlessRetry_iff {earlier later : Nat × Try} :
    HarmlessRetry env changes first earlier later ↔
      (Stores earlier.2 → HarmlessAt env changes first earlier.1 later) := by
  constructor
  · intro h hstores heq m hm
    rw [← heq] at hm ⊢
    exact h heq hstores m hm
  · intro h heq hstores m hm
    rw [heq] at hm ⊢
    exact h hstores heq m hm

/-- The attempts that follow are at this change or at later ones. -/
theorem le_of_mem_transform {plans : List (List (Fault Outage))} {t : Nat × Try}
    (h : t ∈ transform env changes k n plans w) : k ≤ t.1 := by
  induction plans generalizing k n w with
  | nil => cases h
  | cons plan plans ih =>
    unfold transform at h
    cases hm : changes[k]? with
    | none =>
      rw [hm] at h
      cases h
    | some m =>
      rw [hm] at h
      rcases List.mem_cons.mp h with rfl | h
      · exact Nat.le_refl k
      · split at h
        · exact Nat.le_of_succ_le (ih h)
        · exact ih h

/-- One change further. -/
theorem known_succ (hm : changes[k]? = some m) :
    known env changes first (k + 1) = advance env (known env changes first k) m.body := by
  unfold known
  rw [List.take_add_one, hm]
  simp

/-- What the cache holds between two attempts: the object written by an earlier attempt at the
same change, or what was known before it. -/
def CacheAt (env : Env) (uuid : String) (changes : List Message) (first : Obj) (k : Nat)
    (stored : Prop) (w : World) : Prop :=
  (¬ stored ∧ cached w uuid = known env changes first k) ∨
    (stored ∧ ∃ m obj, changes[k]? = some m ∧ newObject env m.body = .ok (some obj) ∧ obj ≠ [] ∧
      cached w uuid = obj)

variable (henv : ReturnsUuid env) (hentry : OfEntry uuid m.body) (hm : changes[k]? = some m)
  {stored : Prop} (hcache : CacheAt env uuid changes first k stored w) (plan : List (Fault Outage))

include henv hentry hm hcache

/-- **One attempt.** Its events are right, unless it reads what an earlier one has written. -/
theorem eventsRight_attempt :
    EventsRight env changes first
        (k, (transformEvent env (delivery k n m)).attempt (serve env) 0 plan w) ↔
      (stored → HarmlessAt env changes first k
        (k, (transformEvent env (delivery k n m)).attempt (serve env) 0 plan w)) := by
  constructor
  · -- What was read is what had been stored, and the event shows it.
    intro h hstored _ m' hm' hold ⟨body, hsend⟩
    obtain rfl := Option.some.inj (hm.symm.trans hm')
    obtain ⟨new, hnew, hbody⟩ := attempt_sends henv rfl hentry plan w hsend
    obtain ⟨new', hnew', hbody'⟩ := h m hm body hsend
    rcases hcache with ⟨hnot, -⟩ | ⟨-, m', obj, hm'', hobj, -, hcached⟩
    · exact absurd hstored hnot
    · obtain rfl := Option.some.inj (hm.symm.trans hm'')
      have hsame : expectedOld (cached w uuid) m.body =
          expectedOld (known env changes first k) m.body :=
        congrArg Body.old (hbody.symm.trans hbody')
      unfold expectedOld at hsame
      rw [if_neg hold, if_neg hold, hcached] at hsame
      rw [hobj, hsame]
  · intro h m' hm' body hsend
    obtain rfl := Option.some.inj (hm.symm.trans hm')
    obtain ⟨new, hnew, hbody⟩ := attempt_sends henv rfl hentry plan w hsend
    refine ⟨new, hnew, ?_⟩
    rw [hbody]
    unfold expectedOld
    by_cases hold : m.body.old = []
    · rw [if_pos hold, if_pos hold]
    · rw [if_neg hold, if_neg hold]
      rcases hcache with ⟨-, hcached⟩ | ⟨hstored, m', obj, hm'', hobj, -, hcached⟩
      · rw [hcached]
      · obtain rfl := Option.some.inj (hm.symm.trans hm'')
        have hknown := h hstored rfl m hm hold ⟨body, hsend⟩
        rw [hobj] at hknown
        rw [hcached, Option.some.inj (Except.ok.inj hknown)]

/-- After an attempt that is not acknowledged. -/
theorem cacheAt_again : CacheAt env uuid changes first k
    (stored ∨ Stores ((transformEvent env (delivery k n m)).attempt (serve env) 0 plan w))
    ((transformEvent env (delivery k n m)).attempt (serve env) 0 plan w).world := by
  by_cases hstores : Stores ((transformEvent env (delivery k n m)).attempt (serve env) 0 plan w)
  · obtain ⟨obj, hnew, hne, hcached⟩ := attempt_stores henv rfl hentry plan w hstores
    exact Or.inr ⟨Or.inr hstores, m, obj, hm, hnew, hne, hcached⟩
  · have hkeep := attempt_not_stores henv rfl hentry plan w hstores
    rcases hcache with ⟨hnot, hcached⟩ | ⟨hstored, m', obj, hm', hobj, hne, hcached⟩
    · exact Or.inl ⟨fun h => h.elim hnot hstores, hkeep.trans hcached⟩
    · exact Or.inr ⟨Or.inl hstored, m', obj, hm', hobj, hne, hkeep.trans hcached⟩

/-- After one that is. -/
theorem cacheAt_next
    (hack : Acked ((transformEvent env (delivery k n m)).attempt (serve env) 0 plan w) = true) :
    CacheAt env uuid changes first (k + 1) False
      ((transformEvent env (delivery k n m)).attempt (serve env) 0 plan w).world := by
  refine Or.inl ⟨id, ?_⟩
  obtain ⟨new, hnew, hstored⟩ := attempt_acked henv rfl hentry plan w hack
  rw [known_succ hm]
  unfold advance
  rw [hnew]
  dsimp only
  by_cases htruthy : (orEmpty new).truthy = true
  · obtain ⟨obj, hobj, -, hcached⟩ := attempt_stores henv rfl hentry plan w (hstored htruthy)
    rw [hnew] at hobj
    rw [if_pos htruthy, hcached, Except.ok.inj hobj]
    rfl
  · -- There is no new object, so nothing was stored now, nor could it have been before.
    rw [if_neg htruthy]
    have hempty : ∀ obj, newObject env m.body = .ok (some obj) → obj = [] := by
      intro obj hobj
      rw [hnew] at hobj
      by_contra hne
      rw [Except.ok.inj hobj] at htruthy
      exact htruthy (Obj.truthy_eq_true.mpr hne)
    have hnot : ¬ Stores ((transformEvent env (delivery k n m)).attempt (serve env) 0 plan w) := by
      intro hstores
      obtain ⟨obj, hobj, hne, -⟩ := attempt_stores henv rfl hentry plan w hstores
      exact hne (hempty obj hobj)
    rw [attempt_not_stores henv rfl hentry plan w hnot]
    rcases hcache with ⟨-, hcached⟩ | ⟨-, m', obj, hm', hobj, hne, -⟩
    · exact hcached
    · obtain rfl := Option.some.inj (hm.symm.trans hm')
      exact absurd (hempty obj hobj) hne

end Run

/-- From any change on. The induction is on the attempts; what an earlier attempt at the present
change has written is carried along. -/
theorem transform_iff {changes : List Message} {first : Obj} {plans : List (List (Fault Outage))}
    {k n : Nat} {w : World} {stored : Prop} (henv : ReturnsUuid env)
    (hentry : ∀ m ∈ changes, OfEntry uuid m.body)
    (hcache : CacheAt env uuid changes first k stored w) :
    (∀ t ∈ transform env changes k n plans w, EventsRight env changes first t) ↔
      (stored → ∀ t ∈ transform env changes k n plans w, HarmlessAt env changes first k t) ∧
        (transform env changes k n plans w).Pairwise (HarmlessRetry env changes first) := by
  induction plans generalizing k n w stored with
  | nil =>
    refine iff_of_true nofun ⟨fun _ => nofun, ?_⟩
    unfold transform
    exact .nil
  | cons plan plans ih =>
    unfold transform
    cases hm : changes[k]? with
    | none => exact iff_of_true nofun ⟨fun _ => nofun, .nil⟩
    | some m =>
      have hentrym := hentry m (List.mem_of_getElem? hm)
      have hone := eventsRight_attempt (n := n) henv hentrym hm hcache plan
      dsimp only
      rw [List.forall_mem_cons, List.forall_mem_cons, List.pairwise_cons, hone]
      by_cases hack : Acked
          ((transformEvent env (delivery k n m)).attempt (serve env) 0 plan w) = true
      · -- What follows is about later changes.
        rw [if_pos hack, ih (cacheAt_next (n := n) henv hentrym hm hcache plan hack)]
        have hlater : ∀ t ∈ transform env changes (k + 1) 0 plans
            ((transformEvent env (delivery k n m)).attempt (serve env) 0 plan w).world,
            HarmlessAt env changes first k t := by
          intro t ht heq
          have hle := le_of_mem_transform ht
          omega
        constructor
        · intro h
          refine ⟨fun hstored => ⟨h.1 hstored, hlater⟩, fun t ht => ?_, h.2.2⟩
          exact harmlessRetry_iff.mpr fun _ => hlater t ht
        · intro h
          exact ⟨fun hstored => (h.1 hstored).1, fun hfalse => hfalse.elim, h.2.2⟩
      · -- Not acknowledged: the same change follows, and may read what this attempt has stored.
        rw [if_neg hack, ih (cacheAt_again (n := n) henv hentrym hm hcache plan)]
        constructor
        · intro h
          refine ⟨fun hstored => ⟨h.1 hstored, h.2.1 (Or.inl hstored)⟩, fun t ht => ?_, h.2.2⟩
          exact harmlessRetry_iff.mpr fun hstores => h.2.1 (Or.inr hstores) t ht
        · intro h
          refine ⟨fun hstored => (h.1 hstored).1, fun hstores t ht => ?_, h.2.2⟩
          rcases hstores with hstored | hstores
          · exact (h.1 hstored).2 t ht
          · exact harmlessRetry_iff.mp (h.2.1 t ht) hstores

/-- **When retrying a change does not alter its events.** For every sequence of changes of an entry
and every pattern of failures, all events carry the objects of the entry before and after the
change if and only if no attempt at a change with an old entry sends an event after an earlier
attempt at it has written the cache, except where what was written is what was known before. -/
theorem events_right_iff (env : Env) (uuid : String) (changes : List Message)
    (plans : List (List (Fault Outage))) (w : World) (henv : ReturnsUuid env)
    (hentry : ∀ m ∈ changes, OfEntry uuid m.body) :
    (∀ t ∈ transform env changes 0 0 plans w, EventsRight env changes (cached w uuid) t) ↔
      (transform env changes 0 0 plans w).Pairwise
        (HarmlessRetry env changes (cached w uuid)) := by
  have hcache : CacheAt env uuid changes (cached w uuid) 0 False w := Or.inl ⟨id, rfl⟩
  rw [transform_iff henv hentry hcache]
  exact ⟨fun h => h.2, fun h => ⟨fun hfalse => hfalse.elim, h⟩⟩

/-! ## An event that is lost once -/

/-- The LDAP entry of a user. -/
def userEntry (displayName : String) : Obj :=
  [("univentionObjectType", .bytes ["users/user"]), ("entryDN", .bytes ["uid=u1"]),
    ("entryUUID", .bytes ["u1"]), ("displayName", .bytes [displayName])]

def userObject (displayName : String) : Obj :=
  [("objectType", .str "users/user"), ("uuid", .str "u1"), ("displayName", .str displayName)]

/-- The user is created, and then renamed. -/
def userChanges : List Message :=
  [⟨.udmListener, "ldap", "ldap", ⟨[], userEntry "one"⟩⟩,
    ⟨.udmListener, "ldap", "ldap", ⟨userEntry "one", userEntry "two"⟩⟩]

/-- The event about the renaming is lost the first time, and the change is delivered again. -/
def lostOnce : List (List (Fault Outage)) :=
  [[.ok, .ok, .ok], [.ok, .ok, .before .connection, .ok], [.ok, .ok, .ok, .ok]]

theorem representation_of_entry {objectType : String} {entry obj : Obj}
    (h : representEntry env objectType entry = .ok obj) :
    env.representation objectType entry = .ok obj := by
  unfold representEntry at h
  cases hmodule : env.hasModule objectType with
  | false =>
    rw [hmodule] at h
    cases h
  | true =>
    rw [hmodule] at h
    cases hdn : firstValue entry "entryDN" with
    | error e =>
      rw [hdn] at h
      cases h
    | ok dn =>
      rw [hdn] at h
      exact h

/-- An object comes from the UDM libraries. -/
theorem representation_of_object {entry obj : Obj} (h : ldapToUdm env entry = .ok (some obj))
    (hne : obj ≠ []) : ∃ objectType, env.representation objectType entry = .ok obj := by
  unfold ldapToUdm at h
  split at h
  · next objectType rest _ =>
    refine ⟨objectType, ?_⟩
    cases hobj : representEntry env objectType entry with
    | ok found =>
      rw [hobj] at h
      exact Option.some.inj (Except.ok.inj h) ▸ representation_of_entry hobj
    | error e =>
      rw [hobj] at h
      cases e with
      | moduleNotFound => exact absurd (Option.some.inj (Except.ok.inj h)).symm hne
      | _ =>
        dsimp only at h
        split at h
        · cases h
        · cases h
  · exact absurd (Option.some.inj (Except.ok.inj h)).symm hne

/-- The objects of the sample environment carry the UUID they were computed from. -/
theorem uuid_representation_sample {objectType uuid : String} {entry obj : Obj}
    (h : Env.sample.representation objectType entry = .ok obj)
    (huuid : firstValue entry "entryUUID" = .ok uuid) : obj.get "uuid" = some (.str uuid) := by
  simp only [Env.sample, huuid] at h
  cases hname : firstValue entry "displayName" with
  | error e =>
    rw [hname] at h
    cases h
  | ok name =>
    rw [hname] at h
    rw [← Except.ok.inj h]
    rfl

theorem returnsUuid_sample : ReturnsUuid .sample := by
  intro entry obj uuid h hne huuid
  obtain ⟨objectType, hobj⟩ := representation_of_object h hne
  exact uuid_representation_sample hobj huuid

theorem ofEntry_userChanges : ∀ m ∈ userChanges, OfEntry "u1" m.body := by
  intro m hm
  rcases List.mem_cons.mp hm with rfl | hm
  · exact ⟨fun h => absurd rfl h, fun _ => rfl⟩
  · rw [List.mem_singleton.mp hm]
    exact ⟨fun _ => rfl, fun _ => rfl⟩

theorem events_right_iff_sample :
    (∀ t ∈ transform .sample userChanges 0 0 lostOnce .prepared,
        EventsRight .sample userChanges (cached .prepared "u1") t) ↔
      (transform .sample userChanges 0 0 lostOnce .prepared).Pairwise
        (HarmlessRetry .sample userChanges (cached .prepared "u1")) :=
  events_right_iff .sample "u1" userChanges lostOnce .prepared returnsUuid_sample
    ofEntry_userChanges

theorem event_after_store : ∃ t ∈ transform .sample userChanges 0 0 lostOnce .prepared,
    t.1 = 1 ∧ Sends ⟨userObject "two", userObject "two"⟩ t.2 :=
  ⟨_, List.mem_cons_of_mem _ (List.mem_cons_of_mem _ List.mem_cons_self), rfl, _, rfl,
    List.mem_cons_of_mem _ (List.mem_cons_of_mem _ List.mem_cons_self)⟩

theorem not_events_right : ¬ ∀ (env : Env) (uuid : String) (changes : List Message)
    (plans : List (List (Fault Outage))) (w : World), ReturnsUuid env →
    (∀ m ∈ changes, OfEntry uuid m.body) →
    ∀ t ∈ transform env changes 0 0 plans w, EventsRight env changes (cached w uuid) t := by
  intro h
  obtain ⟨t, ht, hindex, hsend⟩ := event_after_store
  have hright := h .sample "u1" userChanges lostOnce .prepared returnsUuid_sample
    ofEntry_userChanges t ht
  obtain ⟨new, hnew, hbody⟩ := hright _ (by rw [hindex]; rfl) _ hsend
  rw [hindex] at hbody
  have hold : userObject "two" = known .sample userChanges (cached .prepared "u1") 1 :=
    congrArg Body.old hbody
  exact absurd hold (by decide)

end Provisioning
