import Provisioning.Model.Calls

/-!
# What a subscription listens to

A subscription lists topics, and two services decide which objects are meant. The prefill service
takes a topic for a regular expression over the names of the object types; the dispatcher looks
the name of the object type up among the topics as it is. **`agree_iff`** says for which
subscriptions and object types the two mean the same.

The prefill has one more thing to get past: before each topic it reports that it is running, and a
report that is not answered ends it. So of a subscription whose name makes an address that leads
nowhere, such as "a?b", the prefill queues nothing at all, whatever its topics are.

## Two computations, and their answers compared

Nothing is interleaved here. Each service is run to its end against a server that answers every
call, and what is compared is the list of its calls: the objects it has queued, the subscription it
has published to. `Runs` gives that list together with the outcome, and composes along the code.

The list of the prefill is long and depends on the directory, and most of it does not matter.
**`Fills`** is what is kept of it: which types are listed, and that of a listed type every object is
published. Stated with `↔` on the listing it composes by disjunction over the topics, and both
directions of the theorem come out of it; with an implication only one would.

A regular expression that does not compile raises, and then the topics after it are not looked at;
that is why the topics are assumed to compile. The matching itself is a parameter of the
environment, and nothing is assumed about it.
-/

namespace Provisioning

open Await Store Prog

/-! ## The mapping of the dispatcher -/

/-! The mapping is a dictionary of dictionaries of sets, built up by one insertion for each topic of
each subscription. Who is found under a realm and a topic does not depend on the order. -/

namespace Mapping

variable {V : Type}

/-- `setdefault` and then an update of what is there: one key changes. -/
theorem lookup_upsert (key key' : String) (default : V) (f : V → V) (d : List (String × V)) :
    (upsert key default f d).lookup key' =
      if key' = key then some (f ((d.lookup key).getD default)) else d.lookup key' := by
  induction d with
  | nil =>
    by_cases h : key' = key
    · simp [upsert, h]
    · simp [upsert, List.lookup_cons, beq_eq_false_iff_ne.mpr h, h]
  | cons kv d ih =>
    obtain ⟨k, v⟩ := kv
    by_cases hk : k = key
    · subst hk
      by_cases h : key' = k
      · simp [upsert, h]
      · simp [upsert, List.lookup_cons, beq_eq_false_iff_ne.mpr h, h]
    · have hk' : (key == k) = false := beq_eq_false_iff_ne.mpr (Ne.symm hk)
      simp only [upsert, hk, if_false]
      by_cases h : key' = k
      · have hne : key' ≠ key := fun heq => hk (h.symm.trans heq)
        simp [h, h ▸ hne]
      · simp only [List.lookup_cons, beq_eq_false_iff_ne.mpr h, hk', ih]

/-- A set has each subscription once, which membership does not see. -/
theorem mem_addToSet {sub sub' : Subscription} {subs : List Subscription} :
    sub' ∈ addToSet sub subs ↔ sub' = sub ∨ sub' ∈ subs := by
  unfold addToSet
  by_cases h : sub ∈ subs
  · rw [if_pos h]
    exact ⟨Or.inr, fun h' => h'.elim (fun heq => heq ▸ h) id⟩
  · rw [if_neg h, List.mem_append, List.mem_singleton, or_comm]

/-- Adding a subscription under a topic changes what that topic holds, and nothing else. -/
theorem mem_subscribers_add {mapping : Mapping} {rt : RealmTopic} {sub sub' : Subscription}
    {realm topic : String} :
    sub' ∈ (add mapping rt sub).subscribers realm topic ↔
      (sub' = sub ∧ rt = ⟨realm, topic⟩) ∨ sub' ∈ mapping.subscribers realm topic := by
  obtain ⟨r, t⟩ := rt
  unfold add subscribers
  rw [lookup_upsert]
  by_cases hr : realm = r
  · subst hr
    rw [if_pos rfl, Option.getD_some, lookup_upsert]
    by_cases ht : topic = t
    · subst ht
      rw [if_pos rfl, Option.getD_some, mem_addToSet]
      simp
    · rw [if_neg ht]
      simp [Ne.symm ht]
  · rw [if_neg hr]
    simp [Ne.symm hr]

/-- Adding it under all its topics. -/
theorem mem_subscribers_addAll {rts : List RealmTopic} {mapping : Mapping}
    {sub sub' : Subscription} {realm topic : String} :
    sub' ∈ (rts.foldl (fun mapping rt => add mapping rt sub) mapping).subscribers realm topic ↔
      (sub' = sub ∧ ⟨realm, topic⟩ ∈ rts) ∨ sub' ∈ mapping.subscribers realm topic := by
  induction rts generalizing mapping with
  | nil => simp
  | cons rt rts ih =>
    rw [List.foldl_cons, ih, mem_subscribers_add, List.mem_cons, ← or_assoc, ← and_or_left,
      or_comm (a := _ ∈ rts), eq_comm (a := rt)]

/-- **Whom the dispatcher sends to**: the subscriptions that list the topic as it is. -/
theorem mem_subscribers_ofSubscriptions {subs : List Subscription} {sub : Subscription}
    {realm topic : String} :
    sub ∈ (ofSubscriptions subs).subscribers realm topic ↔
      sub ∈ subs ∧ ⟨realm, topic⟩ ∈ sub.realmsTopics := by
  have hfold : ∀ mapping : Mapping, sub ∈ (subs.foldl (fun mapping sub =>
      sub.realmsTopics.foldl (fun mapping rt => add mapping rt sub) mapping) mapping).subscribers
        realm topic ↔
      (sub ∈ subs ∧ ⟨realm, topic⟩ ∈ sub.realmsTopics) ∨ sub ∈ mapping.subscribers realm topic := by
    induction subs with
    | nil => simp
    | cons s subs ih =>
      intro mapping
      rw [List.foldl_cons, ih, mem_subscribers_addAll, List.mem_cons, ← or_assoc]
      refine or_congr_left ?_
      constructor
      · intro h
        rcases h with ⟨h, ht⟩ | ⟨rfl, ht⟩
        · exact ⟨Or.inr h, ht⟩
        · exact ⟨Or.inl rfl, ht⟩
      · intro h
        rcases h with ⟨rfl | h, ht⟩
        · exact Or.inr ⟨rfl, ht⟩
        · exact Or.inl ⟨h, ht⟩
  unfold ofSubscriptions
  rw [hfold]
  simp [subscribers]

end Mapping

/-! ## The prefill -/

/-! From the inside to the outside: one object, one type, one topic, all topics, the request. Each
step says where it leaves the state ready for the next one, and what it has filled. -/

/-- What the prefill publishes for one object. -/
def fillPublish (env : Env) (name objectType url : String) : Op :=
  .publish (prefillSubject name)
    (.message ⟨.udmPreFill, "udm", objectType, ⟨[], env.getObject url⟩⟩) (streamKey name)

/-- Of the calls `l`, those that list and publish objects do so for the types in `c`, and for
each of them completely. -/
def Fills (env : Env) (name : String) (c : String → Prop) (l : List Op) : Prop :=
  ∀ t, (.listObjects t ∈ l ↔ c t) ∧
    (c t → ∀ url ∈ env.listObjects t, fillPublish env name t url ∈ l)

section Fills

variable {env : Env} {name : String} {c c' : String → Prop} {l l' : List Op}

/-- A list that lists nothing fills nothing. -/
theorem fills_none (h : ∀ t, .listObjects t ∉ l) : Fills env name (fun _ => False) l :=
  fun t => ⟨⟨h t, False.elim⟩, False.elim⟩

/-- Two parts one after the other fill what either of them fills. -/
theorem Fills.append (h : Fills env name c l) (h' : Fills env name c' l') :
    Fills env name (fun t => c t ∨ c' t) (l ++ l') := by
  intro t
  refine ⟨?_, ?_⟩
  · rw [List.mem_append, (h t).1, (h' t).1]
  · intro h url hurl
    rcases h with hc | hc
    · exact List.mem_append_left _ ((h t).2 hc url hurl)
    · exact List.mem_append_right _ ((h' t).2 hc url hurl)

theorem Fills.congr (h : Fills env name c l) (hc : ∀ t, c t ↔ c' t) : Fills env name c' l :=
  fun t => ⟨(h t).1.trans (hc t), fun hct => (h t).2 ((hc t).mpr hct)⟩

/-- Any number of parts, one for each element of a list: the loops of the code. -/
theorem fills_flatten {γ : Type} {c : γ → String → Prop} {xs : List γ} {ls : List (List Op)}
    (h : List.Forall₂ (fun x l => Fills env name (c x) l) xs ls) :
    Fills env name (fun t => ∃ x ∈ xs, c x t) ls.flatten := by
  induction h with
  | nil => exact (fills_none (by simp)).congr fun t => by simp
  | cons hx _ ih => exact (hx.append ih).congr fun t => by simp

end Fills

/-- The reports about `name` are answered: they are taken for ones about a subscription that is
there. -/
def ReportsAnswered (w : World) (name : String) : Prop :=
  ∃ other, TakenFor name other ∧ w.record other ≠ none

/-- The topics that are looked at are regular expressions. -/
def TopicsCompile (env : Env) (realmsTopics : List RealmTopic) : Prop :=
  ∀ rt ∈ realmsTopics, rt.realm = "udm" → ∀ t ∈ env.objectTypes, env.fullmatch rt.topic t ≠ none

/-- A name whose reports are answered, with a stream that takes what the prefill publishes. -/
structure Ready (w : World) (name : String) : Prop where
  record : ReportsAnswered w name
  stream : ∃ s, w.streams (streamKey name) = some s ∧ prefillSubject name ∈ s.subjects

section Prefill

variable (env : Env) (tid : Nat) {w : World} {name : String}

/-- A publication leaves the name ready. -/
theorem Ready.setStream (h : Ready w name) {s : Store.Stream Payload}
    (hs : prefillSubject name ∈ s.subjects) :
    Ready (w.setStream (streamKey name) (some s)) name :=
  ⟨h.record, s, World.streams_setStream_self .., hs⟩

/-- A report reads and writes a record. It fills nothing, and the name stays ready, for the record
is still there. -/
theorem runs_status (h : Ready w name) (status : FillQueueStatus) :
    ∃ w' l, (updateSubscriptionQueueStatus env name status).Runs (serve env) tid w () w' l ∧
      Ready w' name ∧ Fills env name (fun _ => False) l := by
  obtain ⟨other, htaken, hrecord⟩ := h.record
  obtain ⟨sub, hsub⟩ := Option.ne_none_iff_exists'.mp hrecord
  refine ⟨_, _, runs_updateSubscriptionQueueStatus htaken hsub status, ⟨⟨other, htaken, ?_⟩,
    h.stream⟩, fills_none (by simp)⟩
  simp [World.record]

/-- One object is read and published. -/
theorem runs_fillObject (h : Ready w name) (objectType url : String) :
    ∃ w', (fillObject url objectType name).Runs (serve env) tid w () w'
      [.getObject url, fillPublish env name objectType url] ∧ Ready w' name := by
  obtain ⟨s, hs, hsub⟩ := h.stream
  have hobj : (serve env).answer tid (.getObject url) w = (.ok (env.getObject url), w) := rfl
  have hpub : (serve env).answer tid (fillPublish env name objectType url) w =
      (.ok (s.last + 1), w.setStream (streamKey name) (some (s.append (prefillSubject name)
        (.message ⟨.udmPreFill, "udm", objectType, ⟨[], env.getObject url⟩⟩) tid))) := by
    simp only [serve_answer, fillPublish, answer, hs, if_pos hsub]
  exact ⟨_, (Runs.call hobj).bind ((Runs.call hpub).bind (Runs.pure () _)), h.setStream hsub⟩

/-- One object type is listed, and each of its objects published. -/
theorem runs_fillUdmTopic (h : Ready w name) (objectType : String) :
    ∃ w' l, (fillUdmTopic objectType name).Runs (serve env) tid w () w' l ∧ Ready w' name ∧
      Fills env name (· = objectType) l := by
  have hlist : (serve env).answer tid (.listObjects objectType) w =
      (.ok (env.listObjects objectType), w) := rfl
  obtain ⟨w', ls, hloop, hready, hls⟩ := runs_forEach (serve env) tid
    (I := fun w => Ready w name) (f := fun url => fillObject url objectType name)
    (F := fun url l => l = [.getObject url, fillPublish env name objectType url])
    (env.listObjects objectType) (fun url _ w hw => by
      obtain ⟨w', hrun, hw'⟩ := runs_fillObject env tid hw objectType url
      exact ⟨w', _, hrun, hw', rfl⟩) h
  -- The rounds list nothing, and each of them publishes its object.
  have hrounds : (∀ t, .listObjects t ∉ ls.flatten) ∧
      ∀ url ∈ env.listObjects objectType, fillPublish env name objectType url ∈ ls.flatten := by
    clear hloop
    generalize env.listObjects objectType = urls at hls
    induction hls with
    | nil => exact ⟨nofun, nofun⟩
    | cons hl _ ih =>
      subst hl
      refine ⟨fun t => ?_, fun url hurl => ?_⟩
      · simp [fillPublish, ih.1 t]
      · rcases List.mem_cons.mp hurl with rfl | hurl
        · simp
        · simp [ih.2 url hurl]
  refine ⟨w', _, (Runs.call hlist).bind hloop, hready, fun t => ⟨?_, ?_⟩⟩
  · simp [hrounds.1 t]
  · intro heq url hurl
    subst heq
    exact List.mem_append_right _ (hrounds.2 url hurl)

/-- `re.fullmatch` over the names of the object types, for a pattern that compiles. -/
theorem matchingTypes_of_valid {topic : String} {names : List String}
    (h : ∀ t ∈ names, env.fullmatch topic t ≠ none) :
    ∃ ms, matchingTypes env topic names = .ok ms ∧
      ∀ t, t ∈ ms ↔ t ∈ names ∧ env.fullmatch topic t = some true := by
  induction names with
  | nil => exact ⟨[], rfl, by simp⟩
  | cons n names ih =>
    obtain ⟨ms, hms, hmem⟩ := ih fun t ht => h t (List.mem_cons_of_mem n ht)
    obtain ⟨found, hfound⟩ := Option.ne_none_iff_exists'.mp (h n List.mem_cons_self)
    have hmatch : matchTopic env topic n = .ok found := by simp only [matchTopic, hfound]
    refine ⟨if found then n :: ms else ms, ?_, fun t => ?_⟩
    · simp only [matchingTypes, hmatch, hms]
      rfl
    · cases found with
      | true =>
        simp only [if_true, List.mem_cons, hmem]
        constructor
        · intro h
          rcases h with rfl | ⟨ht, hm⟩
          · exact ⟨Or.inl rfl, hfound⟩
          · exact ⟨Or.inr ht, hm⟩
        · intro h
          rcases h with ⟨rfl | ht, hm⟩
          · exact Or.inl rfl
          · exact Or.inr ⟨ht, hm⟩
      | false =>
        simp only [Bool.false_eq_true, if_false, List.mem_cons, hmem]
        constructor
        · intro h
          obtain ⟨ht, hm⟩ := h
          exact ⟨Or.inr ht, hm⟩
        · intro h
          rcases h with ⟨rfl | ht, hm⟩
          · rw [hfound] at hm
            cases hm
          · exact ⟨ht, hm⟩

/-- One topic: the types whose names it matches. -/
theorem runs_fetchUdm (h : Ready w name) {topic : String}
    (hvalid : ∀ t ∈ env.objectTypes, env.fullmatch topic t ≠ none) :
    ∃ w' l, (fetchUdm env name topic).Runs (serve env) tid w () w' l ∧ Ready w' name ∧
      Fills env name (fun t => t ∈ env.objectTypes ∧ env.fullmatch topic t = some true) l := by
  obtain ⟨ms, hms, hmem⟩ := matchingTypes_of_valid env hvalid
  have htypes : (serve env).answer tid .getObjectTypes w = (.ok env.objectTypes, w) := rfl
  obtain ⟨w', ls, hloop, hready, hls⟩ := runs_forEach (serve env) tid
    (I := fun w => Ready w name) (f := fun t => fillUdmTopic t name)
    (F := fun t l => Fills env name (· = t) l) ms
    (fun t _ w hw => runs_fillUdmTopic env tid hw t) h
  have hrun : (fetchUdm env name topic).Runs (serve env) tid w () w'
      ([.getObjectTypes] ++ ls.flatten) := by
    unfold fetchUdm
    refine (Runs.call htypes).bind ?_
    rw [hms]
    exact hloop
  refine ⟨w', _, hrun, hready, ?_⟩
  have hnone : Fills env name (fun _ => False) [.getObjectTypes] := fills_none (by simp)
  exact (hnone.append (fills_flatten hls)).congr fun t => by simp [hmem]

/-- All topics. Those of another realm are passed over, and before each of the others there is a
report. -/
theorem runs_fillQueue {m : PrefillMessage} (h : Ready w m.subscriptionName)
    (hvalid : TopicsCompile env m.realmsTopics) :
    ∃ w' l, (fillQueue env m).Runs (serve env) tid w () w' l ∧ Ready w' m.subscriptionName ∧
      Fills env m.subscriptionName (fun t => ∃ rt ∈ m.realmsTopics, rt.realm = "udm" ∧
        t ∈ env.objectTypes ∧ env.fullmatch rt.topic t = some true) l := by
  obtain ⟨s, hs, hsub⟩ := h.stream
  have hpurge : (serve env).answer tid
      (.purgeStream (streamKey m.subscriptionName) (prefillSubject m.subscriptionName)) w =
      (.ok (), w.setStream (streamKey m.subscriptionName)
        (some (s.keep (·.subject != prefillSubject m.subscriptionName)))) := by
    simp only [serve_answer, answer, hs]
  obtain ⟨w', ls, hloop, hready, hls⟩ := runs_forEach (serve env) tid
    (I := fun w => Ready w m.subscriptionName)
    (F := fun rt l => Fills env m.subscriptionName (fun t => rt.realm = "udm" ∧
      t ∈ env.objectTypes ∧ env.fullmatch rt.topic t = some true) l)
    (f := fun realmTopic =>
      if realmTopic.realm = "udm" then
        (updateSubscriptionQueueStatus env m.subscriptionName .running).bind fun _ =>
          fetchUdm env m.subscriptionName realmTopic.topic
      else .pure ())
    m.realmsTopics (fun rt hrt w hw => by
      by_cases hudm : rt.realm = "udm"
      · obtain ⟨w₁, l₁, hrun₁, hw₁, hl₁⟩ := runs_status env tid hw .running
        obtain ⟨w₂, l₂, hrun₂, hw₂, hl₂⟩ := runs_fetchUdm env tid hw₁ (hvalid rt hrt hudm)
        refine ⟨w₂, l₁ ++ l₂, ?_, hw₂, (hl₁.append hl₂).congr fun t => by simp [hudm]⟩
        rw [if_pos hudm]
        exact hrun₁.bind hrun₂
      · refine ⟨w, [], ?_, hw, (fills_none (by simp)).congr fun t => by simp [hudm]⟩
        rw [if_neg hudm]
        exact Runs.pure () w)
    (h.setStream (s := s.keep (·.subject != prefillSubject m.subscriptionName)) hsub)
  refine ⟨w', _, (Runs.call hpurge).bind hloop, hready, ?_⟩
  -- The purge at the beginning fills nothing in.
  have hnone : Fills env m.subscriptionName (fun _ => False)
      [.purgeStream (streamKey m.subscriptionName) (prefillSubject m.subscriptionName)] :=
    fills_none (by simp)
  exact (hnone.append (fills_flatten hls)).congr fun t => by simp

theorem within_limit {env : Env} {request : Msg}
    (h : env.maxPrefillAttempts = -1 ∨ (request.numDelivered : Int) ≤ env.maxPrefillAttempts) :
    ¬ (env.maxPrefillAttempts ≠ -1 ∧ (request.numDelivered : Int) > env.maxPrefillAttempts) := by
  intro hbeyond
  obtain ⟨hne, hgt⟩ := hbeyond
  rcases h with heq | hle
  · exact hne heq
  · exact absurd hgt (Int.not_lt.mpr hle)

/-- The whole of `handle_message`, for a request that has not been delivered too often. -/
theorem runs_handlePrefill {request : Msg} {m : PrefillMessage} (hm : request.payload = .prefill m)
    (hattempts : env.maxPrefillAttempts = -1 ∨
      (request.numDelivered : Int) ≤ env.maxPrefillAttempts)
    (h : Ready w m.subscriptionName)
    (hvalid : TopicsCompile env m.realmsTopics) :
    ∃ w' l, (handlePrefill env request).Runs (serve env) tid w () w' l ∧
      Fills env m.subscriptionName (fun t => ∃ rt ∈ m.realmsTopics, rt.realm = "udm" ∧
        t ∈ env.objectTypes ∧ env.fullmatch rt.topic t = some true) l := by
  obtain ⟨w₁, l₁, hrun₁, hw₁, hl₁⟩ := runs_fillQueue env tid h hvalid
  obtain ⟨w₂, l₂, hrun₂, -, hl₂⟩ := runs_status env tid hw₁ .done
  refine ⟨w₂, l₁ ++ l₂, ?_, (hl₁.append hl₂).congr fun t => by simp⟩
  unfold handlePrefill validatedPrefill
  simp only [hm, pure_eq, bind_eq, bind_pure, if_neg (within_limit hattempts)]
  exact hrun₁.bind hrun₂

end Prefill

/-! ## A prefill that cannot report -/

/-! The other half of the condition. That the reports are not answered is a property of the state,
and the prefill changes the state; so it has to be shown that no call of the prefill before the
first report makes one answered. It is `Guarded` again: before it has found a record, it neither
lists objects nor writes a record that a report could find. -/

section Unreported

variable {env : Env} {name : String} {B : Op → Prop}

/-- A report about `name` finds the record that it is taken to be about. -/
def FindsReported (name : String) : (op : Op) → Except CallError op.Res → Prop
  | .kvGet .subscriptions other, .ok _ => TakenFor name other
  | _, _ => False

/-- The prefill lists objects, or the record that its reports are about is written. -/
def ListsOrReports (name : String) (op : Op) : Prop :=
  (∃ objectType, op = .listObjects objectType) ∨ ∃ other, TakenFor name other ∧ PutsRecord other op

/-- **A report returns only if it finds a record**, and writes it only then. -/
theorem guarded_report (status : FillQueueStatus) {R : Except Exc Unit → Prop}
    (hR : ∀ e, ¬ R (.error e)) :
    (updateSubscriptionQueueStatus env name status).Guarded (FindsReported name)
      (ListsOrReports name) R := by
  rcases updateSubscriptionQueueStatus_cases env name status with
    ⟨other, htaken, heq⟩ | ⟨-, code, heq⟩
  · rw [heq]
    have hget : ¬ ListsOrReports name (.kvGet .subscriptions other) := by
      intro h
      rcases h with ⟨t, h⟩ | ⟨n, -, sub, h⟩
      · cases h
      · cases h
    refine ⟨hget, fun r hr => ?_⟩
    cases r with
    | ok e => exact absurd htaken hr
    | error x => cases x <;> exact hR _
  · rw [heq]
    exact hR _

/-- So no topic is looked at before one has been found. -/
theorem guarded_handlePrefill_reported {request : Msg} {m : PrefillMessage}
    (hm : request.payload = .prefill m)
    (hattempts : env.maxPrefillAttempts = -1 ∨
      (request.numDelivered : Int) ≤ env.maxPrefillAttempts) :
    (handlePrefill env request).Guarded (FindsReported m.subscriptionName)
      (ListsOrReports m.subscriptionName) fun _ => False := by
  have hpurge : ¬ ListsOrReports m.subscriptionName
      (.purgeStream (streamKey m.subscriptionName) (prefillSubject m.subscriptionName)) := by
    intro h
    rcases h with ⟨t, h⟩ | ⟨n, -, sub, h⟩
    · cases h
    · cases h
  have hfill : (fillQueue env m).Guarded (FindsReported m.subscriptionName)
      (ListsOrReports m.subscriptionName) fun _ => False := by
    refine guarded_request_bind.mpr ⟨hpurge, fun _ _ => ?_, fun _ _ => id⟩
    refine Guarded.loop fun rt _ => ?_
    split
    · exact (guarded_report (R := fun x => x = .ok ()) .running nofun).bind
        (fun _ ha => absurd rfl ha) fun _ _ => id
    · exact id
  unfold handlePrefill validatedPrefill
  simp only [hm, pure_eq, bind_eq, bind_pure, if_neg (within_limit hattempts)]
  exact hfill.bind (fun _ _ => guarded_report .done fun _ => id) fun _ _ => id

/-- **Where the reports are not answered, nothing is queued.** -/
theorem not_lists_of_not_answered (tid : Nat) {w : World} {request : Msg} {m : PrefillMessage}
    (hm : request.payload = .prefill m)
    (hattempts : env.maxPrefillAttempts = -1 ∨
      (request.numDelivered : Int) ≤ env.maxPrefillAttempts)
    (h : ¬ ReportsAnswered w m.subscriptionName) (t : String) :
    .listObjects t ∉ ((handlePrefill env request).alone (serve env) tid w).landed := by
  have hnone : ∀ other, TakenFor m.subscriptionName other → w.record other = none := by
    intro other htaken
    by_contra hrecord
    exact h ⟨other, htaken, hrecord⟩
  intro hmem
  refine alone_guarded (I := fun w => ∀ other, TakenFor m.subscriptionName other →
    w.record other = none) (guarded_handlePrefill_reported hm hattempts) ?_ ?_ hnone _ hmem
    (Or.inl ⟨t, rfl⟩)
  · intro op w hop hw other htaken
    rcases record_answer env tid op w other with hsame | ⟨sub, hput, -⟩ | ⟨-, hgone⟩
    · rw [serve_answer, hsame]
      exact hw other htaken
    · exact absurd (Or.inr ⟨other, htaken, sub, hput⟩) hop
    · exact hgone
  · intro op w hw hfinds
    unfold FindsReported at hfinds
    split at hfinds
    · next other e heq =>
      rw [serve_answer, kvGet_missing env tid (hw other hfinds)] at heq
      cases heq
    · exact hfinds

end Unreported

/-! ## The dispatcher -/

/-! One scan of the records and one event. The assumption `Listening` is what a state is in that
nobody has interfered with: it is an invariant elsewhere, and only used here. -/

section Dispatcher

variable (env : Env) (tid : Nat) {w : World}

/-- Every recorded name is the name in its record, and has a stream that takes live messages. -/
structure Listening (w : World) : Prop where
  name : ∀ n sub, w.record n = some sub → sub.name = n
  stream : ∀ n sub, w.record n = some sub →
    ∃ s, w.streams (streamKey n) = some s ∧ mainSubject n ∈ s.subjects

/-- A publication keeps it. -/
theorem Listening.setStream (h : Listening w) {n : String} {s : Store.Stream Payload}
    (hs : mainSubject n ∈ s.subjects) :
    Listening (w.setStream (streamKey n) (some s)) := by
  refine ⟨h.name, fun n' sub hsub => ?_⟩
  by_cases hn : n' = n
  · subst hn
    exact ⟨s, World.streams_setStream_self .., hs⟩
  · obtain ⟨s', hs', hmem⟩ := h.stream n' sub hsub
    refine ⟨s', ?_, hmem⟩
    rw [World.streams_setStream_of_ne fun heq => hn (streamKey_inj.mp heq)]
    exact hs'

/-- The subscriptions of the bucket, all of them. -/
theorem runs_getAllSubscriptions : ∃ subs l,
    getAllSubscriptions.Runs (serve env) tid w subs w l ∧
      ∀ sub, sub ∈ subs ↔ ∃ n, w.record n = some sub := by
  have hkeys : (serve env).answer tid (.kvKeys .subscriptions) w =
      (.ok (w.bucket .subscriptions).keys, w) := rfl
  -- Reading the keys one by one, each of which is there.
  have hread : ∀ keys : List String, (∀ key ∈ keys, key ∈ (w.bucket .subscriptions).keys) →
      ∃ subs l, Prog.Runs (serve env) tid (keys.foldr (fun key rest =>
        (request (.kvGet .subscriptions key)).bind fun entry =>
          rest.bind fun subscriptions => .pure (entry.value :: subscriptions))
        (.pure [] : Coro (List Subscription))) w subs w l ∧
        ∀ sub, sub ∈ subs ↔ ∃ n ∈ keys, w.record n = some sub := by
    intro keys
    induction keys with
    | nil => exact fun _ => ⟨[], [], Runs.pure [] w, by simp⟩
    | cons key keys ih =>
      intro hmem
      obtain ⟨subs, l, hrun, hsubs⟩ := ih fun k hk => hmem k (List.mem_cons_of_mem key hk)
      obtain ⟨e, he⟩ := Bucket.get?_of_mem_keys (hmem key List.mem_cons_self)
      have hget : (serve env).answer tid (.kvGet .subscriptions key) w = (.ok e, w) := by
        simp only [serve_answer, answer, he]
      refine ⟨e.value :: subs, _, (Runs.call hget).bind (hrun.bind (Runs.pure _ w)), fun sub => ?_⟩
      have hrec : w.record key = some sub ↔ sub = e.value := by
        rw [World.record, Bucket.value?, he, Option.map_some, Option.some.injEq, eq_comm]
      simp only [List.mem_cons, hsubs, exists_eq_or_imp, hrec]
  obtain ⟨subs, l, hrun, hsubs⟩ := hread (w.bucket .subscriptions).keys fun _ h => h
  refine ⟨subs, _, (Runs.call hkeys).bind hrun, fun sub => ?_⟩
  rw [hsubs]
  constructor
  · intro h
    obtain ⟨n, -, hn⟩ := h
    exact ⟨n, hn⟩
  · intro h
    obtain ⟨n, hn⟩ := h
    obtain ⟨e, he, -⟩ := Bucket.value?_eq_some hn
    exact ⟨n, Bucket.mem_keys_of_get? he, hn⟩

/-- A fresh mapping names, for each topic, the recorded subscriptions that list it. -/
theorem runs_updateSubscriptionsMapping : ∃ mapping l,
    updateSubscriptionsMapping.Runs (serve env) tid w () { w with mapping := mapping } l ∧
      ∀ realm topic sub, sub ∈ mapping.subscribers realm topic ↔
        (∃ n, w.record n = some sub) ∧ ⟨realm, topic⟩ ∈ sub.realmsTopics := by
  obtain ⟨subs, l, hrun, hsubs⟩ := runs_getAllSubscriptions env tid (w := w)
  have hset : (serve env).answer tid (.mappingSet (Mapping.ofSubscriptions subs)) w =
      (.ok (), { w with mapping := Mapping.ofSubscriptions subs }) := rfl
  refine ⟨_, _, hrun.bind (Runs.call hset), fun realm topic sub => ?_⟩
  rw [Mapping.mem_subscribers_ofSubscriptions, hsubs]

/-- An event is sent to the subscribers of its topic, and then acknowledged. -/
theorem runs_handleEvent {event : Msg} {m : Message} (hm : event.payload = .message m)
    (h : Listening w)
    (hsubs : ∀ sub ∈ w.mapping.subscribers m.realm m.topic, ∃ n, w.record n = some sub) :
    ∃ w' l, (handleEvent event).Runs (serve env) tid w () w' l ∧
      ∀ name, .publish (mainSubject name) (.message m) (streamKey name) ∈ l ↔
        ∃ sub ∈ w.mapping.subscribers m.realm m.topic, sub.name = name := by
  have hmapping : (serve env).answer tid .mappingGet w = (.ok w.mapping, w) := rfl
  obtain ⟨w', ls, hloop, -, hls⟩ := runs_forEach (serve env) tid
    (I := fun v => Listening v ∧ v.record = w.record)
    (F := fun sub l =>
      l = [.publish (mainSubject sub.name) (.message m) (streamKey sub.name)])
    (f := fun sub => addMessage sub.name (mainSubject sub.name) (.message m))
    (w.mapping.subscribers m.realm m.topic) (fun sub hsub v hv => by
      obtain ⟨n, hn⟩ := hsubs sub hsub
      rw [← hv.2] at hn
      obtain rfl := hv.1.name n sub hn
      obtain ⟨s, hs, hmem⟩ := hv.1.stream _ sub hn
      have hpub : (serve env).answer tid
          (.publish (mainSubject sub.name) (.message m) (streamKey sub.name)) v =
          (.ok (s.last + 1), v.setStream (streamKey sub.name)
            (some (s.append (mainSubject sub.name) (.message m) tid))) := by
        simp only [serve_answer, answer, hs, if_pos hmem]
      exact ⟨_, _, (Runs.call hpub).bind (Runs.pure () _), ⟨hv.1.setStream hmem, hv.2⟩, rfl⟩)
    ⟨h, rfl⟩
  have hack : (serve env).answer tid (.ack event) w' =
      (.ok (), ((serve env).answer tid (.ack event) w').2) := rfl
  -- The run is the lookup, the loop and the acknowledgement; of these only the loop publishes.
  refine ⟨((serve env).answer tid (.ack event) w').2,
    [.mappingGet] ++ (ls.flatten ++ [.ack event]), ?_, fun name => ?_⟩
  · unfold handleEvent validatedMessage
    simp only [hm, pure_eq, bind_eq, bind_pure]
    exact (Runs.call hmapping).bind (hloop.bind (Runs.call hack))
  · simp only [List.mem_append, List.mem_singleton, reduceCtorEq, or_false, false_or]
    generalize w.mapping.subscribers m.realm m.topic = subs at hls
    clear hloop
    induction hls with
    | nil => simp
    | cons hl _ ih =>
      subst hl
      simp [ih, eq_comm, mainSubject_inj, streamKey_inj]

end Dispatcher

/-! ## Both together -/

/-! The two are run from the same state, and not one after the other. What a prefill changes, the
status and the queues of the subscription, the dispatcher does not look at. -/

/-- The prefill lists the objects of type `t` and publishes each of them to `name`. -/
def PrefillQueues (env : Env) (name t : String) (l : List Op) : Prop :=
  .listObjects t ∈ l ∧ ∀ url ∈ env.listObjects t, fillPublish env name t url ∈ l

/-- The calls of the prefill service for one request. -/
def prefillCalls (env : Env) (tid : Nat) (request : Msg) (w : World) : List Op :=
  ((handlePrefill env request).alone (serve env) tid w).landed

/-- The calls of the dispatcher for one event, right after the mapping was rebuilt. -/
def dispatchCalls (env : Env) (tid : Nat) (event : Msg) (w : World) : List Op :=
  ((updateSubscriptionsMapping.bind fun _ => handleEvent event).alone (serve env) tid w).landed

section Agree

variable (env : Env) (tid : Nat) {w : World} {name t : String} {sub : Subscription}

/-- The prefill goes by regular expressions, if its reports are answered. -/
theorem prefillQueues_iff {realmsTopics : List RealmTopic}
    (hstream : ∃ s, w.streams (streamKey name) = some s ∧ prefillSubject name ∈ s.subjects)
    (hvalid : TopicsCompile env realmsTopics) (ht : t ∈ env.objectTypes) {request : Msg}
    (hrequest : request.payload = .prefill ⟨.consumerRegistration, name, realmsTopics⟩)
    (hattempts : env.maxPrefillAttempts = -1 ∨
      (request.numDelivered : Int) ≤ env.maxPrefillAttempts) :
    PrefillQueues env name t (prefillCalls env tid request w) ↔ ReportsAnswered w name ∧
      ∃ rt ∈ realmsTopics, rt.realm = "udm" ∧ env.fullmatch rt.topic t = some true := by
  by_cases hanswered : ReportsAnswered w name
  · obtain ⟨w', l, hrun, hl⟩ :=
      runs_handlePrefill env tid hrequest hattempts ⟨hanswered, hstream⟩ hvalid
    have hcalls : prefillCalls env tid request w = l := congrArg Attempt.landed hrun
    have hiff : (∃ rt ∈ realmsTopics, rt.realm = "udm" ∧ t ∈ env.objectTypes ∧
        env.fullmatch rt.topic t = some true) ↔
        ∃ rt ∈ realmsTopics, rt.realm = "udm" ∧ env.fullmatch rt.topic t = some true := by
      simp only [ht, true_and]
    rw [hcalls, and_iff_right hanswered]
    refine ⟨fun h => hiff.mp ((hl t).1.mp h.1), fun h => ?_⟩
    exact ⟨(hl t).1.mpr (hiff.mpr h), (hl t).2 (hiff.mpr h)⟩
  · refine iff_of_false (fun h => ?_) fun h => hanswered h.1
    exact not_lists_of_not_answered tid hrequest hattempts hanswered t h.1

/-- The dispatcher goes by names. -/
theorem dispatcherSends_iff (hrec : w.record name = some sub) (hlisten : Listening w)
    {event : Msg} {m : Message} (hevent : event.payload = .message m) :
    .publish (mainSubject name) (.message m) (streamKey name) ∈ dispatchCalls env tid event w ↔
      ⟨m.realm, m.topic⟩ ∈ sub.realmsTopics := by
  obtain ⟨mapping, l, hrun, hsubs⟩ := runs_updateSubscriptionsMapping env tid (w := w)
  have hlisten' : Listening { w with mapping := mapping } := ⟨hlisten.name, hlisten.stream⟩
  obtain ⟨w', l', hrun', hsent⟩ := runs_handleEvent env tid hevent hlisten'
    fun s hs => ((hsubs _ _ s).mp hs).1
  have hcalls : dispatchCalls env tid event w = l ++ l' :=
    congrArg Attempt.landed (hrun.bind hrun')
  -- Rebuilding the mapping publishes nothing.
  have hquiet : .publish (mainSubject name) (.message m) (streamKey name) ∉ l := by
    intro hmem
    have huses := alone_uses (S := serve env) tid uses_updateSubscriptionsMapping w
    rw [show (updateSubscriptionsMapping.alone (serve env) tid w).landed = l from
      congrArg Attempt.landed hrun] at huses
    cases huses _ hmem
  rw [hcalls, List.mem_append, or_iff_right hquiet, hsent]
  constructor
  · intro h
    obtain ⟨s, hs, hname⟩ := h
    obtain ⟨⟨n, hn⟩, ht⟩ := (hsubs _ _ s).mp hs
    have hn' : n = name := (hlisten.name n s hn).symm.trans hname
    rw [hn', hrec] at hn
    rw [Option.some.inj hn]
    exact ht
  · intro ht
    exact ⟨sub, (hsubs _ _ sub).mpr ⟨⟨name, hrec⟩, ht⟩, hlisten.name name sub hrec⟩

end Agree

/-- **When prefill and dispatcher agree** on a subscription and an object type: the prefill queues
the objects of the type just if the dispatcher sends its events, if and only if the type is listed
as a topic itself just if the reports about the name are answered and the type matches one of the
topics as a regular expression. -/
theorem agree_iff (env : Env) (tid : Nat) (w : World) (name t : String) (sub : Subscription)
    (request event : Msg) (m : Message) (hrec : w.record name = some sub) (hlisten : Listening w)
    (hstream : ∃ s, w.streams (streamKey name) = some s ∧ prefillSubject name ∈ s.subjects)
    (hvalid : TopicsCompile env sub.realmsTopics) (ht : t ∈ env.objectTypes)
    (hrequest : request.payload = .prefill ⟨.consumerRegistration, name, sub.realmsTopics⟩)
    (hattempts : env.maxPrefillAttempts = -1 ∨
      (request.numDelivered : Int) ≤ env.maxPrefillAttempts)
    (hevent : event.payload = .message m) (hrealm : m.realm = "udm") (htopic : m.topic = t) :
    (PrefillQueues env name t (prefillCalls env tid request w) ↔
      .publish (mainSubject name) (.message m) (streamKey name) ∈
        dispatchCalls env tid event w) ↔
    ((ReportsAnswered w name ∧
        ∃ rt ∈ sub.realmsTopics, rt.realm = "udm" ∧ env.fullmatch rt.topic t = some true) ↔
      ⟨"udm", t⟩ ∈ sub.realmsTopics) := by
  rw [prefillQueues_iff env tid hstream hvalid ht hrequest hattempts,
    dispatcherSends_iff env tid hrec hlisten hevent, hrealm, htopic]

/-! ## A subscription to a pattern -/

/-! The documentation speaks of regular expressions for both services. A subscription that takes it
at its word gets the objects there are, and then hears of no change. -/

/-- A subscription to all kinds of users, as the documentation suggests it. -/
def patternSubscription : NewSubscription := ⟨"a", [⟨"udm", "users/.*"⟩], true, "pw"⟩

def patternRequest : Msg where
  stream := streamKey PREFILL_STREAM
  durable := durableKey PREFILL_STREAM
  subject := PREFILL_STREAM
  payload := .prefill (prefillRequest patternSubscription)
  streamSeq := 1
  numDelivered := 1
  origin := 0

def userEvent : Msg where
  stream := streamKey DISPATCHER_STREAM
  durable := durableKey DISPATCHER_STREAM
  subject := DISPATCHER_STREAM
  payload := .message .sample
  streamSeq := 1
  numDelivered := 1
  origin := 0

theorem record_registering_pattern (n : String) :
    (World.registering patternSubscription).record n =
      if n = "a" then some (newSubInfo patternSubscription) else none := by
  have hput : (World.registering patternSubscription).record n =
      ((Bucket.empty : Store.Bucket Subscription).put "a" (newSubInfo patternSubscription)).value?
        n := rfl
  rw [hput, Bucket.value?_put]
  rfl

theorem listening_registering_pattern : Listening (World.registering patternSubscription) := by
  refine ⟨fun n sub h => ?_, fun n sub h => ?_⟩
  · rw [record_registering_pattern] at h
    split at h
    · next hn =>
      rw [← Option.some.inj h, hn]
      rfl
    · cases h
  · rw [record_registering_pattern] at h
    split at h
    · next hn =>
      subst hn
      exact ⟨_, rfl, by decide⟩
    · cases h

theorem compiles_sample (rts : List RealmTopic) : TopicsCompile .sample rts := nofun

/-- The prefill queues the users, and the dispatcher sends no change of a user. -/
theorem not_agree : ¬ ∀ (env : Env) (tid : Nat) (w : World) (name t : String)
    (sub : Subscription) (request event : Msg) (m : Message),
    w.record name = some sub → Listening w →
    (∃ s, w.streams (streamKey name) = some s ∧ prefillSubject name ∈ s.subjects) →
    TopicsCompile env sub.realmsTopics → t ∈ env.objectTypes →
    request.payload = .prefill ⟨.consumerRegistration, name, sub.realmsTopics⟩ →
    (env.maxPrefillAttempts = -1 ∨ (request.numDelivered : Int) ≤ env.maxPrefillAttempts) →
    event.payload = .message m → m.realm = "udm" → m.topic = t →
    (PrefillQueues env name t (prefillCalls env tid request w) ↔
      .publish (mainSubject name) (.message m) (streamKey name) ∈
        dispatchCalls env tid event w) := by
  intro h
  have hrec := record_registering_pattern "a"
  have hstream : ∃ s, (World.registering patternSubscription).streams (streamKey "a") = some s ∧
      prefillSubject "a" ∈ s.subjects := ⟨_, rfl, by decide⟩
  have hagree := h .sample 1 (.registering patternSubscription) "a" "users/user"
    (newSubInfo patternSubscription) patternRequest userEvent .sample hrec
    listening_registering_pattern hstream (compiles_sample _) (by decide) rfl (Or.inr (by decide))
    rfl rfl rfl
  rw [prefillQueues_iff .sample 1 hstream (compiles_sample _) (by decide) rfl
    (Or.inr (by decide)), dispatcherSends_iff .sample 1 hrec listening_registering_pattern rfl]
    at hagree
  have hqueues : ∃ rt ∈ (newSubInfo patternSubscription).realmsTopics, rt.realm = "udm" ∧
      Env.sample.fullmatch rt.topic "users/user" = some true :=
    ⟨⟨"udm", "users/.*"⟩, by decide, rfl, by decide⟩
  have hanswered : ReportsAnswered (.registering patternSubscription) "a" :=
    ⟨"a", (takenFor_self_iff "a").mpr (by decide), by rw [hrec]; nofun⟩
  exact absurd (hagree.mp ⟨hanswered, hqueues⟩) (by decide)

/-- On groups, to which the pattern does not extend, they agree. -/
theorem agree_iff_groups :
    (PrefillQueues .sample "a" "groups/group"
        (prefillCalls .sample 1 patternRequest (.registering patternSubscription)) ↔
      .publish (mainSubject "a") (.message ⟨.udmListener, "udm", "groups/group", ⟨[], []⟩⟩)
          (streamKey "a") ∈
        dispatchCalls .sample 1
          { userEvent with payload := .message ⟨.udmListener, "udm", "groups/group", ⟨[], []⟩⟩ }
          (.registering patternSubscription)) ↔
    ((ReportsAnswered (.registering patternSubscription) "a" ∧
        ∃ rt ∈ patternSubscription.realmsTopics, rt.realm = "udm" ∧
          Env.sample.fullmatch rt.topic "groups/group" = some true) ↔
      ⟨"udm", "groups/group"⟩ ∈ patternSubscription.realmsTopics) :=
  agree_iff .sample 1 (.registering patternSubscription) "a" "groups/group"
    (newSubInfo patternSubscription) patternRequest _ _ (record_registering_pattern "a")
    listening_registering_pattern ⟨_, rfl, by decide⟩ (compiles_sample _) (by decide) rfl
    (Or.inr (by decide)) rfl rfl rfl

end Provisioning
