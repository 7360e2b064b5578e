import Provisioning.Properties.TopicMatching

/-!
# Refreshing the mapping while the bucket changes

`server/core/dispatcher/service/dispatcher.py`, `update_subscriptions_mapping`. A refresh asks for
the keys of the bucket and then for one record after the other, while registrations and deletions
go on. What it stores may then be of no moment at all; **that does no harm**, since every change is
followed by a refresh that begins after it, and refreshes come one after the other.

The other half of the story is that a refresh may not survive the changes: a record that was listed
and is gone when its turn comes makes it raise.

## When the mapping has to be right

Not at every moment: between a change and the end of the refresh that it causes the mapping is
stale. `Settled` is the moment at which it has to agree with the bucket: some refresh that asked for
the keys after the last change has returned. Whether a refresh did is a matter of the history, and
`scans` reads it off: a change that takes effect empties the list, and asking for the keys puts a
refresh on it.

## The invariant

A refresh on that list has seen nothing but the present records, so if nobody else did anything any
more, it would set the mapping right. That is `Fresh`, and it is stated just so: run the rest of the
refresh *alone* from here, and the mapping will agree. There is no need to say what it has read and
what not, and one step of the refresh leads from fresh to fresh by definition. Steps of others have
to be shown harmless, and they are as long as the records stay; when they do not, the list is empty.

What remains is the order. A refresh from before the last change may still set the mapping to
something stale, after a fresh one has set it right. The callback of the watch runs one after the
other, so the numbers of the refreshes are the order in which they begin, and one that has begun has
none before it that goes on (`UpToDate.order`).
-/

namespace Provisioning

open Await Store Prog

/-! ## Refreshes among changes -/

/-- No call of a refresh but a read of a record: the calls of registrations, deletions and
whatever else puts and deletes records. -/
def Elsewhere (op : Op) : Prop :=
  (∀ mapping, op ≠ .mappingSet mapping) ∧ op ≠ .kvKeys .subscriptions

/-- Coroutines of two kinds: those that refresh the mapping, and any others. -/
structure Refreshing (env : Env) where
  start : Nat → Coro Reply
  refreshes : Nat → Bool
  refresh : ∀ i, refreshes i = true → start i = Job.updateMapping.program env
  change : ∀ i, refreshes i = false → (start i).Uses Elsewhere

/-- The call changes the bucket of the records. -/
def changesRecords : Op → Bool
  | .kvPut .subscriptions _ _ => true
  | .kvDelete .subscriptions _ => true
  | _ => false

/-- The call with which a refresh begins. -/
def asksForKeys : Op → Bool
  | .kvKeys .subscriptions => true
  | _ => false

/-- Who asked for the keys since the last change took effect. -/
def scans : List (Event Op Op.Res CallError Outage World) → List Nat
  | [] => []
  | ev :: hist =>
    if changesRecords ev.op ∧ ev.fault.Lands then []
    else if asksForKeys ev.op then ev.tid :: scans hist
    else scans hist

/-- The mapping names, for each topic, the recorded subscriptions that list it. -/
def Agrees (w : World) : Prop :=
  ∀ realm topic sub, sub ∈ w.mapping.subscribers realm topic ↔
    (∃ n, w.record n = some sub) ∧ ⟨realm, topic⟩ ∈ sub.realmsTopics

/-- Every notification has been handled: a refresh that began after the last change is over. -/
def Settled (c : System) : Prop :=
  ∃ i ∈ scans c.hist, c.prog i = .pure .finished

variable {env : Env} (P : Refreshing env)

/-- No refresh has raised. -/
def NoneRaised (c : System) : Prop :=
  ∀ i e, P.refreshes i = true → c.prog i ≠ .throw e

/-- NATS answers the refreshes, and the callback of the watch runs one after the other: once a
refresh has begun, no earlier one goes on. -/
def OneByOne (c : System) (l : Nat × Fault Outage) : Prop :=
  P.refreshes l.1 = true →
    l.2.isOk = true ∧ ∀ ev ∈ c.hist, P.refreshes ev.tid = true → ev.tid ≤ l.1

/-- A record that is asked for is there. -/
def recordThere (w : World) : Option Op → Bool
  | some (.kvGet .subscriptions key) => (w.record key).isSome
  | _ => true

/-- Whenever a refresh is about to read a record, the record is there. -/
def ReadsWhatIsThere (c : System) (l : Nat × Fault Outage) : Prop :=
  P.refreshes l.1 = true → recordThere c.world (c.prog l.1).next? = true

/-! ## The program of a refresh -/

/-! A scan with some records left to read. Each failure is raised, so a scan that has not raised has
read every record that was listed. -/

/-- What is left of a refresh once it has its keys: some records to read, and the mapping to
set. A call that fails is raised. -/
inductive Scan : Coro Reply → Prop where
  | get {key : String} {k : Except CallError (Op.kvGet .subscriptions key).Res → Coro Reply}
      (hok : ∀ e, Scan (k (.ok e))) (herror : ∀ x, k (.error x) = .throw (.call x)) :
      Scan (.await (.kvGet .subscriptions key) k)
  | set {mapping : Mapping} {k : Except CallError (Op.mappingSet mapping).Res → Coro Reply}
      (hok : k (.ok ()) = .pure .finished) : Scan (.await (.mappingSet mapping) k)
  | ended : Scan (.pure .finished)

/-- The record is added to those that are read after it. -/
abbrev thenReads (key : String) (rest : Coro (List Subscription)) : Coro (List Subscription) :=
  (request (.kvGet .subscriptions key)).bind fun entry =>
    rest.bind fun subscriptions => .pure (entry.value :: subscriptions)

/-- The loop over the keys is such a scan. -/
theorem scan_loop (keys : List String) {f : List Subscription → Coro Reply}
    (hf : ∀ subs, Scan (f subs)) :
    Scan ((keys.foldr thenReads (.pure [])).bind f) := by
  induction keys generalizing f with
  | nil => exact hf []
  | cons key keys ih =>
    refine .get (fun e => ?_) fun x => rfl
    have hrest := ih (f := fun subs => f (e.value :: subs)) fun subs => hf (e.value :: subs)
    have hassoc := bind_assoc (keys.foldr thenReads (.pure []))
      (fun subs => Prog.pure (e.value :: subs)) f
    exact hassoc ▸ hrest

/-- A refresh asks for the keys first. -/
theorem updateMapping_program (env : Env) : ∃ k,
    Job.updateMapping.program env = .await (.kvKeys .subscriptions) k ∧
      ∀ keys, Scan (k (.ok keys)) := by
  refine ⟨_, rfl, fun keys => ?_⟩
  have hrest := scan_loop keys (f := fun subs =>
    (request (.mappingSet (Mapping.ofSubscriptions subs))).bind fun _ => .pure .finished)
    fun subs => .set rfl
  have hassoc := bind_assoc (keys.foldr thenReads (.pure []))
    (fun subs => request (.mappingSet (Mapping.ofSubscriptions subs)))
    (fun _ => Prog.pure Reply.finished)
  exact hassoc ▸ hrest

/-! ## A refresh that began after the last change -/

/-! `Fresh` is about a run that does not take place: the rest of the refresh, alone. -/

/-- Left alone, the refresh would set the mapping right. -/
def Fresh (env : Env) (i : Nat) (p : Coro Reply) (w : World) : Prop :=
  ∃ w', p.finish (serve env) i w = (.ok .finished, w') ∧ Agrees w'

/-- **A refresh that runs alone sets the mapping right.** -/
theorem fresh_start (env : Env) (i : Nat) (w : World) :
    Fresh env i (Job.updateMapping.program env) w := by
  obtain ⟨mapping, l, hrun, hmapping⟩ := runs_updateSubscriptionsMapping env i (w := w)
  exact ⟨{ w with mapping := mapping }, (hrun.bind (Runs.pure Reply.finished _)).finish, hmapping⟩

/-- What is left of a fresh refresh is fresh. -/
theorem Fresh.next {i : Nat} {op : Op} {k : Except CallError op.Res → Coro Reply} {w : World}
    (h : Fresh env i (.await op k) w) :
    Fresh env i (k (answer env i op w).1) (answer env i op w).2 := h

/-- A fresh refresh that has returned has set it right. -/
theorem Fresh.agrees {i : Nat} {w : World} (h : Fresh env i (.pure .finished) w) : Agrees w := by
  obtain ⟨w', hfinish, hagrees⟩ := h
  rw [finish_pure] at hfinish
  cases hfinish
  exact hagrees

/-- One that has raised is not fresh. -/
theorem not_fresh_throw {i : Nat} {e : Exc} {w : World} : ¬ Fresh env i (.throw e) w := by
  intro h
  obtain ⟨w', hfinish, -⟩ := h
  rw [finish_throw] at hfinish
  cases hfinish

/-- Only the records and the mapping matter. -/
theorem agrees_congr {w w' : World} (hbucket : w'.bucket .subscriptions = w.bucket .subscriptions)
    (hmapping : w'.mapping = w.mapping) (h : Agrees w) : Agrees w' := by
  intro realm topic sub
  unfold World.record
  rw [hbucket, hmapping]
  exact h realm topic sub

/-- It stays fresh as long as the records stay, and the mapping, once it is right. -/
theorem Scan.fresh_of {p : Coro Reply} (hp : Scan p) {i : Nat} {w w' : World}
    (hbucket : w'.bucket .subscriptions = w.bucket .subscriptions) (hset : Agrees w → Agrees w')
    (h : Fresh env i p w) : Fresh env i p w' := by
  induction hp with
  | @get key k hok herror ih =>
    cases hget : (w.bucket .subscriptions).get? key with
    | none =>
      have hmissing : answer env i (.kvGet .subscriptions key) w = (.error .keyNotFound, w) := by
        simp only [answer, hget]
      -- Alone it would raise, so it is not fresh.
      have hnext := h.next
      rw [hmissing, herror] at hnext
      exact absurd hnext not_fresh_throw
    | some e =>
      have hfound : answer env i (.kvGet .subscriptions key) w = (.ok e, w) := by
        simp only [answer, hget]
      have hfound' : answer env i (.kvGet .subscriptions key) w' = (.ok e, w') := by
        simp only [answer, hbucket, hget]
      have hnext := h.next
      rw [hfound] at hnext
      have hrest := ih e hnext
      unfold Fresh
      rw [finish_await, serve_answer, hfound']
      exact hrest
  | @set mapping k hok =>
    have hnext : Agrees { w with mapping := mapping } := (hok ▸ h.next).agrees
    have hnext' : Agrees { w' with mapping := mapping } :=
      agrees_congr (w := { w with mapping := mapping }) hbucket rfl hnext
    refine ⟨_, ?_, hnext'⟩
    rw [finish_await]
    exact (congrArg (fun p => Prog.finish (serve env) i p _) hok).trans (finish_pure ..)
  | ended => exact ⟨w', finish_pure Reply.finished _, hset h.agrees⟩

/-! ## The step -/

/-! A step of a job that does not refresh is one lemma, a step of a refresh two: its first call and
any other. -/

theorem mem_scans {hist : List (Event Op Op.Res CallError Outage World)} {i : Nat}
    (h : i ∈ scans hist) : ∃ ev ∈ hist, ev.tid = i := by
  induction hist with
  | nil => cases h
  | cons ev hist ih =>
    unfold scans at h
    split at h
    · cases h
    · split at h
      · rcases List.mem_cons.mp h with rfl | h
        · exact ⟨ev, List.mem_cons_self, rfl⟩
        · obtain ⟨ev', hev', htid⟩ := ih h
          exact ⟨ev', List.mem_cons_of_mem ev hev', htid⟩
      · obtain ⟨ev', hev', htid⟩ := ih h
        exact ⟨ev', List.mem_cons_of_mem ev hev', htid⟩

/-- What holds between two steps: where each refresh stands, that those which began after the last
change are on the right way, and that they come after all the others. -/
structure UpToDate (c : System) : Prop where
  change : ∀ i, P.refreshes i = false → (c.prog i).Uses Elsewhere
  refresh : ∀ i, P.refreshes i = true →
    (c.prog i = Job.updateMapping.program env ∧ ∀ ev ∈ c.hist, ev.tid ≠ i) ∨
      ((∃ ev ∈ c.hist, ev.tid = i) ∧ (Scan (c.prog i) ∨ ∃ e, c.prog i = .throw e))
  fresh : ∀ i ∈ scans c.hist, P.refreshes i = true ∧ Fresh env i (c.prog i) c.world
  order : ∀ i ∈ scans c.hist, ∀ ev ∈ c.hist, P.refreshes ev.tid = true →
    ev.tid ∉ scans c.hist → ev.tid < i

/-- At the beginning nobody has asked for anything. -/
theorem upToDate_init (w : World) : UpToDate P (.init w P.start) :=
  ⟨P.change, fun i hi => Or.inl ⟨P.refresh i hi, fun _ hev => absurd hev List.not_mem_nil⟩,
    fun _ hi => absurd hi List.not_mem_nil, fun _ hi => absurd hi List.not_mem_nil⟩

/-- Once the mapping can be read off the bucket, it agrees. -/
theorem UpToDate.agrees {c : System} (h : UpToDate P c) (hsettled : Settled c) :
    Agrees c.world := by
  obtain ⟨i, hi, hp⟩ := hsettled
  have hfresh := (h.fresh i hi).2
  rw [hp] at hfresh
  exact hfresh.agrees

/-- A refresh that has begun since the last change has its scan before it. -/
theorem UpToDate.scan_of_mem {c : System} (h : UpToDate P c) {i : Nat} (hi : i ∈ scans c.hist) :
    Scan (c.prog i) := by
  obtain ⟨hrefresh, hfresh⟩ := h.fresh i hi
  rcases h.refresh i hrefresh with ⟨-, hnone⟩ | ⟨-, hscan | ⟨e, hthrow⟩⟩
  · obtain ⟨ev, hev, htid⟩ := mem_scans hi
    exact absurd htid (hnone ev hev)
  · exact hscan
  · exact absurd (hthrow ▸ hfresh) not_fresh_throw

/-- Without a served change, the records and the mapping stay. -/
theorem left_elsewhere (env : Env) {op : Op} (hop : Elsewhere op) (i : Nat) (w : World)
    {f : Fault Outage} (h : ¬ (changesRecords op = true ∧ f.Lands)) :
    ((serve env).left i op w f).bucket .subscriptions = w.bucket .subscriptions ∧
      ((serve env).left i op w f).mapping = w.mapping := by
  by_cases hf : f.Lands
  · rw [Server.left_of_lands hf, serve_answer]
    refine ⟨?_, mapping_answer env i w hop.1⟩
    rcases bucket_answer env i op w .subscriptions with hsame | ⟨key, v, rfl, -⟩ | ⟨key, rfl, -⟩
    · exact hsame
    · exact absurd ⟨rfl, hf⟩ h
    · exact absurd ⟨rfl, hf⟩ h
  · rw [Server.left_of_not_lands hf]
    exact ⟨rfl, rfl⟩

/-- Something else happens. A change of the bucket makes every refresh that goes on a stale one. -/
theorem UpToDate.change_step {c : System} (h : UpToDate P c) {i : Nat} {f : Fault Outage} {op : Op}
    {k : Except CallError op.Res → Coro Reply} (hi : P.refreshes i = false)
    (hp : c.prog i = .await op k) : UpToDate P (c.next (serve env) i f op k) := by
  have huses : (Prog.await op k).Uses Elsewhere := hp ▸ h.change i hi
  have hother : ∀ j, P.refreshes j = true → (c.next (serve env) i f op k).prog j = c.prog j := by
    intro j hj
    refine Config.next_prog_of_ne (fun heq => ?_) ..
    rw [heq, hi] at hj
    cases hj
  have hasks : asksForKeys op = false := by
    unfold asksForKeys
    split
    · exact absurd rfl huses.1.2
    · rfl
  have hscans : scans (c.next (serve env) i f op k).hist =
      if changesRecords op = true ∧ f.Lands then [] else scans c.hist := by
    simp [scans, hasks]
  refine ⟨fun j hj => ?_, fun j hj => ?_, ?_, ?_⟩
  · by_cases hji : j = i
    · subst hji
      rw [Config.next_prog_self]
      exact huses.2 _
    · rw [Config.next_prog_of_ne hji]
      exact h.change j hj
  · -- A refresh is where it was; the new event is none of its own.
    rw [hother j hj]
    rcases h.refresh j hj with ⟨hstart, hnone⟩ | ⟨⟨ev, hev, htid⟩, hwhere⟩
    · refine Or.inl ⟨hstart, fun ev hev => ?_⟩
      rcases List.mem_cons.mp hev with rfl | hev
      · intro heq
        rw [← heq, hi] at hj
        cases hj
      · exact hnone ev hev
    · exact Or.inr ⟨⟨ev, List.mem_cons_of_mem _ hev, htid⟩, hwhere⟩
  · -- A change empties the list of scans, so there is nothing to show of it. Any other call leaves
    -- records and mapping as they are.
    rw [hscans]
    by_cases hf : changesRecords op = true ∧ f.Lands
    · rw [if_pos hf]
      exact nofun
    · rw [if_neg hf, Config.next_world]
      obtain ⟨hbucket, hmapping⟩ := left_elsewhere env huses.1 i c.world hf
      intro j hj
      obtain ⟨hrefresh, hfresh⟩ := h.fresh j hj
      rw [hother j hrefresh]
      refine ⟨hrefresh, ?_⟩
      exact (h.scan_of_mem P hj).fresh_of hbucket (agrees_congr hbucket hmapping) hfresh
  · rw [hscans]
    by_cases hf : changesRecords op = true ∧ f.Lands
    · rw [if_pos hf]
      exact nofun
    · rw [if_neg hf]
      intro j hj ev hev hrefresh hnot
      rcases List.mem_cons.mp hev with rfl | hev
      · rw [hi] at hrefresh
        cases hrefresh
      · exact h.order j hj ev hev hrefresh hnot

/-- The programs after a step of a refresh. -/
theorem UpToDate.programs {c : System} (h : UpToDate P c) {i : Nat} {op : Op}
    {k : Except CallError op.Res → Coro Reply} (hi : P.refreshes i = true)
    (hk : Scan (k (answer env i op c.world).1) ∨ ∃ e, k (answer env i op c.world).1 = .throw e) :
    (∀ j, P.refreshes j = false → ((c.next (serve env) i .ok op k).prog j).Uses Elsewhere) ∧
    ∀ j, P.refreshes j = true →
      ((c.next (serve env) i .ok op k).prog j = Job.updateMapping.program env ∧
        ∀ ev ∈ (c.next (serve env) i .ok op k).hist, ev.tid ≠ j) ∨
      ((∃ ev ∈ (c.next (serve env) i .ok op k).hist, ev.tid = j) ∧
        (Scan ((c.next (serve env) i .ok op k).prog j) ∨
          ∃ e, (c.next (serve env) i .ok op k).prog j = .throw e)) := by
  refine ⟨fun j hj => ?_, fun j hj => ?_⟩
  · rw [Config.next_prog_of_ne (by intro heq; rw [heq, hi] at hj; cases hj)]
    exact h.change j hj
  · by_cases hji : j = i
    · subst hji
      rw [Config.next_prog_self]
      exact Or.inr ⟨⟨_, List.mem_cons_self, rfl⟩, hk⟩
    · rw [Config.next_prog_of_ne hji]
      rcases h.refresh j hj with ⟨hstart, hnone⟩ | ⟨⟨ev, hev, htid⟩, hwhere⟩
      · refine Or.inl ⟨hstart, fun ev hev => ?_⟩
        rcases List.mem_cons.mp hev with rfl | hev
        · exact fun heq => hji heq.symm
        · exact hnone ev hev
      · exact Or.inr ⟨⟨ev, List.mem_cons_of_mem _ hev, htid⟩, hwhere⟩

/-- A refresh begins: nothing is changed yet after it asked for the keys. -/
theorem UpToDate.keys_step {c : System} (h : UpToDate P c) {i : Nat}
    {k : Except CallError (Op.kvKeys .subscriptions).Res → Coro Reply} (hi : P.refreshes i = true)
    (hlast : ∀ ev ∈ c.hist, P.refreshes ev.tid = true → ev.tid ≤ i)
    (hp : c.prog i = .await (.kvKeys .subscriptions) k)
    (hstart : c.prog i = Job.updateMapping.program env) (hk : ∀ keys, Scan (k (.ok keys))) :
    UpToDate P (c.next (serve env) i .ok (.kvKeys .subscriptions) k) := by
  have hprograms := h.programs P (k := k) hi (Or.inl (hk _))
  have hscans : scans (c.next (serve env) i .ok (.kvKeys .subscriptions) k).hist =
      i :: scans c.hist := by
    simp [scans, changesRecords, asksForKeys]
  refine ⟨hprograms.1, hprograms.2, fun j hj => ?_, fun j hj ev hev hrefresh hnot => ?_⟩
  · by_cases hji : j = i
    · subst hji
      rw [Config.next_prog_self]
      have hfresh := fresh_start env j c.world
      rw [← hstart, hp] at hfresh
      exact ⟨hi, hfresh.next⟩
    · rw [Config.next_prog_of_ne hji]
      rw [hscans] at hj
      exact h.fresh j ((List.mem_cons.mp hj).resolve_left hji)
  · rw [hscans] at hj hnot
    rw [List.mem_cons, not_or] at hnot
    have hold := (List.mem_cons.mp hev).resolve_left fun heq => hnot.1 (heq ▸ rfl)
    rcases List.mem_cons.mp hj with rfl | hj
    · exact lt_of_le_of_ne (hlast ev hold hrefresh) hnot.1
    · exact h.order j hj ev hold hrefresh hnot.2

/-- A refresh goes on. If it began before the last change, no other one has begun since. -/
theorem UpToDate.scan_step {c : System} (h : UpToDate P c) {i : Nat} {op : Op}
    {k : Except CallError op.Res → Coro Reply} (hi : P.refreshes i = true)
    (hlast : ∀ ev ∈ c.hist, P.refreshes ev.tid = true → ev.tid ≤ i)
    (hbegan : ∃ ev ∈ c.hist, ev.tid = i) (hp : c.prog i = .await op k)
    (hop : changesRecords op = false ∧ asksForKeys op = false)
    (hk : Scan (k (answer env i op c.world).1) ∨ ∃ e, k (answer env i op c.world).1 = .throw e)
    (hother : i ∈ scans c.hist → ∀ j ∈ scans c.hist, j ≠ i →
      Fresh env j (c.prog j) (answer env i op c.world).2) :
    UpToDate P (c.next (serve env) i .ok op k) := by
  have hprograms := h.programs P (k := k) hi hk
  have hscans : scans (c.next (serve env) i .ok op k).hist = scans c.hist := by
    simp [scans, hop.1, hop.2]
  obtain ⟨ev₀, hev₀, htid₀⟩ := hbegan
  -- Whoever has begun since would come after this one, and this one is the last.
  have hstale : i ∉ scans c.hist → ∀ j, j ∉ scans c.hist := by
    intro hnot j hj
    obtain ⟨ev, hev, htid⟩ := mem_scans hj
    have hlt := h.order j hj ev₀ hev₀ (htid₀ ▸ hi) (htid₀ ▸ hnot)
    have hle := hlast ev hev (htid ▸ (h.fresh j hj).1)
    omega
  refine ⟨hprograms.1, hprograms.2, fun j hj => ?_, fun j hj ev hev hrefresh hnot => ?_⟩
  · rw [hscans] at hj
    have hmem : i ∈ scans c.hist := by
      by_contra hnot
      exact hstale hnot j hj
    by_cases hji : j = i
    · subst hji
      rw [Config.next_prog_self]
      have hfresh := (h.fresh j hj).2
      rw [hp] at hfresh
      exact ⟨hi, hfresh.next⟩
    · rw [Config.next_prog_of_ne hji]
      exact ⟨(h.fresh j hj).1, hother hmem j hj hji⟩
  · rw [hscans] at hj hnot
    rcases List.mem_cons.mp hev with rfl | hev
    · exact absurd hj (hstale hnot j)
    · exact h.order j hj ev hev hrefresh hnot

/-- **Every step of a run whose refreshes come one after the other keeps it.** -/
theorem UpToDate.step {c d : System} {l : Nat × Fault Outage} (h : UpToDate P c)
    (hserial : OneByOne P c l) (hs : c.step (serve env) l = some d) : UpToDate P d := by
  obtain ⟨op, k, hp, rfl⟩ := Config.step_cases hs
  obtain ⟨i, f⟩ := l
  cases hi : P.refreshes i with
  | false => exact h.change_step P hi hp
  | true =>
    obtain ⟨hok, hlast⟩ := hserial hi
    obtain rfl := Fault.eq_ok hok
    rcases h.refresh i hi with ⟨hstart, hnone⟩ | ⟨hbegan, hscan | ⟨e, hthrow⟩⟩
    · obtain ⟨k', hprogram, hk'⟩ := updateMapping_program env
      have heq := hp.symm.trans (hstart.trans hprogram)
      cases heq
      exact h.keys_step P hi hlast hp hstart hk'
    · have hscan' : Scan (.await op k) := hp ▸ hscan
      cases hscan' with
      | @get key k hok herror =>
        have hworld : (answer env i (.kvGet .subscriptions key) c.world).2 = c.world :=
          kvGet_world env i c.world .subscriptions key
        refine h.scan_step P hi hlast hbegan hp ⟨rfl, rfl⟩ ?_ fun _ j hj _ => ?_
        · cases (answer env i (.kvGet .subscriptions key) c.world).1 with
          | ok e => exact Or.inl (hok e)
          | error x => exact Or.inr ⟨_, herror x⟩
        · rw [hworld]
          exact (h.fresh j hj).2
      | @set mapping k hok =>
        refine h.scan_step P hi hlast hbegan hp ⟨rfl, rfl⟩ (Or.inl (hok ▸ .ended)) ?_
        -- The mapping it sets is right, and so the others stay fresh.
        intro hmem j hj hji
        have hset := (h.fresh i hmem).2
        rw [hp] at hset
        have hagrees : Agrees { c.world with mapping := mapping } := (hok ▸ hset.next).agrees
        have hsame : ({ c.world with mapping := mapping } : World).bucket .subscriptions =
            c.world.bucket .subscriptions := rfl
        exact (h.scan_of_mem P hj).fresh_of hsame (fun _ => hagrees) (h.fresh j hj).2
    · rw [hp] at hthrow
      cases hthrow

/-! ## Which refreshes complete -/

/-! A call of a refresh can only fail in one way, as nothing is lost: the record is gone. So raising
is the same as reading what is not there, step by step, and over a run both sides of the equivalence
fail at the same step. -/

/-- A scan has not raised. -/
theorem Scan.ne_throw {p : Coro Reply} (h : Scan p) (e : Exc) : p ≠ .throw e := by
  cases h <;> exact nofun

/-- A step of a refresh raises exactly when the record it asks for is gone. -/
theorem raises_iff {c : System} (h : UpToDate P c) (hnone : NoneRaised P c) {i : Nat} {op : Op}
    {k : Except CallError op.Res → Coro Reply} (hi : P.refreshes i = true)
    (hp : c.prog i = .await op k) :
    (∀ e, k (answer env i op c.world).1 ≠ .throw e) ↔ recordThere c.world (some op) = true := by
  -- Before its first call a refresh cannot raise; in a scan it is the record that decides.
  rcases h.refresh i hi with ⟨hstart, -⟩ | ⟨-, hscan | ⟨e, hthrow⟩⟩
  · obtain ⟨k', hprogram, hk'⟩ := updateMapping_program env
    cases hp.symm.trans (hstart.trans hprogram)
    exact ⟨fun _ => rfl, fun _ => (hk' _).ne_throw⟩
  · have hscan' : Scan (.await op k) := hp ▸ hscan
    cases hscan' with
    | @get key k hok herror =>
      cases hget : (c.world.bucket .subscriptions).get? key with
      | none =>
        have hmissing : (answer env i (.kvGet .subscriptions key) c.world).1 =
            .error .keyNotFound := by
          simp only [answer, hget]
        have hrecord : c.world.record key = none := Store.Bucket.value?_eq_none.mpr hget
        rw [hmissing, herror]
        simp [recordThere, hrecord]
      | some e =>
        have hfound : (answer env i (.kvGet .subscriptions key) c.world).1 = .ok e := by
          simp only [answer, hget]
        have hrecord : c.world.record key = some e.value := by
          simp [World.record, Store.Bucket.value?, hget]
        rw [hfound]
        exact ⟨fun _ => by simp [recordThere, hrecord], fun _ => (hok e).ne_throw⟩
    | @set mapping k hok =>
      refine ⟨fun _ => rfl, fun _ e => ?_⟩
      intro hthrow
      cases hok.symm.trans hthrow
  · exact absurd hthrow (hnone i e hi)

/-- **A refresh survives the changes around it exactly when each record it asks for is still
there.** In every run, no refresh raises and every settled mapping agrees with the bucket, exactly
when that is so whenever a refresh reads. -/
theorem refresh_safe_iff (w : World) {ls : Schedule}
    (hserial : (Config.init w P.start : System).Along (serve env) (OneByOne P) ls) :
    (Config.init w P.start : System).Always (serve env)
      (fun c => NoneRaised P c ∧ (Settled c → Agrees c.world)) ls ↔
    (Config.init w P.start : System).Along (serve env) (ReadsWhatIsThere P) ls := by
  -- A step that cannot be taken reads nothing.
  have hstuck : ∀ (c : System) l, c.step (serve env) l = none → ReadsWhatIsThere P c l := by
    intro c l hs _
    have hover : (c.prog l.1).next? = none := Config.finished_of_stuck hs
    rw [hover]
    rfl
  refine Config.always_iff_along_of (I := UpToDate P) (H := OneByOne P)
    (fun c l d hc hl hs => hc.step P hl hs) hstuck ?_ hserial (upToDate_init P w) ?_
  · intro c l d hc hl hsafe hs
    have hd := hc.step P hl hs
    obtain ⟨op, k, hp, rfl⟩ := Config.step_cases hs
    obtain ⟨i, f⟩ := l
    unfold ReadsWhatIsThere
    -- The agreement follows from the invariant; only the raising depends on the step.
    rw [hp, next?_await]
    constructor
    · intro hafter hi
      obtain rfl := Fault.eq_ok (hl hi).1
      apply (raises_iff P hc hsafe.1 hi hp).mp
      intro e
      have hthis := hafter.1 i e hi
      rw [Config.next_prog_self] at hthis
      exact hthis
    · intro hthere
      refine ⟨fun j e hj => ?_, hd.agrees P⟩
      by_cases hji : j = i
      · subst hji
        obtain rfl := Fault.eq_ok (hl hj).1
        rw [Config.next_prog_self]
        exact (raises_iff P hc hsafe.1 hj hp).mpr (hthere hj) e
      · rw [Config.next_prog_of_ne hji]
        exact hsafe.1 j e hj
  · refine ⟨fun i e hi => ?_, (upToDate_init P w).agrees P⟩
    obtain ⟨k, hprogram, -⟩ := updateMapping_program env
    show P.start i ≠ .throw e
    rw [P.refresh i hi, hprogram]
    exact nofun

/-! ## The jobs of the services -/

/-! None of the other jobs makes the two calls that only a refresh makes. Their other calls may do
what they like with the records. -/

-- From here on one lemma for the calls of each kind of job.
theorem elsewhere_status {name : String} {status : FillQueueStatus} {op : Op}
    (h : StatusCall name status op) : Elsewhere op := by
  cases h <;> exact ⟨nofun, nofun⟩

theorem elsewhere_auth {username : String} {op : Op} (h : AuthCall username op) :
    Elsewhere op := by
  cases h <;> exact ⟨nofun, nofun⟩

theorem elsewhere_create {sub : NewSubscription} {op : Op} (h : CreateCall sub op) :
    Elsewhere op := by
  cases h <;> exact ⟨nofun, nofun⟩

theorem elsewhere_delete {name : String} {op : Op} (h : DeleteCall name op) : Elsewhere op := by
  cases h <;> exact ⟨nofun, nofun⟩

theorem elsewhere_prefill {op : Op} (h : PrefillCall op) : Elsewhere op := by
  cases h with
  | handle name h =>
    cases h with
    | status status _ h => exact elsewhere_status h
    | _ => exact ⟨nofun, nofun⟩
  | _ => exact ⟨nofun, nofun⟩

theorem elsewhere_next {name : String} {op : Op} (h : NextCall name op) : Elsewhere op := by
  cases h with
  | message h => cases h <;> exact ⟨nofun, nofun⟩
  | _ => exact ⟨nofun, nofun⟩

theorem elsewhere_prepare {queue : String} {op : Op} (h : PrepareCall queue op) :
    Elsewhere op := by
  cases h <;> exact ⟨nofun, nofun⟩

/-- Only a refresh, and the start of the dispatcher, which makes one, issue its calls. -/
theorem elsewhere_job {job : Job} (hrefresh : job ≠ .updateMapping)
    (hstart : job ≠ .dispatcherStart) : (job.program env).Uses Elsewhere := by
  apply (uses_program env job).mono
  intro op hop
  cases job with
  | create salt sub => exact elsewhere_create hop
  | delete settings salt credentials name =>
    cases hop with
    | auth hop => exact elsewhere_auth hop
    | delete hop => exact elsewhere_delete hop
  | deleteService name => exact elsewhere_delete hop
  | setStatus name status => exact elsewhere_status hop
  | authenticate salt credentials subscriptionName => exact elsewhere_auth hop
  | getNext name rounds pop => exact elsewhere_next hop
  | postStatus name seqNum status => cases hop <;> exact ⟨nofun, nofun⟩
  | postEvent m => exact hop ▸ ⟨nofun, nofun⟩
  | prefill => exact elsewhere_prefill hop
  | dispatch => cases hop <;> exact ⟨nofun, nofun⟩
  | updateMapping => exact absurd rfl hrefresh
  | dispatcherStart => exact absurd rfl hstart
  | prefillStart => exact hop.elim elsewhere_prepare elsewhere_prepare
  | transform => cases hop <;> exact ⟨nofun, nofun⟩
  | ackWaitExpires stream durable => exact hop ▸ ⟨nofun, nofun⟩
  | passwordCacheExpires password hash subscription => exact hop ▸ ⟨nofun, nofun⟩
  | idle => exact hop.elim

def Job.refreshesMapping : Job → Bool
  | .updateMapping => true
  | _ => false

/-- Any jobs of the services, once the dispatcher has started. -/
def Refreshing.ofJobs (env : Env) (jobs : Nat → Job) (h : ∀ i, jobs i ≠ .dispatcherStart) :
    Refreshing env where
  start i := (jobs i).program env
  refreshes i := (jobs i).refreshesMapping
  refresh i hi := by
    unfold Job.refreshesMapping at hi
    split at hi
    · next hjob => rw [hjob]
    · cases hi
  change i hi := elsewhere_job (fun hjob => by rw [hjob] at hi; cases hi) (h i)

/-! ## A deletion in the middle of a refresh -/

def deletionJobs : List Job := [.updateMapping, .deleteService "a", .updateMapping]

def Refreshing.withDeletion : Refreshing .sample :=
  .ofJobs .sample (Job.pool deletionJobs)
    (Job.pool_forall (P := (· ≠ .dispatcherStart)) (by simp [deletionJobs]) nofun)

instance (c : System) (l : Nat × Fault Outage) : Decidable (OneByOne P c l) :=
  inferInstanceAs (Decidable (_ → _))

instance (c : System) (l : Nat × Fault Outage) : Decidable (ReadsWhatIsThere P c l) :=
  inferInstanceAs (Decidable (_ → _))

/-- The deletion comes after the record was read: what is stored is stale, and the next refresh
mends it. -/
theorem refresh_safe_stale :
    (Config.init .registered Refreshing.withDeletion.start : System).Always (serve .sample)
      (fun c => NoneRaised .withDeletion c ∧ (Settled c → Agrees c.world))
      [(0, .ok), (0, .ok), (1, .ok), (1, .ok), (1, .ok), (0, .ok), (2, .ok), (2, .ok)] :=
  (refresh_safe_iff .withDeletion .registered (by decide +kernel)).mpr (by decide +kernel)

/-- It comes between the keys and the record. -/
theorem not_refresh_safe : ¬ ∀ (env : Env) (P : Refreshing env) (w : World) (ls : Schedule),
    (Config.init w P.start : System).Along (serve env) (OneByOne P) ls →
    (Config.init w P.start : System).Always (serve env)
      (fun c => NoneRaised P c ∧ (Settled c → Agrees c.world)) ls := by
  intro h
  have hsafe := h .sample .withDeletion .registered
    [(0, .ok), (1, .ok), (1, .ok), (1, .ok), (0, .ok)] (by decide +kernel)
  obtain ⟨d, hrun, hraised⟩ : ∃ d,
      (Config.init .registered Refreshing.withDeletion.start : System).run (serve .sample)
        [(0, .ok), (1, .ok), (1, .ok), (1, .ok), (0, .ok)] = some d ∧
      d.prog 0 = .throw (.call .keyNotFound) :=
    ⟨_, rfl, rfl⟩
  exact (hsafe.run hrun).1 0 _ rfl hraised

end Provisioning
