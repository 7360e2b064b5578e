import Provisioning.Properties.DeletionFinal

/-!
# The password cache is not seen

A verification takes long on purpose, so `authenticate_user` keeps its results: a table under the
password, the hash and the subscription name, which all requests share and which loses entries as it
likes. Refusals are stored as well, and taken out right after.

`password_cache_transparent` says that nobody can tell: whoever authenticates, and whatever becomes
of the credentials meanwhile, a call succeeds by the hash it has read alone. The hash is part of the
key, so an entry never outlives what it is about.

## Two invariants

The table and the calls are looked at apart. `CacheSound` is about the table: each stored result is
what a verification of the same password and hash would give *now*. As a verification depends on
nothing else, this can only be broken by storing something wrong, and no call does.

`LoginAt` is about one call: it lists where the call can be, and for each place what the history of
its own answers says already. The result is not decided where the thread ends but where it leaves
the verification, so the places after it carry the verdict with them (`haccepted`, `hrefused`). The
hash it speaks of is the one the call *has read*, which by then need not be the one in the bucket; a
deletion or a new registration between the two is allowed, and it is why the theorem is stated over
the history.

## The refusals

That no refusal stays in the table holds of no single moment, because it is stored by one call and
taken out by the next, and any number of threads may be between the two. So what is invariant is
that every stored refusal has somebody who is just about to take it out (`CacheUnseen.popped`). It
need not be the one who stored it: another thread with the same password and name may find it in the
table, and then pops it too.
-/

namespace Provisioning

open Await Store Prog

/-! ## Calls of `authenticate_user` -/

/-! What is read off the history here is what *one* thread was answered. Others make calls in
between, and these do not count. -/

/-- What `authenticate_user` is called with, and the salt a new hash draws. -/
structure Login where
  salt : String
  credentials : HTTPBasicCredentials
  subscriptionName : Option String

/-- Thread `i` authenticates, or does something else. -/
def authStart (env : Env) (logins : Nat → Option Login) (others : Nat → Coro Reply) (i : Nat) :
    Coro Reply :=
  match logins i with
  | some login =>
    (Job.authenticate login.salt login.credentials login.subscriptionName).program env
  | none => others i

/-- The result of a verification is looked up, and stored if it is not there. -/
def Op.verifies : Op → Bool
  | .verifyCached .. => true
  | _ => false

/-- A function call of the process itself, which is no request and does not get lost. -/
def Op.inProcess : Op → Bool
  | .verifyCached .. => true
  | .cachePop .. => true
  | _ => false

def NotLost (c : System) (l : Nat × Fault Outage) : Prop :=
  (c.prog l.1).next?.any Op.inProcess = true → l.2.isOk = true

/-- The hash that a look at the user's credentials is answered with. -/
def hashHeard (username : String) : (op : Op) → Except CallError op.Res → Option String
  | .kvGet .credentials key, .ok e => if key = username then some e.value else none
  | _, _ => none

/-- The hash that thread `i` has read for the user. -/
def hashRead (i : Nat) (username : String) (hist : History) : Option String :=
  hist.findSome? fun ev => if ev.tid = i then hashHeard username ev.op ev.heard else none

/-- None of the thread's calls was lost. -/
def Unharmed (i : Nat) (hist : History) : Prop :=
  ∀ ev ∈ hist, ev.tid = i → ev.fault = .ok

/-- The subscription is the user's own, or none is asked for; an empty name asks for none. -/
def Login.Admitted (login : Login) : Prop :=
  login.subscriptionName = none ∨ login.subscriptionName = some "" ∨
    login.subscriptionName = some login.credentials.username

/-- There is a hash, and it verifies the password. -/
def Login.Accepted (env : Env) (login : Login) (hashed : Option String) : Prop :=
  ∃ hash, hashed = some hash ∧ env.verify login.credentials.password hash = true

/-- The call is in the middle of refusing: the result is stored, and about to be taken out. -/
def BetweenSteps (p : Coro Reply) : Prop :=
  ∃ password hash subscription, p.next? = some (.cachePop password hash subscription)

section Histories

variable {i : Nat} {username : String} {hist : History}
  {ev : Event Op Op.Res CallError Outage World}

/-- What others hear is not what this thread has read. -/
theorem hashRead_cons_of_ne (username : String) (hist : History) (h : ev.tid ≠ i) :
    hashRead i username (ev :: hist) = hashRead i username hist := by
  unfold hashRead
  rw [List.findSome?_cons, if_neg h]

/-- Nor does a call of its own that reads no hash of the user change it. -/
theorem hashRead_cons_of_none (h : hashHeard username ev.op ev.heard = none) :
    hashRead i username (ev :: hist) = hashRead i username hist := by
  unfold hashRead
  rw [List.findSome?_cons, h, ite_self]

/-- The last answer counts. -/
theorem hashRead_cons_of_some {hash : String} (htid : ev.tid = i)
    (h : hashHeard username ev.op ev.heard = some hash) :
    hashRead i username (ev :: hist) = some hash := by
  unfold hashRead
  rw [List.findSome?_cons, if_pos htid, h]

/-- A thread that has made no call has read nothing. -/
theorem hashRead_of_new (h : ∀ ev ∈ hist, ev.tid ≠ i) : hashRead i username hist = none := by
  unfold hashRead
  rw [List.findSome?_eq_none_iff]
  intro ev hev
  exact if_neg (h ev hev)

theorem Unharmed.cons (h : Unharmed i hist) (hev : ev.tid = i → ev.fault = .ok) :
    Unharmed i (ev :: hist) := by
  intro ev' hmem htid
  rcases List.mem_cons.mp hmem with rfl | hmem
  · exact hev htid
  · exact h ev' hmem htid

theorem unharmed_of_new (h : ∀ ev ∈ hist, ev.tid ≠ i) : Unharmed i hist :=
  fun ev hev htid => absurd htid (h ev hev)

end Histories

/-- The verdict as the code computes it. -/
theorem accepted_iff {env : Env} {login : Login} {hashed : Option String} :
    login.Accepted env hashed ↔ env.verifyPassword login.credentials.password hashed = true := by
  cases hashed with
  | none => exact iff_of_false (fun ⟨_, h, _⟩ => nomatch h) nofun
  | some hash =>
    constructor
    · intro ⟨hash', heq, h⟩
      rw [Option.some.inj heq]
      exact h
    · exact fun h => ⟨hash, rfl, h⟩

/-! ## The table -/

/-! The key has the subscription in it too, although no verification depends on it. For the table to
be sound it is enough that the password and the hash are there. -/

/-- Every stored result is the one a verification gives now. -/
def CacheSound (env : Env) (w : World) : Prop :=
  ∀ x ∈ w.passwordCache, x.2.1 = env.verifyPassword x.1.1 x.1.2.1

section Table

variable {env : Env} {w : World}

/-- A new hash may come along with the verdict, but it is not part of it. -/
theorem verifyAndUpdate_fst (salt password : String) (hashed : Option String) :
    (env.verifyAndUpdate salt password hashed).1 = env.verifyPassword password hashed := by
  unfold Env.verifyAndUpdate Env.verifyPassword
  cases hashed with
  | none => rfl
  | some hash =>
    dsimp only
    cases hverify : env.verify password hash with
    | false => rfl
    | true => cases env.needsUpdate hash password <;> rfl

/-- **No call stores anything wrong.** -/
theorem CacheSound.answer (h : CacheSound env w) (tid : Nat) (op : Op) :
    CacheSound env (answer env tid op w).2 := by
  intro x hx
  rcases passwordCache_answer env tid op w hx with hold | ⟨salt, password, hash, sub, -, rfl⟩
  · exact h x hold
  · exact verifyAndUpdate_fst ..

/-- A password that makes the verification raise would not have passed it. -/
theorem verifyPassword_of_raises {password : String} {hashed : Option String}
    (h : env.raises password hashed = true) : env.verifyPassword password hashed = false := by
  cases hashed with
  | none => rfl
  | some hash => exact env.verify_refused password hash h

/-- **The table is not seen**: from it or not, the result is that of the password and the hash. A
verification that raises has none, and would have refused. -/
theorem CacheSound.verifyCached (h : CacheSound env w) (tid : Nat) (salt password : String)
    (hashed subscription : Option String) :
    (∃ r, (Provisioning.answer env tid (.verifyCached salt password hashed subscription) w).1 =
      .ok r ∧ r.1 = env.verifyPassword password hashed) ∨
    Provisioning.answer env tid (.verifyCached salt password hashed subscription) w =
      (.error .passwordValue, w) ∧ env.verifyPassword password hashed = false := by
  simp only [Provisioning.answer]
  split
  · next r hlookup =>
    obtain ⟨l₁, l₂, hsplit, -⟩ := List.lookup_eq_some_iff.mp hlookup
    have hmem : ((password, hashed, subscription), r) ∈ w.passwordCache := by
      rw [hsplit]
      exact List.mem_append_right _ List.mem_cons_self
    exact Or.inl ⟨r, rfl, h _ hmem⟩
  · split
    · next hraises => exact Or.inr ⟨rfl, verifyPassword_of_raises hraises⟩
    · exact Or.inl ⟨_, rfl, verifyAndUpdate_fst ..⟩

end Table

/-! ## Where a call is -/

/-- What follows the verification, to the end of the thread. -/
def afterLookup (login : Login) (hashed : Option String) (r : Bool × Option String) : Coro Reply :=
  (afterVerification login.credentials hashed login.subscriptionName r).bind fun _ =>
    .pure .finished

/-- The call from the verification on. -/
def verification (login : Login) (hashed : Option String) : Coro Reply :=
  (request (.verifyCached login.salt login.credentials.password hashed
    login.subscriptionName)).bind (afterLookup login hashed)

/-- Where thread `i` can be with its call: it reads the hash, verifies the password, and stores a
new hash or takes the result out again. -/
inductive LoginAt (env : Env) (i : Nat) (login : Login) (hist : History) : Coro Reply → Prop where
  | reading (hadmitted : login.Admitted) (hnew : ∀ ev ∈ hist, ev.tid ≠ i) :
      LoginAt env i login hist
        ((getValue login.credentials.username .credentials).bind (verification login))
  | verifying (hadmitted : login.Admitted) (hunharmed : Unharmed i hist) :
      LoginAt env i login hist
        (verification login (hashRead i login.credentials.username hist))
  | storing (hadmitted : login.Admitted) (hunharmed : Unharmed i hist) (hash : String)
      (haccepted : login.Accepted env (hashRead i login.credentials.username hist)) :
      LoginAt env i login hist ((request (.kvPut .credentials login.credentials.username hash)).bind
        fun _ => .pure .finished)
  | refusing (hashed : Option String)
      (hrefused : ¬ login.Accepted env (hashRead i login.credentials.username hist)) :
      LoginAt env i login hist
        ((request (.cachePop login.credentials.password hashed login.subscriptionName)).bind
          fun _ => .throw (.httpException 401 "Incorrect username or password"))
  | succeeded (hadmitted : login.Admitted) (hunharmed : Unharmed i hist)
      (haccepted : login.Accepted env (hashRead i login.credentials.username hist)) :
      LoginAt env i login hist (.pure .finished)
  | refused (e : Exc) (hrefused : ¬ (login.Admitted ∧
      login.Accepted env (hashRead i login.credentials.username hist))) :
      LoginAt env i login hist (.throw e)
  | lost (e : Exc) (hharmed : ¬ Unharmed i hist) : LoginAt env i login hist (.throw e)

section LoginAt

variable {env : Env} {i : Nat} {login : Login} {hist : History}

/-- The names that `authenticate_user` does not refuse at once. -/
theorem admitted_iff : login.Admitted ↔
    login.subscriptionName.any (fun n => n != "" && n != login.credentials.username) = false := by
  unfold Login.Admitted
  cases login.subscriptionName with
  | none => exact iff_of_true (Or.inl rfl) rfl
  | some n => simp [or_iff_not_imp_left]

/-- At the beginning, a call that asks for another's subscription has been refused already, without
having read anything. -/
theorem loginAt_start (hnew : ∀ ev ∈ hist, ev.tid ≠ i) : LoginAt env i login hist
    ((Job.authenticate login.salt login.credentials login.subscriptionName).program env) := by
  show LoginAt env i login hist
    ((authenticateUser login.salt login.credentials login.subscriptionName).bind fun _ =>
      Prog.pure Reply.finished)
  rw [authenticateUser_eq]
  cases hcheck : login.subscriptionName.any
      (fun n => n != "" && n != login.credentials.username) with
  | true =>
    refine .refused _ fun h => ?_
    rw [admitted_iff.mp h.1] at hcheck
    cases hcheck
  | false =>
    have hrest : ∀ hashed, ((request (.verifyCached login.salt login.credentials.password hashed
        login.subscriptionName)).bind
          (afterVerification login.credentials hashed login.subscriptionName)).bind
        (fun _ => Prog.pure Reply.finished) = verification login hashed :=
      fun hashed => Prog.bind_assoc ..
    rw [if_neg nofun, Prog.bind_assoc, funext hrest]
    exact .reading (admitted_iff.mpr hcheck) hnew

/-- Somebody else's call changes nothing. -/
theorem LoginAt.other {p : Coro Reply} {ev : Event Op Op.Res CallError Outage World}
    (h : LoginAt env i login hist p) (hev : ev.tid ≠ i) : LoginAt env i login (ev :: hist) p := by
  have hread := hashRead_cons_of_ne login.credentials.username hist hev
  have hkeep : Unharmed i hist → Unharmed i (ev :: hist) :=
    fun h => h.cons fun htid => absurd htid hev
  cases h with
  | reading hadmitted hnew =>
    refine .reading hadmitted fun ev' hmem => ?_
    rcases List.mem_cons.mp hmem with rfl | hmem
    · exact hev
    · exact hnew ev' hmem
  | verifying hadmitted hunharmed =>
    rw [← hread]
    exact .verifying hadmitted (hkeep hunharmed)
  | storing hadmitted hunharmed hash haccepted =>
    exact .storing hadmitted (hkeep hunharmed) hash (hread ▸ haccepted)
  | refusing hashed hrefused => exact .refusing hashed (hread ▸ hrefused)
  | succeeded hadmitted hunharmed haccepted =>
    exact .succeeded hadmitted (hkeep hunharmed) (hread ▸ haccepted)
  | refused e hrefused => exact .refused e (hread ▸ hrefused)
  | lost e hharmed =>
    exact .lost e fun h => hharmed fun ev' hmem => h ev' (List.mem_cons_of_mem ev hmem)

/-- A lost call ends the thread. -/
theorem loginAt_lost {f : Fault Outage} {ev : Event Op Op.Res CallError Outage World} (e : Exc)
    (htid : ev.tid = i) (hfault : ev.fault = f) (hf : f ≠ .ok) :
    LoginAt env i login (ev :: hist) (.throw e) :=
  .lost e fun h => hf (hfault ▸ h ev List.mem_cons_self htid)

/-- What the thread goes on with when it has its result. -/
theorem loginAt_afterLookup {hashed : Option String} {r : Bool × Option String}
    (hadmitted : login.Admitted) (hunharmed : Unharmed i hist)
    (hhashed : hashRead i login.credentials.username hist = hashed)
    (hr : r.1 = env.verifyPassword login.credentials.password hashed) :
    LoginAt env i login hist (afterLookup login hashed r) := by
  obtain ⟨valid, newHash⟩ := r
  subst hhashed
  dsimp only at hr
  cases valid with
  | false =>
    have hrefused : ¬ login.Accepted env (hashRead i login.credentials.username hist) := by
      rw [accepted_iff, ← hr]
      nofun
    have hpop : afterLookup login (hashRead i login.credentials.username hist) (false, newHash) =
        (request (.cachePop login.credentials.password
          (hashRead i login.credentials.username hist) login.subscriptionName)).bind fun _ =>
            .throw (.httpException 401 "Incorrect username or password") :=
      Prog.bind_assoc ..
    rw [hpop]
    exact .refusing _ hrefused
  | true =>
    have haccepted := accepted_iff.mpr hr.symm
    cases newHash with
    | none => exact .succeeded hadmitted hunharmed haccepted
    | some newHash =>
      by_cases hne : newHash = ""
      · subst hne
        exact .succeeded hadmitted hunharmed haccepted
      · have hput : afterVerification login.credentials (hashRead i login.credentials.username hist)
            login.subscriptionName (true, some newHash) =
              request (.kvPut .credentials login.credentials.username newHash) := by
          simp [afterVerification, putValue, Bucket.Val.empty, hne]
        unfold afterLookup
        rw [hput]
        exact .storing hadmitted hunharmed newHash haccepted

/-- **A step of a call.** -/
theorem LoginAt.next {op : Op} {k : Except CallError op.Res → Coro Reply} {w : World}
    {f : Fault Outage} (h : LoginAt env i login hist (.await op k)) (hsound : CacheSound env w) :
    LoginAt env i login (⟨i, op, f, w, (serve env).heard i op w f⟩ :: hist)
      (k ((serve env).heard i op w f)) := by
  generalize hp : Prog.await op k = p at h
  cases h with
  | reading hadmitted hnew =>
    rw [getValue_bind] at hp
    cases hp
    cases f with
    | before e => cases e <;> exact loginAt_lost _ rfl rfl (Fault.before_ne_ok _)
    | after e => cases e <;> exact loginAt_lost _ rfl rfl (Fault.after_ne_ok _)
    | ok =>
      -- What is read is either a hash or that there is none; the program goes on with both.
      have hgoesOn : ∀ (r : Except CallError (Store.Entry String)) (hashed : Option String),
          hashRead i login.credentials.username (⟨i, .kvGet .credentials
            login.credentials.username, .ok, w, r⟩ :: hist) = hashed →
          LoginAt env i login (⟨i, .kvGet .credentials login.credentials.username, .ok, w, r⟩ ::
            hist) (verification login hashed) := by
        intro r hashed hread
        rw [← hread]
        exact .verifying hadmitted ((unharmed_of_new hnew).cons fun _ => rfl)
      rw [Server.heard_ok, serve_answer]
      cases hget : (w.bucket .credentials).get? login.credentials.username with
      | none =>
        have hr : (answer env i (.kvGet .credentials login.credentials.username) w).1 =
            .error .keyNotFound := by simp only [answer, hget]
        rw [hr]
        exact hgoesOn _ none ((hashRead_cons_of_none rfl).trans (hashRead_of_new hnew))
      | some e =>
        have hr : (answer env i (.kvGet .credentials login.credentials.username) w).1 = .ok e := by
          simp only [answer, hget]
        rw [hr]
        exact hgoesOn _ (some e.value) (hashRead_cons_of_some rfl (if_pos rfl))
  | verifying hadmitted hunharmed =>
    cases hp
    cases f with
    | before e => exact loginAt_lost _ rfl rfl (Fault.before_ne_ok e)
    | after e => exact loginAt_lost _ rfl rfl (Fault.after_ne_ok e)
    | ok =>
      rcases hsound.verifyCached i login.salt login.credentials.password
        (hashRead i login.credentials.username hist) login.subscriptionName with
        ⟨r, hr, hvalid⟩ | ⟨hraises, hrefused⟩
      · rw [Server.heard_ok, serve_answer, hr]
        exact loginAt_afterLookup hadmitted (hunharmed.cons fun _ => rfl)
          (hashRead_cons_of_none rfl) hvalid
      · rw [Server.heard_ok, serve_answer, hraises]
        refine .refused _ fun h => ?_
        rw [hashRead_cons_of_none rfl, accepted_iff, hrefused] at h
        cases h.2
  | storing hadmitted hunharmed hash haccepted =>
    cases hp
    cases f with
    | before e => exact loginAt_lost _ rfl rfl (Fault.before_ne_ok e)
    | after e => exact loginAt_lost _ rfl rfl (Fault.after_ne_ok e)
    | ok =>
      refine .succeeded hadmitted (hunharmed.cons fun _ => rfl) ?_
      rw [hashRead_cons_of_none rfl]
      exact haccepted
  | refusing hashed hrefused =>
    cases hp
    have hkept : ∀ r, hashRead i login.credentials.username (⟨i, .cachePop
        login.credentials.password hashed login.subscriptionName, f, w, r⟩ :: hist) =
          hashRead i login.credentials.username hist :=
      fun r => hashRead_cons_of_none rfl
    cases (serve env).heard i (.cachePop login.credentials.password hashed
        login.subscriptionName) w f with
    | ok r => exact .refused _ fun h => hrefused (hkept _ ▸ h.2)
    | error e => exact .refused _ fun h => hrefused (hkept _ ▸ h.2)
  | succeeded => cases hp
  | refused => cases hp
  | lost => cases hp

/-- A refusal that is stored is taken out next. -/
theorem LoginAt.pops {salt password : String} {hashed subscription : Option String}
    {k : Except CallError (Op.verifyCached salt password hashed subscription).Res → Coro Reply}
    {r : Bool × Option String}
    (h : LoginAt env i login hist (.await (.verifyCached salt password hashed subscription) k))
    (hr : r.1 = false) : (k (.ok r)).next? = some (.cachePop password hashed subscription) := by
  generalize hp : Prog.await (Op.verifyCached salt password hashed subscription) k = p at h
  cases h with
  | verifying =>
    cases hp
    obtain ⟨valid, newHash⟩ := r
    dsimp only at hr
    subst hr
    rfl
  | reading =>
    rw [getValue_bind] at hp
    cases hp
  | _ => cases hp

end LoginAt

/-! ## Where all are -/

/-! The threads that do not authenticate are any that leave the table's lookups alone; they may
delete and create credentials as they like. -/

/-- What holds between two steps: what is stored is right, and whoever stored a refusal is about to
take it out. -/
structure CacheUnseen (env : Env) (logins : Nat → Option Login) (c : System) : Prop where
  sound : CacheSound env c.world
  popped : ∀ x ∈ c.world.passwordCache, x.2.1 = false → ∃ i, logins i ≠ none ∧
    (c.prog i).next? = some (.cachePop x.1.1 x.1.2.1 x.1.2.2)
  login : ∀ i login, logins i = some login → LoginAt env i login c.hist (c.prog i)
  other : ∀ i, logins i = none → (c.prog i).Uses fun op => op.verifies = false

section CacheUnseen

variable {env : Env} {logins : Nat → Option Login} {c d : System}

/-- A result that is taken out is not in the table. -/
theorem not_mem_cachePop (env : Env) (tid : Nat) {w : World} {password : String}
    {hashed subscription : Option String} {x : (String × Option String × Option String) ×
      (Bool × Option String)}
    (h : x ∈ (answer env tid (.cachePop password hashed subscription) w).2.passwordCache) :
    x.1 ≠ (password, hashed, subscription) := by
  have hne := (List.mem_filter.mp h).2
  simpa using hne

/-- **Who is going to take a refusal out**, after a step of thread `j`. -/
theorem CacheUnseen.popped_next (h : CacheUnseen env logins c) {j : Nat} {f : Fault Outage}
    {op : Op} {k : Except CallError op.Res → Coro Reply} (hp : c.prog j = .await op k)
    (hlost : op.inProcess = true → f = .ok)
    {x : (String × Option String × Option String) × (Bool × Option String)}
    (hx : x ∈ (c.next (serve env) j f op k).world.passwordCache) (hrefusal : x.2.1 = false) :
    ∃ i, logins i ≠ none ∧ ((c.next (serve env) j f op k).prog i).next? =
      some (.cachePop x.1.1 x.1.2.1 x.1.2.2) := by
  -- Whoever was about to take it out still is, unless that was this step.
  have hstill : x ∈ c.world.passwordCache → op ≠ .cachePop x.1.1 x.1.2.1 x.1.2.2 →
      ∃ i, logins i ≠ none ∧ ((c.next (serve env) j f op k).prog i).next? =
        some (.cachePop x.1.1 x.1.2.1 x.1.2.2) := by
    intro hold hne
    obtain ⟨i, hi, hnext⟩ := h.popped x hold hrefusal
    have hij : i ≠ j := by
      intro heq
      rw [heq, hp] at hnext
      exact hne (Option.some.inj hnext)
    refine ⟨i, hi, ?_⟩
    rw [Config.next_prog_of_ne hij]
    exact hnext
  rw [Config.next_world] at hx
  by_cases hpop : op = .cachePop x.1.1 x.1.2.1 x.1.2.2
  · -- It was: so it is not there any more.
    subst hpop
    rw [hlost rfl] at hx
    exact absurd rfl (not_mem_cachePop env j hx)
  · rcases Server.left_cases (serve env) j op c.world f with hleft | ⟨-, hleft⟩
    · rw [hleft] at hx
      exact hstill hx hpop
    · rw [hleft] at hx
      rcases passwordCache_answer env j op c.world hx with
        hold | ⟨salt, password, hashed, subscription, rfl, rfl⟩
      · exact hstill hold hpop
      · -- It is new, and the thread that has stored it goes on to take it out.
        cases hj : logins j with
        | none =>
          have hnone := (hp ▸ h.other j hj : (Prog.await _ k).Uses _).1
          cases hnone
        | some login =>
          rcases h.sound.verifyCached j salt password hashed subscription with
            ⟨r, hr, hvalid⟩ | ⟨hraises, -⟩
          · refine ⟨j, by rw [hj]; nofun, ?_⟩
            rw [Config.next_prog_self, hlost rfl, Server.heard_ok, serve_answer, hr]
            refine (hp ▸ h.login j login hj : LoginAt env j login c.hist (.await _ k)).pops ?_
            rw [hvalid, ← verifyAndUpdate_fst salt]
            exact hrefusal
          · rw [serve_answer, hraises] at hx
            exact hstill hx hpop

/-- A step keeps it. -/
theorem CacheUnseen.step {l : Nat × Fault Outage} (h : CacheUnseen env logins c)
    (hlost : NotLost c l) (hs : c.step (serve env) l = some d) : CacheUnseen env logins d := by
  obtain ⟨op, k, hp, rfl⟩ := Config.step_cases hs
  obtain ⟨j, f⟩ := l
  dsimp only at hp ⊢
  -- Calls in the process itself do not get lost.
  have hlost : op.inProcess = true → f = .ok := by
    intro hop
    apply Fault.eq_ok
    apply hlost
    rw [hp]
    exact hop
  refine ⟨?_, fun x hx hrefusal => h.popped_next hp hlost hx hrefusal, ?_, ?_⟩
  · exact Server.left_preserves h.sound fun _ => h.sound.answer j op
  · intro i login hi
    by_cases hij : i = j
    · subst hij
      rw [Config.next_prog_self, Config.next_hist]
      exact (hp ▸ h.login i login hi : LoginAt env i login c.hist (.await op k)).next h.sound
    · rw [Config.next_prog_of_ne hij, Config.next_hist]
      exact (h.login i login hi).other (Ne.symm hij)
  · intro i hi
    by_cases hij : i = j
    · subst hij
      rw [Config.next_prog_self]
      exact (hp ▸ h.other i hi : (Prog.await op k).Uses _).2 _
    · rw [Config.next_prog_of_ne hij]
      exact h.other i hi

end CacheUnseen

/-- How a thread that is over has ended. -/
theorem LoginAt.ended {env : Env} {i : Nat} {login : Login} {hist : History} {p : Coro Reply}
    (h : LoginAt env i login hist p) (hfin : p.Finished) : p = .pure .finished ↔
      Unharmed i hist ∧ login.Admitted ∧
        login.Accepted env (hashRead i login.credentials.username hist) := by
  cases h with
  | reading =>
    rw [getValue_bind] at hfin
    cases hfin
  | succeeded hadmitted hunharmed haccepted =>
    exact iff_of_true rfl ⟨hunharmed, hadmitted, haccepted⟩
  | refused e hrefused => exact iff_of_false nofun fun h => hrefused h.2
  | lost e hharmed => exact iff_of_false nofun fun h => hharmed h.1
  | _ => cases hfin

/-- **The password cache is transparent.** Any number of threads call `authenticate_user`, among any
others that write and delete credentials, let entries of the cache expire or do whatever else, but
verify. A call that is over has succeeded if and only if none of its requests was lost, the
subscription name is absent, empty or the user's own, and the hash the call has read exists and
verifies the password. And the cache holds no refusal, unless some call is just about to take it
out. -/
theorem password_cache_transparent (env : Env) (logins : Nat → Option Login)
    (others : Nat → Coro Reply) (w : World) (ls : Schedule) (d : System)
    (hcache : w.passwordCache = [])
    (hothers : ∀ i, (others i).Uses fun op => op.verifies = false)
    (hlost : (Config.init w (authStart env logins others) : System).Along (serve env) NotLost ls)
    (hrun : (Config.init w (authStart env logins others) : System).run (serve env) ls = some d) :
    (∀ i login, logins i = some login → (d.prog i).Finished →
      (d.prog i = .pure .finished ↔ Unharmed i d.hist ∧ login.Admitted ∧
        login.Accepted env (hashRead i login.credentials.username d.hist))) ∧
    ((∀ i, logins i ≠ none → ¬ BetweenSteps (d.prog i)) →
      ∀ x ∈ d.world.passwordCache, x.2.1 = true) := by
  have hstart : CacheUnseen env logins (.init w (authStart env logins others)) := by
    refine ⟨?_, ?_, ?_, ?_⟩
    · intro x hx
      rw [Config.init_world, hcache] at hx
      cases hx
    · intro x hx
      rw [Config.init_world, hcache] at hx
      cases hx
    · intro i login hi
      rw [Config.init_prog, authStart, hi]
      exact loginAt_start fun ev hev => absurd hev List.not_mem_nil
    · intro i hi
      rw [Config.init_prog, authStart, hi]
      exact hothers i
  have hunseen : CacheUnseen env logins d :=
    Config.run_invariant (fun c l d h hl hs => h.step hl hs) hstart hlost hrun
  constructor
  · intro i login hi hfin
    exact (hunseen.login i login hi).ended hfin
  · intro hbetween x hx
    by_contra hrefusal
    obtain ⟨i, hi, hnext⟩ := hunseen.popped x hx (Bool.eq_false_iff.mpr hrefusal)
    exact hbetween i hi ⟨_, _, _, hnext⟩

/-! ## A deletion between two logins -/

/-- The job calls `authenticate_user`. -/
def Job.authenticates : Job → Bool
  | .delete .. => true
  | .authenticate .. => true
  | _ => false

/-- What the other threads of the theorem can be: every job that does not authenticate. -/
theorem uses_no_verification (env : Env) {job : Job} (h : job.authenticates = false) :
    (job.program env).Uses fun op => op.verifies = false := by
  apply (uses_program env job).mono
  intro op hop
  cases job with
  | delete => cases h
  | authenticate => cases h
  | setStatus name status => cases hop <;> rfl
  | getNext name rounds pop =>
    cases hop with
    | message hop => cases hop <;> rfl
    | _ => rfl
  | postEvent message => exact hop ▸ rfl
  | dispatcherStart =>
    cases hop with
    | mapping hop => cases hop <;> rfl
    | _ => rfl
  | prefill =>
    cases hop with
    | handle name hop =>
      cases hop with
      | status status htaken hop => cases hop <;> rfl
      | _ => rfl
    | _ => rfl
  | prefillStart => rcases hop with hop | hop <;> cases hop <;> rfl
  | ackWaitExpires stream durable => exact hop ▸ rfl
  | passwordCacheExpires password hash subscription => exact hop ▸ rfl
  | idle => exact hop.elim
  | _ => cases hop <;> rfl

/-- The right password, a wrong one, and the right one again. -/
def someLogins : Nat → Option Login
  | 0 => some ⟨"t", ⟨"a", "pw"⟩, some "a"⟩
  | 1 => some ⟨"t", ⟨"a", "wrong"⟩, some "a"⟩
  | 2 => some ⟨"t", ⟨"a", "pw"⟩, none⟩
  | _ => none

/-- The subscription is deleted, and everything in the cache expires. -/
def aDeletion : Nat → Job
  | 3 => .deleteService "a"
  | 4 => .passwordCacheExpires "pw" (some "s$pw") (some "a")
  | _ => .idle

/-- Two logins, of which the second is refused; the deletion; the third login. -/
def loginSchedule : Schedule :=
  [(0, .ok), (1, .ok), (0, .ok), (1, .ok), (1, .ok)] ++ List.replicate 5 (3, .ok) ++
    [(2, .ok), (4, .ok), (2, .ok), (2, .ok)]

instance (c : System) (l : Nat × Fault Outage) : Decidable (NotLost c l) :=
  inferInstanceAs (Decidable (_ → _))

theorem password_cache_transparent_deletion : ∃ d,
    (Config.init .registered (authStart .sample someLogins fun i => (aDeletion i).program .sample) :
      System).run (serve .sample) loginSchedule = some d ∧
    d.prog 0 = .pure .finished ∧
    (d.prog 2 = .pure .finished ↔ Unharmed 2 d.hist ∧ Login.Admitted ⟨"t", ⟨"a", "pw"⟩, none⟩ ∧
      Login.Accepted .sample ⟨"t", ⟨"a", "pw"⟩, none⟩ (hashRead 2 "a" d.hist)) := by
  obtain ⟨d, hrun, hfirst, hfin⟩ : ∃ d,
      (Config.init .registered
        (authStart .sample someLogins fun i => (aDeletion i).program .sample) :
        System).run (serve .sample) loginSchedule = some d ∧
      d.prog 0 = .pure .finished ∧ (d.prog 2).Finished :=
    ⟨_, rfl, rfl, rfl⟩
  have hothers : ∀ i, ((aDeletion i).program .sample).Uses fun op => op.verifies = false := by
    intro i
    apply uses_no_verification
    unfold aDeletion
    split <;> rfl
  have htransparent := password_cache_transparent .sample someLogins
    (fun i => (aDeletion i).program .sample) .registered loginSchedule d rfl hothers
    (by decide +kernel) hrun
  exact ⟨d, hrun, hfirst, htransparent.1 2 _ rfl hfin⟩

/-- An empty subscription name is neither absent nor the user's own, and the login succeeds. -/
theorem not_password_cache_transparent : ¬ ∀ (env : Env) (logins : Nat → Option Login)
    (others : Nat → Coro Reply) (w : World) (ls : Schedule) (d : System),
    w.passwordCache = [] → (∀ i, (others i).Uses fun op => op.verifies = false) →
    (Config.init w (authStart env logins others) : System).Along (serve env) NotLost ls →
    (Config.init w (authStart env logins others) : System).run (serve env) ls = some d →
    ∀ i login, logins i = some login → (d.prog i).Finished → Unharmed i d.hist →
      (d.prog i = .pure .finished ↔
        (login.subscriptionName = none ∨
          login.subscriptionName = some login.credentials.username) ∧
        login.Accepted env (hashRead i login.credentials.username d.hist)) := by
  intro h
  obtain ⟨d, hrun, hend⟩ : ∃ d,
      (Config.init .registered (authStart .sample (fun i =>
        if i = 0 then some ⟨"t", ⟨"a", "pw"⟩, some ""⟩ else none) fun _ => .pure .finished) :
        System).run (serve .sample) [(0, .ok), (0, .ok)] = some d ∧
      d.prog 0 = .pure .finished ∧ ∀ ev ∈ d.hist, ev.tid = 0 → ev.fault = .ok := by
    refine ⟨_, rfl, rfl, ?_⟩
    intro ev hev _
    rcases List.mem_cons.mp hev with rfl | hev
    · rfl
    · rw [List.mem_singleton.mp hev]
  have hfin : (d.prog 0).Finished := by
    rw [hend.1]
    rfl
  have hiff := h .sample _ (fun _ => .pure .finished) .registered _ d rfl (fun _ => trivial)
    (by decide +kernel) hrun 0 _ rfl hfin hend.2
  rcases (hiff.mp hend.1).1 with hname | hname
  · cases hname
  · exact absurd hname (by decide)

end Provisioning
