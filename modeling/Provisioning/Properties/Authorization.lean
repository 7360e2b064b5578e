import Mathlib.Data.Setoid.Basic
import Provisioning.Lib.Paths
import Provisioning.Model.Api
import Provisioning.Properties.PasswordCache

/-!
# Nobody gets in without a password

Three of the users are in the settings. The others authenticate with what is in the store, and the
store is written to by the very requests that are authenticated: an administrator's registration
puts a hash there, and a login of a user whose hash is outdated replaces it. Between the read of a
hash and its verification anything can happen, and the verification itself is cached.

**`api_calls_authorized`** follows a password through all this. Whoever makes a call that is no part
of a login, in whatever interleaving, is one of the users of the settings, or has given a password
which an administrator has registered for that very name. A hash scheme need not tell all passwords
apart: the one that is given is the registered one up to `same`, which is whatever the scheme takes
for the same. It has to be an equivalence, because a login replaces an outdated hash by one of the
password that was given, and the next password is compared with that.

## The way of a request

What a request may do depends on what it has *heard*, so the proof is about its way: the calls it
has made, each with its answer. `Reaches` says that a program arrives at some point by a way, and
`Gated` that it arrives at no call outside of `A` unless its way proves `Q`. A login is a gate, and
a route whose login comes first is gated for that reason alone (`gated_route`); nothing after the
login needs to be looked at.

A way that contains a successful verification proves nothing by itself. The verification compares
with a hash that the request was told; the hash may have been written a moment ago; and the result
may come from the cache. That the result means what it says is an invariant of the run.

## The invariant

`Traced` says of everything that is stored, cached or was once heard that it goes back to a password
of its name. It has to speak about what *was* heard, and not only about the state: between its read
and its verification a request holds a hash that the store may have lost already. `PasswordOf`
only grows along a run, which is why what was traced stays traced; a deleted subscription keeps
its password in this sense, and that is as the code has it: whoever has read the hash in time gets
in.
-/

namespace Provisioning

open Await Store Prog

/-! ## Who may call what -/

/-- Who a request can come from. -/
inductive Role where
  | admin
  | prefill
  | events
  | subscriber (name : String)

/-- Who a request is open to. -/
def ApiRequest.roles : ApiRequest → List Role
  | .getSubscriptions => [.admin]
  | .getSubscription name => [.subscriber name.text]
  | .deleteSubscription name => [.admin, .subscriber name.text]
  | .createSubscription _ => [.admin]
  | .updateSubscriptionPrefillStatus .. => [.prefill]
  | .getNextMessage name _ _ => [.subscriber name.text]
  | .updateMessageStatus name _ _ => [.subscriber name.text]
  | .createNewMessage _ => [.events]

/-- The user has the role; `knows` says when a password is that of a subscription. -/
def Role.Held (settings : ApiSettings) (knows : String → String → Prop)
    (credentials : HTTPBasicCredentials) : Role → Prop
  | .admin => authenticateAdmin settings.toAppSettings credentials = true
  | .prefill => authenticatePrefill settings.toPrefillUser credentials = true
  | .events => authenticateEventsEndpoint settings credentials = true
  | .subscriber name => credentials.username = name ∧ knows name credentials.password

/-- One of the roles that the request is open to is the user's. -/
def ApiRequest.OpenTo (settings : ApiSettings) (knows : String → String → Prop)
    (request : ApiRequest) (credentials : HTTPBasicCredentials) : Prop :=
  ∃ role ∈ request.roles, role.Held settings knows credentials

/-- The call carries credentials, and they are of a user whom the request is open to. -/
def ApiCall.Authorized (settings : ApiSettings) (knows : String → String → Prop)
    (call : ApiCall) : Prop :=
  ∃ credentials, call.credentials = some credentials ∧
    call.request.OpenTo settings knows credentials

/-- The call is part of a login: it looks up the user's hash, or compares the password. -/
def Op.LogsIn (credentials : HTTPBasicCredentials) : Op → Prop
  | .kvGet .credentials key => key = credentials.username
  | .verifyCached _ password _ _ => password = credentials.password
  | .cachePop password _ _ => password = credentials.password
  | _ => False

/-- How a request is answered that is refused, or for which something was out of order. -/
def Refused (e : Exc) : Prop :=
  (errorResponse e).status = 401 ∨ (errorResponse e).status = 500

theorem refused_call (e : CallError) : Refused (.call e) := Or.inr rfl

section Roles

variable {settings : ApiSettings} {knows knows' : String → String → Prop}
  {credentials : HTTPBasicCredentials}

/-- Only the role of a subscriber depends on what is known of passwords. -/
theorem Role.Held.mono {role : Role} (h : role.Held settings knows credentials)
    (hknows : ∀ name, credentials.username = name → knows name credentials.password →
      knows' name credentials.password) : role.Held settings knows' credentials := by
  cases role with
  | subscriber name => exact ⟨h.1, hknows name h.1 h.2⟩
  | admin => exact h
  | prefill => exact h
  | events => exact h

theorem ApiRequest.OpenTo.mono {request : ApiRequest}
    (h : request.OpenTo settings knows credentials)
    (hknows : ∀ name, credentials.username = name → knows name credentials.password →
      knows' name credentials.password) : request.OpenTo settings knows' credentials := by
  obtain ⟨role, hrole, hheld⟩ := h
  exact ⟨role, hrole, hheld.mono hknows⟩

end Roles

/-! ## The way through a login -/

/-! A login reads the hash of the user, has the password compared with it, and then keeps or drops
the result of the comparison. It is walked through once, with the way kept in the goal, and what
comes out of it are two statements: what it calls, and what it has heard when it returns. -/

section Login

variable {settings : ApiSettings} {salt : String} {credentials : HTTPBasicCredentials}
  {name : PathName} {way : List (Answered Op Op.Res CallError)} {op : Op} {α : Type}

/-- On this way the password was compared with what was read of the user's hash, and found
right; `newHash` is to replace the hash. -/
def Compared (credentials : HTTPBasicCredentials) (newHash : Option String)
    (way : List (Answered Op Op.Res CallError)) : Prop :=
  ∃ salt hashed subscription,
    ⟨.verifyCached salt credentials.password hashed subscription, .ok (true, newHash)⟩ ∈ way ∧
    ∀ hash, hashed = some hash →
      ∃ e, ⟨.kvGet .credentials credentials.username, .ok e⟩ ∈ way ∧ e.value = hash

/-- The password was compared and found right. -/
def Verified (credentials : HTTPBasicCredentials) (way : List (Answered Op Op.Res CallError)) :
    Prop :=
  ∃ newHash, Compared credentials newHash way

theorem Compared.append {newHash : Option String} (h : Compared credentials newHash way)
    (way' : List (Answered Op Op.Res CallError)) : Compared credentials newHash (way ++ way') := by
  obtain ⟨salt, hashed, subscription, hmem, hread⟩ := h
  refine ⟨salt, hashed, subscription, List.mem_append_left way' hmem, fun hash heq => ?_⟩
  obtain ⟨e, hget, hvalue⟩ := hread hash heq
  exact ⟨e, List.mem_append_left way' hget, hvalue⟩

/-- A read that has returned a value was answered with it. -/
theorem reaches_getValue_pure {b : Bucket} {key : String} {v : Option b.Val}
    (h : (getValue key b).Reaches way (.pure v)) {value : b.Val} (hv : v = some value) :
    ∃ e, ⟨.kvGet b key, .ok e⟩ ∈ way ∧ e.value = value := by
  rw [← bind_pure_right (getValue key b), getValue_bind] at h
  cases h with
  | @await _ _ r way _ h =>
    cases r with
    | ok e =>
      obtain ⟨-, hq⟩ := reaches_pure.mp h
      cases hq
      exact ⟨e, List.mem_cons_self, Option.some.inj hv⟩
    | error x =>
      dsimp only at h
      split at h
      · obtain ⟨-, hq⟩ := reaches_pure.mp h
        cases hq
        cases hv
      · obtain ⟨-, hq⟩ := reaches_throw.mp h
        cases hq

/-- A name that is asked for is the user's own. -/
theorem authenticateUser_admits (h : ¬ (some name.text).any
      (fun n => n != "" && n != credentials.username) = true) :
    credentials.username = name.text := by
  by_contra hne
  apply h
  simp only [Option.any_some, Bool.and_eq_true, bne_iff_ne, ne_eq]
  exact ⟨name.nonempty, fun heq => hne heq.symm⟩

/-- After the verification nothing is called but to keep the result or to drop it. -/
theorem afterVerification_await {hashed subscription newHash : Option String} {valid : Bool}
    {k : Except CallError op.Res → Coro Unit}
    (h : (afterVerification credentials hashed subscription (valid, newHash)).Reaches way
      (.await op k)) :
    op.LogsIn credentials ∨ (valid = true ∧ ∃ hash, newHash = some hash ∧
      op = .kvPut .credentials credentials.username hash) := by
  cases valid with
  | false =>
    -- A refusal only takes the result out of the cache.
    left
    rcases reaches_bind_await h with ⟨k', hfirst⟩ | ⟨first, a, rest, rfl, hfirst, hrest⟩
    · have huses : (request (.cachePop credentials.password hashed subscription)).Uses
          fun op => op.LogsIn credentials := uses_request rfl
      exact hfirst.uses_await huses
    · cases (reaches_throw.mp hrest).2
  | true =>
    -- A password that is right may have its hash replaced, which is the one call that is left.
    right
    refine ⟨rfl, ?_⟩
    cases newHash with
    | none => cases (reaches_pure.mp h).2
    | some hash =>
      refine ⟨hash, rfl, ?_⟩
      have hafter : afterVerification credentials hashed subscription (true, some hash) =
          if hash != "" then putValue credentials.username .credentials hash else .pure () := rfl
      rw [hafter] at h
      split at h
      · next hne =>
        have huses : (putValue credentials.username .credentials hash).Uses
            (· = .kvPut .credentials credentials.username hash) :=
          uses_putValue rfl fun hempty => absurd (beq_iff_eq.mp hempty) (bne_iff_ne.mp hne)
        have hput := h.uses_await huses
        exact hput
      · cases (reaches_pure.mp h).2

/-- It returns only with a password that was found right. -/
theorem afterVerification_pure {hashed subscription newHash : Option String} {valid : Bool}
    {u : Unit} (h : (afterVerification credentials hashed subscription (valid, newHash)).Reaches
      way (.pure u)) : valid = true := by
  cases valid with
  | true => rfl
  | false =>
    obtain ⟨first, a, rest, rfl, -, hrest⟩ := reaches_bind_pure h
    cases (reaches_throw.mp hrest).2

/-- What has been heard by the time the verification is answered. -/
theorem compared_of_reaches {first rest : List (Answered Op Op.Res CallError)}
    {hashed subscription newHash : Option String}
    (hget : (getValue credentials.username .credentials).Reaches first (.pure hashed))
    (hverify : (request (.verifyCached salt credentials.password hashed subscription)).Reaches rest
      (.pure (true, newHash))) : Compared credentials newHash (first ++ rest) := by
  refine ⟨salt, hashed, subscription, ?_, fun hash heq => ?_⟩
  · rw [reaches_call_pure hverify]
    exact List.mem_append_right first List.mem_cons_self
  · obtain ⟨e, hmem, hvalue⟩ := reaches_getValue_pure hget heq
    exact ⟨e, List.mem_append_left rest hmem, hvalue⟩

/-- **A login makes no other calls**, except to replace a hash that has been verified. -/
theorem authenticateUser_await {k : Except CallError op.Res → Coro Unit}
    (h : (authenticateUser salt credentials (some name.text)).Reaches way (.await op k)) :
    op.LogsIn credentials ∨ (credentials.username = name.text ∧ ∃ hash,
      Compared credentials (some hash) way ∧
      op = .kvPut .credentials credentials.username hash) := by
  rw [authenticateUser_eq] at h
  split at h
  · cases (reaches_throw.mp h).2
  · next hadmits =>
    rcases reaches_bind_await h with ⟨k', hget⟩ | ⟨first, hashed, rest, rfl, hget, h⟩
    · have huses : (getValue credentials.username .credentials).Uses
          fun op => op.LogsIn credentials := uses_getValue rfl
      exact Or.inl (hget.uses_await huses)
    · rcases reaches_bind_await h with ⟨k', hverify⟩ | ⟨second, r, rest, rfl, hverify, h⟩
      · have huses : (request (.verifyCached salt credentials.password hashed
            (some name.text))).Uses fun op => op.LogsIn credentials := uses_request rfl
        exact Or.inl (hverify.uses_await huses)
      · obtain ⟨valid, newHash⟩ := r
        rcases afterVerification_await h with hlogin | ⟨rfl, hash, rfl, rfl⟩
        · exact Or.inl hlogin
        · refine Or.inr ⟨authenticateUser_admits hadmits, hash, ?_, rfl⟩
          rw [← List.append_assoc]
          exact (compared_of_reaches hget hverify).append rest

/-- **A login that has succeeded has verified the password** of the name that was asked for. -/
theorem authenticateUser_pure {u : Unit}
    (h : (authenticateUser salt credentials (some name.text)).Reaches way (.pure u)) :
    credentials.username = name.text ∧ Verified credentials way := by
  rw [authenticateUser_eq] at h
  split at h
  · cases (reaches_throw.mp h).2
  · next hadmits =>
    refine ⟨authenticateUser_admits hadmits, ?_⟩
    obtain ⟨first, hashed, rest, rfl, hget, h⟩ := reaches_bind_pure h
    obtain ⟨second, r, rest, rfl, hverify, h⟩ := reaches_bind_pure h
    obtain ⟨valid, newHash⟩ := r
    cases afterVerification_pure h
    refine ⟨newHash, ?_⟩
    rw [← List.append_assoc]
    exact (compared_of_reaches hget hverify).append rest

/-- What a program raises is a refusal. An internal error is one as well, for the purpose of this
module: it tells nobody anything. -/
def Refuses (p : Coro α) : Prop :=
  p.Ends fun
    | .ok _ => True
    | .error e => Refused e

theorem Refuses.bind {β : Type} {p : Coro α} {f : α → Coro β} (hp : Refuses p)
    (hf : ∀ a, Refuses (f a)) : Refuses (p.bind f) :=
  Ends.bind hp (fun a _ => hf a) fun _ he => he

theorem refuses_request : Refuses (request op) := by
  intro r
  cases r with
  | ok a => trivial
  | error e => exact refused_call e

theorem refuses_getValue {b : Bucket} {key : String} : Refuses (getValue key b) := by
  rw [← bind_pure_right (getValue key b), getValue_bind]
  intro r
  cases r with
  | ok e => trivial
  | error x =>
    dsimp only
    split
    · trivial
    · exact refused_call x

theorem refuses_putValue {b : Bucket} {key : String} {v : b.Val} : Refuses (putValue key b v) := by
  unfold putValue
  split
  · exact refuses_request
  · exact refuses_request

theorem refuses_authenticateUser {subscription : Option String} :
    Refuses (authenticateUser salt credentials subscription) := by
  rw [authenticateUser_eq]
  split
  · exact Or.inl rfl
  · refine refuses_getValue.bind fun hashed => refuses_request.bind fun r => ?_
    unfold afterVerification
    split
    · split
      · split
        · exact refuses_putValue
        · trivial
      · trivial
    · exact refuses_request.bind fun _ => Or.inl rfl

/-- **A login is a gate**: what is done behind it, is done with a verified password. -/
theorem gated_authenticateUser :
    (authenticateUser salt credentials (some name.text)).Gated
      (fun way => credentials.username = name.text ∧ Verified credentials way)
      (Op.LogsIn credentials) Refused where
  calls := by
    intro way op k h
    rcases authenticateUser_await h with hlogin | ⟨hname, hash, hcompared, -⟩
    · exact Or.inr hlogin
    · exact Or.inl ⟨hname, some hash, hcompared⟩
  returns := fun way u h => authenticateUser_pure h
  raises := fun way e h => Or.inr (h.ends refuses_authenticateUser)

end Login

/-! ## Each route and its door -/

/-! The routes differ in the kind of their door. Some depend on a user of the settings, which is
checked before any call and needs no way; some on a login for the name in the path; and the
deletion on either, so its two branches are gated separately. -/

section Routes

variable {env : Env} {settings : ApiSettings} {salt : String} {credentials : HTTPBasicCredentials}
  {way : List (Answered Op Op.Res CallError)} {α : Type}

/-- What the request has found out on its way suffices for it. -/
def OpenOn (settings : ApiSettings) (request : ApiRequest) (credentials : HTTPBasicCredentials)
    (way : List (Answered Op Op.Res CallError)) : Prop :=
  request.OpenTo settings (fun _ _ => Verified credentials way) credentials

theorem OpenOn.append {request : ApiRequest} (h : OpenOn settings request credentials way)
    (way' : List (Answered Op Op.Res CallError)) :
    OpenOn settings request credentials (way ++ way') := by
  apply ApiRequest.OpenTo.mono h
  intro name _ hverified
  obtain ⟨newHash, hcompared⟩ := hverified
  exact ⟨newHash, hcompared.append way'⟩

/-- A user of the settings: known before the first call, or refused before it. -/
theorem gated_depends {authenticated : Bool} {route : Coro α}
    {Q : List (Answered Op Op.Res CallError) → Prop} {A : Op → Prop}
    (h : authenticated = true → ∀ way, Q way) :
    (depends authenticated route).Gated Q A Refused := by
  cases authenticated with
  | true => exact gated_of_open (h rfl)
  | false => exact gated_throw (Or.inl rfl)

/-- A login for the name of the path opens what a subscriber of that name may do. -/
theorem gated_login {request : ApiRequest} {name : PathName}
    (hrole : .subscriber name.text ∈ request.roles) :
    (authenticateUser salt credentials (some name.text)).Gated
      (OpenOn settings request credentials) (Op.LogsIn credentials) Refused where
  calls := by
    intro way op k h
    rcases gated_authenticateUser.calls way op k h with hheld | hlogin
    · exact Or.inl ⟨_, hrole, hheld⟩
    · exact Or.inr hlogin
  returns := fun way u h => ⟨_, hrole, gated_authenticateUser.returns way u h⟩
  raises := by
    intro way e h
    rcases gated_authenticateUser.raises way e h with hheld | hrefused
    · exact Or.inl ⟨_, hrole, hheld⟩
    · exact Or.inr hrefused

/-- **Every route is behind its door.** -/
theorem gated_route (env : Env) (request : ApiRequest) :
    (request.route env settings salt credentials).Gated (OpenOn settings request credentials)
      (Op.LogsIn credentials) Refused := by
  have happend : ∀ way way', OpenOn settings request credentials way →
      OpenOn settings request credentials (way ++ way') := fun _ way' h => h.append way'
  cases request with
  | getSubscriptions => exact gated_depends fun h _ => ⟨.admin, List.mem_cons_self, h⟩
  | getSubscription name => exact (gated_login List.mem_cons_self).bind happend
  | deleteSubscription name =>
    refine Gated.bind happend ?_
    unfold deleteSubscriptionRoute
    split
    · exact (gated_login (List.mem_cons_of_mem _ List.mem_cons_self)).bind happend
    · next hadmin =>
      have hheld : authenticateAdmin settings.toAppSettings credentials = true := by
        simpa using hadmin
      exact gated_of_open fun _ => ⟨.admin, List.mem_cons_self, hheld⟩
  | createSubscription sub => exact gated_depends fun h _ => ⟨.admin, List.mem_cons_self, h⟩
  | updateSubscriptionPrefillStatus name report =>
    exact gated_depends fun h _ => ⟨.prefill, List.mem_cons_self, h⟩
  | getNextMessage name rounds pop => exact (gated_login List.mem_cons_self).bind happend
  | updateMessageStatus name seqNum status =>
    exact (gated_login List.mem_cons_self).bind happend
  | createNewMessage message => exact gated_depends fun h _ => ⟨.events, List.mem_cons_self, h⟩

/-! ## Who writes a hash -/

/-! The invariant is about hashes, so the writes of hashes have to be known exactly, and not only
up to the kind of call. There are two: a registration writes the hash of the password in the
request, and a login that has verified an outdated hash replaces it. -/

/-- The call writes no hash. A deletion counts as sparing: it takes a hash away, and nothing that
is missing needs to be traced. -/
def Op.SparesCredentials : Op → Prop
  | .kvPut .credentials .. => False
  | _ => True

/-- The hashes that the program writes replace ones of the user's that it has verified. -/
def Rehashing (credentials : HTTPBasicCredentials) (p : Coro α) : Prop :=
  ∀ way name hash k, p.Reaches way (.await (.kvPut .credentials name hash) k) →
    name = credentials.username ∧ Compared credentials (some hash) way

theorem rehashing_of_uses {p : Coro α} (hp : p.Uses Op.SparesCredentials) :
    Rehashing credentials p := by
  intro way name hash k h
  exact (h.uses_await hp).elim

theorem Rehashing.bind {β : Type} {p : Coro α} {f : α → Coro β} (hp : Rehashing credentials p)
    (hf : ∀ a, (f a).Uses Op.SparesCredentials) : Rehashing credentials (p.bind f) := by
  intro way name hash k h
  rcases reaches_bind_await h with ⟨k', hfirst⟩ | ⟨first, a, rest, rfl, -, hrest⟩
  · exact hp way name hash k' hfirst
  · exact (hrest.uses_await (hf a)).elim

/-- A login replaces only the hash that it has verified. -/
theorem rehashing_authenticateUser {name : PathName} :
    Rehashing credentials (authenticateUser salt credentials (some name.text)) := by
  intro way n hash k h
  rcases authenticateUser_await h with hlogin | ⟨-, hash', hcompared, hop⟩
  · exact hlogin.elim
  · cases hop
    exact ⟨rfl, hcompared⟩

theorem spares_depends {authenticated : Bool} {route : Coro α}
    (h : route.Uses Op.SparesCredentials) : (depends authenticated route).Uses
      Op.SparesCredentials := by
  cases authenticated with
  | true => exact h
  | false => trivial

theorem spares_getSubscriptions : getSubscriptions.Uses Op.SparesCredentials := by
  have hkeys : Op.SparesCredentials (.kvKeys .credentials) := trivial
  refine Uses.bind (uses_request hkeys) fun names => ?_
  induction names with
  | nil => trivial
  | cons name names ih =>
    exact Uses.bind (uses_getValue trivial) fun _ => Uses.bind ih fun _ => trivial

theorem spares_deleteSubscription (name : String) :
    (deleteSubscription name).Uses Op.SparesCredentials :=
  (uses_deleteSubscription name).mono fun op h => by cases h <;> trivial

theorem spares_getNextMessage (name : String) (rounds : Nat) (pop : Bool) :
    (getNextMessage name rounds pop).Uses Op.SparesCredentials := by
  apply (uses_getNextMessage name rounds pop).mono
  intro op h
  cases h with
  | message h => cases h <;> trivial
  | _ => trivial

/-- A registration writes the hash of the password it was sent. -/
theorem uses_create_exact (env : Env) (salt : String) (sub : NewSubscription) :
    (createSubscription env salt sub).Uses fun op => op.SparesCredentials ∨
      op = .kvPut .credentials sub.name (env.hash salt sub.password) := by
  rw [createSubscription_eq]
  refine Uses.bind (uses_getValue (Or.inl trivial)) fun found => ?_
  cases found with
  | some existingSub =>
    apply (uses_registerAgain env sub existingSub).mono
    intro op hop
    subst hop
    exact Or.inl trivial
  | none =>
    dsimp only
    split
    · trivial
    · have hrecord : Op.SparesCredentials (.kvPut .subscriptions sub.name (newSubInfo sub)) :=
        trivial
      refine Uses.bind (uses_request (Or.inr rfl)) fun _ => ?_
      refine Uses.bind (uses_request (Or.inl hrecord)) fun _ => ?_
      refine Uses.bind (uses_ensureStream (Or.inl trivial) (Or.inl trivial) (Or.inl trivial))
        fun _ => ?_
      refine Uses.bind (uses_ensureConsumer (Or.inl trivial) (Or.inl trivial)) fun _ => ?_
      split
      · exact Uses.bind (uses_addMessage (Or.inl trivial)) fun _ => trivial
      · trivial

/-- **Who writes a hash**: a registration, or a login that replaces one. -/
theorem route_puts {request : ApiRequest} {name hash : String}
    {k : Except CallError (Op.kvPut .credentials name hash).Res → Coro Response}
    (h : (request.route env settings salt credentials).Reaches way
      (.await (.kvPut .credentials name hash) k)) :
    (∃ sub, request = .createSubscription sub ∧ name = sub.name ∧
      hash = env.hash salt sub.password) ∨
    (name = credentials.username ∧ Compared credentials (some hash) way) := by
  have hrehashing : Rehashing credentials (request.route env settings salt credentials) →
      name = credentials.username ∧ Compared credentials (some hash) way :=
    fun hp => hp way name hash k h
  -- Only a registration makes a hash. All other routes rehash at most, and what that is was said
  -- once for `authenticate_user`.
  cases request with
  | createSubscription sub =>
    have huses : (createSubscriptionRoute env settings salt credentials sub).Uses fun op =>
        op.SparesCredentials ∨ op = .kvPut .credentials sub.name (env.hash salt sub.password) := by
      unfold createSubscriptionRoute depends
      split
      · exact Uses.bind (uses_create_exact env salt sub) fun _ => trivial
      · trivial
    rcases h.uses_await huses with hspares | hop
    · exact hspares.elim
    · cases hop
      exact Or.inl ⟨sub, rfl, rfl, rfl⟩
  | getSubscriptions =>
    refine Or.inr (hrehashing (rehashing_of_uses (spares_depends ?_)))
    refine Uses.bind spares_getSubscriptions fun subs => ?_
    cases subs.mapM id <;> trivial
  | getSubscription name =>
    refine Or.inr (hrehashing (rehashing_authenticateUser.bind fun _ => ?_))
    refine Uses.tryCatch (Uses.bind (Uses.bind (uses_getValue trivial) fun found => ?_)
      fun _ => trivial) fun e => ?_
    · cases found <;> trivial
    · cases e <;> trivial
  | deleteSubscription name =>
    have hdelete : ((orNotFound (deleteSubscription name.text)).bind fun _ => Prog.pure 200).Uses
        Op.SparesCredentials :=
      Uses.bind (Uses.orNotFound (spares_deleteSubscription name.text)) fun _ => trivial
    refine Or.inr (hrehashing (Rehashing.bind ?_ fun _ => trivial))
    unfold deleteSubscriptionRoute
    split
    · exact rehashing_authenticateUser.bind fun _ => hdelete
    · exact rehashing_of_uses hdelete
  | updateSubscriptionPrefillStatus name report =>
    refine Or.inr (hrehashing (rehashing_of_uses (spares_depends ?_)))
    refine Uses.bind (Uses.bind (Uses.orNotFound ?_) fun _ => trivial) fun _ => trivial
    apply (uses_setSubscriptionQueueStatus name.text report.status).mono
    intro op hop
    cases hop <;> trivial
  | getNextMessage name rounds pop =>
    refine Or.inr (hrehashing (rehashing_authenticateUser.bind fun _ => ?_))
    refine Uses.bind (spares_getNextMessage name.text rounds pop) fun msg => ?_
    cases msg <;> trivial
  | updateMessageStatus name seqNum status =>
    refine Or.inr (hrehashing (rehashing_authenticateUser.bind fun _ => ?_))
    refine Uses.bind ((uses_updateMessageStatus name.text seqNum status).mono ?_) fun _ => trivial
    intro op hop
    cases hop <;> trivial
  | createNewMessage message =>
    refine Or.inr (hrehashing (rehashing_of_uses (spares_depends ?_)))
    exact Uses.bind (uses_createNewMessage trivial) fun _ => trivial

end Routes

/-! ## Passwords in the store -/

/-! Everything here is indexed by the history of the run and grows with it. `cons` says so for each
of the notions, and is all that a step needs for what was there before. -/

section Store

variable (env : Env) (settings : ApiSettings) (same : Setoid String) (parties : Nat → Party)
  (w : World)

/-- **The password of a name**: the one in the store at the start, or one that an administrator has
registered the name with since. -/
inductive PasswordOf (hist : History) (name password : String) : Prop where
  | initial (salt : String) (h : w.credential name = some (env.hash salt password))
  | registered (call : ApiCall) (credentials : HTTPBasicCredentials) (sub : NewSubscription)
      (ev : Event Op Op.Res CallError Outage World) (hev : ev ∈ hist)
      (hparty : parties ev.tid = .client call) (hcredentials : call.credentials = some credentials)
      (hadmin : authenticateAdmin settings.toAppSettings credentials = true)
      (hrequest : call.request = .createSubscription sub) (hname : sub.name = name)
      (hpassword : sub.password = password)
      (hop : ev.op = .kvPut .credentials name (env.hash call.salt password))

/-- The password is taken for one of the name. -/
def PassesFor (hist : History) (name password : String) : Prop :=
  ∃ registered, same.r password registered ∧ PasswordOf env settings parties w hist name registered

/-- The hash is one of a password that is taken for one of the name. -/
def Issued (hist : History) (name hash : String) : Prop :=
  ∃ salt password, hash = env.hash salt password ∧
    PassesFor env settings same parties w hist name password

/-- The result is the one of a verification of this password. -/
def FromHash (password : String) (hashed : Option String) (r : Bool × Option String) : Prop :=
  r.1 = env.verifyPassword password hashed ∧
    ∀ hash, r.2 = some hash → ∃ salt, hash = env.hash salt password

/-- What a login can hear. -/
def Traceable (issued : String → String → Prop) : (op : Op) → Except CallError op.Res → Prop
  | .kvGet .credentials name, .ok e => issued name e.value
  | .verifyCached _ password hashed _, .ok r => FromHash env password hashed r
  | _, _ => True

variable {env settings same parties w} {hist : History} {name password : String}

theorem PasswordOf.cons (h : PasswordOf env settings parties w hist name password)
    (ev : Event Op Op.Res CallError Outage World) :
    PasswordOf env settings parties w (ev :: hist) name password := by
  cases h with
  | initial salt h => exact .initial salt h
  | registered call credentials sub ev' hev hparty hcredentials hadmin hrequest hname hpw hop =>
    exact .registered call credentials sub ev' (List.mem_cons_of_mem ev hev) hparty hcredentials
      hadmin hrequest hname hpw hop

theorem PassesFor.cons (h : PassesFor env settings same parties w hist name password)
    (ev : Event Op Op.Res CallError Outage World) :
    PassesFor env settings same parties w (ev :: hist) name password := by
  obtain ⟨registered, hsame, hpassword⟩ := h
  exact ⟨registered, hsame, hpassword.cons ev⟩

theorem Issued.cons {hash : String} (h : Issued env settings same parties w hist name hash)
    (ev : Event Op Op.Res CallError Outage World) :
    Issued env settings same parties w (ev :: hist) name hash := by
  obtain ⟨salt, password, heq, hpassword⟩ := h
  exact ⟨salt, password, heq, hpassword.cons ev⟩

theorem Traceable.mono {issued issued' : String → String → Prop} {op : Op}
    {r : Except CallError op.Res} (h : Traceable env issued op r)
    (hissued : ∀ name hash, issued name hash → issued' name hash) :
    Traceable env issued' op r := by
  unfold Traceable at h ⊢
  split
  · exact hissued _ _ h
  · exact h
  · trivial

/-- A verification that is made tells what it should. -/
theorem fromHash_verifyAndUpdate (salt password : String) (hashed : Option String) :
    FromHash env password hashed (env.verifyAndUpdate salt password hashed) := by
  refine ⟨verifyAndUpdate_fst salt password hashed, ?_⟩
  intro hash hhash
  unfold Env.verifyAndUpdate at hhash
  split at hhash
  · cases hhash
  · split at hhash
    · cases hhash
    · split at hhash
      · cases hhash
        exact ⟨salt, rfl⟩
      · cases hhash

/-! ## What holds between two steps -/

-- `arrived` ties the programs to their histories: without it a job's way would say nothing about
-- the point at which the job stands.
/-- Everything that is stored, or was heard, goes back to a password of its name. -/
structure Traced (env : Env) (settings : ApiSettings) (same : Setoid String)
    (parties : Nat → Party) (w : World) (c : ApiSystem) : Prop where
  arrived : Config.Arrived (fun i => (parties i).program env settings) c
  stored : ∀ name hash, c.world.credential name = some hash →
    Issued env settings same parties w c.hist name hash
  cached : ∀ x ∈ c.world.passwordCache, FromHash env x.1.1 x.1.2.1 x.2
  heard : ∀ ev ∈ c.hist, Traceable env (Issued env settings same parties w c.hist) ev.op ev.heard

variable {c d : ApiSystem} {i : Nat} {credentials : HTTPBasicCredentials}

/-- What is on the way of a job was heard by it. -/
theorem Traced.heard_way (h : Traced env settings same parties w c)
    {x : Answered Op Op.Res CallError} (hx : x ∈ c.way i) :
    Traceable env (Issued env settings same parties w c.hist) x.op x.heard := by
  obtain ⟨ev, hev, -, rfl⟩ := Config.mem_way.mp hx
  exact h.heard ev hev

/-- **A password that was found right is taken for one of the user**: it is the same as the one
whose hash was read, and that one is the same as a registered one. -/
theorem Traced.compared (h : Traced env settings same parties w c)
    (hverify : ∀ salt pw pw', env.verify pw (env.hash salt pw') = true → same.r pw pw')
    {newHash : Option String} (hcompared : Compared credentials newHash (c.way i)) :
    PassesFor env settings same parties w c.hist credentials.username credentials.password ∧
      ∀ hash, newHash = some hash → ∃ salt, hash = env.hash salt credentials.password := by
  obtain ⟨salt, hashed, subscription, hmem, hread⟩ := hcompared
  have hresult : FromHash env credentials.password hashed (true, newHash) := h.heard_way hmem
  refine ⟨?_, hresult.2⟩
  have hvalid : env.verifyPassword credentials.password hashed = true := hresult.1.symm
  cases hashed with
  | none => cases hvalid
  | some hash =>
    obtain ⟨e, hget, hvalue⟩ := hread hash rfl
    obtain ⟨salt', password, hissued, registered, hpasses, hpassword⟩ :
      Issued env settings same parties w c.hist credentials.username e.value := h.heard_way hget
    have hsame : env.verify credentials.password (env.hash salt' password) = true := by
      rw [← hissued, hvalue]
      exact hvalid
    exact ⟨registered, same.trans (hverify salt' _ password hsame) hpasses, hpassword⟩

/-- What the way of a request proves, the run bears out. -/
theorem Traced.openTo (h : Traced env settings same parties w c)
    (hverify : ∀ salt pw pw', env.verify pw (env.hash salt pw') = true → same.r pw pw')
    {request : ApiRequest} (hopen : OpenOn settings request credentials (c.way i)) :
    request.OpenTo settings (PassesFor env settings same parties w c.hist) credentials := by
  apply ApiRequest.OpenTo.mono hopen
  intro name hname hverified
  obtain ⟨newHash, hcompared⟩ := hverified
  rw [← hname]
  exact (h.compared hverify hcompared).1

end Store

/-! ## The programs of the clients -/

/-! A client's program is the route inside the handling of its errors, so a point in the one is a
point in the other, except for the answers: a refusal is an exception of the route and a response
of the client. -/

section Clients

variable {env : Env} {settings : ApiSettings} {call : ApiCall}
  {way : List (Answered Op Op.Res CallError)}

/-- Whatever a client calls, its route calls, and it has credentials. -/
theorem client_await {op : Op} {k : Except CallError op.Res → Coro (Option Response)}
    (h : ((Party.client call).program env settings).Reaches way (.await op k)) :
    ∃ credentials, call.credentials = some credentials ∧
      ∃ k', (call.request.route env settings call.salt credentials).Reaches way (.await op k') := by
  rcases reaches_bind_await h with ⟨k', hcall⟩ | ⟨first, r, rest, rfl, -, hrest⟩
  · unfold ApiCall.program at hcall
    split at hcall
    · cases (reaches_pure.mp hcall).2
    · next credentials hcredentials =>
      refine ⟨credentials, hcredentials, ?_⟩
      rcases reaches_tryCatch_await hcall with hroute | ⟨first, e, rest, rfl, -, hrest⟩
      · exact hroute
      · cases (reaches_pure.mp hrest).2
  · cases (reaches_pure.mp hrest).2

/-- How a client can be answered. -/
theorem client_pure {r : Option Response}
    (h : ((Party.client call).program env settings).Reaches way (.pure r)) :
    ∃ response, r = some response ∧ (response.status = 401 ∨
      ∃ credentials, call.credentials = some credentials ∧
        ((call.request.route env settings call.salt credentials).Reaches way (.pure response) ∨
          ∃ e, (call.request.route env settings call.salt credentials).Reaches way (.throw e) ∧
            response = errorResponse e)) := by
  obtain ⟨first, response, rest, rfl, hcall, hrest⟩ := reaches_bind_pure h
  obtain ⟨rfl, hr⟩ := reaches_pure.mp hrest
  cases hr
  rw [List.append_nil]
  refine ⟨response, rfl, ?_⟩
  unfold ApiCall.program at hcall
  split at hcall
  · obtain ⟨-, hq⟩ := reaches_pure.mp hcall
    cases hq
    exact Or.inl rfl
  · next credentials hcredentials =>
    refine Or.inr ⟨credentials, hcredentials, ?_⟩
    rcases reaches_tryCatch_pure hcall with hroute | ⟨way, e, rest, rfl, hroute, hrest⟩
    · exact Or.inl hroute
    · obtain ⟨rfl, hq⟩ := reaches_pure.mp hrest
      cases hq
      rw [List.append_nil]
      exact Or.inr ⟨e, hroute, rfl⟩

/-- The services write no credentials. -/
theorem spares_service (env : Env) (settings : ApiSettings) (worker : Service) :
    ((Party.service worker).program env settings).Uses Op.SparesCredentials := by
  refine Uses.bind ?_ fun _ => trivial
  apply (uses_program env worker.job).mono
  intro op hop
  cases worker with
  | prefill =>
    cases hop with
    | handle name hop =>
      cases hop with
      | status status htaken hop => cases hop <;> trivial
      | _ => trivial
    | _ => trivial
  | dispatcherStart =>
    cases hop with
    | mapping hop => cases hop <;> trivial
    | _ => trivial
  | prefillStart => rcases hop with hop | hop <;> cases hop <;> trivial
  | ackWaitExpires stream durable => exact hop ▸ trivial
  | passwordCacheExpires password hash subscription => exact hop ▸ trivial
  | idle => exact hop.elim
  | _ => cases hop <;> trivial

end Clients

/-! ## The run -/

/-! One step: the call is lost and nothing has changed, or it is served. What was traced stays so
because the history grows, and what is new is the one entry that was written, the one result that
was cached, or the one answer that was heard. -/

section Run

variable {env : Env} {settings : ApiSettings} {same : Setoid String} {parties : Nat → Party}
  {w : World} {c d : ApiSystem} {i : Nat}

/-- **Only a registration brings a new password into the store.** -/
theorem Traced.put (h : Traced env settings same parties w c)
    (hverify : ∀ salt pw pw', env.verify pw (env.hash salt pw') = true → same.r pw pw')
    {name hash : String}
    {k : Except CallError (Op.kvPut .credentials name hash).Res → Coro (Option Response)}
    (hp : c.prog i = .await (.kvPut .credentials name hash) k)
    {ev : Event Op Op.Res CallError Outage World} (htid : ev.tid = i)
    (hop : ev.op = .kvPut .credentials name hash) :
    Issued env settings same parties w (ev :: c.hist) name hash := by
  have hreach : ((parties i).program env settings).Reaches (c.way i)
      (.await (.kvPut .credentials name hash) k) := hp ▸ h.arrived i
  cases hparty : parties i with
  | service worker =>
    rw [hparty] at hreach
    exact (hreach.uses_await (spares_service env settings worker)).elim
  | client call =>
    rw [hparty] at hreach
    obtain ⟨credentials, hcredentials, k', hroute⟩ := client_await hreach
    rcases route_puts hroute with ⟨sub, hrequest, rfl, rfl⟩ | ⟨rfl, hcompared⟩
    · -- A registration, which is open to the administrator alone.
      refine ⟨call.salt, sub.password, rfl, sub.password, same.refl _, ?_⟩
      rcases (gated_route env call.request).calls _ _ _ hroute with hopen | hlogin
      · obtain ⟨role, hrole, hheld⟩ := hopen
        rw [hrequest] at hrole
        cases List.mem_singleton.mp hrole
        rw [← htid] at hparty
        exact .registered call credentials sub ev List.mem_cons_self hparty hcredentials hheld
          hrequest rfl rfl hop
      · exact hlogin.elim
    · -- A login that replaces a hash by one of the same password.
      obtain ⟨hpassword, hnew⟩ := h.compared hverify hcompared
      obtain ⟨salt, hhash⟩ := hnew hash rfl
      exact ⟨salt, _, hhash, hpassword.cons ev⟩

/-- **Every step keeps everything traced.** -/
theorem Traced.step {l : Nat × Fault Outage} (h : Traced env settings same parties w c)
    (hverify : ∀ salt pw pw', env.verify pw (env.hash salt pw') = true → same.r pw pw')
    (hs : c.step (serve env) l = some d) : Traced env settings same parties w d := by
  have harrived := h.arrived.step hs
  obtain ⟨op, k, hp, rfl⟩ := Config.step_cases hs
  obtain ⟨i, f⟩ := l
  dsimp only at hp ⊢
  refine ⟨harrived, ?_, ?_, ?_⟩
  · -- The stored hashes. Only a call that puts one can make a new one.
    intro name hash hstored
    rw [Config.next_hist]
    rw [Config.next_world] at hstored
    rcases Server.left_cases (serve env) i op c.world f with hleft | ⟨-, hleft⟩
    · rw [hleft] at hstored
      exact (h.stored name hash hstored).cons _
    · rw [hleft, serve_answer] at hstored
      rcases credential_answer env i op c.world name with hsame | ⟨hash', rfl, hput⟩ | ⟨-, hdelete⟩
      · rw [hsame] at hstored
        exact (h.stored name hash hstored).cons _
      · rw [hput] at hstored
        cases hstored
        exact h.put hverify hp rfl rfl
      · rw [hdelete] at hstored
        cases hstored
  · -- The results in the password cache.
    intro x hx
    rw [Config.next_world] at hx
    rcases Server.left_cases (serve env) i op c.world f with hleft | ⟨-, hleft⟩
    · rw [hleft] at hx
      exact h.cached x hx
    · rw [hleft, serve_answer] at hx
      rcases passwordCache_answer env i op c.world hx with
        hold | ⟨salt, password, hashed, subscription, -, rfl⟩
      · exact h.cached x hold
      · exact fromHash_verifyAndUpdate salt password hashed
  · intro ev hev
    rw [Config.next_hist] at hev ⊢
    rcases List.mem_cons.mp hev with rfl | hev
    · -- What is heard now is what is stored.
      dsimp only
      unfold Traceable
      split
      · next name e heard =>
        obtain ⟨rfl, hanswer⟩ := Server.heard_eq_ok heard
        simp only [serve_answer, answer] at hanswer
        split at hanswer
        · next e' he =>
          cases hanswer
          refine (h.stored name e.value ?_).cons _
          unfold World.credential Store.Bucket.value?
          rw [he]
          rfl
        · cases hanswer
      · next salt password hashed subscription r heard =>
        obtain ⟨rfl, hanswer⟩ := Server.heard_eq_ok heard
        simp only [serve_answer, answer] at hanswer
        split at hanswer
        · next r' hlookup =>
          cases hanswer
          obtain ⟨l₁, l₂, hsplit, -⟩ := List.lookup_eq_some_iff.mp hlookup
          have hmem : ((password, hashed, subscription), r) ∈ c.world.passwordCache := by
            rw [hsplit]
            exact List.mem_append_right _ List.mem_cons_self
          exact h.cached _ hmem
        · split at hanswer
          · cases hanswer
          · cases hanswer
            exact fromHash_verifyAndUpdate salt password hashed
      · trivial
    · exact (h.heard ev hev).mono fun name hash hissued => hissued.cons _

end Run

/-- **Nobody gets in without a password.** Any number of clients send any requests, while the
services run, calls are lost and requests are broken off. A request whose next call is no part of a
login, or which is answered otherwise than by a refusal or an internal error, carries the
credentials of a user whom its route is open to: those in the settings, or the name of the
subscription and a password which the hash scheme takes for one that an administrator has
registered for it. -/
theorem api_calls_authorized (env : Env) (settings : ApiSettings) (same : Setoid String)
    (parties : Nat → Party) (w : World) (ls : Schedule) (d : ApiSystem)
    (hverify : ∀ salt pw pw', env.verify pw (env.hash salt pw') = true → same.r pw pw')
    (hstored : ∀ name hash, w.credential name = some hash →
      ∃ salt password, hash = env.hash salt password)
    (hcache : w.passwordCache = [])
    (hrun : (ApiSystem.start env settings w parties).run (serve env) ls = some d)
    (i : Nat) (call : ApiCall) (hparty : parties i = .client call) :
    (∀ op, (d.prog i).next? = some op →
      call.Authorized settings (PassesFor env settings same parties w d.hist) ∨
        ∃ credentials, call.credentials = some credentials ∧ op.LogsIn credentials) ∧
    (∀ r, d.prog i = .pure r → ∃ response, r = some response ∧
      (call.Authorized settings (PassesFor env settings same parties w d.hist) ∨
        response.status = 401 ∨ response.status = 500)) := by
  have hstart : Traced env settings same parties w (ApiSystem.start env settings w parties) := by
    refine ⟨Config.arrived_init w _, ?_, ?_, fun ev hev => absurd hev List.not_mem_nil⟩
    · intro name hash hcredential
      obtain ⟨salt, password, rfl⟩ := hstored name hash hcredential
      exact ⟨salt, password, rfl, password, same.refl _, .initial salt hcredential⟩
    · intro x hx
      rw [ApiSystem.start, Config.init_world, hcache] at hx
      cases hx
  have htraced : Traced env settings same parties w d :=
    Config.run_invariant (C := fun _ _ => True) (fun c l d h _ hs => h.step hverify hs) hstart
      (Config.along_trivial ls) hrun
  have hreach : ((Party.client call).program env settings).Reaches (d.way i) (d.prog i) :=
    hparty ▸ htraced.arrived i
  constructor
  · intro op hop
    cases hp : d.prog i with
    | pure r =>
      rw [hp] at hop
      cases hop
    | throw e =>
      rw [hp] at hop
      cases hop
    | await op' k =>
      rw [hp] at hop hreach
      cases hop
      obtain ⟨credentials, hcredentials, k', hroute⟩ := client_await hreach
      rcases (gated_route env call.request).calls _ _ _ hroute with hopen | hlogin
      · exact Or.inl ⟨credentials, hcredentials, htraced.openTo hverify hopen⟩
      · exact Or.inr ⟨credentials, hcredentials, hlogin⟩
  · intro r hr
    rw [hr] at hreach
    obtain ⟨response, rfl, hanswered⟩ := client_pure hreach
    refine ⟨response, rfl, ?_⟩
    rcases hanswered with hmissing | ⟨credentials, hcredentials, hreturned | ⟨e, hraised, rfl⟩⟩
    · exact Or.inr (Or.inl hmissing)
    · have hopen := (gated_route env call.request).returns _ _ hreturned
      exact Or.inl ⟨credentials, hcredentials, htraced.openTo hverify hopen⟩
    · rcases (gated_route env call.request).raises _ _ hraised with hopen | hrefused
      · exact Or.inl ⟨credentials, hcredentials, htraced.openTo hverify hopen⟩
      · exact Or.inr hrefused

/-! ## Three clients -/

def ApiSettings.sample : ApiSettings where
  toAppSettings := .sample
  prefillUsername := "prefill"
  prefillPassword := "fill"
  eventsUsernameUdm := "udm"
  eventsPasswordUdm := "events"

/-- A poll of the messages of "a". -/
def polling (password : String) : ApiCall :=
  ⟨some ⟨"a", password⟩, .getNextMessage ⟨"a", by decide⟩ 0 false, "t"⟩

/-- A password of which bcrypt looks at all but the end. -/
def longPassword (last : Char) : String := String.ofList (List.replicate 72 'x' ++ [last])

/-- The administrator registers "a" with a long password. Its messages are polled with another one
that differs in its 73rd byte, and with a wrong one. -/
def someClients : Nat → Party :=
  Party.pool [.client ⟨some .admin, .createSubscription
      { NewSubscription.withoutPrefill with password := longPassword 'a' }, "s"⟩,
    .client (polling (longPassword 'b')), .client (polling "wrong")]

def clientSchedule : Schedule :=
  List.replicate 7 (0, .ok) ++ [(1, .ok), (2, .ok), (2, .ok), (1, .ok), (2, .ok)]

theorem api_calls_authorized_sample : ∃ d,
    (ApiSystem.start .bcrypt .sample .prepared someClients).run (serve .bcrypt) clientSchedule =
      some d ∧
    (d.prog 1).next? = some (.prefillDoneGet "a") ∧
    (polling (longPassword 'b')).Authorized .sample
      (PassesFor .bcrypt .sample (Setoid.ker significant) someClients .prepared d.hist) ∧
    d.prog 2 = .pure (some ⟨401, .detail "Incorrect username or password"⟩) := by
  obtain ⟨d, hrun, hnext, hrefused⟩ : ∃ d,
      (ApiSystem.start .bcrypt .sample .prepared someClients).run (serve .bcrypt) clientSchedule =
        some d ∧
      (d.prog 1).next? = some (.prefillDoneGet "a") ∧
      d.prog 2 = .pure (some ⟨401, .detail "Incorrect username or password"⟩) :=
    ⟨_, rfl, rfl, rfl⟩
  have hverify : ∀ salt pw pw', Env.bcrypt.verify pw (Env.bcrypt.hash salt pw') = true →
      (Setoid.ker significant).r pw pw' := fun salt pw pw' h => significant_of_verify h
  have hauthorized := api_calls_authorized .bcrypt .sample (Setoid.ker significant) someClients
    .prepared clientSchedule d hverify (fun name hash h => by cases h) rfl hrun 1
    (polling (longPassword 'b')) rfl
  rcases hauthorized.1 _ hnext with h | ⟨credentials, -, hlogin⟩
  · exact ⟨d, hrun, hnext, h, hrefused⟩
  · exact hlogin.elim

end Provisioning
