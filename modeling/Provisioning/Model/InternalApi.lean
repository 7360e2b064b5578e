import Provisioning.Lib.Url
import Provisioning.Model.Data

/-!
# The internal API over HTTP

`server/adapters/internal_api_adapter.py` on the one side, the routes of `server/core/app` on the
other. The prefill service reports a status under the name of a subscription. The name is pasted
into an address as it is, and a route has to find it there again: `receive` says for which name, or
which error the request is answered with when no route takes it. What is done for that name is up to
the route (`updateSubscriptionQueueStatus`, with the service).

What the HTTP client, the server and the router do to an address is the library's part. Of the
eight routes only two take `PATCH`, the method of every request that is modelled here.
-/

namespace Provisioning

open Url

/-! ## The prefill service's side -/

/-- The host of a setting, which is a host and not the beginning of a path. -/
structure Host where
  text : String
  plain : '/' ∉ text.toList ∧ Unmarked text.toList

structure PrefillSettings where
  prefillUsername : String
  prefillPassword : String
  provisioningApiHost : Host
  provisioningApiPort : Int

def PrefillSettings.provisioningApiUrl (settings : PrefillSettings) : String :=
  "http://" ++ settings.provisioningApiHost.text ++ ":" ++ toString settings.provisioningApiPort

def FillQueueStatus.value : FillQueueStatus → String
  | .pending => "pending"
  | .running => "running"
  | .failed => "failed"
  | .done => "done"

/-- `FillQueueStatus(value)`. -/
def FillQueueStatus.ofValue (value : String) : Option FillQueueStatus :=
  [FillQueueStatus.pending, .running, .failed, .done].find? fun status => status.value == value

/-- Update a subscription's prefill queue status. -/
structure FillQueueStatusReport where
  status : FillQueueStatus
deriving DecidableEq, Repr

def FillQueueStatusReport.modelDump (report : FillQueueStatusReport) : List (String × String) :=
  [("status", report.status.value)]

def FillQueueStatusReport.modelValidate (json : List (String × String)) :
    Option FillQueueStatusReport := do
  return ⟨← FillQueueStatus.ofValue (← json.lookup "status")⟩

inductive Method where
  | get
  | post
  | patch
  | delete
deriving DecidableEq, Repr

/-- A request with the report of a status. -/
structure StatusRequest where
  method : Method
  url : String
  auth : HTTPBasicCredentials
  json : List (String × String)
deriving DecidableEq, Repr

/-- `text.rstrip(c)`. -/
def rstrip (c : Char) (text : String) : String :=
  String.ofList (text.toList.rdropWhile fun x => x == c)

/-- Client for the Internal REST API. -/
structure InternalAPIAdapter where
  baseUrl : String
  auth : HTTPBasicCredentials

def InternalAPIAdapter.init (url username password : String) : InternalAPIAdapter :=
  ⟨rstrip '/' url, ⟨username, password⟩⟩

/-- What `update_subscription_queue_status` sends. -/
def InternalAPIAdapter.statusRequest (adapter : InternalAPIAdapter) (name : String)
    (queueStatus : FillQueueStatus) : StatusRequest where
  method := .patch
  url := adapter.baseUrl ++ "/v1/subscriptions/" ++ name ++ "/prefill"
  auth := adapter.auth
  json := (FillQueueStatusReport.mk queueStatus).modelDump

/-! ## The API's side -/

/-- The functions that the routes call. -/
inductive Endpoint where
  | getSubscriptions
  | getSubscription
  | deleteSubscription
  | createSubscription
  | updateSubscriptionPrefillStatus
  | getNextMessage
  | updateMessageStatus
  | createNewMessage
deriving DecidableEq, Repr

/-- `APIRouter(prefix="/v1/subscriptions")`. -/
def inSubscriptions (rest : List Part) : List Part :=
  .literal [] :: .literal "v1".toList :: .literal "subscriptions".toList :: rest

/-- `/v1/subscriptions/{name}/prefill`. -/
def prefillTemplate : List Part := inSubscriptions [.param, .literal "prefill".toList]

/-- The two routers, in the order in which they are included. -/
def routes : List (Route Method Endpoint) :=
  [⟨.get, inSubscriptions [], .getSubscriptions⟩,
    ⟨.get, inSubscriptions [.param], .getSubscription⟩,
    ⟨.delete, inSubscriptions [.param], .deleteSubscription⟩,
    ⟨.post, inSubscriptions [], .createSubscription⟩,
    ⟨.patch, prefillTemplate, .updateSubscriptionPrefillStatus⟩,
    ⟨.get, inSubscriptions [.param, .literal "messages".toList, .literal "next".toList],
      .getNextMessage⟩,
    ⟨.patch, inSubscriptions [.param, .literal "messages".toList, .param,
      .literal "status".toList], .updateMessageStatus⟩,
    ⟨.post, [.literal [], .literal "v1".toList, .literal "messages".toList], .createNewMessage⟩]

/-- What the settings of the app say of the user that the prefill service is. -/
structure PrefillUser where
  prefillUsername : String
  prefillPassword : String

/-- `authenticate_prefill`. -/
def authenticatePrefill (user : PrefillUser) (credentials : HTTPBasicCredentials) : Bool :=
  credentials.username == user.prefillUsername && credentials.password == user.prefillPassword

def StatusRequest.destination (request : StatusRequest) : Destination Endpoint :=
  dispatch request.method (segments (requested request.url.toList)) routes

/-- The arguments with which the request has `set_subscription_queue_status` called, or else the
status it is answered with. -/
def receive (user : PrefillUser) (request : StatusRequest) :
    Except Nat (String × FillQueueStatus) :=
  match request.destination with
  | .notFound => .error 404
  | .notAllowed => .error 405
  | .endpoint .updateSubscriptionPrefillStatus values =>
    if authenticatePrefill user request.auth then
      match FillQueueStatusReport.modelValidate request.json with
      | some report => .ok (String.ofList (values.headD []), report.status)
      | none => .error 422
    else .error 401
  -- `PATCH` of a message's status, whose report has to be one of `ok`.
  | .endpoint _ _ => .error 422

/-- Both services are given the same user and password. -/
structure Deployment where
  prefill : PrefillSettings
  app : PrefillUser
  sameUsername : prefill.prefillUsername = app.prefillUsername
  samePassword : prefill.prefillPassword = app.prefillPassword

/-- `PrefillPort.__init__`. -/
def Deployment.adapter (d : Deployment) : InternalAPIAdapter :=
  .init d.prefill.provisioningApiUrl d.prefill.prefillUsername d.prefill.prefillPassword

/-! ## The address that the app is asked for -/

theorem digits_plain {n : Nat} {c : Char} (hc : c.isDigit = false) : c ∉ n.repr.toList := by
  intro h
  rw [Nat.toList_repr] at h
  rw [Nat.isDigit_of_mem_toDigits (by decide) (by decide) h] at hc
  cases hc

theorem port_plain {port : Int} {c : Char} (hdigit : c.isDigit = false) (hminus : c ≠ '-') :
    c ∉ (toString port).toList := by
  cases port with
  | ofNat n => exact digits_plain hdigit
  | negSucc n =>
    have hport : (toString (Int.negSucc n)).toList = '-' :: (n + 1).repr.toList :=
      String.toList_append
    rw [hport, List.mem_cons, not_or]
    exact ⟨hminus, digits_plain hdigit⟩

/-- What follows the host. -/
theorem colon_port_plain (port : Int) : '/' ∉ ':' :: (toString port).toList ∧
    Unmarked (':' :: (toString port).toList) := by
  unfold Unmarked
  simp only [List.mem_cons, not_or]
  exact ⟨⟨by decide, port_plain rfl (by decide)⟩, ⟨by decide, port_plain rfl (by decide)⟩,
    by decide, port_plain rfl (by decide)⟩

/-- Scheme, host and port. -/
def PrefillSettings.origin (settings : PrefillSettings) : Origin where
  scheme := "http".toList
  authority := settings.provisioningApiHost.text.toList ++
    ':' :: (toString settings.provisioningApiPort).toList
  scheme_plain := by decide
  authority_plain := by
    obtain ⟨hslash, hunmarked⟩ := settings.provisioningApiHost.plain
    obtain ⟨hslash', hunmarked'⟩ := colon_port_plain settings.provisioningApiPort
    rw [List.mem_append, not_or]
    exact ⟨⟨hslash, hslash'⟩, unmarked_append.mpr ⟨hunmarked, hunmarked'⟩⟩

theorem toList_provisioningApiUrl (settings : PrefillSettings) :
    settings.provisioningApiUrl.toList = settings.origin.text := by
  unfold PrefillSettings.provisioningApiUrl Origin.text PrefillSettings.origin
  simp only [String.toList_append, List.append_assoc]
  rfl

/-- The URL of the settings ends in its port, so nothing is stripped. -/
theorem rstrip_provisioningApiUrl (settings : PrefillSettings) :
    rstrip '/' settings.provisioningApiUrl = settings.provisioningApiUrl := by
  have hurl : settings.provisioningApiUrl.toList =
      ("http".toList ++ ':' :: '/' :: '/' :: settings.provisioningApiHost.text.toList) ++
        ':' :: (toString settings.provisioningApiPort).toList := by
    rw [toList_provisioningApiUrl, List.append_assoc]
    rfl
  refine String.toList_injective ?_
  unfold rstrip
  rw [String.toList_ofList, List.rdropWhile_eq_self_iff]
  intro hne hslash
  have hlast : settings.provisioningApiUrl.toList.getLast hne ∈
      ':' :: (toString settings.provisioningApiPort).toList := by
    simp only [hurl]
    rw [List.getLast_append_of_ne_nil _ (List.cons_ne_nil _ _)]
    exact List.getLast_mem _
  rw [beq_iff_eq.mp hslash] at hlast
  exact (colon_port_plain settings.provisioningApiPort).1 hlast

/-- The path of the request as the adapter writes it. -/
def statusAddress (name : String) : List Char := joined (fill prefillTemplate [name.toList])

theorem statusAddress_eq (name : String) :
    statusAddress name = "/v1/subscriptions/".toList ++ (name.toList ++ "/prefill".toList) := by
  have hparts : fill prefillTemplate [name.toList] =
      [[], "v1".toList, "subscriptions".toList, name.toList, "prefill".toList] := rfl
  unfold statusAddress
  rw [hparts, joined_cons (List.cons_ne_nil _ _), joined_cons (List.cons_ne_nil _ _),
    joined_cons (List.cons_ne_nil _ _), joined_cons (List.cons_ne_nil _ _), joined_singleton]
  rfl

/-- **The address is the template's**, with the name for its parameter. -/
theorem requested_status (d : Deployment) (name : String) (queueStatus : FillQueueStatus) :
    requested (d.adapter.statusRequest name queueStatus).url.toList =
      received (statusAddress name) := by
  have hbase : d.adapter.baseUrl = d.prefill.provisioningApiUrl :=
    rstrip_provisioningApiUrl d.prefill
  have hurl : (d.adapter.statusRequest name queueStatus).url.toList =
      d.prefill.origin.text ++ statusAddress name := by
    show (d.adapter.baseUrl ++ "/v1/subscriptions/" ++ name ++ "/prefill").toList = _
    rw [hbase, statusAddress_eq]
    simp only [String.toList_append, toList_provisioningApiUrl, List.append_assoc]
  rw [hurl, statusAddress_eq]
  exact requested_origin d.prefill.origin _

/-! ## What the app makes of the request -/

/-- A report under `name` is taken for one about `other`: this is what the route makes of the
address that `name` was pasted into. Mostly the two are the same, and for some names there is no
`other` at all. -/
def TakenFor (name other : String) : Prop :=
  routed prefillTemplate (statusAddress name) = some [other.toList]

instance (name other : String) : Decidable (TakenFor name other) :=
  inferInstanceAs (Decidable (_ = _))

variable {d : Deployment} {name other : String} {status status' : FillQueueStatus}

/-- One report, one record. -/
theorem TakenFor.unique {other' : String} (h : TakenFor name other) (h' : TakenFor name other') :
    other' = other := by
  have hsame : some [other'.toList] = some [other.toList] := h'.symm.trans h
  exact String.toList_injective (List.singleton_injective (Option.some.inj hsame))

/-- The template has one parameter, so a route is a name. -/
theorem exists_takenFor_iff :
    (∃ other, TakenFor name other) ↔
      (routed prefillTemplate (statusAddress name)).isSome = true := by
  constructor
  · intro ⟨other, h⟩
    exact Option.isSome_iff_exists.mpr ⟨_, h⟩
  · intro h
    obtain ⟨values, hvalues⟩ := Option.isSome_iff_exists.mp h
    obtain ⟨value, rfl⟩ := List.length_eq_one_iff.mp (captures_eq_some_iff.mp hvalues).2.1
    refine ⟨String.ofList value, ?_⟩
    unfold TakenFor
    rw [String.toList_ofList]
    exact hvalues

instance (name : String) : Decidable (∃ other, TakenFor name other) :=
  decidable_of_iff _ exists_takenFor_iff.symm

/-- What arrives is the address of the other name. -/
theorem TakenFor.received (h : TakenFor name other) :
    received (statusAddress name) = statusAddress other :=
  received_of_routed h

theorem ofValue_value (status : FillQueueStatus) :
    FillQueueStatus.ofValue status.value = some status := by
  cases status with
  | pending => rfl
  | running => rfl
  | failed => rfl
  | done => rfl

theorem modelValidate_modelDump (report : FillQueueStatusReport) :
    FillQueueStatusReport.modelValidate report.modelDump = some report := by
  show (FillQueueStatus.ofValue report.status.value).bind
    (fun status => some (FillQueueStatusReport.mk status)) = some report
  rw [ofValue_value]
  rfl

theorem authenticated (d : Deployment) (name : String) (status : FillQueueStatus) :
    authenticatePrefill d.app (d.adapter.statusRequest name status).auth = true := by
  show (d.prefill.prefillUsername == d.app.prefillUsername &&
    d.prefill.prefillPassword == d.app.prefillPassword) = true
  rw [d.sameUsername, d.samePassword, beq_self_eq_true, beq_self_eq_true]
  rfl

/-- The endpoint has one route. -/
theorem template_of_endpoint : ∀ route ∈ routes,
    route.endpoint = .updateSubscriptionPrefillStatus → route.template = prefillTemplate := by
  decide

/-- **The status is set for whatever name the template takes.** -/
theorem receive_ok_iff :
    receive d.app (d.adapter.statusRequest name status) = .ok (other, status') ↔
      TakenFor name other ∧ status' = status := by
  have hdestination : (d.adapter.statusRequest name status).destination =
      dispatch .patch (segments (received (statusAddress name))) routes := by
    unfold StatusRequest.destination
    rw [requested_status]
    rfl
  have hreport : FillQueueStatusReport.modelValidate (d.adapter.statusRequest name status).json =
      some ⟨status⟩ := modelValidate_modelDump ⟨status⟩
  unfold receive
  rw [hdestination, authenticated, hreport]
  constructor
  · -- A request that reached the endpoint has matched its template, so the name is what the
    -- template took.
    intro h
    cases hrouted : dispatch .patch (segments (received (statusAddress name))) routes with
    | notFound =>
      rw [hrouted] at h
      cases h
    | notAllowed =>
      rw [hrouted] at h
      cases h
    | endpoint endpoint values =>
      obtain ⟨route, hmem, -, hendpoint, hcaptures⟩ := route_of_dispatch hrouted
      rw [hrouted] at h
      cases endpoint with
      | updateSubscriptionPrefillStatus =>
        rw [template_of_endpoint route hmem hendpoint] at hcaptures
        obtain ⟨value, hvalue⟩ := List.length_eq_one_iff.mp (captures_eq_some_iff.mp hcaptures).2.1
        rw [hvalue] at h hcaptures
        injection h with hcall
        injection hcall with hother hstatus
        refine ⟨?_, hstatus.symm⟩
        unfold TakenFor
        rw [← hother, show ([value].headD []) = value from rfl, String.toList_ofList]
        exact hcaptures
      | _ => cases h
  · intro h
    obtain ⟨hrouted, hstatus⟩ := h
    have hroute : dispatch .patch (segments (received (statusAddress name))) routes =
        .endpoint .updateSubscriptionPrefillStatus [other.toList] :=
      dispatch_of_captures (routes.take 4) (by decide) rfl hrouted
    rw [hroute, hstatus]
    show Except.ok (String.ofList other.toList, status) = _
    rw [String.ofList_toList]

/-- What the app answers by itself is an error. -/
theorem receive_error {user : PrefillUser} {request : StatusRequest} {code : Nat}
    (h : receive user request = .error code) : 400 ≤ code := by
  unfold receive at h
  split at h
  · injection h with hcode
    omega
  · injection h with hcode
    omega
  · split at h
    · split at h
      · cases h
      · injection h with hcode
        omega
    · injection h with hcode
      omega
  · injection h with hcode
    omega

/-! ## Names that an address shows as they are -/

/-- A name that an address shows as it is: there is something of it, and in it no slash, no `?`, no
`#` and no `%` with two hexadecimal digits. -/
structure Sendable (name : String) : Prop where
  notEmpty : name.toList ≠ []
  verbatim : Verbatim name.toList

instance (name : String) : Decidable (Sendable name) :=
  decidable_of_iff (name.toList ≠ [] ∧ Verbatim name.toList)
    ⟨fun h => ⟨h.1, h.2⟩, fun h => ⟨h.notEmpty, h.verbatim⟩⟩

theorem verbatim_of_literal {text : List Char} (h : .literal text ∈ prefillTemplate) :
    Verbatim text := by
  have htexts : ∀ t ∈ [[], "v1".toList, "subscriptions".toList, "prefill".toList], Verbatim t := by
    decide
  refine htexts text ?_
  simpa [prefillTemplate, inSubscriptions] using h

theorem takenFor_self_iff (name : String) : TakenFor name name ↔ Sendable name := by
  have hne : prefillTemplate ≠ [] := List.cons_ne_nil _ _
  refine (captures_address hne (fun _ => verbatim_of_literal) rfl).trans ?_
  rw [List.forall_mem_singleton]
  exact ⟨fun h => ⟨h.1, h.2⟩, fun h => ⟨h.notEmpty, h.verbatim⟩⟩

-- From here on `receive_ok_iff` and `takenFor_self_iff` say what an address does; on a name that is
-- not known, the functions would only be unfolded in vain.
attribute [irreducible] receive TakenFor

/-- The settings of the charts. -/
def Deployment.sample : Deployment where
  prefill := ⟨"prefill", "prefillpass", ⟨"provisioning-api", by decide⟩, 7777⟩
  app := ⟨"prefill", "prefillpass"⟩
  sameUsername := rfl
  samePassword := rfl

end Provisioning
