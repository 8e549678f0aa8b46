import HttpRequest.Messages.EncodedFields
import HttpRequest.Redirects.Limit

/-! # What a chain of redirects leaves in the headers

`htmlEncode` writes its fields into `info_.headers`, where the next hop finds them. `Content-Length` and
`Host` are written anew at every hop, but an `Authorization` once written stays: it is that of the first
URL with user information, and no later hop replaces it (`lookup_encodeHops_authorization`). A request on
a chain is what a fresh request would be in exactly the cases in which that makes no difference
(`sameRequest_iff`). -/

namespace HttpRequest

open Foundations

/-! ### Hop after hop -/

/-- What a hop over a URL leaves of `info_`. -/
def encodeHop (info : RequestInfo) (url : Url) : RequestInfo :=
  { info with headers := encodeHeaders info url }

/-- What `htmlEncode` leaves of `info_` is what a hop leaves of it. -/
theorem htmlEncode_snd (order : IterationOrder) (info : RequestInfo) (url : Url) :
    (htmlEncode order info url).2 = encodeHop info url := rfl

/-- A chain leaves what its hops leave, one after the other. -/
theorem Redirected.info_ {env : Env} {s t : State} {hops : List Connection} {urls : List Url}
    (h : Redirected env s hops urls t) : t.info_ = urls.foldl encodeHop s.info_ := by
  induction h with
  | here s => rfl
  | @hop s t connection connections urls url handOver accepted chain ih =>
    obtain ⟨⟨-, hinfo, -⟩, -⟩ := run_hop handOver accepted
    rw [ih, hinfo]
    rfl

/-- Hops write nothing but headers. -/
theorem foldl_encodeHop (info : RequestInfo) (urls : List Url) :
    urls.foldl encodeHop info = { info with headers := (urls.foldl encodeHop info).headers } := by
  induction urls generalizing info with
  | nil => rfl
  | cons url urls ih =>
    rw [List.foldl_cons, ih]
    rfl

/-- The first of the URLs with user information. -/
def firstWithUserInfo (urls : List Url) : Option Url := urls.find? fun url => !url.userInfo.isEmpty

/-- **The `Authorization` of a chain** is the caller's, or else that of the first URL with user
information. -/
theorem lookup_encodeHops_authorization (info : RequestInfo) (urls : List Url) :
    (urls.foldl encodeHop info).headers.lookup kAuthorization =
      (info.headers.lookup kAuthorization).or ((firstWithUserInfo urls).bind urlCredentials) := by
  induction urls generalizing info with
  | nil => exact (Option.or_none).symm
  | cons url urls ih =>
    rw [List.foldl_cons, ih]
    show ((encodeHeaders info url).lookup kAuthorization).or _ = _
    rw [lookup_encodeHeaders_authorization, Option.or_assoc, firstWithUserInfo, firstWithUserInfo]
    congr 1
    cases hempty : url.userInfo.isEmpty with
    | true =>
      rw [List.find?_cons_of_neg (by simp [hempty]), urlCredentials, hempty]
      rfl
    | false =>
      rw [List.find?_cons_of_pos (by simp [hempty]), Option.bind_some, urlCredentials, hempty]
      rfl

/-- The other fields of a hop are those of a fresh request. -/
theorem lookup_encodeHops_of_ne (info : RequestInfo) (urls : List Url) (url : Url) {name : Bytes}
    (h : name ≠ kAuthorization) :
    (encodeHeaders (urls.foldl encodeHop info) url).lookup name =
      (encodeHeaders info url).lookup name := by
  induction urls generalizing info with
  | nil => rfl
  | cons first urls ih =>
    rw [List.foldl_cons, ih, lookup_encodeHeaders_of_ne _ _ h, lookup_encodeHeaders_of_ne _ _ h]
    show (if name = kHost then some url.host
      else if name = kContentLength then
        (lengthField info).or ((encodeHeaders info first).lookup name)
      else (encodeHeaders info first).lookup name) = _
    by_cases hhost : name = kHost
    · rw [if_pos hhost, if_pos hhost]
    · rw [if_neg hhost, if_neg hhost, lookup_encodeHeaders_of_ne _ _ h, if_neg hhost]
      by_cases hlength : name = kContentLength
      · rw [if_pos hlength, if_pos hlength]
        cases lengthField info <;> rfl
      · rw [if_neg hlength, if_neg hlength]

/-! ### Requests on a chain and fresh requests -/

/-- Two requests with the same request line and the same set of fields. -/
def SameRequest (info info' : RequestInfo) (url : Url) : Prop :=
  requestLine info url = requestLine info' url ∧
    ∀ (order order' : IterationOrder) (name : Bytes),
      (htmlEncode order info url).2.headers.lookup name =
        (htmlEncode order' info' url).2.headers.lookup name

/-- Nothing of the user information of earlier URLs can show: the caller brought an `Authorization`, or
none of the URLs had user information, or the first that had is matched by the last URL. -/
def Untraced (info : RequestInfo) (urls : List Url) (url : Url) : Prop :=
  (info.headers.lookup kAuthorization).isSome = true ∨
    ∀ first ∈ firstWithUserInfo urls, first.userInfo = url.userInfo

/-- Different user information makes different credentials. -/
theorem basicCredentials_injective : Function.Injective basicCredentials :=
  fun _ _ h => base64Encode_injective (List.append_cancel_left h)

/-- The first URL with user information has some. -/
theorem isEmpty_of_mem_firstWithUserInfo {urls : List Url} {first : Url}
    (h : firstWithUserInfo urls = some first) : first.userInfo.isEmpty = false := by
  have hfound := List.find?_some h
  rwa [Bool.not_eq_true'] at hfound

/-- The `Authorization` of a hop and that of a fresh request. -/
theorem authorization_eq_iff (info : RequestInfo) (urls : List Url) (url : Url) :
    ((info.headers.lookup kAuthorization).or ((firstWithUserInfo urls).bind urlCredentials)).or
        (urlCredentials url) = (info.headers.lookup kAuthorization).or (urlCredentials url) ↔
      Untraced info urls url := by
  unfold Untraced
  cases info.headers.lookup kAuthorization with
  | some value => exact ⟨fun _ => .inl rfl, fun _ => rfl⟩
  | none =>
    cases hfirst : firstWithUserInfo urls with
    | none => exact ⟨fun _ => .inr fun _ h => (by cases h), fun _ => rfl⟩
    | some first =>
      have hempty := isEmpty_of_mem_firstWithUserInfo hfirst
      have hfirstCredentials : urlCredentials first = some (basicCredentials first.userInfo) := by
        rw [urlCredentials, hempty]
        rfl
      rw [Option.bind_some, hfirstCredentials]
      show some (basicCredentials first.userInfo) = urlCredentials url ↔ _
      constructor
      · intro h
        refine .inr ?_
        rintro _ ⟨⟩
        unfold urlCredentials at h
        split at h
        · cases h
        · exact basicCredentials_injective (Option.some.inj h)
      · rintro (h | h)
        · cases h
        · have huser := h first rfl
          rw [urlCredentials, ← huser, hempty]
          rfl

/-- **A request on a chain of redirects is what a fresh request would be exactly when no user information
of an earlier URL can show.** -/
theorem sameRequest_iff {env : Env} {info : RequestInfo} {handler : ResponseHandler} {now : UInt64}
    {cancelIn : Option Nat} {hops : List Connection} {urls : List Url} {t : State}
    (hchain : Redirected env (State.started info handler now cancelIn) hops urls t) :
    SameRequest t.info_ info t.url_ ↔ Untraced info urls t.url_ := by
  have hstarted : (State.started info handler now cancelIn).info_ = info := State.tick_info_ _
  have hinfo := hchain.info_
  rw [hstarted] at hinfo
  rw [hinfo, ← authorization_eq_iff, ← lookup_encodeHops_authorization,
    ← lookup_encodeHeaders_authorization, ← lookup_encodeHeaders_authorization]
  constructor
  · intro h
    exact h.2 .latestFirst .latestFirst kAuthorization
  · intro h
    refine ⟨?_, fun order order' name => ?_⟩
    · rw [foldl_encodeHop]
      rfl
    · rw [htmlEncode_snd, htmlEncode_snd]
      by_cases hname : name = kAuthorization
      · rw [hname]
        exact h
      · exact lookup_encodeHops_of_ne info urls t.url_ hname

/-! ### A chain that leaks, and one that does not -/

/-- A connection whose server redirects to `http://b/`. -/
def foreignHop : Connection :=
  .prompt 1000 [.piece (bytes "HTTP/1.1 302 Found\r\nLocation: http://b/\r\n\r\n")]

/-- A request for `http://u:p@a/`, with the credentials in the URL. -/
def credentialRequest : RequestInfo := { url := bytes "http://u:p@a/", methodType := .Get }

/-- A request for `http://a/` leaves no trace in the request for `http://b/`. -/
theorem sameRequest_foreign :
    ∃ t, Redirected .plain (.started circularRequest .all 0 none) [foreignHop]
        [Url.parse (bytes "http://a/")] t ∧ SameRequest t.info_ circularRequest t.url_ := by
  have hurl : ((exchange foreignHop).run .plain (.started circularRequest .all 0 none)).outcome =
      .error (.redirect (bytes "http://b/")) := by rfl
  have hchain : Redirected .plain (.started circularRequest .all 0 none) [foreignHop] _ _ :=
    .hop hurl (by decide) (.here _)
  refine ⟨_, hchain, (sameRequest_iff hchain).mpr (.inr ?_)⟩
  rintro first hfirst
  cases hfirst

/-- The credentials for `a` are sent to `b`. -/
theorem leak_foreign :
    ∃ t, Redirected .plain (.started credentialRequest .all 0 none) [foreignHop]
        [Url.parse (bytes "http://u:p@a/")] t ∧
      t.url_ = Url.parse (bytes "http://b/") ∧ ¬SameRequest t.info_ credentialRequest t.url_ := by
  have hurl : ((exchange foreignHop).run .plain (.started credentialRequest .all 0 none)).outcome =
      .error (.redirect (bytes "http://b/")) := by rfl
  refine ⟨_, .hop hurl (by decide) (.here _), by rfl, fun h => ?_⟩
  have hlookup := h.2 .latestFirst .latestFirst kAuthorization
  exact absurd hlookup (by decide)

end HttpRequest
