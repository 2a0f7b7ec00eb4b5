import Lingsway.Providers.Accounting.Marzban

/-!
# What a failed `create_user` says about the server

The server may have created the user behind every lost answer and behind every
status but those that the pinned routes tie to the commit. A failure names its
effect, unless something is raised that `create_user` has no handler for.
-/
namespace Lingsway.Marzban

open Library Program

def ownErrors : List String :=
  ["MarzbanContractError", "MarzbanAuthenticationError", "MarzbanTransportError", "MarzbanPreflightError",
    "MarzbanProviderClosedError", "MarzbanTlsConfigurationError"]

/-- What the HTTP client and the standard library raise is none of the backend's own. -/
def Foreign (exc : Exn) : Prop :=
  match exc.cls with
  | .valueError => True
  | .runtimeError => True
  | .other name => name ∉ ownErrors
  | _ => False

/-- The pinned routes reject before they commit, and answer 200 behind the commit. -/
def PinnedAnswer (status : ℕ) (created : Bool) : Prop :=
  (status ∈ [400, 401, 409, 422] → created = false) ∧ (status = 200 → created = true)

/-- The documented behaviour of the HTTP client, of the standard library and of the server. An
attribute is read without an exception, and `httpx.HTTPError` is for exchanges only. -/
def exchange (e : Event clientPort Exn) (_ : History clientPort Exn) : Prop :=
  match e with
  | ⟨.createDefaultContext _, .error exc, _⟩ => Foreign exc ∧ isHttpError exc = false
  | ⟨.newClient, .error exc, _⟩ => Foreign exc ∧ isHttpError exc = false
  | ⟨.post .., .error exc, _⟩ => Foreign exc
  | ⟨.post .., .ok response, _⟩ => ∀ exc, response.json = .error exc → Foreign exc
  | ⟨.request .., .error exc, _⟩ => Foreign exc
  | ⟨.request .., .ok response, created⟩ =>
    (∀ exc, response.json = .error exc → Foreign exc) ∧ PinnedAnswer response.status created
  | ⟨_, .error _, _⟩ => False
  | _ => True

/-- Some request of the call has created the user. -/
def CreatedIn (h : History clientPort Exn) : Prop :=
  ∃ method url json authorization x, ⟨.request method url json authorization, x, true⟩ ∈ h

/-- A request of the call was handed to the HTTP client. -/
def Dispatched (h : History clientPort Exn) : Prop :=
  ∃ method url json authorization x took, ⟨.request method url json authorization, x, took⟩ ∈ h

/-- What the last request of the call proves. -/
def verdict : History clientPort Exn → AccountingCreateEffect
  | [] => .noSideEffect
  | ⟨.request .., .ok response, _⟩ :: _ =>
    if response.status = 200 then .created
    else if response.status ∈ [400, 401, 409, 422] then .noSideEffect
    else .ambiguous
  | ⟨.request .., .error _, _⟩ :: _ => .ambiguous
  | _ :: past => verdict past

/-- A failure is of the typed error and names what is proved about the server, and rightly. -/
def SoundOutcome (r : Except Exn AccountUserDTO) (h : History clientPort Exn) : Prop :=
  ∀ exc, r = .error exc → exc.cls = .accountingCreateUserError (verdict h) ∧
    (verdict h = .noSideEffect → ¬ CreatedIn h) ∧ (verdict h = .created → CreatedIn h)

/-- `create_user` has a handler for what comes of this answer. -/
def Handled (username : String) (e : Event clientPort Exn) : Prop :=
  match e with
  | ⟨.createDefaultContext _, .error exc, _⟩ => isOsError exc = true ∨ isValueError exc = true
  | ⟨.newClient, .error _, _⟩ => False
  | ⟨.post .., .error exc, _⟩ => isHttpError exc = true
  | ⟨.post .., .ok response, _⟩ => response.status = 200 → ∃ payload, response.json = .ok (.obj payload)
  | ⟨.request .., .error exc, _⟩ => isHttpError exc = true
  | ⟨.request .., .ok response, _⟩ =>
    response.status = 200 → ∀ exc, createdUser username response = .error exc → isContractError exc = true
  | _ => True

/-- `create_user` has a handler for everything that is raised in it. -/
def AllHandled (username : String) (expireAt : Option DateTime) (h : History clientPort Exn) : Prop :=
  (∀ exc, mapExpireToMarzban expireAt = .error exc → isContractError exc = true) ∧
    ∀ e ∈ h, Handled username e

theorem CreatedIn.dispatched {h : History clientPort Exn} : CreatedIn h → Dispatched h := by
  rintro ⟨method, url, json, authorization, x, hmem⟩
  exact ⟨method, url, json, authorization, x, true, hmem⟩

section Raises

/-- Every exception of the outcome satisfies `P`. -/
def Raises {α : Type} (P : Exn → Prop) (x : Except Exn α) : Prop := ∀ exc, x = .error exc → P exc

variable {α β : Type} {P : Exn → Prop}

theorem Raises.ok (a : α) : Raises P (.ok a) := by
  intro exc h
  cases h

theorem Raises.error {exc : Exn} (h : P exc) : Raises P (.error exc : Except Exn α) := by
  intro exc' h'
  cases h'
  exact h

theorem Raises.bind {x : Except Exn α} {f : α → Except Exn β} (hx : Raises P x) (hf : ∀ a, Raises P (f a)) :
    Raises P (x >>= f) := by
  cases x with
  | ok a => exact hf a
  | error exc => exact Raises.error (hx exc rfl)

theorem Raises.ite {c : Prop} [Decidable c] {x y : Except Exn α} (hx : Raises P x) (hy : Raises P y) :
    Raises P (if c then x else y) := by
  split_ifs
  · exact hx
  · exact hy

end Raises

/-- An exception that the handlers of `create_user` let through, and that is not the typed error. -/
structure Stray (exc : Exn) : Prop where
  preflight : isPreflightError exc = false
  authentication : isAuthenticationError exc = false
  transport : isTransportError exc = false
  untyped : ∀ effect, exc.cls ≠ .accountingCreateUserError effect

theorem Foreign.stray {exc : Exn} (h : Foreign exc) : Stray exc := by
  obtain ⟨cls, message⟩ := exc
  cases cls <;> simp_all [Foreign, ownErrors] <;>
    constructor <;> simp_all [isPreflightError, isAuthenticationError, isTransportError]

theorem stray_contractError (message : String) : Stray (contractError message) := by
  constructor <;> simp [contractError, isPreflightError, isAuthenticationError, isTransportError]

theorem Stray.classifyCall {exc : Exn} (h : Stray exc) : classifyCall exc = exc := by
  simp [Marzban.classifyCall, h.preflight, h.authentication, h.transport]

/-- Everything was handled so far, and no request is known to have had an effect. -/
structure Clean (username : String) (h : History clientPort Exn) : Prop where
  handled : ∀ e ∈ h, Handled username e
  verdict_eq : verdict h = .noSideEffect
  uncreated : ¬ CreatedIn h

/-- Something was raised that is not handled. -/
def Unhandled (username : String) (exc : Exn) (h : History clientPort Exn) : Prop :=
  Stray exc ∧ ¬ ∀ e ∈ h, Handled username e

section Spec

variable {config : Config} {username : String} {h : History clientPort Exn}

/-- Calls that are no request. -/
def aside : ClientCall → Bool
  | .request .. => false
  | _ => true

theorem Clean.cons (hs : Clean username h) {e : Event clientPort Exn} (he : aside e.call = true)
    (hhandled : Handled username e) : Clean username (e :: h) := by
  obtain ⟨c, x, took⟩ := e
  refine ⟨List.forall_mem_cons.mpr ⟨hhandled, hs.handled⟩, ?_, ?_⟩
  · rw [← hs.verdict_eq]
    cases c <;> first | rfl | cases he
  · rintro ⟨method, url, json, authorization, y, hmem⟩
    obtain heq | hmem := List.mem_cons.mp hmem
    · rw [← heq] at he
      cases he
    · exact hs.uncreated ⟨method, url, json, authorization, y, hmem⟩

theorem unhandled_cons {exc : Exn} (hstray : Stray exc) {e : Event clientPort Exn} (hnot : ¬ Handled username e) :
    Unhandled username exc (e :: h) :=
  ⟨hstray, fun hall => hnot (hall e (List.mem_cons_self ..))⟩

/-- An attribute of the adapter is read and the program goes on. -/
theorem read_wp {c : ClientCall} {α : Type} {f : c.Answer → Client α}
    {Q : Except Exn α → History clientPort Exn → Prop}
    (hc : c = .closed ∨ c = .hasClient ∨ c = .token ∨ ∃ token, c = .setToken token)
    (hf : ∀ a t, Clean username t → (f a).wp (behaviours exchange) Q t) (hs : Clean username h) :
    (client c >>= f).wp (behaviours exchange) Q h := by
  simp only [client, perform, wp_bind, wp_call_behaviours, wp_ofExcept]
  rintro (exc | a) took hx
  · obtain rfl | rfl | rfl | ⟨token, rfl⟩ := hc <;> exact hx.elim
  · refine hf a _ (hs.cons ?_ ?_)
    · obtain rfl | rfl | rfl | ⟨token, rfl⟩ := hc <;> rfl
    · obtain rfl | rfl | rfl | ⟨token, rfl⟩ := hc <;> trivial

/-- A preparation of the client that failed. -/
def PreparationFailed (username : String) (exc : Exn) (h : History clientPort Exn) : Prop :=
  isHttpError exc = false ∧ ((isPreflightError exc = true ∧ Clean username h) ∨ Unhandled username exc h)

theorem buildMarzbanTlsVerify_wp (hs : Clean username h) :
    (buildMarzbanTlsVerify config).wp (behaviours exchange) (fun
      | .ok _ => Clean username
      | .error exc => fun t => (isTlsConfigurationError exc = true ∧ Clean username t) ∨
        (isTlsConfigurationError exc = false ∧ isHttpError exc = false ∧ Unhandled username exc t)) h := by
  rw [buildMarzbanTlsVerify]
  split_ifs
  · exact hs
  dsimp only
  split_ifs
  · exact .inl ⟨rfl, hs⟩
  simp only [client, perform, wp_tryCatch, wp_call_behaviours, wp_ofExcept]
  rintro (exc | _) took hx
  · rw [catchPost_error]
    split_ifs with hcaught
    · refine .inl ⟨rfl, hs.cons rfl ?_⟩
      simpa [Handled] using hcaught
    · refine .inr ⟨?_, hx.2, unhandled_cons hx.1.stray ?_⟩
      · have hforeign := hx.1
        obtain ⟨cls, message⟩ := exc
        cases cls <;> simp_all [Foreign, ownErrors, isTlsConfigurationError]
      · simpa [Handled] using hcaught
  · exact hs.cons rfl trivial

theorem clientForOperation_wp (hs : Clean username h) :
    (clientForOperation config).wp (behaviours exchange) (fun
      | .ok _ => Clean username
      | .error exc => PreparationFailed username exc) h := by
  refine read_wp (.inl rfl) (fun closed t ht => ?_) hs
  split_ifs
  · exact ⟨by decide +revert, .inl ⟨rfl, ht⟩⟩
  refine read_wp (.inr (.inl rfl)) (fun hasClient t ht => ?_) ht
  split_ifs
  · exact ht
  rw [wp_bind, wp_tryCatch]
  refine wp_mono _ _ ?_ (buildMarzbanTlsVerify_wp ht)
  rintro (exc | _) u hu
  · rw [catchPost_error]
    obtain ⟨hconfig, hu⟩ | ⟨hconfig, hhttp, hu⟩ := hu
    · simp only [hconfig, if_true, wp_raise, bindPost_error]
      exact ⟨by decide, .inl ⟨rfl, hu⟩⟩
    · simp only [hconfig, Bool.false_eq_true, if_false, wp_raise, bindPost_error]
      exact ⟨hhttp, .inr hu⟩
  · simp only [catchPost_ok, bindPost_ok, client, perform, wp_call_behaviours, wp_ofExcept]
    rintro (exc | _) took hx
    · exact ⟨hx.2, .inr (unhandled_cons hx.1.stray id)⟩
    · exact hu.cons rfl trivial

/-- What `_authenticate` or a refused request raises: it is proved that nothing was created. -/
def Refused (username : String) (exc : Exn) (h : History clientPort Exn) : Prop :=
  (isPreflightError exc = true ∨ isAuthenticationError exc = true) ∧ Clean username h

theorem stray_jsonObject {response : Response} (hforeign : ∀ exc, response.json = .error exc → Foreign exc)
    (operation : String) : Raises Stray (jsonObject response operation) := by
  rw [jsonObject]
  cases hjson : response.json with
  | error exc => exact Raises.ite (Raises.error (stray_contractError _)) (Raises.error (hforeign exc hjson).stray)
  | ok json =>
    cases json with
    | obj payload => exact Raises.ok payload
    | _ => exact Raises.error (stray_contractError _)

theorem jsonObject_ok {response : Response} {operation : String} {payload : Members}
    (h : jsonObject response operation = .ok payload) : response.json = .ok (.obj payload) := by
  rw [jsonObject] at h
  split at h
  · split_ifs at h
  · cases h
    assumption
  · cases h

theorem tokenOf_error (payload : Members) : Raises (fun exc => isAuthenticationError exc = true) (tokenOf payload) := by
  rw [tokenOf]
  split
  · refine Raises.ite (Raises.error rfl) ?_
    split
    · exact Raises.ok _
    · exact Raises.ite (Raises.ok _) (Raises.error rfl)
    · exact Raises.error rfl
  · exact Raises.error rfl

/-- The body of a token response is an object, or its reader has raised. -/
theorem accessToken_cases (response : Response) :
    ((response.status = 200 → ∃ payload, response.json = .ok (.obj payload)) ∧
      Raises (fun exc => isAuthenticationError exc = true) (accessToken response)) ∨
    ((response.status = 200 ∧ ¬ ∃ payload, response.json = .ok (.obj payload)) ∧
      ∃ exc, accessToken response = .error exc ∧ jsonObject response "authenticate" = .error exc) := by
  by_cases hstatus : response.status = 200
  · rw [accessToken, if_neg (not_not.mpr hstatus)]
    cases hpayload : jsonObject response "authenticate" with
    | error exc =>
      refine .inr ⟨⟨hstatus, ?_⟩, exc, rfl, rfl⟩
      rintro ⟨payload, hjson⟩
      rw [jsonObject, hjson] at hpayload
      cases hpayload
    | ok payload => exact .inl ⟨fun _ => ⟨payload, jsonObject_ok hpayload⟩, tokenOf_error payload⟩
  · refine .inl ⟨fun h => absurd h hstatus, ?_⟩
    rw [accessToken, if_pos hstatus]
    exact Raises.error rfl

theorem authenticate_wp (hs : Clean username h) :
    (authenticate config).wp (behaviours exchange) (fun
      | .ok _ => Clean username
      | .error exc => fun t => Refused username exc t ∨ Unhandled username exc t) h := by
  rw [authenticate, wp_bind, wp_attempt, wp_bind]
  refine wp_mono _ _ ?_ (clientForOperation_wp hs)
  rintro (exc | _) t ht
  · obtain ⟨hhttp, ht⟩ := ht
    simp only [bindPost, hhttp, Bool.false_eq_true, if_false, wp_raise]
    obtain ⟨hpreflight, ht⟩ | ht := ht
    · exact .inl ⟨.inl hpreflight, ht⟩
    · exact .inr ht
  simp only [bindPost, client, perform, wp_call_behaviours, wp_ofExcept]
  rintro (exc | response) took hx
  · by_cases hhttp : isHttpError exc = true
    · simp only [hhttp, if_true, wp_raise]
      exact .inl ⟨.inr rfl, ht.cons rfl hhttp⟩
    · simp only [hhttp, Bool.false_eq_true, if_false, wp_raise]
      exact .inr (unhandled_cons hx.stray hhttp)
  simp only [wp_ofExcept]
  obtain ⟨hobject, hraises⟩ | ⟨⟨hstatus, hobject⟩, exc, htoken, hpayload⟩ := accessToken_cases response
  · have hclean := ht.cons (e := ⟨.post (config.baseUrl ++ "/api/admin/token")
      [("username", config.adminUsername), ("password", config.adminPassword)], .ok response, took⟩) rfl hobject
    cases htoken : accessToken response with
    | ok token => exact hclean
    | error exc => exact .inl ⟨.inr (hraises exc htoken), hclean⟩
  · rw [htoken]
    refine .inr (unhandled_cons (stray_jsonObject hx "authenticate" exc hpayload) ?_)
    exact fun hhandled => hobject (hhandled hstatus)

/-- The last request got this response. -/
def Answered (username : String) (response : Response) (h : History clientPort Exn) : Prop :=
  ∃ method url json authorization created past,
    h = ⟨.request method url json authorization, .ok response, created⟩ :: past ∧ Clean username past ∧
      exchange ⟨.request method url json authorization, .ok response, created⟩ past

/-- The last request got no response. -/
def Unanswered (username : String) (exc : Exn) (h : History clientPort Exn) : Prop :=
  isTransportError exc = true ∧ (∀ e ∈ h, Handled username e) ∧ verdict h = .ambiguous

theorem dispatch_wp (method path operation : String) (json : Json) (hs : Clean username h) :
    (dispatch config method path operation json).wp (behaviours exchange) (fun
      | .ok response => Answered username response
      | .error exc => fun t => Refused username exc t ∨ Unanswered username exc t ∨ Unhandled username exc t) h := by
  rw [dispatch, wp_bind, wp_attempt, wp_bind]
  refine wp_mono _ _ ?_ (clientForOperation_wp hs)
  rintro (exc | _) t ht
  · obtain ⟨hhttp, ht⟩ := ht
    simp only [bindPost, hhttp, Bool.false_eq_true, if_false, wp_raise]
    obtain ⟨hpreflight, ht⟩ | ht := ht
    · exact .inl ⟨.inl hpreflight, ht⟩
    · exact .inr (.inr ht)
  rw [bindPost_ok]
  refine read_wp (.inr (.inr (.inl rfl))) (fun token u hu => ?_) ht
  simp only [client, perform, wp_call_behaviours, wp_ofExcept]
  rintro (exc | response) took hx
  · by_cases hhttp : isHttpError exc = true
    · simp only [bindPost, hhttp, if_true, wp_raise]
      exact .inr (.inl ⟨rfl, List.forall_mem_cons.mpr ⟨hhttp, hu.handled⟩, rfl⟩)
    · simp only [bindPost, hhttp, Bool.false_eq_true, if_false, wp_raise]
      exact .inr (.inr (unhandled_cons hx.stray hhttp))
  · exact ⟨_, _, _, _, _, _, rfl, hu, hx⟩

/-- A rejected token leaves nothing behind. -/
theorem Answered.clean {response : Response} (hs : Answered username response h) (hstatus : response.status = 401) :
    Clean username h := by
  obtain ⟨method, url, json, authorization, created, past, rfl, hpast, hexchange⟩ := hs
  have hcreated : created = false := hexchange.2.1 (by simp [hstatus])
  refine ⟨List.forall_mem_cons.mpr ⟨?_, hpast.handled⟩, by simp [verdict, hstatus], ?_⟩
  · intro h200
    omega
  · rintro ⟨method', url', json', authorization', x, hmem⟩
    obtain heq | hmem := List.mem_cons.mp hmem
    · cases heq
      cases hcreated
    · exact hpast.uncreated ⟨_, _, _, _, _, hmem⟩

/-- A call that failed. -/
def CallFailed (username : String) (exc : Exn) (h : History clientPort Exn) : Prop :=
  Refused username exc h ∨ Unanswered username exc h ∨ Unhandled username exc h

theorem renewToken_wp (hs : Clean username h) :
    (renewToken config).wp (behaviours exchange) (fun
      | .ok _ => Clean username
      | .error exc => CallFailed username exc) h := by
  rw [renewToken, wp_bind]
  refine wp_mono _ _ ?_ (authenticate_wp hs)
  rintro (exc | token) t ht
  · obtain ht | ht := ht
    · exact .inl ht
    · exact .inr (.inr ht)
  · simp only [bindPost, client, perform, wp_call_behaviours, wp_ofExcept]
    rintro (exc | _) took hx
    · exact hx.elim
    · exact ht.cons rfl trivial

theorem ensureToken_wp (token : Option String) (hs : Clean username h) :
    (ensureToken config token).wp (behaviours exchange) (fun
      | .ok _ => Clean username
      | .error exc => CallFailed username exc) h := by
  rw [ensureToken]
  split_ifs
  · exact renewToken_wp hs
  · exact hs

theorem call_wp (method path operation : String) (json : Json) (hs : Clean username h) :
    (call config method path operation json).wp (behaviours exchange) (fun
      | .ok response => fun t => response.status ≠ 401 ∧ Answered username response t
      | .error exc => CallFailed username exc) h := by
  rw [call]
  refine read_wp (.inr (.inr (.inl rfl))) (fun token t ht => ?_) hs
  rw [wp_bind]
  refine wp_mono _ _ ?_ (ensureToken_wp token ht)
  rintro (exc | _) t ht
  · exact ht
  rw [bindPost_ok, wp_bind]
  refine wp_mono _ _ ?_ (dispatch_wp method path operation json ht)
  rintro (exc | response) t ht
  · exact ht
  rw [bindPost_ok, wp_ite]
  refine ⟨fun hstatus => ?_, fun hstatus => ⟨hstatus, ht⟩⟩
  refine read_wp (.inr (.inr (.inr ⟨none, rfl⟩))) (fun _ t ht => ?_) (ht.clean hstatus)
  rw [wp_bind]
  refine wp_mono _ _ ?_ (renewToken_wp ht)
  rintro (exc | _) t ht
  · exact ht
  rw [bindPost_ok, wp_bind]
  refine wp_mono _ _ ?_ (dispatch_wp method path operation json ht)
  rintro (exc | response) t ht
  · exact ht
  rw [bindPost_ok, wp_ite]
  refine ⟨fun hstatus => ?_, fun hstatus => ⟨hstatus, ht⟩⟩
  exact .inl ⟨.inr rfl, ht.clean hstatus⟩

theorem untyped_contractError (message : String) (effect : AccountingCreateEffect) :
    (contractError message).cls ≠ .accountingCreateUserError effect := by simp [contractError]

/-- No exception of the readers is the typed error. -/
def Untyped (exc : Exn) : Prop := ∀ effect, exc.cls ≠ .accountingCreateUserError effect

theorem untyped_requireStr (payload : Members) (key operation : String) : Raises Untyped (requireStr payload key operation) := by
  rw [requireStr]
  split
  · exact Raises.ite (Raises.error (untyped_contractError _)) (Raises.ok _)
  · exact Raises.error (untyped_contractError _)

theorem untyped_requirePinnedStatus (payload : Members) (key operation : String) :
    Raises Untyped (requirePinnedStatus payload key operation) := by
  refine (untyped_requireStr payload key operation).bind fun value => ?_
  exact Raises.ite (Raises.ok _) (Raises.error (untyped_contractError _))

theorem untyped_requireNonNegativeInt (payload : Members) (key operation : String) :
    Raises Untyped (requireNonNegativeInt payload key operation) := by
  rw [requireNonNegativeInt]
  split
  · exact Raises.error (untyped_contractError _)
  · exact Raises.ite (Raises.error (untyped_contractError _)) (Raises.ok _)
  · split
    · exact Raises.ite (Raises.error (untyped_contractError _)) (Raises.ok _)
    · exact Raises.error (untyped_contractError _)
  · exact Raises.error (untyped_contractError _)

theorem untyped_expireFromMarzban (value : Json) (operation : String) :
    Raises Untyped (expireFromMarzban value operation) := by
  unfold expireFromMarzban
  split
  · exact Raises.ok _
  · refine Raises.ite (Raises.ok _) (Raises.ite (Raises.error (untyped_contractError _)) ?_)
    rw [fromTimestamp]
    split_ifs
    · exact Raises.ok _
    · exact Raises.error fun effect => by simp
    · exact Raises.error fun effect => by simp
  · exact Raises.error (untyped_contractError _)

theorem untyped_parseAccountUser (payload : Members) (username operation : String) :
    Raises Untyped (parseAccountUser payload username operation) := by
  refine (untyped_requireStr payload "username" operation).bind fun name => ?_
  refine Raises.ite (Raises.error (untyped_contractError _)) ?_
  refine Raises.bind ?_ fun routingPrincipal => ?_
  · rw [usableRoutingPrincipal]
    split
    · exact Raises.ite (Raises.error (untyped_contractError _)) (Raises.ok _)
    · exact Raises.error (untyped_contractError _)
  refine (untyped_requireNonNegativeInt payload _ operation).bind fun quotaBytes => ?_
  refine (untyped_expireFromMarzban _ operation).bind fun expireAt => ?_
  exact (untyped_requirePinnedStatus payload _ operation).bind fun status => Raises.ok _

theorem untyped_createdUser {response : Response} (hforeign : ∀ exc, response.json = .error exc → Foreign exc) :
    Raises Untyped (createdUser username response) := by
  refine Raises.bind (fun exc h => (stray_jsonObject hforeign _ exc h).untyped) fun payload => ?_
  refine (untyped_requirePinnedStatus payload _ _).bind fun status => ?_
  exact Raises.ite (Raises.error (untyped_contractError _)) (untyped_parseAccountUser payload _ _)

theorem untyped_mapExpireToMarzban (expireAt : Option DateTime) : Raises Untyped (mapExpireToMarzban expireAt) := by
  unfold mapExpireToMarzban
  split
  · exact Raises.ok _
  · split
    · exact Raises.error (untyped_contractError _)
    · refine Raises.ite (Raises.error fun effect => by simp) ?_
      exact Raises.ite (Raises.error (untyped_contractError _)) (Raises.ok _)

theorem soundOutcome_error {exc : Exn} (hcls : exc.cls = .accountingCreateUserError (verdict h))
    (hnone : verdict h = .noSideEffect → ¬ CreatedIn h) (hcreated : verdict h = .created → CreatedIn h) :
    SoundOutcome (.error exc) h := by
  intro exc' heq
  cases heq
  exact ⟨hcls, hnone, hcreated⟩

theorem not_soundOutcome {exc : Exn} (huntyped : Untyped exc) : ¬ SoundOutcome (.error exc) h :=
  fun hsound => huntyped _ (hsound exc rfl).1

theorem classifyContract_of_not {exc : Exn} (hnot : isContractError exc ≠ true) (effect : AccountingCreateEffect) :
    classifyContract effect exc = exc := if_neg hnot

theorem CallFailed.judged {exc : Exn} {expireAt : Option DateTime} {mappedExpire : ℤ}
    (hexpire : mapExpireToMarzban expireAt = .ok mappedExpire) (hs : CallFailed username exc h) :
    SoundOutcome (.error (classifyCall exc)) h ↔ AllHandled username expireAt h := by
  have hmapped : ∀ exc, mapExpireToMarzban expireAt = .error exc → isContractError exc = true := by simp [hexpire]
  obtain ⟨hrefused, hclean⟩ | ⟨htransport, hhandled, hverdict⟩ | ⟨hstray, hnot⟩ := hs
  · refine iff_of_true (soundOutcome_error ?_ (fun _ => hclean.uncreated) ?_) ⟨hmapped, hclean.handled⟩
    · rw [hclean.verdict_eq, Marzban.classifyCall]
      split_ifs with hpreflight hauthentication
      · rfl
      · rfl
      · simp_all
      · simp_all
    · simp [hclean.verdict_eq]
  · refine iff_of_true (soundOutcome_error ?_ ?_ ?_) ⟨hmapped, hhandled⟩
    · have hcls : exc.cls = .other "MarzbanTransportError" := by simpa [isTransportError] using htransport
      have hpreflight : isPreflightError exc = false := by simp [isPreflightError, hcls]
      have hauthentication : isAuthenticationError exc = false := by simp [isAuthenticationError, hcls]
      simp [hverdict, Marzban.classifyCall, hpreflight, hauthentication, htransport, createUserError]
    · simp [hverdict]
    · simp [hverdict]
  · rw [hstray.classifyCall]
    exact iff_of_false (not_soundOutcome hstray.untyped) fun hall => hnot hall.2

theorem Answered.judged {response : Response} {expireAt : Option DateTime} {mappedExpire : ℤ}
    (hexpire : mapExpireToMarzban expireAt = .ok mappedExpire) (h401 : response.status ≠ 401)
    (hs : Answered username response h) :
    SoundOutcome (createOutcome username response) h ↔ AllHandled username expireAt h := by
  obtain ⟨method, url, json, authorization, created, past, rfl, hpast, hforeign, hnone, hcreated⟩ := hs
  have hmapped : ∀ exc, mapExpireToMarzban expireAt = .error exc → isContractError exc = true := by simp [hexpire]
  have huncreated : created = false →
      ¬ CreatedIn (⟨.request method url json authorization, .ok response, created⟩ :: past) := by
    rintro rfl ⟨method', url', json', authorization', x, hmem⟩
    obtain heq | hmem := List.mem_cons.mp hmem
    · cases heq
    · exact hpast.uncreated ⟨_, _, _, _, _, hmem⟩
  have hother : response.status ≠ 200 → AllHandled username expireAt
      (⟨.request method url json authorization, .ok response, created⟩ :: past) :=
    fun h200 => ⟨hmapped, List.forall_mem_cons.mpr ⟨fun h => absurd h h200, hpast.handled⟩⟩
  rw [createOutcome]
  split_ifs with hrejected h200
  · have hstatus : response.status ∈ [400, 401, 409, 422] := by
      simp only [List.contains_eq_mem, decide_eq_true_eq, List.mem_cons, List.not_mem_nil, or_false] at hrejected ⊢
      omega
    have h200 : response.status ≠ 200 := by
      rintro heq
      simp [heq] at hstatus
    refine iff_of_true (soundOutcome_error ?_ (fun _ => huncreated (hnone hstatus)) ?_) (hother h200)
    · simp [verdict, h200, hstatus, createUserError]
    · simp [verdict, h200, hstatus]
  · have hstatus : response.status ∉ [400, 401, 409, 422] := by
      simp only [List.contains_eq_mem, decide_eq_true_eq, List.mem_cons, List.not_mem_nil, or_false] at hrejected ⊢
      omega
    refine iff_of_true (soundOutcome_error ?_ ?_ ?_) (hother h200)
    · simp [verdict, h200, hstatus, createUserError]
    · simp [verdict, h200, hstatus]
    · simp [verdict, h200, hstatus]
  · have hstatus : response.status = 200 := not_not.mp h200
    have hverdict : verdict (⟨.request method url json authorization, .ok response, created⟩ :: past) = .created := by
      simp [verdict, hstatus]
    cases hparsed : createdUser username response with
    | ok user =>
      refine iff_of_true ?_ ⟨hmapped, List.forall_mem_cons.mpr ⟨?_, hpast.handled⟩⟩
      · intro exc heq
        cases heq
      · intro _ exc heq
        rw [hparsed] at heq
        cases heq
    | error exc =>
      change SoundOutcome (.error (classifyContract .created exc)) _ ↔ _
      by_cases hcontract : isContractError exc = true
      · rw [classifyContract, if_pos hcontract]
        refine iff_of_true (soundOutcome_error ?_ (by simp [hverdict]) fun _ => ?_)
          ⟨hmapped, List.forall_mem_cons.mpr ⟨?_, hpast.handled⟩⟩
        · rw [hverdict]
          rfl
        · rw [hcreated hstatus]
          exact ⟨_, _, _, _, _, List.mem_cons_self ..⟩
        · intro _ exc' heq
          rw [hparsed] at heq
          cases heq
          exact hcontract
      · rw [classifyContract_of_not hcontract]
        refine iff_of_false (not_soundOutcome (untyped_createdUser hforeign exc hparsed)) fun hall => ?_
        exact hcontract (hall.2 _ (List.mem_cons_self ..) hstatus exc hparsed)

/-- A failure of `create_user` names what is proved about the server, exactly when nothing is raised
that it has no handler for. A user that is returned was requested. -/
theorem createUser_wp (config : Config) (username : String) (quotaBytes : ℤ) (expireAt : Option DateTime) :
    (createUser config username quotaBytes expireAt).wp (behaviours exchange) (fun r t =>
      (SoundOutcome r t ↔ AllHandled username expireAt t) ∧ ∀ user, r = .ok user → Dispatched t) [] := by
  have hclean : Clean username [] := by
    refine ⟨by simp, rfl, ?_⟩
    rintro ⟨method, url, json, authorization, x, hmem⟩
    cases hmem
  rw [createUser, wp_bind, wp_ofExcept]
  cases hexpire : mapExpireToMarzban expireAt with
  | error exc =>
    change (SoundOutcome (.error (classifyContract .noSideEffect exc)) [] ↔ _) ∧ _
    refine ⟨?_, by simp [Except.mapError]⟩
    by_cases hcontract : isContractError exc = true
    · rw [classifyContract, if_pos hcontract]
      refine iff_of_true (soundOutcome_error rfl (fun _ => hclean.uncreated) (by simp [verdict])) ⟨?_, by simp⟩
      intro exc' heq
      rw [hexpire] at heq
      cases heq
      exact hcontract
    · rw [classifyContract_of_not hcontract]
      refine iff_of_false (not_soundOutcome (untyped_mapExpireToMarzban expireAt exc hexpire)) ?_
      exact fun hall => hcontract (hall.1 exc hexpire)
  | ok mappedExpire =>
    change Program.wp _ _ _ _
    rw [wp_bind, wp_attempt]
    refine wp_mono _ _ ?_ (call_wp _ _ _ _ hclean)
    rintro (exc | response) t ht
    · refine ⟨ht.judged hexpire, ?_⟩
      intro user heq
      cases heq
    · rw [bindPost_ok]
      change Program.wp _ (Program.ofExcept _) _ _
      rw [wp_ofExcept]
      refine ⟨ht.2.judged hexpire ht.1, fun _ _ => ?_⟩
      obtain ⟨method, url, json, authorization, created, past, rfl, -⟩ := ht.2
      exact ⟨method, url, json, authorization, _, created, List.mem_cons_self ..⟩

end Spec

end Lingsway.Marzban
