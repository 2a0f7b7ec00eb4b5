import Lingsway.Library.History
import Lingsway.Library.Json
import Lingsway.Providers.Base

/-!
# The Marzban adapter

`create_user` over the HTTP client, the lifecycle of that client and the cached
admin token. Other operations share the adapter, so that what it reads of its
own state is answered like a call.
-/
namespace Lingsway.Marzban

open Library Program

/-- Instants that a `datetime` in UTC can hold. -/
def minInstant : Timestamp := -62135596800000000

def maxInstant : Timestamp := 253402300799999999

/-- A `datetime`: the reading of the wall clock, and its offset unless it is naive. -/
structure DateTime where
  wall : Timestamp
  utcoffset : Option ℤ
  wall_range : minInstant ≤ wall ∧ wall ≤ maxInstant

structure Response where
  status : ℕ
  json : Except Exn Json

structure Config where
  baseUrl : String
  adminUsername : String
  adminPassword : String
  protocol : String
  inboundTags : List String
  verifyTls : Bool
  caCertPath : String

inductive ClientCall where
  | closed
  | hasClient
  | createDefaultContext (cafile : String)
  | newClient
  | token
  | setToken (token : Option String)
  | post (url : String) (data : List (String × String))
  | request (method url : String) (json : Json) (authorization : String)

@[reducible] def ClientCall.Answer : ClientCall → Type
  | closed => Bool
  | hasClient => Bool
  | createDefaultContext _ => Unit
  | newClient => Unit
  | token => Option String
  | setToken _ => Unit
  | post .. => Response
  | request .. => Response

abbrev clientPort : Signature := ⟨ClientCall, ClientCall.Answer⟩

abbrev Client := Program clientPort Exn

def client (c : ClientCall) : Client c.Answer := Program.perform (S := clientPort) c

def contractError (message : String) : Exn := ⟨.other "MarzbanContractError", message⟩

def authenticationError (message : String) : Exn := ⟨.other "MarzbanAuthenticationError", message⟩

def transportError (message : String) : Exn := ⟨.other "MarzbanTransportError", message⟩

def preflightError (message : String) : Exn := ⟨.other "MarzbanPreflightError", message⟩

def providerClosedError (message : String) : Exn := ⟨.other "MarzbanProviderClosedError", message⟩

def tlsConfigurationError (message : String) : Exn := ⟨.other "MarzbanTlsConfigurationError", message⟩

def createUserError (message : String) (effect : AccountingCreateEffect) : Exn :=
  ⟨.accountingCreateUserError effect, message⟩

def isContractError (exc : Exn) : Bool := exc.cls = .other "MarzbanContractError"

def isAuthenticationError (exc : Exn) : Bool := exc.cls = .other "MarzbanAuthenticationError"

def isTransportError (exc : Exn) : Bool := exc.cls = .other "MarzbanTransportError"

/-- `isinstance(exc, MarzbanPreflightError)`: the class and its one subclass. -/
def isPreflightError (exc : Exn) : Bool :=
  exc.cls = .other "MarzbanPreflightError" || exc.cls = .other "MarzbanProviderClosedError"

def isTlsConfigurationError (exc : Exn) : Bool := exc.cls = .other "MarzbanTlsConfigurationError"

/-- The subclasses of `httpx.HTTPError`. -/
def httpErrors : List String :=
  ["HTTPError", "RequestError", "TransportError", "TimeoutException", "ConnectTimeout", "ReadTimeout",
    "WriteTimeout", "PoolTimeout", "NetworkError", "ConnectError", "ReadError", "WriteError", "CloseError",
    "ProtocolError", "LocalProtocolError", "RemoteProtocolError", "ProxyError", "UnsupportedProtocol",
    "DecodingError", "TooManyRedirects", "HTTPStatusError"]

def isHttpError (exc : Exn) : Bool :=
  match exc.cls with
  | .other name => httpErrors.contains name
  | _ => false

/-- `isinstance(exc, ValueError)`, for what reading a JSON text or a certificate raises. -/
def isValueError (exc : Exn) : Bool :=
  match exc.cls with
  | .valueError => true
  | .other name => ["JSONDecodeError", "UnicodeDecodeError", "UnicodeEncodeError"].contains name
  | _ => false

/-- `isinstance(exc, OSError)`, of which `ssl.SSLError` is a subclass. -/
def isOsError (exc : Exn) : Bool :=
  match exc.cls with
  | .other name =>
    ["OSError", "FileNotFoundError", "PermissionError", "IsADirectoryError", "NotADirectoryError", "SSLError"].contains name
  | _ => false

def mapExpireToMarzban : Option DateTime → Except Exn ℤ
  | none => .ok 0
  | some expireAt =>
    match expireAt.utcoffset with
    | none => .error (contractError
      ("expire_at must be timezone-aware; a naive datetime cannot be safely " ++
        "interpreted as a specific UTC instant"))
    | some offset =>
      let instant := expireAt.wall - offset
      if instant < minInstant ∨ maxInstant < instant then
        .error ⟨.other "OverflowError", "date value out of range"⟩
      else
        let epochSeconds := instant.tdiv 1000000
        if epochSeconds ≤ 0 then .error (contractError
          ("expire_at maps to a non-positive Marzban epoch timestamp " ++
            s!"({epochSeconds}); Marzban's 'expire=0' sentinel means " ++
            "unlimited, so a real expiration before/at the Unix epoch " ++
            "cannot be safely represented"))
        else .ok epochSeconds

/-- `datetime.fromtimestamp(value, UTC)`, for a positive value. -/
def fromTimestamp (value : ℤ) : Except Exn Timestamp :=
  if value * 1000000 ≤ maxInstant then .ok (value * 1000000)
  else if value < 2 ^ 55 then .error ⟨.valueError, "year is out of range"⟩
  else .error ⟨.other "OverflowError", "timestamp out of range for platform time_t"⟩

def expireFromMarzban (value : Json) (operation : String) : Except Exn (Option Timestamp) :=
  match value with
  | .null => .ok none
  | .int value =>
    if value = 0 then .ok none
    else if value < 0 then .error (contractError
      (s!"Marzban {operation} response 'expire' was negative ({value}); " ++
        "the pinned contract has no defined meaning for a negative expire value"))
    else (fromTimestamp value).map some
  | _ => .error (contractError s!"Marzban {operation} response 'expire' was not an integer or null")

def jsonObject (response : Response) (operation : String) : Except Exn Members :=
  match response.json with
  | .error exc =>
    if isValueError exc then .error (contractError s!"Marzban {operation} response was not valid JSON")
    else .error exc
  | .ok (.obj payload) => .ok payload
  | .ok _ => .error (contractError s!"Marzban {operation} response was not a JSON object")

def requireStr (payload : Members) (key operation : String) : Except Exn String :=
  match payload.item key with
  | .str value =>
    if Text.strip value = "" then
      .error (contractError s!"Marzban {operation} response is missing a usable '{key}' field")
    else .ok value
  | _ => .error (contractError s!"Marzban {operation} response is missing a usable '{key}' field")

def pinnedUserStatuses : List String := ["active", "disabled", "expired", "limited", "on_hold"]

def enabledStatuses : List String := ["active", "on_hold"]

def createSuccessStatus : String := "active"

def requirePinnedStatus (payload : Members) (key operation : String) : Except Exn String := do
  let value ← requireStr payload key operation
  if pinnedUserStatuses.contains value then .ok value
  else .error (contractError
    (s!"Marzban {operation} response '{key}' '{value}' is not one of the " ++
      "pinned UserStatus values ['active', 'disabled', 'expired', 'limited', 'on_hold']"))

/-- The double that is nearest to a whole number, to the even one in a tie. -/
def nearestDouble (n : ℕ) : ℕ :=
  let shift := n.log2 + 1 - 53
  let quotient := n / 2 ^ shift
  let rest := 2 * (n % 2 ^ shift)
  if rest < 2 ^ shift ∨ (rest = 2 ^ shift ∧ quotient % 2 = 0) then quotient * 2 ^ shift
  else (quotient + 1) * 2 ^ shift

/-- The value of a float from `1e+16` on. -/
def scientific (repr : String) : Option ℕ :=
  match Text.splitOnChar 'e' repr.toList with
  | [mantissa, '+' :: exponent] => do
    let exponent ← (String.ofList exponent).toNat?
    match Text.splitOnChar '.' mantissa with
    | [whole] => do
      let digits ← (String.ofList whole).toNat?
      some (nearestDouble (digits * 10 ^ exponent))
    | [whole, fraction] => do
      let digits ← (String.ofList (whole ++ fraction)).toNat?
      some (nearestDouble (digits * 10 ^ (exponent - fraction.length)))
    | _ => none
  | _ => none

/-- `int(value)` of a float for which `value.is_integer()`, unless it is large and negative. -/
def integralFloat (repr : String) : Option ℤ :=
  match Json.wholeFloat repr with
  | .int n => some n
  | _ => (scientific repr).map Int.ofNat

def requireNonNegativeInt (payload : Members) (key operation : String) : Except Exn ℤ :=
  let notAnInteger := contractError s!"Marzban {operation} response '{key}' was not a non-negative integer"
  match payload.item key with
  | .bool _ => .error (contractError s!"Marzban {operation} response '{key}' was a bool, not an integer")
  | .int value => if value < 0 then .error notAnInteger else .ok value
  | .float repr =>
    match integralFloat repr with
    | some value => if value < 0 then .error notAnInteger else .ok value
    | none => .error notAnInteger
  | _ => .error notAnInteger

def usableRoutingPrincipal (payload : Members) : Except Exn String :=
  let unusable := contractError
    ("Marzban response is missing a usable routing_principal (the " ++
      "Candidate B patch may not be applied to this Marzban image)")
  match payload.item "routing_principal" with
  | .str value => if Text.strip value = "" then .error unusable else .ok value
  | _ => .error unusable

def parseAccountUser (payload : Members) (expectedUsername operation : String) : Except Exn AccountUserDTO := do
  let username ← requireStr payload "username" operation
  if username ≠ expectedUsername then
    .error (contractError "Marzban response username did not match the requested username")
  else do
    let routingPrincipal ← usableRoutingPrincipal payload
    let quotaBytes ← requireNonNegativeInt payload "data_limit" operation
    let expireAt ← expireFromMarzban (payload.item "expire") operation
    let status ← requirePinnedStatus payload "status" operation
    .ok ⟨username, quotaBytes, expireAt, routingPrincipal, enabledStatuses.contains status⟩

/-- What `create_user` makes of the body of a response of status 200. -/
def createdUser (username : String) (response : Response) : Except Exn AccountUserDTO := do
  let payload ← jsonObject response "create_user"
  let status ← requirePinnedStatus payload "status" "create_user"
  if status ≠ createSuccessStatus then
    .error (contractError
      (s!"Marzban create_user response status was '{status}', " ++
        s!"not '{createSuccessStatus}' as requested"))
  else parseAccountUser payload username "create_user"

/-- `build_marzban_tls_verify`, which raises nothing but a configuration error for what the
standard library documents about certificates. -/
def buildMarzbanTlsVerify (config : Config) : Client Unit :=
  if !config.verifyTls then pure ()
  else
    let normalizedPath := Text.strip config.caCertPath
    if normalizedPath = "" then
      .raise (tlsConfigurationError
        "MARZBAN_CA_CERT_PATH must not be blank when Marzban TLS verification is enabled")
    else
      (client (.createDefaultContext normalizedPath)).tryCatch fun exc =>
        if isOsError exc || isValueError exc then
          .raise (tlsConfigurationError "configured Marzban CA certificate could not be loaded")
        else .raise exc

def clientForOperation (config : Config) : Client Unit := do
  if ← client .closed then .raise (providerClosedError "MarzbanAccountingProvider is closed")
  else if ← client .hasClient then pure ()
  else do
    (buildMarzbanTlsVerify config).tryCatch fun exc =>
      if isTlsConfigurationError exc then
        .raise (preflightError "Marzban TLS trust configuration could not be prepared")
      else .raise exc
    client .newClient

/-- The token in the body of a response of the admin token route. -/
def tokenOf (payload : Members) : Except Exn String :=
  let missing := authenticationError "Marzban admin token response is missing access_token"
  let notBearer := authenticationError "Marzban admin token response token_type was not 'bearer'"
  match payload.item "access_token" with
  | .str token =>
    if Text.strip token = "" then .error missing
    else
      match payload.item "token_type" with
      | .null => .ok token
      | .str tokenType => if Text.lowerWord tokenType = "bearer" then .ok token else .error notBearer
      | _ => .error notBearer
  | _ => .error missing

def accessToken (response : Response) : Except Exn String :=
  if response.status ≠ 200 then .error (authenticationError "Marzban admin authentication was rejected")
  else jsonObject response "authenticate" >>= tokenOf

def authenticate (config : Config) : Client String := do
  let posted ← (do
    clientForOperation config
    client (.post (config.baseUrl ++ "/api/admin/token")
      [("username", config.adminUsername), ("password", config.adminPassword)]) : Client Response).attempt
  match posted with
  | .error exc =>
    if isHttpError exc then
      .raise (authenticationError "Marzban admin token request failed at the transport layer")
    else .raise exc
  | .ok response => .ofExcept (accessToken response)

def dispatch (config : Config) (method path operation : String) (json : Json) : Client Response := do
  let sent ← (do
    clientForOperation config
    let token ← client .token
    client (.request method (config.baseUrl ++ path) json
      ("Bearer " ++ token.getD "None")) : Client Response).attempt
  match sent with
  | .error exc =>
    if isHttpError exc then
      .raise (transportError s!"Marzban {operation} request failed at the transport layer")
    else .raise exc
  | .ok response => pure response

/-- `self._token = self._authenticate()`. -/
def renewToken (config : Config) : Client Unit := do
  let token ← authenticate config
  client (.setToken (some token))

/-- `if self._token is None: self._token = self._authenticate()`. -/
def ensureToken (config : Config) (token : Option String) : Client Unit :=
  if token.isNone then renewToken config else pure ()

def call (config : Config) (method path operation : String) (json : Json) : Client Response := do
  let token ← client .token
  ensureToken config token
  let response ← dispatch config method path operation json
  if response.status = 401 then do
    client (.setToken none)
    renewToken config
    let response ← dispatch config method path operation json
    if response.status = 401 then
      .raise (authenticationError "Marzban rejected the re-authenticated request (401 twice)")
    else pure response
  else pure response

def createBody (config : Config) (username : String) (quotaBytes mappedExpire : ℤ) : Json :=
  .obj [("username", .str username), ("status", .str "active"), ("data_limit", .int quotaBytes),
    ("data_limit_reset_strategy", .str "no_reset"), ("expire", .int mappedExpire),
    ("proxies", .obj [(config.protocol, .obj [])]),
    ("inbounds", .obj [(config.protocol, .arr (config.inboundTags.map .str))])]

/-- The handlers of `create_user` for what `_call` raises. -/
def classifyCall (exc : Exn) : Exn :=
  if isPreflightError exc then
    createUserError "Marzban create_user could not be prepared locally; no user was created" .noSideEffect
  else if isAuthenticationError exc then
    createUserError
      ("Marzban rejected authentication before create_user could " ++
        "reach the server; no user was created") .noSideEffect
  else if isTransportError exc then
    createUserError
      ("Marzban create_user request failed at the transport layer " ++
        "after being dispatched; the server-side outcome cannot be determined") .ambiguous
  else exc

/-- The handler of `create_user` for a violated contract. -/
def classifyContract (effect : AccountingCreateEffect) (exc : Exn) : Exn :=
  if isContractError exc then createUserError exc.message effect else exc

/-- What `create_user` makes of the response. -/
def createOutcome (username : String) (response : Response) : Except Exn AccountUserDTO :=
  if [400, 409, 422].contains response.status then
    .error (createUserError
      ("Marzban rejected create_user before creating any user " ++
        s!"(status {response.status}); no side effect occurred") .noSideEffect)
  else if response.status ≠ 200 then
    .error (createUserError
      ("Marzban create_user returned an unexpected status " ++
        s!"{response.status}; the server-side outcome cannot " ++
        "be determined from this status code alone") .ambiguous)
  else (createdUser username response).mapError (classifyContract .created)

def createUser (config : Config) (username : String) (quotaBytes : ℤ) (expireAt : Option DateTime) :
    Client AccountUserDTO := do
  let mappedExpire ← .ofExcept ((mapExpireToMarzban expireAt).mapError (classifyContract .noSideEffect))
  let called ← (call config "POST" "/api/user" "create_user"
    (createBody config username quotaBytes mappedExpire)).attempt
  match called with
  | .error exc => .raise (classifyCall exc)
  | .ok response => .ofExcept (createOutcome username response)

end Lingsway.Marzban
