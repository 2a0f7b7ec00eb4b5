import Lingsway.Domain.SubscriptionRender

/-!
# Reading a transport subscription

A subscription is a document of proxies, or a list of URIs. Each entry of it is
normalized to an endpoint, and one entry that cannot be refuses them all.
-/
namespace Lingsway.Transport

open Library Domain

structure TransportCapacityDTO where
  quotaBytes : ℤ
  usedBytes : ℤ
  measuredAt : Timestamp
  expireAt : Option Timestamp
  deriving Repr, DecidableEq

structure TransportEndpointDTO where
  externalId : String
  name : String
  region : String
  protocol : String
  host : String
  port : ℤ
  transport : Option String
  tlsMode : Option String
  authSecretRef : String
  udp : Bool
  deriving Repr, DecidableEq

/-- What is used of the standard library and of PyYAML. -/
structure Readers extends Decoders where
  int : String → Except Exn ℤ
  fromTimestamp : ℤ → Except Exn Timestamp
  lower : String → String
  sha256 : String → String
  safeLoad : String → Except Exn Json

def refuse {α : Type} (message : String) : Except Exn α := .error ⟨.valueError, message⟩

def isYamlError (e : Exn) : Bool := e.cls = .other "YAMLError"

section Userinfo

variable (x : Readers)

/-- One item of the header, as a key and its number. -/
def userinfoField (item : List Char) : Except Exn (String × ℤ) :=
  match Text.strip (String.ofList item) |>.toList.span (· ≠ '=') with
  | (_, []) => refuse "not enough values to unpack (expected 2, got 1)"
  | (key, _ :: raw) => do
    let value ← x.int (Text.strip (String.ofList raw))
    .ok (x.lower (Text.strip (String.ofList key)), value)

/-- The fields, the latest of one key first. -/
def userinfoFields (value : String) : Except Exn (List (String × ℤ)) :=
  ((Text.splitOnChar ';' value.toList).mapM (userinfoField x)).map List.reverse

/-- `datetime.fromtimestamp(expire, UTC) if expire else None` -/
def expiry (expire : Option ℤ) : Except Exn (Option Timestamp) :=
  match expire with
  | none => .ok none
  | some n => if n = 0 then .ok none else (x.fromTimestamp n).map some

/-- `parse_subscription_userinfo`. -/
def parseSubscriptionUserinfo (value : Option String) (measuredAt : Timestamp) :
    Except Exn (Option TransportCapacityDTO) :=
  match value with
  | none => .ok none
  | some text =>
    if text = "" then .ok none
    else match userinfoFields x text with
      | .error e => if e.cls = .valueError then .ok none else .error e
      | .ok fields => match fields.lookup "total" with
        | none => .ok none
        | some quota => do
          let used := (fields.lookup "upload").getD 0 + (fields.lookup "download").getD 0
          let expireAt ← expiry x (fields.lookup "expire")
          .ok (some ⟨quota, used, measuredAt, expireAt⟩)

end Userinfo

section Endpoints

variable (x : Readers) (providerCode : String)

/-- `endpoint_id`. -/
def endpointId (protocol host : String) (port : ℤ) (name : String) : String :=
  Text.take 24 (x.sha256 ("|".intercalate [providerCode, protocol, host, toString port, name]))

/-- `item.get(key, default)` -/
def itemOr (item : Members) (key : String) (default : Json) : Json := (item.lookup key).getD default

def label (protocol host : String) (port : ℤ) : String := String.join [protocol, "-", host, ":", toString port]

/-- `normalize_clash_proxy`. -/
def normalizeClashProxy (item : Members) : Except Exn TransportEndpointDTO := do
  let protocol := x.lower ((itemOr item "type" (.str "unknown")).text x.quote)
  let host := (itemOr item "server" (.str "")).text x.quote
  let port ← x.toInt (itemOr item "port" (.int 0))
  let name := (itemOr item "name" (.str (label protocol host port))).text x.quote
  let externalId := endpointId x providerCode protocol host port name
  let network := (Members.item item "network").orElse (Members.item item "transport")
  .ok {
    externalId := externalId
    name := name
    region := "UNKNOWN"
    protocol := protocol
    host := host
    port := port
    transport := if network.truthy then some (network.text x.quote) else none
    tlsMode := if (Members.item item "tls").truthy then some "tls" else none
    authSecretRef := String.join ["transport/", providerCode, "/endpoint/", externalId]
    udp := (itemOr item "udp" (.bool false)).truthy }

def supportedUriSchemes : List String := ["vless", "vmess", "trojan", "ss", "socks", "socks5", "http", "https"]

def vmessItem (link : String) : Except Exn Members := do
  let body ← vmessBody x.toDecoders link
  let server ← required body "add"
  let port ← required body "port"
  let port ← x.toInt port
  .ok [("name", itemOr body "ps" (.str "vmess")), ("type", .str "vmess"), ("server", server), ("port", .int port),
    ("network", Members.item body "net"), ("tls", .bool ((Members.item body "tls").equal (.str "tls")))]

/-- What the branch of a `vmess` link turns into a missing endpoint. -/
def isValueOrKeyError (e : Exn) : Bool := e.cls = .valueError || e.cls = .other "KeyError"

def urlItem (parsed : ParsedUrl) (hostname : String) (port : ℕ) (query : List (String × List String)) : Members :=
  let name := if x.unquote parsed.fragment = "" then label parsed.scheme hostname port else x.unquote parsed.fragment
  let network := match first query "type" with
    | some network => Json.str network
    | none => .null
  [("name", .str name), ("type", .str parsed.scheme), ("server", .str hostname), ("port", .int port),
    ("network", network),
    ("tls", .bool (first query "security" = some "tls" || first query "security" = some "reality"))]

/-- `normalize_uri`. -/
def normalizeUri (uri : String) : Except Exn (Option TransportEndpointDTO) :=
  if isVmess uri then
    match (vmessItem x uri).bind (normalizeClashProxy x providerCode) with
    | .ok endpoint => .ok (some endpoint)
    | .error e => if isValueOrKeyError e then .ok none else .error e
  else do
    let parsed ← x.urlparse uri
    if parsed.scheme ∉ supportedUriSchemes then .ok none
    else match parsed.hostname with
      | none => .ok none
      | some hostname =>
        if hostname = "" then .ok none
        else do
          match ← parsed.port with
          | none => .ok none
          | some port =>
            if port = 0 then .ok none
            else do
              let query ← x.parseQs parsed.query
              let endpoint ← normalizeClashProxy x providerCode (urlItem x parsed hostname port query)
              .ok (some endpoint)

/-- `except (TypeError, ValueError): raise ValueError(message)` -/
def refusing {α : Type} (message : String) : Except Exn α → Except Exn α
  | .ok a => .ok a
  | .error e => if e.cls = .valueError ∨ e.cls = .other "TypeError" then refuse message else .error e

def malformedProxy : String := "Subscription contains a malformed proxy entry"

/-- One proxy of a document. -/
def proxyEndpoint (item : Json) : Except Exn TransportEndpointDTO :=
  match item with
  | .obj members =>
    if (Members.item members "server").truthy && (Members.item members "port").truthy then
      refusing malformedProxy (normalizeClashProxy x providerCode members)
    else refuse malformedProxy
  | _ => refuse malformedProxy

def malformedUri : String := "Subscription contains an unsupported or malformed URI"

/-- One URI of a list. -/
def uriEndpoint (uri : String) : Except Exn TransportEndpointDTO := do
  match ← refusing malformedUri (normalizeUri x providerCode uri) with
  | none => refuse malformedUri
  | some endpoint => .ok endpoint

/-- The boundaries of `str.splitlines`. -/
def isLineBreak (c : Char) : Bool :=
  let n := c.toNat
  (0x0A ≤ n && n ≤ 0x0D) || (0x1C ≤ n && n ≤ 0x1E) || n == 0x85 || n == 0x2028 || n == 0x2029

/-- The stripped lines that are not blank. -/
def uriLines (decoded : String) : List String :=
  ((decoded.toList.splitOnP isLineBreak).map fun line => Text.strip (String.ofList line)).filter (· ≠ "")

/-- The list of URIs, which may be encoded. -/
def decodedUris (content : String) : Except Exn String :=
  let decoded := Text.strip content
  if Text.contains "://".toList decoded.toList then .ok decoded
  else match x.decodeBase64 decoded with
    | .ok text => .ok text
    | .error e => if e.cls = .valueError then refuse "Subscription is not valid base64 URI data" else .error e

/-- The list under `proxies`, of a document that has one. -/
def proxiesOf : Json → Option (List Json)
  | .obj members => match Members.item members "proxies" with
    | .arr items => some items
    | _ => none
  | _ => none

def someEndpoint (endpoints : List TransportEndpointDTO) : Except Exn (List TransportEndpointDTO) :=
  if endpoints = [] then refuse "Subscription contains no supported endpoints" else .ok endpoints

/-- `parse_subscription`. -/
def parseSubscription (content : String) : Except Exn (List TransportEndpointDTO) :=
  if Text.strip content = "" then refuse "Subscription content is empty"
  else match x.safeLoad content with
    | .error e => if isYamlError e then refuse "Subscription is not valid YAML or encoded URI data" else .error e
    | .ok document => match proxiesOf document with
      | some items => do
        let endpoints ← items.mapM (proxyEndpoint x providerCode)
        someEndpoint endpoints
      | none => do
        let decoded ← decodedUris x content
        let endpoints ← (uriLines decoded).mapM (uriEndpoint x providerCode)
        someEndpoint endpoints

/-- `validate_mihomo_provider_document`. -/
def validateMihomoProviderDocument (content : String) : Except Exn Unit :=
  match x.safeLoad content with
  | .error e => if isYamlError e then refuse "Subscription is not valid YAML for a Mihomo file provider" else .error e
  | .ok document => match proxiesOf document with
    | none => refuse "Subscription is not a Mihomo-compatible proxies document"
    | some [] => refuse "Subscription provider file contains no proxies"
    | some (_ :: _) => .ok ()

end Endpoints

end Lingsway.Transport
