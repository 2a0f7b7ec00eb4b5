import Lingsway.Library.Dictionary
import Lingsway.Library.Reading
import Lingsway.Providers.Base

/-!
# The Mihomo projection

The complete document of the forwarder is composed from one desired snapshot,
after every part of it has been validated. Values are frozen before, so that a
sequence is a tuple and the keys of a mapping are strings.
-/
namespace Lingsway.Forwarder

open Library

/-- A hexadecimal SHA-256 of a canonical JSON text is identified by the value that the text
is of. Any other text is no digest. -/
inductive Digest where
  | of (preimage : Json)
  | other (text : String)
  deriving Repr, DecidableEq

/-- `_digest`. -/
def digest (value : Json) : Digest := .of value.canonical

/-- An instant, and its offset from UTC unless it is naive. -/
structure DateTime where
  instant : Timestamp
  offset : Option ℤ
  deriving Repr, DecidableEq

/-- What the projection uses of the text functions and of `ipaddress`. -/
structure Externals where
  casefold : String → String
  upper : String → String
  lower : String → String
  ipAddress : String → Option (Bool × Bool × ℕ)
  ipNetwork : String → Option String
  isoformat : DateTime → String

structure ForwarderListenerDTO where
  name : String
  listenerType : String
  listen : String
  port : ℤ
  proxy : String
  deriving Repr, DecidableEq

structure ForwarderEgressProxyDTO where
  name : String
  protocol : String
  host : String
  port : ℤ
  credentialSecretRef : String
  credentialRevision : ℤ
  transportProxyName : Option String
  transportNodeIdentity : Option (String × String × ℤ)
  deriving Repr, DecidableEq

structure TransportMaterializationReference where
  ownerRecordId : ℤ
  providerCode : String
  sourceRevision : ℤ
  cacheIdentity : String
  implementation : String
  deriving Repr, DecidableEq

structure TransportMaterialization where
  ownerRecordId : ℤ
  providerCode : String
  sourceRevision : ℤ
  cacheIdentity : String
  contentHash : Digest
  freshnessDeadline : DateTime
  content : Members
  implementation : String
  deriving Repr, DecidableEq

structure DesiredForwarderState where
  listeners : Members
  listenerSpecs : List ForwarderListenerDTO
  proxies : List Json
  egressProxies : List ForwarderEgressProxyDTO
  proxyGroups : List Json
  rules : List Json
  dns : Members
  policy : Members
  transportMaterializations : List TransportMaterialization
  transportReferences : List TransportMaterializationReference
  deploymentConstants : Members
  snapshotRevision : ℤ
  snapshotIdentity : String
  revision_pos : 0 < snapshotRevision
  identity_nonblank : Text.strip snapshotIdentity ≠ ""

def projectionError (message : String) : Exn := ⟨.other "MihomoProjectionError", message⟩

/-- An expression that raises unless `ok` holds. -/
def require (ok : Bool) (message : String) : Except Exn Unit :=
  if ok then .ok () else .error (projectionError message)

theorem require_ok {ok : Bool} {message : String} {a : Unit} (h : require ok message = .ok a) : ok = true := by
  unfold require at h
  split_ifs at h with hok
  exact hok

/-- `_mapping`. -/
def mapping (value : Json) (code : String) : Except Exn Members :=
  match value with
  | .obj members => .ok members
  | _ => .error (projectionError code)

def string (value : Json) (code : String) : Except Exn String :=
  match value with
  | .str s => .ok s
  | _ => .error (projectionError code)

theorem mapping_ok {value : Json} {code : String} {members : Members} (h : mapping value code = .ok members) :
    value = .obj members := by
  cases value with
  | obj m =>
    cases h
    rfl
  | _ => cases h

theorem string_ok {value : Json} {code : String} {s : String} (h : string value code = .ok s) :
    value = .str s := by
  cases value with
  | str t =>
    cases h
    rfl
  | _ => cases h

def reservedIdentities : List String :=
  ["DIRECT", "REJECT", "REJECT-DROP", "PASS", "PASS-RULE", "COMPATIBLE", "BLOCK"]

def supportedLogLevels : List String := ["silent", "error", "warning", "info", "debug"]

def canonicalBindAddress : String := "127.0.0.1"

def isControl (c : Char) : Bool := c.toNat < 32

/-- `_unsafe_component`. -/
def unsafeComponent (value : String) : Bool := value.toList.any fun c => c = ',' || isControl c

def isPort (n : ℤ) : Bool := 1 ≤ n && n ≤ 65535

section Projection

variable (x : Externals)

/-- A naive instant cannot be compared with the aware present. -/
def comparable (t : DateTime) : Except Exn Unit :=
  match t.offset with
  | none => .error ⟨.other "TypeError", "can't compare offset-naive and offset-aware datetimes"⟩
  | some _ => .ok ()

/-- `_validate_materialization`. -/
def validateMaterialization (now : Timestamp) (item : TransportMaterialization) : Except Exn Unit := do
  require (0 < item.ownerRecordId && Text.strip item.providerCode ≠ "") "MIHOMO_TRANSPORT_IDENTITY_INVALID"
  require (0 < item.sourceRevision && item.cacheIdentity ≠ "" && item.contentHash ≠ .other "")
    "MIHOMO_TRANSPORT_PROOF_MISSING"
  require (item.implementation = "subscription") "MIHOMO_TRANSPORT_IMPLEMENTATION_UNSUPPORTED"
  comparable item.freshnessDeadline
  require (now < item.freshnessDeadline.instant) "MIHOMO_TRANSPORT_CACHE_STALE"
  require (digest (.obj item.content) = item.contentHash) "MIHOMO_TRANSPORT_CACHE_HASH_MISMATCH"

/-- `value.rpartition(":")`, when the separator is found. -/
def rpartition (value : List Char) : Option (List Char × List Char) :=
  match value.reverse.span (· ≠ ':') with
  | (_, []) => none
  | (port, _ :: host) => some (host.reverse, port.reverse)

def isDecimal (cs : List Char) : Bool := cs.all fun c => '0' ≤ c && c ≤ '9'

/-- `int(port_text)`, of ASCII digits. -/
def decimal (cs : List Char) : ℕ := cs.foldl (fun n c => n * 10 + (c.toNat - '0'.toNat)) 0

/-- `host[1:-1]` of a host in brackets. -/
def unbracketed (host : List Char) : List Char :=
  if host.head? = some '[' then (host.drop 1).dropLast else host

/-- The checks of a host that has been read, and of the port behind it. -/
def checkAddress (address : String) (port : List Char) : Option (Bool × Bool × ℕ) → Except Exn Unit
  | none => .error (projectionError "MIHOMO_CONTROLLER_ADDRESS_INVALID")
  | some (loopback, unspecified, version) => do
    let code := "MIHOMO_CONTROLLER_ADDRESS_INVALID"
    require (!(loopback || unspecified)) code
    require (isDecimal port) code
    require (isPort (decimal port)) code
    require (!(version = 6 && address.toList.head? ≠ some '[')) code

/-- `_validate_controller_address`. -/
def validateControllerAddress (value : Json) : Except Exn String := do
  let code := "MIHOMO_CONTROLLER_ADDRESS_INVALID"
  let address ← string value code
  require (address ≠ "" && address = Text.strip address) code
  require (!(address.toList.any fun c => Text.isSpace c || isControl c)) code
  match rpartition address.toList with
  | none => .error (projectionError code)
  | some (host, port) => do
    require (host ≠ [] && port ≠ []) code
    require ((host.head? = some '[') = (host.getLast? = some ']')) code
    checkAddress address port (x.ipAddress (String.ofList (unbracketed host)))
    .ok address

def allowedConstants : List String :=
  ["mode", "mixed-port", "allow-lan", "log-level", "external-controller", "api-secret-ref",
    "api-secret-revision"]

/-- `constants.get(key, default)`. -/
def constant (constants : Members) (key : String) (default : Json) : Json := (constants.lookup key).getD default

/-- A port that is an integer and no truth value. -/
def portOf (value : Json) (code : String) : Except Exn ℤ :=
  match value with
  | .int n => if isPort n then .ok n else .error (projectionError code)
  | _ => .error (projectionError code)

/-- `_validate_deployment_constants`. -/
def validateDeploymentConstants (constants : Members) : Except Exn (ℤ × String) := do
  require (constants.all fun m => allowedConstants.contains m.1) "MIHOMO_DEPLOYMENT_CONSTANT_UNSUPPORTED"
  require (constant constants "mode" (.str "rule") = .str "rule") "MIHOMO_MODE_INVALID"
  let mixedPort ← portOf (constant constants "mixed-port" (.int 7890)) "MIHOMO_MIXED_PORT_INVALID"
  require (match constant constants "allow-lan" (.bool false) with
    | .bool _ => true
    | _ => false) "MIHOMO_ALLOW_LAN_INVALID"
  require (match constant constants "log-level" (.str "warning") with
    | .str level => supportedLogLevels.contains level
    | _ => false) "MIHOMO_LOG_LEVEL_INVALID"
  let controller ← validateControllerAddress x (constants.item "external-controller")
  .ok (mixedPort, controller)

/-- `_validate_target`. -/
def validateTarget (value code : String) : Except Exn String := do
  require (!(x.casefold (Text.strip value) = "block" && value ≠ "BLOCK")) "MIHOMO_BLOCK_TARGET_INVALID"
  require (value = Text.strip value && value ≠ "" && !unsafeComponent value) code
  .ok value

/-- `_validate_rule_component`. -/
def validateRuleComponent (value code : String) : Except Exn String := do
  require (Text.strip value ≠ "" && !unsafeComponent value) code
  .ok (Text.strip value)

def isAscii (c : Char) : Bool := c.toNat < 128

def isLabelChar (c : Char) : Bool :=
  ('a' ≤ c && c ≤ 'z') || ('A' ≤ c && c ≤ 'Z') || ('0' ≤ c && c ≤ '9') || c = '-'

def validLabel (label : List Char) : Bool :=
  1 ≤ label.length && label.length ≤ 63 && label.head? ≠ some '-' && label.getLast? ≠ some '-' &&
    label.all isLabelChar

/-- `_canonical_domain`. -/
def canonicalDomain (value : String) : Except Exn String := do
  let code := "MIHOMO_RULE_VALUE_INVALID"
  let component ← validateRuleComponent value code
  let domain := x.lower component
  let cs := domain.toList
  require (!(cs.head? = some '.' || cs.getLast? = some '.' || Text.contains "..".toList cs ||
    cs.contains ' ')) code
  require (cs.all isAscii) code
  require (cs.length ≤ 253) code
  require ((Text.splitOnChar '.' cs).all validLabel) code
  .ok domain

/-- `_canonical_rule_value`. -/
def canonicalRuleValue (kind value : String) : Except Exn String :=
  if kind = "DOMAIN" ∨ kind = "DOMAIN-SUFFIX" then canonicalDomain x value
  else if kind = "IP-CIDR" then do
    let component ← validateRuleComponent value "MIHOMO_RULE_VALUE_INVALID"
    match x.ipNetwork component with
    | some network => .ok network
    | none => .error (projectionError "MIHOMO_RULE_VALUE_INVALID")
  else .error (projectionError "MIHOMO_RULE_TYPE_UNSUPPORTED")

/-- The names and the sockets of the listeners so far. -/
abbrev Listening := List String × List (String × ℤ)

def validateListener (mixedPort : ℤ) (earlier : Listening) (listener : ForwarderListenerDTO) :
    Except Exn Listening := do
  let name := Text.strip listener.name
  let address := Text.strip listener.listen
  require (name ≠ "" && address ≠ "" && listener.proxy ≠ "") "MIHOMO_LISTENER_INVALID"
  let target ← validateTarget x listener.proxy "MIHOMO_LISTENER_TARGET_INVALID"
  require (!((name ++ address ++ target).toList.any isControl)) "MIHOMO_LISTENER_INVALID"
  require (["socks", "http", "mixed"].contains listener.listenerType && isPort listener.port)
    "MIHOMO_LISTENER_INVALID"
  require (!(address = canonicalBindAddress && listener.port = mixedPort)) "MIHOMO_LISTENER_PORT_COLLISION"
  require (!(earlier.1.contains name || earlier.2.contains (address, listener.port)))
    "MIHOMO_LISTENER_DUPLICATE"
  .ok (name :: earlier.1, (address, listener.port) :: earlier.2)

/-- The name of a proxy or of a group. -/
def validateName (members : Members) (code : String) : Except Exn String := do
  let name ← string (members.item "name") code
  let _ ← string (members.item "type") code
  require (Text.strip name ≠ "" && Text.strip name = name && !unsafeComponent name) code
  require (!((reservedIdentities.map x.casefold).contains (x.casefold name))) "MIHOMO_RESERVED_TARGET_IDENTITY"
  .ok name

def validateProxy (proxy : Json) : Except Exn String := do
  let members ← mapping proxy "MIHOMO_PROXY_INVALID"
  validateName x members "MIHOMO_PROXY_INVALID"

def validateGroup (proxyNames : List String) (group : Json) : Except Exn String := do
  let members ← mapping group "MIHOMO_PROXY_GROUP_INVALID"
  let name ← validateName x members "MIHOMO_PROXY_GROUP_INVALID"
  require (match members.item "proxies" with
    | .arr refs => refs.all fun ref => (proxyNames.map Json.str).contains ref
    | _ => false) "MIHOMO_PROXY_GROUP_REFERENCE_INVALID"
  .ok name

/-- The first pass over a rule: its upper-case match. -/
def validateRule (rule : Json) : Except Exn String := do
  let members ← mapping rule "MIHOMO_RULE_INVALID"
  let ruleMatch ← string (members.item "match") "MIHOMO_RULE_INVALID"
  let target ← string (members.item "target") "MIHOMO_RULE_INVALID"
  let ruleTarget ← validateTarget x target "MIHOMO_RULE_TARGET_INVALID"
  let kind := x.upper ruleMatch
  if kind = "MATCH" then do
    require (members.item "value" = .null || members.item "value" = .str "") "MIHOMO_MATCH_VALUE_INVALID"
    require (ruleTarget ≠ "DIRECT") "MIHOMO_DIRECT_FALLBACK_FORBIDDEN"
    .ok kind
  else
    match members.item "value" with
    | .str value => do
      require (["DOMAIN", "DOMAIN-SUFFIX", "IP-CIDR"].contains kind && value ≠ "")
        "MIHOMO_RULE_TYPE_UNSUPPORTED"
      let _ ← canonicalRuleValue x kind value
      .ok kind
    | _ => .error (projectionError "MIHOMO_RULE_TYPE_UNSUPPORTED")

/-- The second pass: the target exists. -/
def validateRuleTarget (allowed : List String) (rule : Json) : Except Exn Unit := do
  let members ← mapping rule "MIHOMO_RULE_INVALID"
  let ruleMatch ← string (members.item "match") "MIHOMO_RULE_INVALID"
  let target ← string (members.item "target") "MIHOMO_RULE_INVALID"
  let ruleTarget ← validateTarget x target "MIHOMO_RULE_TARGET_INVALID"
  require (x.upper ruleMatch = "MATCH" || allowed.contains ruleTarget) "MIHOMO_RULE_TARGET_INVALID"

/-- The target of a rule, which is a mapping by then. -/
def ruleTarget (rule : Json) : Json :=
  match rule with
  | .obj members => Members.item members "target"
  | _ => .null

/-- `_validate_dns_schema`. -/
def validateDnsSchema (dns : Members) : Except Exn Unit :=
  require (dns.all fun m => match m.2 with
    | .bool _ => m.1 = "enable" || m.1 = "ipv6"
    | .arr _ => m.1 = "nameserver"
    | _ => false) "MIHOMO_DNS_INVALID"

/-- `_validate_sections`, over the effective proxies. The only fallback rule is the last one. -/
def validateSections (desired : DesiredForwarderState) (proxies : List Json) : Except Exn Unit := do
  let (mixedPort, _) ← validateDeploymentConstants x desired.deploymentConstants
  require desired.listeners.isEmpty "MIHOMO_LEGACY_LISTENERS_UNSUPPORTED"
  require desired.policy.isEmpty "MIHOMO_POLICY_UNSUPPORTED"
  require (!desired.listenerSpecs.isEmpty) "MIHOMO_LISTENER_SPEC_REQUIRED"
  let _ ← desired.listenerSpecs.foldlM (validateListener x mixedPort) ([], [])
  let proxyNames ← proxies.mapM (validateProxy x)
  require proxyNames.Nodup "MIHOMO_DUPLICATE_PROXY_IDENTITY"
  let groupNames ← desired.proxyGroups.mapM (validateGroup x proxyNames)
  require groupNames.Nodup "MIHOMO_DUPLICATE_PROXY_GROUP_IDENTITY"
  require (!(proxyNames.any fun name => groupNames.contains name)) "MIHOMO_PROXY_GROUP_IDENTITY_COLLISION"
  let allowed := proxyNames ++ groupNames ++ ["BLOCK"]
  require (desired.listenerSpecs.all fun listener => allowed.contains listener.proxy)
    "MIHOMO_LISTENER_TARGET_INVALID"
  let kinds ← desired.rules.mapM (validateRule x)
  require (kinds.count "MATCH" = 1) "MIHOMO_FALLBACK_RULE_INVALID"
  let fallback := (desired.rules.zip kinds).find? fun entry => entry.2 = "MATCH"
  require (fallback.map (fun entry => ruleTarget entry.1) = some (.str "BLOCK")) "MIHOMO_FALLBACK_MUST_BLOCK"
  require (kinds.getLast? = some "MATCH") "MIHOMO_FALLBACK_NOT_TERMINAL"
  let _ ← desired.rules.mapM (validateRuleTarget x allowed)
  validateDnsSchema desired.dns

/-- `_controller_identity`. -/
def controllerIdentity (desired : DesiredForwarderState) : Except Exn (String × ℤ) := do
  let code := "MIHOMO_CONTROLLER_SECRET_REF_INVALID"
  let ref ← string (desired.deploymentConstants.item "api-secret-ref") code
  require (ref ≠ "" && ref = Text.strip ref && !unsafeComponent ref) code
  match desired.deploymentConstants.item "api-secret-revision" with
  | .int revision => do
    require (0 < revision) "MIHOMO_CONTROLLER_SECRET_REVISION_INVALID"
    .ok (ref, revision)
  | _ => .error (projectionError "MIHOMO_CONTROLLER_SECRET_REVISION_INVALID")

def egressProxyMapping (proxy : ForwarderEgressProxyDTO) : Except Exn Json := do
  require (["socks", "socks5"].contains proxy.protocol) "MIHOMO_EGRESS_PROTOCOL_UNSUPPORTED"
  require (proxy.name ≠ "" && proxy.name = Text.strip proxy.name) "MIHOMO_PROXY_INVALID"
  require (isPort proxy.port) "MIHOMO_PROXY_INVALID"
  let item : Members := [("name", .str proxy.name), ("type", .str "socks5"), ("server", .str proxy.host),
    ("port", .int proxy.port)]
  match proxy.transportProxyName with
  | none => .ok (.obj item)
  | some name => .ok (.obj (item ++ [("dialer-proxy", .str name)]))

/-- `_egress_proxy_mappings`. -/
def egressProxyMappings (desired : DesiredForwarderState) : Except Exn (List Json) :=
  desired.egressProxies.mapM egressProxyMapping

/-- The reference is bound to the material of its owner. -/
def validateReference (materials : List TransportMaterialization) (ref : TransportMaterializationReference) :
    Except Exn Unit :=
  require ((materials.find? fun item => item.ownerRecordId = ref.ownerRecordId).any fun item =>
    item.providerCode = ref.providerCode && item.sourceRevision = ref.sourceRevision &&
      item.cacheIdentity = ref.cacheIdentity && item.implementation = ref.implementation)
    "MIHOMO_TRANSPORT_PROOF_MISMATCH"

def materializedProxies (item : TransportMaterialization) : Except Exn (List Json) :=
  match Members.item item.content "proxies" with
  | .null => .error (projectionError "MIHOMO_TRANSPORT_CONTENT_UNBOUND")
  | .arr proxies => (proxies.mapM fun proxy => mapping proxy "MIHOMO_TRANSPORT_CONTENT_INVALID").map
    fun found => found.map Json.obj
  | _ => .error (projectionError "MIHOMO_TRANSPORT_CONTENT_INVALID")

def defaultConstants (controller : String) : Members :=
  [("ipv6", .bool false), ("unified-delay", .bool true), ("tcp-concurrent", .bool true),
    ("mixed-port", .int 7890), ("allow-lan", .bool false), ("bind-address", .str "127.0.0.1"), ("mode", .str "rule"),
    ("log-level", .str "warning"), ("external-controller", .str controller)]

/-- `{**base, **added}`. -/
def union (base added : Members) : Members :=
  base.map (fun m => (m.1, (added.lookup m.1).getD m.2)) ++
    added.filter fun m => !(base.map Prod.fst).contains m.1

theorem lookup_union (base added : Members) (k : String) :
    (union base added).lookup k = (added.lookup k).or (base.lookup k) := by
  have hbase : List.lookup k (base.map fun m => (m.1, (added.lookup m.1).getD m.2)) =
      (base.lookup k).map fun v => (added.lookup k).getD v := by
    induction base with
    | nil => rfl
    | cons m rest ih =>
      rw [List.map_cons, Members.lookup_cons_eq, Members.lookup_cons_eq, ih]
      by_cases hk : k = m.1 <;> simp [hk]
  have hadded := Members.lookup_filter added (fun l => !(base.map Prod.fst).contains l) k
  rw [union, List.lookup_append, hbase, hadded]
  cases hfound : base.lookup k with
  | none =>
    have hmem : (base.map Prod.fst).contains k = false := by
      have hnone := List.lookup_eq_none_iff.mp hfound
      simp only [bne_iff_ne, ne_eq] at hnone
      simpa using fun v hv => hnone (k, v) hv rfl
    rw [if_pos (by rw [hmem]; rfl)]
    simp
  | some v => cases hadd : added.lookup k <;> simp

/-- `serialize_rule`. -/
def serializeRule (rule : Json) : Except Exn Json := do
  let members ← mapping rule "MIHOMO_RULE_INVALID"
  let ruleMatch ← string (members.item "match") "MIHOMO_RULE_INVALID"
  let target ← string (members.item "target") "MIHOMO_RULE_INVALID"
  let targetValue ← validateTarget x target "MIHOMO_RULE_TARGET_INVALID"
  let runtimeTarget := if targetValue = "BLOCK" then "REJECT" else targetValue
  let kind := x.upper ruleMatch
  if kind = "MATCH" then .ok (.str (String.join ["MATCH,", runtimeTarget]))
  else do
    let value ← string (members.item "value") "MIHOMO_RULE_INVALID"
    require (value ≠ "") "MIHOMO_RULE_INVALID"
    let ruleValue ← canonicalRuleValue x kind value
    .ok (.str (String.join [kind, ",", ruleValue, ",", runtimeTarget]))

def listenerMapping (listener : ForwarderListenerDTO) : Json :=
  .obj [("name", .str listener.name), ("type", .str listener.listenerType), ("listen", .str listener.listen),
    ("port", .int listener.port),
    ("proxy", .str (if listener.proxy = "BLOCK" then "REJECT" else listener.proxy))]

/-- The references to secrets are taken out of the document. -/
def withoutReferences (document : Members) : Members :=
  document.filter fun m => m.1 ≠ "api-secret-ref" && m.1 ≠ "api-secret-revision"

def rawDocument (desired : DesiredForwarderState) (controller : String) (proxies rules : List Json) : Members :=
  withoutReferences (union (defaultConstants controller) desired.deploymentConstants ++
    [("listeners", .arr (desired.listenerSpecs.map listenerMapping)), ("proxies", .arr proxies),
      ("proxy-groups", .arr desired.proxyGroups), ("rules", .arr rules), ("dns", .obj desired.dns)])

def Digest.json : Digest → Json
  | of preimage => .obj [("sha256", preimage)]
  | other text => .str text

def versionProof (item : TransportMaterialization) : Json :=
  .obj [("owner_record_id", .int item.ownerRecordId), ("provider_code", .str item.providerCode),
    ("source_revision", .int item.sourceRevision), ("cache_identity", .str item.cacheIdentity),
    ("content_hash", item.contentHash.json), ("freshness_deadline", .str (x.isoformat item.freshnessDeadline))]

/-- The parts that a composition is made of. -/
structure Composition where
  controller : String
  secretRef : String
  secretRevision : ℤ
  materialized : List (List Json)
  egress : List Json
  rules : List Json

def Composition.proxies (c : Composition) (desired : DesiredForwarderState) : List Json :=
  desired.proxies ++ c.materialized.flatten ++ c.egress

/-- The checks of `compose_mihomo_document`, in its order. -/
def checkDocument (now : Timestamp) (desired : DesiredForwarderState) : Except Exn Composition := do
  let materials := desired.transportMaterializations
  let _ ← materials.mapM (validateMaterialization now)
  let references := desired.transportReferences
  require (materials.length = references.length) "MIHOMO_TRANSPORT_MATERIALIZATION_MISSING"
  let owners := materials.map fun item => item.ownerRecordId
  require owners.Nodup "MIHOMO_DUPLICATE_TRANSPORT_IDENTITY"
  let referenceOwners := references.map fun ref => ref.ownerRecordId
  require referenceOwners.Nodup "MIHOMO_DUPLICATE_TRANSPORT_REFERENCE"
  require (owners.all referenceOwners.contains && referenceOwners.all owners.contains)
    "MIHOMO_TRANSPORT_OWNERSHIP_MISMATCH"
  let _ ← references.mapM (validateReference materials)
  let materialized ← materials.mapM materializedProxies
  let egress ← egressProxyMappings desired
  let (secretRef, secretRevision) ← controllerIdentity desired
  validateSections x desired (desired.proxies ++ materialized.flatten ++ egress)
  let (_, controller) ← validateDeploymentConstants x desired.deploymentConstants
  let rules ← desired.rules.mapM (serializeRule x)
  .ok ⟨controller, secretRef, secretRevision, materialized, egress, rules⟩

def Composition.content (c : Composition) (desired : DesiredForwarderState) : Members :=
  Json.sortMembers (Json.canonicalMembers (rawDocument desired c.controller (c.proxies desired) c.rules))

def Composition.document (c : Composition) (desired : DesiredForwarderState) : Json := .obj (c.content desired)

def Composition.version (c : Composition) (desired : DesiredForwarderState) : Digest :=
  digest (.obj [("snapshot_revision", .int desired.snapshotRevision),
    ("snapshot_identity", .str desired.snapshotIdentity), ("controller_secret_ref", .str c.secretRef),
    ("controller_secret_revision", .int c.secretRevision), ("document", c.document desired),
    ("transport_proofs", .arr (desired.transportMaterializations.map (versionProof x)))])

/-- `compose_mihomo_document`. -/
def composeMihomoDocument (now : Timestamp) (desired : DesiredForwarderState) : Except Exn (Json × Digest) :=
  (checkDocument x now desired).map fun c => (c.document desired, c.version x desired)

/-- What a composition that is reached has passed. -/
structure Checked (now : Timestamp) (desired : DesiredForwarderState) (c : Composition) : Prop where
  materials : ∀ item ∈ desired.transportMaterializations, validateMaterialization now item = .ok ()
  materialized : desired.transportMaterializations.mapM materializedProxies = .ok c.materialized
  egress : desired.egressProxies.mapM egressProxyMapping = .ok c.egress
  identity : controllerIdentity desired = .ok (c.secretRef, c.secretRevision)
  sections : validateSections x desired (c.proxies desired) = .ok ()
  controller : ∃ mixedPort,
    validateDeploymentConstants x desired.deploymentConstants = .ok (mixedPort, c.controller)
  rules : desired.rules.mapM (serializeRule x) = .ok c.rules

theorem checkDocument_ok {now : Timestamp} {desired : DesiredForwarderState} {c : Composition}
    (h : checkDocument x now desired = .ok c) : Checked x now desired c := by
  unfold checkDocument at h
  obtain ⟨_, hmaterials, h⟩ := Reading.bind_ok h
  obtain ⟨_, -, h⟩ := Reading.bind_ok h
  obtain ⟨_, -, h⟩ := Reading.bind_ok h
  obtain ⟨_, -, h⟩ := Reading.bind_ok h
  obtain ⟨_, -, h⟩ := Reading.bind_ok h
  obtain ⟨_, -, h⟩ := Reading.bind_ok h
  obtain ⟨materialized, hmaterialized, h⟩ := Reading.bind_ok h
  obtain ⟨egress, hegress, h⟩ := Reading.bind_ok h
  obtain ⟨⟨ref, revision⟩, hidentity, h⟩ := Reading.bind_ok h
  obtain ⟨_, hsections, h⟩ := Reading.bind_ok h
  obtain ⟨⟨mixedPort, controller⟩, hconstants, h⟩ := Reading.bind_ok h
  obtain ⟨rules, hrules, h⟩ := Reading.bind_ok h
  cases h
  refine ⟨fun item hitem => ?_, hmaterialized, hegress, hidentity, hsections, ⟨mixedPort, hconstants⟩,
    hrules⟩
  obtain ⟨_, _, hok⟩ := Reading.exists_of_element hmaterials hitem
  exact hok

theorem composeMihomoDocument_ok {now : Timestamp} {desired : DesiredForwarderState} {document : Json}
    {version : Digest} (h : composeMihomoDocument x now desired = .ok (document, version)) :
    ∃ c, Checked x now desired c ∧ document = c.document desired ∧ version = c.version x desired := by
  unfold composeMihomoDocument at h
  cases hcheck : checkDocument x now desired with
  | error e =>
    rw [hcheck] at h
    cases h
  | ok c =>
    rw [hcheck] at h
    cases h
    exact ⟨c, checkDocument_ok x hcheck, rfl, rfl⟩

section Checked

variable {x} {now : Timestamp} {desired : DesiredForwarderState} {c : Composition}

theorem Checked.allowed (h : Checked x now desired c) :
    ∀ m ∈ desired.deploymentConstants, m.1 ∈ allowedConstants := by
  obtain ⟨_, hconstants⟩ := h.controller
  obtain ⟨_, hallowed, -⟩ := Reading.bind_ok hconstants
  simpa using require_ok hallowed

/-- The sections of a document are the ones that its parts were composed to. -/
theorem Checked.lookup_document (h : Checked x now desired c) (k : String) (hk : k ∉ allowedConstants) :
    List.lookup k (rawDocument desired c.controller (c.proxies desired) c.rules) =
      ((defaultConstants c.controller).lookup k).or (List.lookup k
        [("listeners", .arr (desired.listenerSpecs.map listenerMapping)), ("proxies", .arr (c.proxies desired)),
          ("proxy-groups", .arr desired.proxyGroups), ("rules", .arr c.rules), ("dns", .obj desired.dns)]) := by
  have hnone : desired.deploymentConstants.lookup k = none :=
    List.lookup_eq_none_iff.mpr fun m hm => by simpa using fun heq : k = m.1 => hk (heq ▸ h.allowed m hm)
  have hkept : (k ≠ "api-secret-ref" && k ≠ "api-secret-revision") = true := by
    simp only [allowedConstants, List.mem_cons, not_or] at hk
    simp [hk]
  have hfilter := Members.lookup_filter (union (defaultConstants c.controller) desired.deploymentConstants ++
    [("listeners", .arr (desired.listenerSpecs.map listenerMapping)), ("proxies", .arr (c.proxies desired)),
      ("proxy-groups", .arr desired.proxyGroups), ("rules", .arr c.rules), ("dns", .obj desired.dns)])
    (fun k => k ≠ "api-secret-ref" && k ≠ "api-secret-revision") k
  rw [rawDocument, withoutReferences, hfilter, if_pos hkept, List.lookup_append, lookup_union, hnone,
    Option.none_or]

/-- The proxies are objects of these names. -/
def Names (proxies : List Json) (names : List String) : Prop :=
  List.Forall₂ (fun proxy name => ∃ m : Members, proxy = .obj m ∧ m.item "name" = .str name) proxies names

end Checked

end Projection

end Lingsway.Forwarder
