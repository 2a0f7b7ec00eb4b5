import Lingsway.Library.Json
import Lingsway.Providers.Base

/-!
# Composition of the repository-owned Xray file

The composer assembles one complete file from a static skeleton, the deployment
settings, the Reality identity, the desired routing and the resolved
credentials. The validator checks a complete file on its own.
-/
namespace Lingsway.Gateway

open Library

structure XrayCompositionError where
  message : String
  deriving Repr, DecidableEq

abbrev Checked := Except XrayCompositionError

def refuse {α : Type} (message : String) : Checked α := .error ⟨message⟩

def ensure (p : Prop) [Decidable p] (message : String) : Checked Unit :=
  if p then .ok () else refuse message

/-- A text of which something is left by `strip()`. -/
abbrev NonBlank := { s : String // Text.strip s ≠ "" }

abbrev Port := { n : ℤ // 1 ≤ n ∧ n ≤ 65535 }

structure XrayRendererConstants where
  tag : String
  decryption : String
  network : String
  security : String
  realityShow : Bool
  realityXver : ℤ
  domainStrategy : String
  blockTag : String

def xrayRendererConstants : XrayRendererConstants where
  tag := "vless-reality"
  decryption := "none"
  network := "tcp"
  security := "reality"
  realityShow := false
  realityXver := 0
  domainStrategy := "AsIs"
  blockTag := "BLOCK"

def allowedLogLevels : List String := ["debug", "info", "warning", "error", "none"]

abbrev LogLevel := { s : String // s ∈ allowedLogLevels }

def mapping (value : Json) (message : String) : Checked Members :=
  match value with
  | .obj members => .ok members
  | _ => refuse message

def keys (value : Members) (expected : List String) (message : String) : Checked Unit :=
  ensure (value.hasKeys expected = true) message

def nonblankText (s : String) (message : String) : Checked NonBlank :=
  if h : Text.strip s ≠ "" then .ok ⟨s, h⟩ else refuse message

def nonblankString (value : Json) (message : String) : Checked NonBlank :=
  match value with
  | .str s => nonblankText s message
  | _ => refuse message

def portNumber (n : ℤ) (message : String) : Checked Port :=
  if h : 1 ≤ n ∧ n ≤ 65535 then .ok ⟨n, h⟩ else refuse message

def validPort (value : Json) (message : String) : Checked Port :=
  match value with
  | .int n => portNumber n message
  | _ => refuse message

def isNonblankString (value : Json) : Bool :=
  match value with
  | .str s => Text.strip s ≠ ""
  | _ => false

def stringList (value : Json) (message : String) (allowEmpty : Bool) : Checked Unit :=
  match value with
  | .arr items => ensure (items.all isNonblankString ∧ (allowEmpty ∨ items ≠ [])) message
  | _ => refuse message

def logLevelInvalid : String := "XRAY_LOG_LEVEL is invalid"

def normalizeLogLevel (value : Json) : Checked LogLevel :=
  match value with
  | .str s =>
    if h : Text.lowerWord (Text.strip s) ∈ allowedLogLevels then .ok ⟨_, h⟩ else refuse logLevelInvalid
  | _ => refuse logLevelInvalid

structure StaticInbound where
  listen : NonBlank
  port : Port
  protocol : NonBlank

structure XrayStaticSkeleton where
  inbounds : List StaticInbound
  nonempty : inbounds ≠ []

namespace XrayStaticSkeleton

end XrayStaticSkeleton

structure XrayDeploymentConfig where
  xrayLogLevel : LogLevel
  realityDest : NonBlank
  realityServerNames : List NonBlank
  nonempty : realityServerNames ≠ []

namespace XrayDeploymentConfig

end XrayDeploymentConfig

structure XrayRealityConfig where
  privateKey : NonBlank
  shortIds : List NonBlank
  nonempty : shortIds ≠ []

/-- The keys of the routes are those of a mapping. -/
structure XrayFullConfigInput where
  skeleton : XrayStaticSkeleton
  deployment : XrayDeploymentConfig
  reality : XrayRealityConfig
  desired : DesiredRoutingState
  credentials : String → Option CredentialDTO
  distinct : (desired.userRoutes.map Prod.fst).Nodup

def socksOutbound (tag host : String) (port : ℤ) (username password : String) : Json :=
  .obj [("tag", .str tag), ("protocol", .str "socks"),
    ("settings", .obj [("servers", .arr [.obj [("address", .str host), ("port", .int port),
      ("users", .arr [.obj [("username", .str username), ("password", .str password)]])]])])]

def privateRule : Members :=
  [("type", .str "field"), ("ip", .arr [.str "geoip:private"]), ("outboundTag", .str "BLOCK")]

def fallbackRule : Members :=
  [("type", .str "field"), ("network", .str "tcp,udp"), ("outboundTag", .str "BLOCK")]

/-- `sorted(user_routes.items())`, whose keys are distinct. -/
def sortedRoutes (routes : List (String × String)) : List (String × String) :=
  routes.insertionSort (fun a b => a.1 ≤ b.1)

def validateReality (reality : Members) : Checked Unit := do
  keys reality ["show", "dest", "xver", "serverNames", "privateKey", "shortIds"]
    "repo-owned Xray Reality settings contain unknown fields"
  ensure (reality.item "show" = .bool xrayRendererConstants.realityShow)
    "repo-owned Xray Reality show is invalid"
  -- `False == 0` and `0.0 == 0`
  ensure (reality.item "xver" ∈ [.int 0, .bool false, .float "0.0", .float "-0.0"])
    "repo-owned Xray Reality xver is invalid"
  let _ ← nonblankString (reality.item "dest") "repo-owned Xray Reality dest is invalid"
  stringList (reality.item "serverNames") "repo-owned Xray Reality serverNames are invalid" false
  let _ ← nonblankString (reality.item "privateKey") "repo-owned Xray Reality identity is invalid"
  stringList (reality.item "shortIds") "repo-owned Xray Reality identity is invalid" false

def validateInbound (value : Json) : Checked Unit := do
  let inbound ← mapping value "repo-owned Xray inbound is malformed"
  keys inbound ["tag", "listen", "port", "protocol", "settings", "streamSettings"]
    "repo-owned Xray inbound contains unknown fields"
  ensure (inbound.item "tag" = .str xrayRendererConstants.tag) "repo-owned Xray inbound tag is invalid"
  let _ ← nonblankString (inbound.item "listen") "repo-owned Xray inbound listen is invalid"
  let _ ← validPort (inbound.item "port") "repo-owned Xray inbound port is invalid"
  let _ ← nonblankString (inbound.item "protocol") "repo-owned Xray inbound protocol is invalid"
  let settings ← mapping (inbound.item "settings") "repo-owned Xray inbound settings are malformed"
  keys settings ["clients", "decryption"] "repo-owned Xray inbound settings contain unknown fields"
  ensure (settings.item "clients" = .arr []) "repo-owned Xray clients skeleton is invalid"
  ensure (settings.item "decryption" = .str xrayRendererConstants.decryption)
    "repo-owned Xray decryption is invalid"
  let stream ← mapping (inbound.item "streamSettings") "repo-owned Xray streamSettings are malformed"
  keys stream ["network", "security", "realitySettings"]
    "repo-owned Xray streamSettings contain unknown fields"
  ensure (stream.item "network" = .str xrayRendererConstants.network)
    "repo-owned Xray network is invalid"
  ensure (stream.item "security" = .str xrayRendererConstants.security)
    "repo-owned Xray security is invalid"
  let reality ← mapping (stream.item "realitySettings")
    "repo-owned Xray Reality settings are malformed"
  validateReality reality

def validateBlock (tag : String) (outbound : Members) : Checked Unit := do
  keys outbound ["tag", "protocol"] "repo-owned Xray BLOCK outbound is malformed"
  ensure (tag = xrayRendererConstants.blockTag ∧ outbound.item "protocol" = .str "blackhole")
    "repo-owned Xray BLOCK outbound is invalid"

/-- A list with one item. -/
def single (value : Json) (message : String) : Checked Json :=
  match value with
  | .arr [item] => .ok item
  | _ => refuse message

def validateSocks (outbound : Members) : Checked Unit := do
  keys outbound ["tag", "protocol", "settings"] "repo-owned Xray outbound contains unknown fields"
  ensure (outbound.item "protocol" = .str "socks") "unsupported repo-owned Xray outbound protocol"
  let settings ← mapping (outbound.item "settings") "repo-owned Xray outbound settings are malformed"
  keys settings ["servers"] "repo-owned Xray outbound settings contain unknown fields"
  let server ← single (settings.item "servers") "repo-owned Xray outbound servers are malformed"
  let server ← mapping server "repo-owned Xray outbound server is malformed"
  keys server ["address", "port", "users"] "repo-owned Xray server is malformed"
  let _ ← nonblankString (server.item "address") "repo-owned Xray outbound host is invalid"
  let _ ← validPort (server.item "port") "repo-owned Xray outbound port is invalid"
  let user ← single (server.item "users") "repo-owned Xray outbound users are malformed"
  let user ← mapping user "repo-owned Xray outbound credential is malformed"
  keys user ["username", "password"] "repo-owned Xray credential is malformed"
  let _ ← nonblankString (user.item "username") "repo-owned Xray credential is invalid"
  let _ ← nonblankString (user.item "password") "repo-owned Xray credential is invalid"
  pure ()

def directNotPermitted : String := "DIRECT fallback is not permitted"

/-- The tag of one outbound; `tags` are those of the earlier ones. -/
def validateTag (tags : List String) (outbound : Members) : Checked String :=
  match outbound.item "tag" with
  | .str tag => do
    ensure (¬ (Text.strip tag = "" ∨ tag ∈ tags)) "repo-owned Xray outbound tag is invalid"
    ensure (tag ≠ "DIRECT") directNotPermitted
    pure tag
  | _ => refuse "repo-owned Xray outbound tag is invalid"

/-- The outbounds from `index` on; the first of all has to be BLOCK. Yields all tags. -/
def validateOutbounds (tags : List String) (index : ℕ) : List Json → Checked (List String)
  | [] => .ok tags
  | value :: rest => do
    let outbound ← mapping value "repo-owned Xray outbound is malformed"
    let tag ← validateTag tags outbound
    if index = 0 then validateBlock tag outbound else validateSocks outbound
    validateOutbounds (tag :: tags) (index + 1) rest

/-- The routes between the first and the last rule; `principals` are those of the earlier ones. -/
def validateRoutes (tags principals : List String) : List Json → Checked Unit
  | [] => .ok ()
  | value :: rest => do
    let rule ← mapping value "repo-owned Xray routing rule is malformed"
    keys rule ["type", "user", "outboundTag"] "repo-owned Xray route is malformed"
    ensure (rule.item "type" = .str "field") "repo-owned Xray route type is invalid"
    match rule.item "user" with
    | .arr [.str principal] => do
      ensure (¬ (Text.strip principal = "" ∨ principal ∈ principals))
        "repo-owned Xray route principal is invalid"
      match rule.item "outboundTag" with
      | .str target => do
        ensure (¬ (Text.strip target = "" ∨ target = xrayRendererConstants.blockTag ∨ target ∉ tags))
          "repo-owned Xray route references missing outbound"
        ensure (target ≠ "DIRECT") directNotPermitted
      | _ => refuse "repo-owned Xray route references missing outbound"
      validateRoutes tags (principal :: principals) rest
    | _ => refuse "repo-owned Xray route principal is invalid"

def sameObject (value : Json) (expected : Members) : Bool :=
  match value with
  | .obj members => Members.same members expected
  | _ => false

def validateRules (tags : List String) (rules : List Json) : Checked Unit := do
  ensure (2 ≤ rules.length) "repo-owned Xray routing rules are malformed"
  ensure (sameObject (rules.headD .null) privateRule = true)
    "repo-owned Xray private BLOCK rule must be first"
  ensure (sameObject (rules.getLastD .null) fallbackRule = true)
    "repo-owned Xray tcp,udp BLOCK rule must be last"
  validateRoutes tags [] rules.tail.dropLast

def validateRouting (tags : List String) (routing : Members) : Checked Unit := do
  keys routing ["domainStrategy", "rules"] "repo-owned Xray routing contains unknown fields"
  ensure (routing.item "domainStrategy" = .str xrayRendererConstants.domainStrategy)
    "repo-owned Xray domainStrategy is invalid"
  match routing.item "rules" with
  | .arr rules => validateRules tags rules
  | _ => refuse "repo-owned Xray routing rules are malformed"

/-- A list that is not empty. -/
def items (value : Json) (message : String) : Checked (List Json) :=
  match value with
  | .arr (first :: rest) => .ok (first :: rest)
  | _ => refuse message

/-- `_validate_repo_owned_xray_config`. -/
def checkRepoOwnedXrayConfig (config : Members) : Checked Unit := do
  keys config ["log", "inbounds", "outbounds", "routing"]
    "repo-owned Xray config contains unknown top-level fields"
  let log ← mapping (config.item "log") "repo-owned Xray log is malformed"
  keys log ["loglevel"] "repo-owned Xray log contains unknown fields"
  let _ ← normalizeLogLevel (log.item "loglevel")
  let inbounds ← items (config.item "inbounds") "repo-owned Xray inbounds are malformed"
  inbounds.forM validateInbound
  let outbounds ← items (config.item "outbounds") "repo-owned Xray outbounds are malformed"
  let tags ← validateOutbounds [] 0 outbounds
  ensure (xrayRendererConstants.blockTag ∈ tags) "repo-owned Xray BLOCK outbound is missing"
  let routing ← mapping (config.item "routing") "repo-owned Xray routing is malformed"
  validateRouting tags routing

def validateRepoOwnedXrayConfig (config : Members) : List String :=
  match checkRepoOwnedXrayConfig config with
  | .ok _ => []
  | .error exc => [exc.message]

end Lingsway.Gateway
