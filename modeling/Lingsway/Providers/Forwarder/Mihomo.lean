import Lingsway.Providers.Forwarder.MihomoApply

/-!
# Rendering and finalizing a Mihomo projection

A rendered template names its secrets. Finalization resolves them and writes
them into the content: the controller secret, and the credential of each proxy
that a requirement names.
-/
namespace Lingsway.Forwarder

open Library

structure EgressCredentialRequirement where
  proxyName : String
  secretRef : String
  revision : ℤ
  deriving Repr, DecidableEq

structure EgressCredentialSnapshot where
  secretRef : String
  revision : ℤ
  credential : CredentialDTO
  deriving Repr, DecidableEq

structure ControllerSecretSnapshot where
  ref : String
  revision : ℤ
  value : String
  deriving Repr, DecidableEq

structure ProjectionTemplate where
  content : Members
  version : Digest
  controllerSecretRef : String
  controllerSecretRevision : ℤ
  egressCredentials : List EgressCredentialRequirement

def requirementOf (proxy : ForwarderEgressProxyDTO) : EgressCredentialRequirement :=
  ⟨proxy.name, proxy.credentialSecretRef, proxy.credentialRevision⟩

/-- An expression that raises unless `ok` holds. -/
def ensure (ok : Bool) (message : String) : Except Exn Unit :=
  if ok then .ok () else .error (mihomoRuntimeError message)

/-- A reference to the controller secret. -/
def secretReference (ref revision : Json) : Except Exn (String × ℤ) :=
  match ref with
  | .str ref =>
    if ref = "" then .error (mihomoRuntimeError "Mihomo controller secret reference is missing")
    else match revision with
      | .int revision =>
        if revision ≤ 0 then .error (mihomoRuntimeError "Mihomo controller secret revision is invalid")
        else .ok (ref, revision)
      | _ => .error (mihomoRuntimeError "Mihomo controller secret revision is invalid")
  | _ => .error (mihomoRuntimeError "Mihomo controller secret reference is missing")

/-- The controller secret that the constants name. -/
def controllerReference (constants : Members) : Except Exn (String × ℤ) :=
  secretReference (constants.item "api-secret-ref") (constants.item "api-secret-revision")

/-- What `yaml.safe_load` has to return. -/
def parsedMapping : Option Json → Except Exn Members
  | none => .error (mihomoRuntimeError "rendered Mihomo document is invalid YAML")
  | some (.obj parsed) => .ok parsed
  | some _ => .error (mihomoRuntimeError "rendered Mihomo document is not a mapping")

section Render

variable (x : Externals) (dump : Json → Except RuntimeExn Bytes) (load : Bytes → Option Json)

/-- `MihomoForwarderProvider.render`. -/
def render (now : Timestamp) (desired : DesiredForwarderState) : Except Exn ProjectionTemplate := do
  let (document, version) ← composeMihomoDocument x now desired
  let bytes ← (dump document).mapError RuntimeExn.exc
  let parsed ← parsedMapping (load bytes)
  let (ref, revision) ← controllerReference desired.deploymentConstants
  .ok ⟨parsed, version, ref, revision, desired.egressProxies.map requirementOf⟩

end Render

/-- The resolved controller secret. -/
def resolveController (resolve : String → Except Exn ControllerSecretSnapshot)
    (template : ProjectionTemplate) : Except Exn String :=
  match resolve template.controllerSecretRef with
  | .error _ => .error (mihomoRuntimeError "Mihomo controller secret resolution failed")
  | .ok controller => do
    ensure (controller.ref = template.controllerSecretRef &&
      controller.revision = template.controllerSecretRevision) "Mihomo controller secret identity mismatch"
    ensure (Text.strip controller.value ≠ "") "Mihomo controller secret resolution failed"
    .ok controller.value

def unresolved : String := "MIHOMO_EGRESS_CREDENTIAL_UNRESOLVED"

def itemMembers : Json → Except Exn Members
  | .obj members => .ok members
  | _ => .error (mihomoRuntimeError unresolved)

/-- The proxies of a content, all of which are mappings. -/
def contentProxies (content : Members) : Except Exn (List Members) :=
  match content.item "proxies" with
  | .arr items => items.mapM itemMembers
  | _ => .error (mihomoRuntimeError unresolved)

def named (name : String) (item : Members) : Bool := item.item "name" = .str name

def credentialed (item : Members) (snapshot : EgressCredentialSnapshot) : Members :=
  Members.set "password" (.str snapshot.credential.password)
    (Members.set "username" (.str snapshot.credential.username) item)

/-- One requirement: its credential is resolved and written into the proxy of its name. -/
def inject (answer : Except Exn EgressCredentialSnapshot) (requirement : EgressCredentialRequirement)
    (proxies : List Members) : Except Exn (List Members) :=
  match answer with
  | .error _ => .error (mihomoRuntimeError unresolved)
  | .ok snapshot => do
    ensure (snapshot.secretRef = requirement.secretRef) unresolved
    ensure (snapshot.revision = requirement.revision) "MIHOMO_EGRESS_CREDENTIAL_REVISION_MISMATCH"
    ensure ((proxies.filter (named requirement.proxyName)).length = 1) unresolved
    .ok (proxies.map fun item => if named requirement.proxyName item then credentialed item snapshot else item)

/-- The requirements in their order. The resolver may answer every call in another way. -/
def injectAll (resolve : ℕ → String → Except Exn EgressCredentialSnapshot) (i : ℕ) :
    List EgressCredentialRequirement → List Members → Except Exn (List Members)
  | [], proxies => .ok proxies
  | requirement :: rest, proxies => do
    let proxies ← inject (resolve i requirement.secretRef) requirement proxies
    injectAll resolve (i + 1) rest proxies

/-- `MihomoForwarderProvider.finalize`. -/
def finalize (controller : String → Except Exn ControllerSecretSnapshot)
    (egress : ℕ → String → Except Exn EgressCredentialSnapshot) (template : ProjectionTemplate) :
    Except Exn Candidate := do
  let secret ← resolveController controller template
  let content := Members.set "secret" (.str secret) template.content
  let proxies ← contentProxies content
  let proxies ← injectAll egress 0 template.egressCredentials proxies
  .ok (.mihomo (Members.set "proxies" (.arr (proxies.map Json.obj)) content) template.version
    template.controllerSecretRef template.controllerSecretRevision true)

/-- The snapshot is what the resolver answers to a requirement. -/
structure Resolved (answer : Except Exn EgressCredentialSnapshot) (requirement : EgressCredentialRequirement)
    (snapshot : EgressCredentialSnapshot) : Prop where
  answer : answer = .ok snapshot
  secretRef : snapshot.secretRef = requirement.secretRef
  revision : snapshot.revision = requirement.revision

section Finalize

variable {x : Externals} {dump : Json → Except RuntimeExn Bytes} {load : Bytes → Option Json}
  {now : Timestamp} {desired : DesiredForwarderState} {template : ProjectionTemplate}

end Finalize

def sampleExternals : Externals where
  casefold s := s
  upper s := s
  lower s := s
  ipAddress _ := some (false, false, 4)
  ipNetwork s := some s
  isoformat _ := ""

theorem default_nonblank : Text.strip "default" ≠ "" := by
  decide +kernel

/-- One listener, one egress proxy and the fallback rule. -/
def sampleDesired : DesiredForwarderState where
  listeners := []
  listenerSpecs := [⟨"in", "socks", "127.0.0.1", 7001, "out"⟩]
  proxies := []
  egressProxies := [⟨"out", "socks5", "198.51.100.7", 1080, "ref", 1, none, none⟩]
  proxyGroups := []
  rules := [.obj [("match", .str "MATCH"), ("target", .str "BLOCK")]]
  dns := []
  policy := []
  transportMaterializations := []
  transportReferences := []
  deploymentConstants := [("external-controller", .str "192.0.2.1:9090"), ("api-secret-ref", .str "api"),
    ("api-secret-revision", .int 1)]
  snapshotRevision := 1
  snapshotIdentity := "default"
  revision_pos := Int.one_pos
  identity_nonblank := default_nonblank

def sampleController (ref : String) : Except Exn ControllerSecretSnapshot := .ok ⟨ref, 1, "secret"⟩

def sampleEgress (_ : ℕ) (ref : String) : Except Exn EgressCredentialSnapshot := .ok ⟨ref, 1, ⟨"user", "pass"⟩⟩

end Lingsway.Forwarder
