import Lingsway.Infra.RoutingSnapshot
import Lingsway.Providers.Forwarder.MihomoProjection

/-!
# Loading the forwarder state

The complete forwarder state is read from the tables. The credential of an
endpoint is the one of its active binding, or else its own.
-/
namespace Lingsway.Routing

open Library Forwarder

/-- The columns of an endpoint that only the forwarder reads. -/
structure EgressColumns where
  code : String
  groupId : ℕ
  deriving Repr, DecidableEq

structure EgressGroup where
  code : String
  status : String
  deriving Repr, DecidableEq

structure RouteGroup where
  code : String
  active : Bool
  deriving Repr, DecidableEq

structure RouteBinding where
  routeGroupId : ℕ
  providerId : ℕ
  enabled : Bool
  deriving Repr, DecidableEq

structure RouteEgressBinding where
  routeGroupId : ℕ
  egressEndpointId : ℕ
  enabled : Bool
  deriving Repr, DecidableEq

structure TrafficRule where
  matchType : String
  matchValue : String
  targetEgress : String
  priority : ℤ
  enabled : Bool
  deriving Repr, DecidableEq

structure TransportProviderRecord where
  code : String
  enabled : Bool
  secretRef : String
  deriving Repr, DecidableEq

structure TransportEndpointRecord where
  providerId : ℕ
  name : String
  host : String
  port : ℤ
  deriving Repr, DecidableEq

structure EgressTransportAssignment where
  egressId : ℕ
  transportProviderId : ℕ
  transportNodeId : ℕ
  active : Bool
  deriving Repr, DecidableEq

/-- The tables that the loader reads beside those of provisioning. -/
structure ForwarderTables where
  egressColumns : ℕ → EgressColumns
  egressGroups : Table EgressGroup
  routeGroups : Table RouteGroup
  routeBindings : Table RouteBinding
  routeEgressBindings : Table RouteEgressBinding
  trafficRules : Table TrafficRule
  providers : Table TransportProviderRecord
  transportEndpoints : Table TransportEndpointRecord
  assignments : Table EgressTransportAssignment

def loaderError {α : Type} (code : String) : Except Exn α := .error ⟨.other "MihomoReconciliationError", code⟩

def insist (ok : Bool) (code : String) : Except Exn Unit := if ok then .ok () else loaderError code

theorem insist_ok {ok : Bool} {code : String} {a : Unit} (h : insist ok code = .ok a) : ok = true := by
  cases hok : ok with
  | true => rfl
  | false =>
    rw [hok] at h
    cases h

section Loader

variable (view : Database) (tables : ForwarderTables)

def codeOf (endpoint : Entity EgressEndpoint) : String := (tables.egressColumns endpoint.id).code

def routeGroups : List (Entity RouteGroup) :=
  (tables.routeGroups.entities.filter fun g => g.row.active).insertionSort fun a b => a.row.code ≤ b.row.code

def isRouteGroup (id : ℕ) : Bool := (routeGroups tables).any fun g => g.id = id

/-- The endpoints of the active groups that can carry traffic, by code. -/
def projectedEndpoints : List (Entity EgressEndpoint) :=
  (view.endpoints.entities.filter fun e =>
    ["AVAILABLE", "ASSIGNED", "DEGRADED"].contains e.row.status &&
      (tables.egressGroups.entities.any fun g =>
        g.row.status = "ACTIVE" && g.id = (tables.egressColumns e.id).groupId)).insertionSort fun a b =>
    codeOf tables a ≤ codeOf tables b

def projectedProviders : List (Entity TransportProviderRecord) :=
  (tables.providers.entities.filter fun p => p.row.enabled &&
    tables.routeBindings.entities.any fun b =>
      b.row.enabled && isRouteGroup tables b.row.routeGroupId && b.row.providerId = p.id).insertionSort
    fun a b => a.row.code ≤ b.row.code

def transportBefore (a b : Entity EgressTransportAssignment) : Prop :=
  a.row.transportProviderId < b.row.transportProviderId ∨
    (a.row.transportProviderId = b.row.transportProviderId ∧ a.row.transportNodeId ≤ b.row.transportNodeId)

instance : DecidableRel transportBefore := fun _ _ => inferInstanceAs (Decidable (_ ∨ _))

/-- One assignment, after its checks. -/
def addAssignment (assigned : List EgressTransportAssignment) (assignment : Entity EgressTransportAssignment) :
    Except Exn (List EgressTransportAssignment) :=
  match tables.transportEndpoints.get assignment.row.transportNodeId with
  | none => loaderError "MIHOMO_TRANSPORT_ASSIGNMENT_NODE_MISSING"
  | some node => do
    insist (assignment.row.transportProviderId = node.providerId) "MIHOMO_TRANSPORT_ASSIGNMENT_PROVIDER_MISMATCH"
    insist ((projectedEndpoints view tables).any fun e => e.id = assignment.row.egressId)
      "MIHOMO_TRANSPORT_ASSIGNMENT_EGRESS_UNKNOWN"
    insist (!(assigned.any fun a => a.egressId = assignment.row.egressId)) "MIHOMO_TRANSPORT_ASSIGNMENT_AMBIGUOUS"
    .ok (assigned ++ [assignment.row])

def loadAssignments : Except Exn (List EgressTransportAssignment) :=
  ((tables.assignments.entities.filter fun a => a.row.active).insertionSort transportBefore).foldlM
    (addAssignment view tables) []

def bindingBefore (a b : Entity EgressBinding) : Prop :=
  a.row.subscriptionId < b.row.subscriptionId ∨
    (a.row.subscriptionId = b.row.subscriptionId ∧ a.row.egressId ≤ b.row.egressId)

instance : DecidableRel bindingBefore := fun _ _ => inferInstanceAs (Decidable (_ ∨ _))

/-- The active bindings of all subscriptions. -/
def allBindings : List (Entity EgressBinding) :=
  (view.egressBindings.entities.filter fun b => b.row.active).insertionSort bindingBefore

/-- The credential of an endpoint under the binding that it is in. -/
def egressCredential (endpoint : EgressEndpoint) (binding : Option EgressBinding) : Except Exn String :=
  let override := (binding.bind EgressBinding.credentialSecretRef).getD ""
  if override = "" then
    if Text.strip endpoint.credentialSecretRef = "" then loaderError "MIHOMO_EGRESS_CREDENTIAL_REF_INVALID"
    else .ok (Text.strip endpoint.credentialSecretRef)
  else if Text.strip override = "" then loaderError "MIHOMO_EGRESS_CREDENTIAL_REF_INVALID"
  else .ok override

/-- The revision of a secret that is there. -/
def secretRevision (ref : String) : Except Exn ℤ :=
  match view.secrets ref with
  | none => loaderError "MIHOMO_EGRESS_CREDENTIAL_METADATA_INVALID"
  | some secret =>
    if secret.revision = 0 then loaderError "MIHOMO_EGRESS_CREDENTIAL_METADATA_INVALID" else .ok secret.revision

def nodeProxy (node : TransportEndpointRecord) (proxy : Json) : Bool :=
  match proxy with
  | .obj m => (Members.item m "name").equal (.str node.name) && (Members.item m "server").equal (.str node.host) &&
      (Members.item m "port").equal (.int node.port)
  | _ => false

/-- The one proxy of the provider's document that is the node. -/
def nodeProxyName (materials : List TransportMaterialization) (providerId : ℕ) (node : TransportEndpointRecord) :
    Except Exn String :=
  let proxies := match (materials.find? fun m => m.ownerRecordId = (providerId : ℤ)).map fun m =>
      Members.item m.content "proxies" with
    | some (.arr proxies) => proxies
    | _ => []
  if (proxies.filter (nodeProxy node)).length = 1 then .ok node.name
  else loaderError "MIHOMO_TRANSPORT_PROXY_UNRESOLVED"

/-- The node that an endpoint is assigned to. -/
def assignedNode (assigned : List EgressTransportAssignment) (endpointId : ℕ) :
    Option (ℕ × TransportEndpointRecord) :=
  (assigned.find? fun a => a.egressId = endpointId).bind fun a =>
    (tables.transportEndpoints.get a.transportNodeId).map fun node => (a.transportProviderId, node)

def transportName (materials : List TransportMaterialization) :
    Option (ℕ × TransportEndpointRecord) → Except Exn (Option String)
  | none => .ok none
  | some (providerId, node) => (nodeProxyName materials providerId node).map some

/-- One egress proxy of the loop. -/
def egressProxy (assigned : List EgressTransportAssignment) (materials : List TransportMaterialization)
    (endpoint : Entity EgressEndpoint) : Except Exn ForwarderEgressProxyDTO := do
  let binding := (allBindings view).find? fun b => b.row.egressId = endpoint.id
  let ref ← egressCredential endpoint.row (binding.map Entity.row)
  let revision ← secretRevision view ref
  let node := assignedNode tables assigned endpoint.id
  let transport ← transportName materials node
  .ok ⟨codeOf tables endpoint, endpoint.row.protocol, endpoint.row.host, endpoint.row.port, ref, revision, transport,
    node.map fun n => (n.2.name, n.2.host, n.2.port)⟩

def proxyGroup (group : Entity RouteGroup) : Json :=
  let members := (tables.routeEgressBindings.entities.filter fun b =>
    b.row.enabled && b.row.routeGroupId = group.id).filterMap fun b =>
      ((projectedEndpoints view tables).find? fun e => e.id = b.row.egressEndpointId).map fun e =>
        Json.str (codeOf tables e)
  .obj [("name", .str group.row.code), ("type", .str "select"), ("proxies", .arr members)]

def listenerOf (endpoint : Entity EgressEndpoint) : ForwarderListenerDTO :=
  ⟨"listener-" ++ codeOf tables endpoint, "mixed", "127.0.0.1", endpoint.row.mihomoListenPort, codeOf tables endpoint⟩

def ruleOf (rule : TrafficRule) : Json :=
  if rule.matchType = "MATCH" then .obj [("match", .str rule.matchType), ("target", .str rule.targetEgress)]
  else .obj [("match", .str rule.matchType), ("value", .str rule.matchValue), ("target", .str rule.targetEgress)]

/-- The enabled rules, and a blocking fallback unless the last of them is one. -/
def loadRules : List Json :=
  let rules := ((tables.trafficRules.entities.filter fun r => r.row.enabled).insertionSort fun a b =>
    a.row.priority ≤ b.row.priority).map Entity.row
  let fallback := Json.obj [("match", .str "MATCH"), ("target", .str "BLOCK")]
  match rules.getLast? with
  | some last => if last.matchType = "MATCH" then rules.map ruleOf else rules.map ruleOf ++ [fallback]
  | none => [fallback]

def controllerSecretRef : String := "mihomo/api-secret"

def controllerSecretPurpose : String := "MIHOMO_CONTROLLER_API_SECRET"

def controllerRevision : Except Exn ℤ :=
  match view.secrets controllerSecretRef with
  | none => loaderError "MIHOMO_CONTROLLER_SECRET_METADATA_INVALID"
  | some secret =>
    if secret.purpose = controllerSecretPurpose ∧ 0 < secret.revision then .ok secret.revision
    else loaderError "MIHOMO_CONTROLLER_SECRET_METADATA_INVALID"

-- the receipt, the source and the cached document of one provider
variable (materialize :
  Entity TransportProviderRecord → Except Exn (TransportMaterialization × TransportMaterializationReference))

/-- `SqlMihomoDesiredSnapshotLoader.load_current`. -/
def loadCurrent (externalController : String) : Except Exn Forwarder.DesiredForwarderState := do
  let endpoints := projectedEndpoints view tables
  let assigned ← loadAssignments view tables
  insist ((allBindings view).all fun b => endpoints.any fun e => e.id = b.row.egressId) "MIHOMO_EGRESS_BINDING_INVALID"
  let materialized ← (projectedProviders tables).mapM materialize
  let proxies ← endpoints.mapM (egressProxy view tables assigned (materialized.map Prod.fst))
  let revision ← controllerRevision view
  .ok {
    listeners := []
    listenerSpecs := endpoints.map (listenerOf tables)
    proxies := []
    egressProxies := proxies.insertionSort fun a b => a.name ≤ b.name
    proxyGroups := ((routeGroups tables).insertionSort fun a b => a.id ≤ b.id).map (proxyGroup view tables)
    rules := loadRules tables
    dns := [("enable", .bool true), ("ipv6", .bool false)]
    policy := []
    transportMaterializations := materialized.map Prod.fst
    transportReferences := materialized.map Prod.snd
    deploymentConstants := [("external-controller", .str externalController),
      ("api-secret-ref", .str controllerSecretRef), ("api-secret-revision", .int revision)]
    snapshotRevision := 1
    snapshotIdentity := "default"
    revision_pos := by decide
    identity_nonblank := by decide +kernel }

end Loader

end Lingsway.Routing
