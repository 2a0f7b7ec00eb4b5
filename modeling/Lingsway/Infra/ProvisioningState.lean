import Lingsway.Domain.Provisioning

/-!
# Provisioning state over a database session

Each function reads what the session sees and says which changes it makes and
how it ends. The state is built for one order and resolves its subscription at
every call.
-/
namespace Lingsway

open Library

/-- The changes a piece of session code makes, in order, and how it ends. -/
structure Effect (α : Type) where
  changes : List Write
  result : Except Exn α

namespace Effect

variable {α : Type}

def fail (e : Exn) : Effect α := ⟨[], .error e⟩

def done (changes : List Write) (a : α) : Effect α := ⟨changes, .ok a⟩

@[simp] theorem changes_fail (e : Exn) : (fail e : Effect α).changes = [] := rfl

@[simp] theorem changes_done (ws : List Write) (a : α) : (done ws a).changes = ws := rfl

@[simp] theorem result_fail (e : Exn) : (fail e : Effect α).result = .error e := rfl

@[simp] theorem result_done (ws : List Write) (a : α) : (done ws a).result = .ok a := rfl

end Effect

namespace Infra

def stateError {α : Type} (message : String) : Effect α := .fail ⟨.provisioningStateError, message⟩

/-- `put_secret`: keep an equal secret, replace a different one, insert a new one. -/
def putSecret (view : Database) (ref : String) (plaintext : Plaintext) (purpose : String) :
    List Write :=
  match view.secrets ref with
  | none => [.putSecret ref ⟨plaintext, purpose, 1⟩]
  | some existing =>
    if existing.plaintext = plaintext ∧ existing.purpose = purpose then []
    else [.putSecret ref ⟨plaintext, purpose, existing.revision + 1⟩]

def customerMismatch (view : Database) (subscriptionId customerId : ℕ) : Bool :=
  match view.subscriptions.get subscriptionId with
  | none => true
  | some subscription => subscription.customerId ≠ customerId

/-- A production endpoint that no subscription uses. -/
def EgressEndpoint.allocatable (endpoint : EgressEndpoint) : Bool :=
  endpoint.status = "AVAILABLE" && endpoint.purpose = "PRODUCTION" && endpoint.capacity = 1 &&
    endpoint.currentCount = 0

def activeBinding (view : Database) (subscriptionId : ℕ) : Option (Entity EgressBinding) :=
  view.egressBindings.find (fun b => b.subscriptionId = subscriptionId && b.active)

def activeBindingOn (view : Database) (subscriptionId egressId : ℕ) :
    Option (Entity EgressBinding) :=
  view.egressBindings.find
    (fun b => b.subscriptionId = subscriptionId && b.egressId = egressId && b.active)

def assignEndpoint (endpoint : EgressEndpoint) : EgressEndpoint :=
  { endpoint with currentCount := 1, status := "ASSIGNED" }

def allocateEndpoint (view : Database) (subscriptionId customerId : ℕ) : Effect EgressEndpointDTO :=
  if customerMismatch view subscriptionId customerId then
    stateError "subscription/customer does not match"
  else match view.endpoints.find EgressEndpoint.allocatable with
    | none => stateError "no dedicated egress endpoint is available"
    | some endpoint =>
      let bind := match activeBinding view subscriptionId with
        | none => [.insertEgressBinding view.egressBindings.next
            ⟨subscriptionId, endpoint.id, none, none⟩]
        | some _ => []
      .done (.updateEndpoint endpoint.id assignEndpoint :: bind)
        ⟨endpoint.id, endpoint.row.host, endpoint.row.port, endpoint.row.protocol, none⟩

def credentialRef (subscriptionId endpointId : ℕ) : String :=
  s!"webshare/subuser/{subscriptionId}/egress/{endpointId}"

def credentialPurpose : String := "WEBSHARE_SUBUSER_PROXY_CREDENTIAL"

/-- The binding of the endpoint gets the reference; it is added if it is missing. -/
def bindCredential (view : Database) (subscriptionId endpointId : ℕ) (ref : String) : Write :=
  match activeBindingOn view subscriptionId endpointId with
  | some binding => .updateEgressBinding binding.id fun b => { b with credentialSecretRef := some ref }
  | none => .insertEgressBinding view.egressBindings.next ⟨subscriptionId, endpointId, some ref, none⟩

def saveCredentials (view : Database) (subscriptionId : ℕ) (endpoint : EgressEndpointDTO)
    (credential : CredentialDTO) : Effect String :=
  let ref := credentialRef subscriptionId endpoint.endpointId
  .done (putSecret view ref (.credential credential) credentialPurpose ++
    [bindCredential view subscriptionId endpoint.endpointId ref]) ref

def currentForwarderState (view : Database) : DesiredForwarderState :=
  ⟨(view.endpoints.entities.filter
      (fun e => e.row.status = "AVAILABLE" || e.row.status = "ASSIGNED" || e.row.status = "DEGRADED")).map
    (fun e => (toString e.id, toString e.row.mihomoListenPort))⟩

/-- `d[key] = value` on a dictionary in insertion order. -/
def setItem (key value : String) : List (String × String) → List (String × String)
  | [] => [(key, value)]
  | (k, v) :: rest => if k = key then (k, value) :: rest else (k, v) :: setItem key value rest

def desiredForwarderState (view : Database) (endpoint : EgressEndpointDTO) (tenant : TenantDTO)
    (secretRef : String) : DesiredForwarderState :=
  ⟨setItem (toString endpoint.endpointId) (tenant.tenantId ++ ":" ++ secretRef)
    (currentForwarderState view).listeners⟩

def unreleasedRoute (view : Database) (subscriptionId : ℕ) : Option (Entity GatewayRouteBinding) :=
  view.routeBindings.find (fun r => r.subscriptionId = subscriptionId && r.unreleased)

def outboundTag (endpointId : ℕ) : String := s!"egress-{endpointId}"

/-- Refused when the session does not hold the named lock. -/
def ensureGatewayRouteBinding (view : Database) (holdsLock : Bool) (subscriptionId : ℕ)
    (gatewayPrincipal : String) (endpoint : EgressEndpointDTO) : Effect Unit :=
  if !holdsLock then
    .fail ⟨.gatewayRouteBindingLockError,
      "ensure_gateway_route_binding() called without the ADR-016 " ++
      "named lock held on this session; refusing to mutate " ++
      "GatewayRouteBinding outside gateway_route_binding_lock()"⟩
  else match unreleasedRoute view subscriptionId with
    | none => .done [.insertRouteBinding view.routeBindings.next ⟨subscriptionId,
        endpoint.endpointId, gatewayPrincipal, outboundTag endpoint.endpointId, true, none⟩] ()
    | some route => .done [.updateRouteBinding route.id fun r =>
        { r with
          egressId := endpoint.endpointId
          gatewayPrincipal := gatewayPrincipal
          outboundTag := outboundTag endpoint.endpointId
          enabled := true }] ()

def routeBefore (a b : Entity GatewayRouteBinding) : Prop :=
  a.row.outboundTag < b.row.outboundTag ∨
    (a.row.outboundTag = b.row.outboundTag ∧ a.row.gatewayPrincipal ≤ b.row.gatewayPrincipal)

instance : DecidableRel routeBefore := fun _ _ => inferInstanceAs (Decidable (_ ∨ _))

/-- The projected routes, ordered by tag, principal and identifier. -/
def activeRoutes (view : Database) : List (Entity GatewayRouteBinding) :=
  (view.routeBindings.entities.filter (fun e => e.row.active)).insertionSort routeBefore

def routingError {α : Type} (code : String) : Except Exn α := .error ⟨.desiredRoutingStateError, code⟩

/-- The binding's own credential, or the endpoint's as the fallback. -/
def selectedRef (endpoint : EgressEndpoint) (binding : Option (Entity EgressBinding)) : String :=
  match binding.bind (fun b => b.row.credentialSecretRef) with
  | some ref => if ref = "" then endpoint.credentialSecretRef else ref
  | none => endpoint.credentialSecretRef

/-- The outbound of one route, after all its checks but the uniqueness of its tag. -/
def routeOutbound (view : Database) (userRoutes : List (String × String))
    (route : GatewayRouteBinding) : Except Exn XrayOutboundDTO :=
  if Text.strip route.gatewayPrincipal = "" then routingError "ROUTE_PRINCIPAL_INVALID"
  else if Text.strip route.outboundTag = "" then routingError "ROUTE_TAG_INVALID"
  else if route.outboundTag = "BLOCK" then routingError "ROUTE_TAG_RESERVED"
  else if userRoutes.any (fun r => r.1 = route.gatewayPrincipal) then
    routingError "ROUTE_PRINCIPAL_DUPLICATE"
  else match view.endpoints.get route.egressId with
    | none => routingError "ROUTE_ENDPOINT_MISSING"
    | some endpoint =>
      if view.egressBindings.entities.any (fun b => b.row.active &&
          b.row.subscriptionId = route.subscriptionId && b.row.egressId ≠ route.egressId) then
        routingError "ROUTE_BINDING_EGRESS_MISMATCH"
      else if Text.strip endpoint.host = "" then routingError "ENDPOINT_HOST_INVALID"
      else if endpoint.port < 1 ∨ 65535 < endpoint.port then routingError "ENDPOINT_PORT_INVALID"
      else if Text.lower endpoint.protocol ≠ "socks" ∧ Text.lower endpoint.protocol ≠ "socks5" then
        routingError "ENDPOINT_PROTOCOL_UNSUPPORTED"
      else
        let ref := selectedRef endpoint (activeBindingOn view route.subscriptionId route.egressId)
        if ref = "" then routingError "CREDENTIAL_REF_INVALID"
        else .ok ⟨route.outboundTag, endpoint.host, endpoint.port, endpoint.protocol, ref⟩

def addRoutes (view : Database) : List (Entity GatewayRouteBinding) → DesiredRoutingState →
    Except Exn DesiredRoutingState
  | [], acc => .ok acc
  | route :: rest, acc =>
    match routeOutbound view acc.userRoutes route.row with
    | .error e => .error e
    | .ok outbound =>
      if acc.outbounds.any (fun o => o.tag = outbound.tag) then routingError "ROUTE_TAG_DUPLICATE"
      else addRoutes view rest ⟨acc.userRoutes ++ [(route.row.gatewayPrincipal, route.row.outboundTag)],
        acc.outbounds ++ [outbound]⟩

/-- The complete active routing state. Its outbounds are in the order of their tags. -/
def fullDesiredRoutingSnapshot (view : Database) : Except Exn DesiredRoutingState :=
  addRoutes view (activeRoutes view) ⟨[], []⟩

def desiredRoutingState (view : Database) (holdsLock : Bool) (subscriptionId : ℕ)
    (endpoint : EgressEndpointDTO) (routingPrincipal : String) : Effect DesiredRoutingState :=
  let ensured := ensureGatewayRouteBinding view holdsLock subscriptionId routingPrincipal endpoint
  ⟨ensured.changes, match ensured.result with
    | .error e => .error e
    | .ok _ => fullDesiredRoutingSnapshot (Write.applyAll ensured.changes view)⟩

def tokenRef (subscriptionId : ℕ) : String := s!"subscription/{subscriptionId}/token"

def storeSubscriptionToken (view : Database) (now : Timestamp) (subscriptionId customerId : ℕ)
    (rawToken : String) : Effect Unit :=
  if customerMismatch view subscriptionId customerId then
    stateError "subscription/customer does not match"
  else if rawToken = "" then .fail ⟨.other "SecretStoreError", "Secret value must not be empty"⟩
  else .done (putSecret view (tokenRef subscriptionId) (.text rawToken) "SUBSCRIPTION_TOKEN" ++
    [.updateSubscription subscriptionId fun s =>
      { s with
        tokenHash := some ⟨rawToken⟩
        tokenCreatedAt := some now
        tokenRevokedAt := none }]) ()

def readSubscriptionToken (view : Database) (subscriptionId : ℕ) : Except Exn String :=
  match (view.subscriptions.get subscriptionId).bind (fun s => s.tokenHash) with
  | none => .error ⟨.provisioningStateError, "subscription token is not available"⟩
  | some hash =>
    match view.secrets (tokenRef subscriptionId) with
    | some ⟨.text rawToken, _, _⟩ =>
      if hash = ⟨rawToken⟩ then .ok rawToken
      else .error ⟨.provisioningStateError, "subscription token hash mismatch"⟩
    | _ => .error ⟨.other "SecretStoreError",
        "Secret reference not found: " ++ tokenRef subscriptionId⟩

/-- `configured` is the domain of the settings, used when the caller's is empty. -/
def currentSubscriptionUrl (view : Database) (configured : String) (subscriptionId : ℕ)
    (domain : String) : Except Exn String :=
  let base := Text.rstripChar '/' (Text.strip (if domain = "" then configured else domain))
  if base = "" then .error ⟨.provisioningStateError, "subscription domain is required"⟩
  else match readSubscriptionToken view subscriptionId with
    | .error e => .error e
    | .ok rawToken =>
      let base := if Text.contains "://".toList base.toList then base else "https://" ++ base
      .ok (base ++ "/s/" ++ rawToken)

end Infra
end Lingsway
