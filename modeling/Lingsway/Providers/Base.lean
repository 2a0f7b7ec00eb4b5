import Lingsway.Library.Decimal
import Lingsway.Library.Text

/-!
# Provider contracts: values and exceptions

The data that crosses the provider boundary, and the exceptions the backend
tells apart. An exception carries its class, the data its handlers read and the
text `str(exc)` yields. Instants are microseconds since the epoch.
-/
namespace Lingsway

open Library

abbrev Timestamp := ℤ

def minutes (n : ℕ) : ℤ := n * 60 * 1000000

def days (n : ℕ) : ℤ := n * 24 * 60 * 60 * 1000000

/-- Certainty of the external effect of a failed `create_user`. -/
inductive AccountingCreateEffect where
  | noSideEffect
  | created
  | ambiguous
  deriving Repr, DecidableEq

inductive ExnClass where
  | capacityExceededError
  | externalTenantCreationError (externalId : Option String)
  | accountingCreateUserError (effect : AccountingCreateEffect)
  | gatewayRouteBindingLockError
  | gatewayReconciliationBlocked
  | gatewayReconciliationError
  | gatewayCommitOutcomeUnknown
  | provisioningStateError
  | desiredRoutingStateError
  | integrityError
  | valueError
  | runtimeError
  | other (name : String)
  deriving Repr, DecidableEq

structure Exn where
  cls : ExnClass
  message : String
  deriving Repr, DecidableEq

namespace Exn

/-- `type(exc).__name__`. -/
def typeName (e : Exn) : String :=
  match e.cls with
  | .capacityExceededError => "CapacityExceededError"
  | .externalTenantCreationError _ => "ExternalTenantCreationError"
  | .accountingCreateUserError _ => "AccountingCreateUserError"
  | .gatewayRouteBindingLockError => "GatewayRouteBindingLockError"
  | .gatewayReconciliationBlocked => "GatewayReconciliationBlocked"
  | .gatewayReconciliationError => "GatewayReconciliationError"
  | .gatewayCommitOutcomeUnknown => "GatewayCommitOutcomeUnknown"
  | .provisioningStateError => "ProvisioningStateError"
  | .desiredRoutingStateError => "DesiredRoutingStateError"
  | .integrityError => "IntegrityError"
  | .valueError => "ValueError"
  | .runtimeError => "RuntimeError"
  | .other name => name

/-- `isinstance(exc, GatewayReconciliationError)`: the class and its one subclass. -/
def isGatewayReconciliationError (e : Exn) : Bool :=
  e.cls = .gatewayReconciliationError || e.cls = .gatewayCommitOutcomeUnknown

end Exn

structure EgressEndpointDTO where
  endpointId : ℕ
  host : String
  port : ℤ
  protocol : String
  publicIp : Option String
  deriving Repr, DecidableEq

structure CapacityDTO where
  totalGb : Decimal
  allocatedGb : Decimal
  reservedGb : Decimal
  deriving Repr, DecidableEq

structure TenantDTO where
  tenantId : String
  label : String
  quotaGb : Decimal
  threadLimit : ℤ
  deriving Repr, DecidableEq

structure CredentialDTO where
  username : String
  password : String
  deriving Repr, DecidableEq

structure AccountUserDTO where
  username : String
  quotaBytes : ℤ
  expireAt : Option Timestamp
  routingPrincipal : String
  enabled : Bool
  deriving Repr, DecidableEq

structure XrayOutboundDTO where
  tag : String
  host : String
  port : ℤ
  protocol : String
  credentialSecretRef : String
  deriving Repr, DecidableEq

/-- `user_routes` lists its items in insertion order. -/
structure DesiredRoutingState where
  userRoutes : List (String × String)
  outbounds : List XrayOutboundDTO
  deriving Repr, DecidableEq

/-- The listener map of a forwarder state, in insertion order. -/
structure DesiredForwarderState where
  listeners : List (String × String)
  deriving Repr, DecidableEq

/-- A candidate is identified by the desired state it was rendered from. Its
content, with the resolved secrets, is the provider's own. -/
structure CandidateConfig (δ : Type) where
  rendered : δ
  version : String
  deriving Repr, DecidableEq

structure ValidationResult where
  valid : Bool
  errors : List String
  deriving Repr, DecidableEq

structure ApplyResult where
  applied : Bool
  version : String
  rolledBack : Bool
  deriving Repr, DecidableEq

structure NotifyEvent where
  eventType : String
  payload : List (String × String)
  deriving Repr, DecidableEq

end Lingsway
