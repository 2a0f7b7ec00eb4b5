import Lingsway.Library.Program
import Lingsway.Models

/-!
# Ports of the provisioning saga

The values the saga passes around, and the calls it makes: to the providers, to
the run store, to the provisioning state and the order state, which share one
database session, and to that session itself.
-/
namespace Lingsway

open Library

structure ProvisionRequest where
  orderId : ℕ
  customerId : ℕ
  username : String
  quotaGb : Decimal
  threadLimit : ℤ
  expireAt : Option Timestamp
  subscriptionDomain : String
  deriving Repr, DecidableEq

inductive ProvisionStatus where
  | running
  | pendingManual
  | failed
  | succeeded
  deriving Repr, DecidableEq

inductive PendingManualReason where
  | externalTenantCreation
  | accountingCreateAmbiguous
  | accountingCompensationFailed
  | forwarderCompensationFailed
  | gatewayCompensationFailed
  deriving Repr, DecidableEq

structure ProvisionOutcome where
  runId : ℕ
  status : ProvisionStatus
  subscriptionUrl : Option String
  pendingManualError : Option String
  reason : Option PendingManualReason
  deriving Repr, DecidableEq

/-- Continuation between the unlocked steps 1-6 and the locked steps 7-9. -/
structure ProvisioningCheckpoint where
  runId : ℕ
  endpoint : EgressEndpointDTO
  tenant : TenantDTO
  accountUser : AccountUserDTO
  deriving Repr, DecidableEq

inductive BillingOrderType where
  | purchase
  | renewal
  | upgrade
  | addon
  deriving Repr, DecidableEq

structure PaymentConfirmation where
  providerCode : String
  externalReference : String
  paidAt : Timestamp
  deriving Repr, DecidableEq

structure BillingCommand where
  orderId : ℕ
  subscriptionId : Option ℕ
  orderType : BillingOrderType
  deriving Repr, DecidableEq

/-- Calls that leave the process, the clock and the token factory. -/
inductive ProviderCall where
  | capacity
  | createTenant (label : String) (quotaGb : Decimal) (threadLimit : ℤ)
  | getCredentials (tenantId : String) (endpointId : ℕ)
  | createUser (username : String) (quotaBytes : ℤ) (expireAt : Option Timestamp)
  | disableUser (username : String)
  | forwarderRender (desired : DesiredForwarderState)
  | forwarderApply (candidate : CandidateConfig DesiredForwarderState)
  | gatewayRender (desired : DesiredRoutingState)
  | gatewayValidate (candidate : CandidateConfig DesiredRoutingState)
  | gatewayApply (candidate : CandidateConfig DesiredRoutingState)
  | notifySend (event : NotifyEvent)
  | confirmManual (orderId : ℕ) (reference : String)
  | tokenFactory
  | now

/-- `ProvisionRunStore`, which commits through a session of its own. -/
inductive RunCall where
  | start (request : ProvisionRequest)
  | recordStep (runId : ℕ) (step : ProvisionStep) (status : String)
  | recordExternalId (runId : ℕ) (kind externalId : String)
  | markStatus (runId : ℕ) (status : ProvisionStatus) (error : Option String)
  | markNotificationFailed (runId : ℕ) (error : String)

/-- `ProvisioningState`, built for one order. -/
inductive StateCall where
  | rejectCapacity (orderId : ℕ) (reason : String)
  | allocateEndpoint (customerId : ℕ)
  | saveCredentials (tenant : TenantDTO) (endpoint : EgressEndpointDTO) (credential : CredentialDTO)
  | currentForwarderState
  | desiredForwarderState (endpoint : EgressEndpointDTO) (tenant : TenantDTO) (secretRef : String)
  | desiredRoutingState (request : ProvisionRequest) (endpoint : EgressEndpointDTO)
      (tenant : TenantDTO) (routingPrincipal : String)
  | storeSubscriptionToken (customerId : ℕ) (rawToken : String)

/-- `OrderWorkflowState`. -/
inductive OrderCall where
  | recordPayment (orderId : ℕ) (receipt : PaymentConfirmation)
  | rejectCapacity (orderId : ℕ) (reason : String)
  | preparePurchase (command : BillingCommand)
  | applyRenewal (command : BillingCommand)
  | activateSubscription (command : BillingCommand)
  | markProvisionPending (command : BillingCommand) (error : String)
  | markProvisionFailed (command : BillingCommand) (error : String)

/-- The request session: transaction control, the named lock, queries, changes
of mapped objects, and the observations of an independent session. -/
inductive SessionCall where
  | commit
  | rollback
  | acquireLock
  | releaseLock
  | write (change : Write)
  | insertJob (row : Job)
  | unresolvedGatewayJob
  | claimableJob (now : Timestamp)
  | jobOfKey (key : DedupeKey)
  | getJob (jobId : ℕ)
  | getSubscription (subscriptionId : ℕ)
  | subscriptionOfOrder (orderId : ℕ)
  | refreshSubscription (subscriptionId : ℕ)
  | getOrder (orderId : ℕ)
  | activeEgressBinding (subscriptionId : ℕ)
  | getEndpoint (endpointId : ℕ)
  | unreleasedRoute (subscriptionId : ℕ)
  | routingSnapshot
  | subscriptionUrl (subscriptionId : ℕ) (domain : String)
  | probeJobId (key : DedupeKey)
  | probeActiveRouteId (subscriptionId : ℕ)
  | probeJobStatus (jobId : ℕ)
  | probeSubscriptionStatus (subscriptionId : ℕ)
  | probeOrderStatus (orderId : ℕ)

inductive Call where
  | provider (c : ProviderCall)
  | runs (c : RunCall)
  | state (c : StateCall)
  | orders (c : OrderCall)
  | session (c : SessionCall)

@[reducible] def ProviderCall.Answer : ProviderCall → Type
  | capacity => CapacityDTO
  | createTenant .. => TenantDTO
  | getCredentials .. => CredentialDTO
  | createUser .. => AccountUserDTO
  | disableUser _ => Unit
  | forwarderRender _ => CandidateConfig DesiredForwarderState
  | forwarderApply _ => ApplyResult
  | gatewayRender _ => CandidateConfig DesiredRoutingState
  | gatewayValidate _ => ValidationResult
  | gatewayApply _ => ApplyResult
  | notifySend _ => Unit
  | confirmManual .. => Unit
  | tokenFactory => String
  | now => Timestamp

/-- The answers of providers that do what they are asked to. -/
def ProviderCall.calm : (c : ProviderCall) → Except Exn c.Answer
  | .capacity => .ok ⟨.ofInt 100, .ofInt 0, .ofInt 0⟩
  | .createTenant label quotaGb threadLimit => .ok ⟨"tenant-1", label, quotaGb, threadLimit⟩
  | .getCredentials .. => .ok ⟨"user", "password"⟩
  | .createUser username quotaBytes expireAt =>
    .ok ⟨username, quotaBytes, expireAt, "1." ++ username, true⟩
  | .disableUser _ => .ok ()
  | .forwarderRender desired => .ok ⟨desired, "v1"⟩
  | .forwarderApply _ => .ok ⟨true, "v1", false⟩
  | .gatewayRender desired => .ok ⟨desired, "v1"⟩
  | .gatewayValidate _ => .ok ⟨true, []⟩
  | .gatewayApply _ => .ok ⟨true, "v1", false⟩
  | .notifySend _ => .ok ()
  | .confirmManual .. => .ok ()
  | .tokenFactory => .ok "token"
  | .now => .ok (0 : ℤ)

@[reducible] def RunCall.Answer : RunCall → Type
  | start _ => ℕ
  | recordStep .. => Unit
  | recordExternalId .. => Unit
  | markStatus .. => Unit
  | markNotificationFailed .. => Unit

@[reducible] def StateCall.Answer : StateCall → Type
  | rejectCapacity .. => Unit
  | allocateEndpoint _ => EgressEndpointDTO
  | saveCredentials .. => String
  | currentForwarderState => DesiredForwarderState
  | desiredForwarderState .. => DesiredForwarderState
  | desiredRoutingState .. => DesiredRoutingState
  | storeSubscriptionToken .. => Unit

@[reducible] def SessionCall.Answer : SessionCall → Type
  | commit => Unit
  | rollback => Unit
  | acquireLock => Unit
  | releaseLock => Unit
  | write _ => Unit
  | insertJob _ => ℕ
  | unresolvedGatewayJob => Option ℕ
  | claimableJob _ => Option (Entity Job)
  | jobOfKey _ => Option (Entity Job)
  | getJob _ => Option Job
  | getSubscription _ => Option Subscription
  | subscriptionOfOrder _ => Option (Entity Subscription)
  | refreshSubscription _ => Unit
  | getOrder _ => Option Order
  | activeEgressBinding _ => Option (Entity EgressBinding)
  | getEndpoint _ => Option EgressEndpoint
  | unreleasedRoute _ => Option (Entity GatewayRouteBinding)
  | routingSnapshot => DesiredRoutingState
  | subscriptionUrl .. => String
  | probeJobId _ => Option ℕ
  | probeActiveRouteId _ => Option ℕ
  | probeJobStatus _ => Option JobStatus
  | probeSubscriptionStatus _ => Option SubscriptionStatus
  | probeOrderStatus _ => Option OrderStatus

@[reducible] def Call.Answer : Call → Type
  | provider c => c.Answer
  | runs c => c.Answer
  | state c => c.Answer
  | orders _ => Unit
  | session c => c.Answer

abbrev port : Signature := ⟨Call, Call.Answer⟩

abbrev Saga := Program port Exn

namespace Saga

def provider (c : ProviderCall) : Saga c.Answer := Program.perform (S := port) (.provider c)

def runs (c : RunCall) : Saga c.Answer := Program.perform (S := port) (.runs c)

def state (c : StateCall) : Saga c.Answer := Program.perform (S := port) (.state c)

def orders (c : OrderCall) : Saga Unit := Program.perform (S := port) (.orders c)

def session (c : SessionCall) : Saga c.Answer := Program.perform (S := port) (.session c)

def commit : Saga Unit := session .commit

def rollback : Saga Unit := session .rollback

/-- `state.rollback_database()`: it rolls the one shared session back. -/
def rollbackDatabase : Saga Unit := rollback

def now : Saga Timestamp := provider .now

/-- `t or now()`. -/
def orNow : Option Timestamp → Saga Timestamp
  | some at' => pure at'
  | none => now

/-- `if c: p`. -/
def when (c : Bool) (p : Saga Unit) : Saga Unit := if c then p else .ret ()

/-- `with order_state.transaction(): body`. -/
def transaction (body : Saga Unit) : Saga Unit :=
  (do body; commit).tryCatch (fun e => do rollback; .raise e)

/-- `with gateway_route_binding_write(session): body`. -/
def gatewayRouteBindingLock {α : Type} (body : Saga α) : Saga α := do
  session .acquireLock
  body.tryFinally (session .releaseLock)

end Saga
end Lingsway
