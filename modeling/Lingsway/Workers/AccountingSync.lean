import Lingsway.Infra.GatewayReconciliation

/-!
# Release of an egress

The release commits the desired state and a gateway intent before the runtime
is touched. Its caller has committed the usage transaction before.
-/
namespace Lingsway.Workers

open Library Saga Infra

/-- The operation a release is deduplicated by, unless the caller names one. -/
def releaseOperation (subscriptionId bindingId : ℕ) (operationId : Option String) : OperationId :=
  match operationId with
  | some text => if text = "" then .binding subscriptionId bindingId else .named text
  | none => .binding subscriptionId bindingId

def releaseRoute (route : Option (Entity GatewayRouteBinding)) (now : Timestamp) : Saga Unit :=
  match route with
  | some route => session (.write (.updateRouteBinding route.id fun row =>
      { row with enabled := false, releasedAt := some now }))
  | none => pure ()

/-- The changes of a release up to and including its intent. -/
def writeRelease (subscriptionId orderId : ℕ) (binding : Entity EgressBinding) (now : Timestamp)
    (operationId : Option String) : Saga ℕ := do
  assertNoUnresolvedGatewayMutation
  let egress ← session (.getEndpoint binding.row.egressId)
  session (.write (.updateEgressBinding binding.id fun row => { row with releasedAt := some now }))
  let route ← session (.unreleasedRoute subscriptionId)
  releaseRoute route now
  when egress.isSome (session (.write (.updateEndpoint binding.row.egressId fun row =>
    { row with currentCount := 0, status := "QUARANTINED" })))
  enqueueGatewayReconciliation .release subscriptionId (some orderId) none
    (releaseOperation subscriptionId binding.id operationId)

/-- `gateway` says whether the caller passed a gateway provider. -/
def releaseEgress (subscriptionId : ℕ) (now : Option Timestamp) (gateway : Bool)
    (operationId : Option String) : Saga Bool := do
  let now ← orNow now
  gatewayRouteBindingLock (do
    match ← session (.getSubscription subscriptionId) with
    | none => .raise ⟨.valueError, "Subscription not found"⟩
    | some subscription => do
      match ← session (.activeEgressBinding subscriptionId) with
      | none => pure false
      | some binding => do
        let jobId ← writeRelease subscriptionId subscription.orderId binding now operationId
        commit
        if gateway then do
          let result ← reconcileGatewayJobInSession jobId
          pure result.applied
        else pure false)

end Lingsway.Workers
