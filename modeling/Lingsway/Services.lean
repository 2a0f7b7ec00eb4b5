import Lingsway.Domain.Ordering
import Lingsway.Domain.Compensation
import Lingsway.Infra.GatewayReconciliation

/-!
# The paid-order workflow

Capacity, payment and the order's own transaction come first. A purchase then
runs steps 1-6 and continues under the named lock, either with steps 7-9 inside
one business transaction or, for the real gateway, by committing the routes
together with a gateway intent and projecting them afterwards.
-/
namespace Lingsway.Services

open Library Saga Domain Infra

/-- Commit the business state first, then record the status of the run. -/
def markPendingManual (command : BillingCommand) (outcome : ProvisionOutcome) :
    Saga ProvisionOutcome := do
  let businessMessage := match outcome.reason with
    | some reason => pendingManualBusinessMessages reason
    | none => "provisioning requires manual review"
  transaction (orders (.markProvisionPending command businessMessage))
  markRunPendingManual outcome.runId outcome.pendingManualError
  pure outcome

/-- Compensate a confirmed phase-A accounting user or keep manual state. -/
def handlePreGatewayFailure (command : BillingCommand) (checkpoint : ProvisioningCheckpoint)
    (request : ProvisionRequest) (error : Exn) : Saga ProvisionOutcome := do
  match ← (failBeforeGatewayAuthoritativeCommit checkpoint request error).attempt with
  | .error exc => do
    transaction (failPaidPurchase command error.typeName)
    .raise exc
  | .ok pending =>
    match pending.reason with
    | none => .raise ⟨.runtimeError, "PENDING_MANUAL reason is required"⟩
    | some reason => do
      transaction (orders (.markProvisionPending command (pendingManualBusinessMessages reason)))
      markRunPendingManual checkpoint.runId pending.pendingManualError
      pure pending

def firstCommitUnknown : String := "GATEWAY_FIRST_COMMIT_OUTCOME_UNKNOWN"

/-- Persist only a safe manual-review state when the database truth is unavailable. -/
def markFirstCommitUnknown (command : BillingCommand) (checkpoint : ProvisioningCheckpoint) :
    Saga ProvisionOutcome := do
  (transaction (orders (.markProvisionPending command
    "durable gateway commit outcome could not be confirmed; requires review"))).tryCatch
      (fun _ => .raise (commitOutcomeUnknown firstCommitUnknown))
  markRunPendingManual checkpoint.runId (some firstCommitUnknown)
  pure ⟨checkpoint.runId, .pendingManual, none, some firstCommitUnknown, none⟩

def running (checkpoint : ProvisioningCheckpoint) : ProvisionOutcome :=
  ⟨checkpoint.runId, .running, none, none, none⟩

/-- Everything the first commit is to contain; the value is the job's identifier. -/
def writeGatewayIntent (command : BillingCommand) (request : ProvisionRequest)
    (checkpoint : ProvisioningCheckpoint) (subscriptionId : ℕ) : Saga ℕ := do
  assertNoUnresolvedGatewayMutation
  session (.write (.updateSubscription subscriptionId fun subscription =>
    { subscription with accountingUserId := some checkpoint.accountUser.username }))
  let rawToken ← provider .tokenFactory
  state (.storeSubscriptionToken request.customerId rawToken)
  let _ ← state (.desiredRoutingState request checkpoint.endpoint checkpoint.tenant
    checkpoint.accountUser.routingPrincipal)
  let jobId ← enqueueGatewayReconciliation .purchase subscriptionId (some command.orderId)
    (some checkpoint.runId) (.order command.orderId)
  runs (.recordStep checkpoint.runId .applyGateway "PENDING")
  pure jobId

/-- The handler of a first commit that raised. -/
def settleFirstCommit (command : BillingCommand) (request : ProvisionRequest)
    (checkpoint : ProvisioningCheckpoint) (subscriptionId : ℕ) (commitError : Exn) :
    Saga ProvisionOutcome := do
  rollback.suppress
  let classified ← (do
    session (.refreshSubscription subscriptionId)
    classifyFirstCommitOutcome (.gatewayReconcile .purchase (.order command.orderId))
      subscriptionId : Saga FirstCommitOutcome).attempt
  match classified with
  | .error exc =>
    if exc.cls = .gatewayCommitOutcomeUnknown then do
      rollback.suppress
      markFirstCommitUnknown command checkpoint
    else .raise exc
  | .ok .landed => do
    rollback.suppress
    pure (running checkpoint)
  | .ok .absent => do
    rollback
    handlePreGatewayFailure command checkpoint request commitError
  | .ok .unknown => do
    rollback.suppress
    markFirstCommitUnknown command checkpoint

/-- An outcome to return at once, or the result of the attempt that followed. -/
abbrev DurableStep := ProvisionOutcome ⊕ GatewayReconciliationResult

def firstCommit (command : BillingCommand) (request : ProvisionRequest)
    (checkpoint : ProvisioningCheckpoint) (subscriptionId jobId : ℕ) : Saga DurableStep := do
  match ← commit.attempt with
  | .ok _ => do
    let result ← reconcileGatewayJobInSession jobId
    pure (.inr result)
  | .error commitError => do
    let outcome ← settleFirstCommit command request checkpoint subscriptionId commitError
    pure (.inl outcome)

/-- The locked section. Only what raises before the first commit is attempted is
handled here; the source tells the two apart by its flag `first_commit_attempted`. -/
def durableLocked (command : BillingCommand) (request : ProvisionRequest)
    (checkpoint : ProvisioningCheckpoint) (subscriptionId : ℕ) : Saga DurableStep := do
  match ← (writeGatewayIntent command request checkpoint subscriptionId).attempt with
  | .ok jobId => firstCommit command request checkpoint subscriptionId jobId
  | .error error => do
    rollback.suppress
    let outcome ← handlePreGatewayFailure command checkpoint request error
    pure (.inl outcome)

/-- Under the lock. The outer handler of the source acts only when neither flag is
set, which is when the lock could not be acquired. -/
def durableSection (command : BillingCommand) (request : ProvisionRequest)
    (checkpoint : ProvisioningCheckpoint) (subscriptionId : ℕ) : Saga DurableStep := do
  match ← (session .acquireLock).attempt with
  | .ok _ =>
    (durableLocked command request checkpoint subscriptionId).tryFinally (session .releaseLock)
  | .error error => do
    rollback.suppress
    let outcome ← handlePreGatewayFailure command checkpoint request error
    pure (.inl outcome)

def reportSucceeded (request : ProvisionRequest) (checkpoint : ProvisioningCheckpoint)
    (subscriptionId : ℕ) : Saga ProvisionOutcome := do
  (provider (.notifySend ⟨"PROVISION_SUCCEEDED", [("run_id", toString checkpoint.runId),
    ("customer_id", toString request.customerId)]⟩)).tryCatch
      (fun exc => runs (.markNotificationFailed checkpoint.runId exc.typeName))
  session (.refreshSubscription subscriptionId)
  let url ← session (.subscriptionUrl subscriptionId request.subscriptionDomain)
  pure ⟨checkpoint.runId, .succeeded, some url, none, none⟩

/-- Commit the routes and a pending gateway intent before any runtime mutation. -/
def confirmPaidPurchaseDurable (command : BillingCommand) (request : ProvisionRequest)
    (checkpoint : ProvisioningCheckpoint) : Saga ProvisionOutcome := do
  match ← session (.subscriptionOfOrder command.orderId) with
  | none => .raise ⟨.runtimeError, "Provisioning subscription was not created"⟩
  | some subscription => do
    match ← durableSection command request checkpoint subscription.id with
    | .inl outcome => pure outcome
    | .inr result =>
      if result.applied && result.finalized then
        reportSucceeded request checkpoint subscription.id
      else pure (running checkpoint)

/-- Steps 7-9 and the activation, all inside the lock. -/
def legacyLocked (command : BillingCommand) (request : ProvisionRequest)
    (checkpoint : ProvisioningCheckpoint) : Saga ProvisionOutcome := do
  let outcome ← (provisionApplyGateway checkpoint request).tryCatch (fun exc => do
    rollbackDatabase
    .raise exc)
  if outcome.status = .pendingManual then markPendingManual command outcome
  else do
    transaction (activatePaidPurchase command)
    markApplyGatewaySucceeded checkpoint.runId
    pure outcome

/-- `except GatewayRouteBindingLockError`. -/
def lockFailed (command : BillingCommand) (request : ProvisionRequest)
    (checkpoint : ProvisioningCheckpoint) (lockExc : Exn) : Saga ProvisionOutcome := do
  rollbackDatabase
  match ← failApplyGatewayLockAcquisition checkpoint request lockExc with
  | some pending => markPendingManual command pending
  | none => do
    transaction (failPaidPurchase command lockExc.typeName)
    .raise lockExc

/-- `except Exception` around the locked section. -/
def legacyFailed (command : BillingCommand) (checkpoint : ProvisioningCheckpoint) (exc : Exn) :
    Saga ProvisionOutcome := do
  transaction (failPaidPurchase command exc.typeName)
  markRunFailed checkpoint.runId exc
  .raise exc

def confirmPaidPurchaseLegacy (command : BillingCommand) (request : ProvisionRequest)
    (checkpoint : ProvisioningCheckpoint) : Saga ProvisionOutcome :=
  (gatewayRouteBindingLock (legacyLocked command request checkpoint)).tryCatch (fun exc =>
    if exc.cls = .gatewayRouteBindingLockError then lockFailed command request checkpoint exc
    else legacyFailed command checkpoint exc)

/-- Steps 1-6 and what any failure of theirs does to the order. -/
def prepareOrFail (command : BillingCommand) (request : ProvisionRequest) :
    Saga (ProvisioningCheckpoint ⊕ ProvisionOutcome) :=
  (provisionPrepare request).tryCatch (fun exc => do
    rollbackDatabase
    transaction (failPaidPurchase command exc.typeName)
    .raise exc)

/-- The purchase after its payment: `durable` says that the gateway provider is
`xray_file` and the order state has a session. -/
def provisionPaidPurchase (durable : Bool) (command : BillingCommand) (request : ProvisionRequest) :
    Saga ProvisionOutcome := do
  match ← prepareOrFail command request with
  | .inr outcome => markPendingManual command outcome
  | .inl checkpoint =>
    if durable then confirmPaidPurchaseDurable command request checkpoint
    else confirmPaidPurchaseLegacy command request checkpoint

/-- Capacity is checked before the payment provider is called. -/
def checkCapacity (command : BillingCommand) (request : ProvisionRequest) : Saga Unit := do
  let capacity ← provider .capacity
  match ensureCapacity capacity request.quotaGb with
  | .ok _ => pure ()
  | .error exc => do
    transaction (orders (.rejectCapacity command.orderId exc.message))
    .raise exc

def confirmPaymentAndProvision (durable : Bool) (command : BillingCommand)
    (request : ProvisionRequest) (paymentReference paymentProviderCode : String) :
    Saga (Option ProvisionOutcome) := do
  checkCapacity command request
  provider (.confirmManual command.orderId paymentReference)
  let paidAt ← now
  let receipt : PaymentConfirmation := ⟨paymentProviderCode, paymentReference, paidAt⟩
  if command.orderType = .purchase then do
    transaction (do
      orders (.recordPayment command.orderId receipt)
      orders (.preparePurchase command))
    let outcome ← provisionPaidPurchase durable command request
    pure (some outcome)
  else do
    transaction (do
      orders (.recordPayment command.orderId receipt)
      applyPaidBillingChange command)
    pure none

end Lingsway.Services
