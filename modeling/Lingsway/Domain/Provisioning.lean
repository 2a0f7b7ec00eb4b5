import Lingsway.Domain.Capacity
import Lingsway.Library.Text
import Lingsway.Ports

/-!
# The nine-step provisioning saga

`provisionPrepare` runs steps 1-6 without the named lock and `provisionApplyGateway`
steps 7-9 inside it. A failed step either compensates, rolls the session back,
records the run `FAILED` and raises, or leaves everything in place and returns a
`PENDING_MANUAL` outcome for its caller to persist.
-/
namespace Lingsway.Domain

open Library Saga

def pendingManualBusinessMessages : PendingManualReason → String
  | .externalTenantCreation => "external tenant creation requires review"
  | .accountingCreateAmbiguous =>
    "accounting user creation result is ambiguous and requires review"
  | .accountingCompensationFailed =>
    "accounting user creation failed and automatic compensation (disable) also failed; " ++
    "requires manual review"
  | .forwarderCompensationFailed =>
    "forwarder configuration apply failed and restoring the previous configuration also failed; " ++
    "forwarder runtime state is unknown and requires manual review"
  | .gatewayCompensationFailed =>
    "gateway apply failed and automatic compensation (disable) also failed; " ++
    "the accounting user may still be enabled and requires manual review"

def pendingManual (runId : ℕ) (error : String) (reason : PendingManualReason) : ProvisionOutcome where
  runId := runId
  status := .pendingManual
  subscriptionUrl := none
  pendingManualError := some error
  reason := some reason

def subscriptionUrl (domain token : String) : Except Exn String :=
  let base := Text.rstripChar '/' (Text.strip domain)
  if base = "" then .error ⟨.valueError, "subscription domain is required"⟩
  else
    let base := if Text.contains "://".toList base.toList then base else "https://" ++ base
    .ok (base ++ "/s/" ++ token)

/-- Best-effort notification of the operators. -/
def alert (eventType : String) (payload : List (String × String)) : Saga Unit :=
  (provider (.notifySend ⟨eventType, payload⟩)).suppress

def start (runId : ℕ) (step : ProvisionStep) : Saga Unit := runs (.recordStep runId step "STARTED")

def success (runId : ℕ) (step : ProvisionStep) : Saga Unit :=
  runs (.recordStep runId step "SUCCEEDED")

def failed (runId : ℕ) (step : ProvisionStep) (error : Exn) : Saga Unit := do
  runs (.recordStep runId step "FAILED")
  runs (.markStatus runId .failed (some error.message))

/-- The failure handler of a step with nothing external to undo. -/
def failStep {α : Type} (runId : ℕ) (step : ProvisionStep) (error : Exn) : Saga α := do
  rollbackDatabase
  failed runId step error
  .raise error

def markRunFailed (runId : ℕ) (error : Exn) : Saga Unit :=
  runs (.markStatus runId .failed (some error.message))

/-- Best-effort: the business commit it reports on has already completed. -/
def markApplyGatewaySucceeded (runId : ℕ) : Saga Unit :=
  (runs (.markStatus runId .succeeded none)).suppress

/-- Best-effort, for the same reason. -/
def markRunPendingManual (runId : ℕ) (error : Option String) : Saga Unit :=
  (runs (.markStatus runId .pendingManual error)).suppress

def compensateCreatedAccountingUser (runId : ℕ) (request : ProvisionRequest) (exc : Exn) :
    Saga ProvisionOutcome := do
  match ← (provider (.disableUser request.username)).attempt with
  | .error disableExc => do
    runs (.recordStep runId .createAccountingUser "PENDING_MANUAL")
    pure (pendingManual runId
      (s!"accounting user creation failed ({exc.typeName}), and " ++
        s!"disabling the created user also failed ({disableExc.typeName})")
      .accountingCompensationFailed)
  | .ok _ => failStep runId .createAccountingUser exc

def capacityStep (runId : ℕ) (request : ProvisionRequest) : Saga Unit := do
  start runId .capacity
  let checked ← (do
    let capacity ← provider .capacity
    .ofExcept (ensureCapacity capacity request.quotaGb) : Saga Unit).attempt
  match checked with
  | .ok _ => success runId .capacity
  | .error exc =>
    -- any other exception leaves the step without a handler of its own
    if exc.cls = .capacityExceededError then do
      state (.rejectCapacity request.orderId exc.message)
      alert "CAPACITY_EXCEEDED" [("run_id", toString runId), ("order_id", toString request.orderId)]
      failStep runId .capacity exc
    else .raise exc

def allocateEndpointStep (runId : ℕ) (request : ProvisionRequest) : Saga EgressEndpointDTO := do
  start runId .allocateEndpoint
  match ← (state (.allocateEndpoint request.customerId)).attempt with
  | .error exc => failStep runId .allocateEndpoint exc
  | .ok endpoint => do
    success runId .allocateEndpoint
    pure endpoint

/-- A creation error that names the external tenant leaves its name on the run. -/
def recordUnconfirmedTenant (runId : ℕ) (exc : Exn) : Saga Unit :=
  match exc.cls with
  | .externalTenantCreationError (some externalId) =>
    runs (.recordExternalId runId "egress_tenant" externalId)
  | _ => pure ()

def createTenantStep (runId : ℕ) (request : ProvisionRequest) :
    Saga (TenantDTO ⊕ ProvisionOutcome) := do
  start runId .createTenant
  match ← (provider (.createTenant request.username request.quotaGb request.threadLimit)).attempt with
  | .error exc => do
    recordUnconfirmedTenant runId exc
    runs (.recordStep runId .createTenant "PENDING_MANUAL")
    pure (.inr (pendingManual runId exc.message .externalTenantCreation))
  | .ok tenant => do
    runs (.recordExternalId runId "egress_tenant" tenant.tenantId)
    success runId .createTenant
    pure (.inl tenant)

def storeCredentialsStep (runId : ℕ) (endpoint : EgressEndpointDTO) (tenant : TenantDTO) :
    Saga String := do
  start runId .storeCredentials
  let stored ← (do
    let credential ← provider (.getCredentials tenant.tenantId endpoint.endpointId)
    state (.saveCredentials tenant endpoint credential) : Saga String).attempt
  match stored with
  | .error exc => failStep runId .storeCredentials exc
  | .ok secretRef => do
    success runId .storeCredentials
    pure secretRef

def renderAndApplyForwarder (desired : DesiredForwarderState) : Saga Unit := do
  let candidate ← provider (.forwarderRender desired)
  let _ ← provider (.forwarderApply candidate)

/-- A `PENDING_MANUAL` outcome when the previous configuration cannot be restored. -/
def applyForwarderStep (runId : ℕ) (endpoint : EgressEndpointDTO) (tenant : TenantDTO)
    (secretRef : String) : Saga (Option ProvisionOutcome) := do
  start runId .applyForwarder
  let previousForwarder ← state .currentForwarderState
  let applied ← (do
    let desired ← state (.desiredForwarderState endpoint tenant secretRef)
    renderAndApplyForwarder desired : Saga Unit).attempt
  match applied with
  | .ok _ => do
    success runId .applyForwarder
    pure none
  | .error exc => do
    match ← (renderAndApplyForwarder previousForwarder).attempt with
    | .error restoreExc => do
      runs (.recordStep runId .applyForwarder "PENDING_MANUAL")
      pure (some (pendingManual runId
        (s!"forwarder apply failed ({exc.typeName}), and " ++
          s!"restoring the previous forwarder configuration also failed ({restoreExc.typeName})")
        .forwarderCompensationFailed))
    | .ok _ => failStep runId .applyForwarder exc

/-- Create the user and validate what the provider returned. -/
def createValidatedUser (request : ProvisionRequest) : Saga AccountUserDTO := do
  let quotaBytes ← .ofExcept (quotaGbToBytes request.quotaGb)
  let accountUser ← provider (.createUser request.username quotaBytes request.expireAt)
  if accountUser.username ≠ request.username then
    .raise ⟨.accountingCreateUserError .created,
      "accounting provider contract violation: create_user() returned username " ++
      s!"'{accountUser.username}', expected '{request.username}'"⟩
  else if Text.strip accountUser.routingPrincipal = "" then
    .raise ⟨.accountingCreateUserError .created,
      "accounting provider contract violation: create_user() " ++
      "returned an empty or whitespace-only routing_principal"⟩
  else pure accountUser

def createAccountingUserStep (runId : ℕ) (request : ProvisionRequest) :
    Saga (AccountUserDTO ⊕ ProvisionOutcome) := do
  start runId .createAccountingUser
  match ← (createValidatedUser request).attempt with
  | .ok accountUser => do
    success runId .createAccountingUser
    pure (.inl accountUser)
  | .error exc =>
    match exc.cls with
    | .accountingCreateUserError .noSideEffect => failStep runId .createAccountingUser exc
    | .accountingCreateUserError .ambiguous => do
      runs (.recordStep runId .createAccountingUser "PENDING_MANUAL")
      pure (.inr (pendingManual runId
        s!"accounting user creation result is ambiguous: {exc.message}" .accountingCreateAmbiguous))
    | _ => do
      -- ownership is established or cannot be ruled out
      let outcome ← compensateCreatedAccountingUser runId request exc
      pure (.inr outcome)

/-- Steps 1-6: a checkpoint to continue with, or a `PENDING_MANUAL` outcome. -/
def provisionPrepare (request : ProvisionRequest) :
    Saga (ProvisioningCheckpoint ⊕ ProvisionOutcome) := do
  let runId ← runs (.start request)
  capacityStep runId request
  let endpoint ← allocateEndpointStep runId request
  match ← createTenantStep runId request with
  | .inr outcome => pure (.inr outcome)
  | .inl tenant => do
    let secretRef ← storeCredentialsStep runId endpoint tenant
    match ← applyForwarderStep runId endpoint tenant secretRef with
    | some outcome => pure (.inr outcome)
    | none => do
      match ← createAccountingUserStep runId request with
      | .inr outcome => pure (.inr outcome)
      | .inl accountUser => pure (.inl ⟨runId, endpoint, tenant, accountUser⟩)

/-- Render, validate and apply the routing state; `apply` reports its own result,
which this path does not look at. -/
def renderAndApplyGateway (checkpoint : ProvisioningCheckpoint) (request : ProvisionRequest) :
    Saga Unit := do
  let desired ← state (.desiredRoutingState request checkpoint.endpoint checkpoint.tenant
    checkpoint.accountUser.routingPrincipal)
  let candidate ← provider (.gatewayRender desired)
  let validation ← provider (.gatewayValidate candidate)
  if !validation.valid then
    .raise ⟨.runtimeError,
      "gateway candidate validation failed: " ++ String.intercalate "; " validation.errors⟩
  else do
    let _ ← provider (.gatewayApply candidate)

/-- A `PENDING_MANUAL` outcome when the accounting user cannot be disabled. -/
def applyGatewayStep (checkpoint : ProvisioningCheckpoint) (request : ProvisionRequest) :
    Saga (Option ProvisionOutcome) := do
  let runId := checkpoint.runId
  start runId .applyGateway
  match ← (renderAndApplyGateway checkpoint request).attempt with
  | .ok _ => do
    success runId .applyGateway
    pure none
  | .error exc => do
    alert "GATEWAY_APPLY_FAILED" [("run_id", toString runId), ("user", request.username)]
    match ← (provider (.disableUser request.username)).attempt with
    | .error disableExc => do
      runs (.recordStep runId .applyGateway "PENDING_MANUAL")
      pure (some (pendingManual runId
        (s!"gateway apply failed ({exc.typeName}), and " ++
          s!"disabling the accounting user also failed ({disableExc.typeName})")
        .gatewayCompensationFailed))
    | .ok _ => failStep runId .applyGateway exc

def issueSubscriptionStep (runId : ℕ) (request : ProvisionRequest) : Saga String := do
  start runId .issueSubscription
  let issued ← (do
    let rawToken ← provider .tokenFactory
    state (.storeSubscriptionToken request.customerId rawToken)
    .ofExcept (subscriptionUrl request.subscriptionDomain rawToken) : Saga String).attempt
  match issued with
  | .error exc => failStep runId .issueSubscription exc
  | .ok url => do
    success runId .issueSubscription
    pure url

def notifyStep (runId : ℕ) (request : ProvisionRequest) : Saga Unit := do
  start runId .notify
  (provider (.notifySend ⟨"PROVISION_SUCCEEDED",
    [("run_id", toString runId), ("customer_id", toString request.customerId)]⟩)).tryCatch
      (fun exc => runs (.markNotificationFailed runId exc.message))
  success runId .notify

/-- Steps 7-9, inside the named lock. The terminal `SUCCEEDED` is the caller's. -/
def provisionApplyGateway (checkpoint : ProvisioningCheckpoint) (request : ProvisionRequest) :
    Saga ProvisionOutcome := do
  match ← applyGatewayStep checkpoint request with
  | some outcome => pure outcome
  | none => do
    let url ← issueSubscriptionStep checkpoint.runId request
    notifyStep checkpoint.runId request
    pure ⟨checkpoint.runId, .succeeded, some url, none, none⟩

def provision (request : ProvisionRequest) : Saga ProvisionOutcome := do
  match ← provisionPrepare request with
  | .inr outcome => do
    markRunPendingManual outcome.runId outcome.pendingManualError
    pure outcome
  | .inl checkpoint => do
    let outcome ← provisionApplyGateway checkpoint request
    if outcome.status = .pendingManual then do
      markRunPendingManual outcome.runId outcome.pendingManualError
      pure outcome
    else do
      markApplyGatewaySucceeded outcome.runId
      pure outcome

/-- The caller has rolled its session back before. -/
def failBeforeGatewayAuthoritativeCommit (checkpoint : ProvisioningCheckpoint)
    (request : ProvisionRequest) (error : Exn) : Saga ProvisionOutcome :=
  compensateCreatedAccountingUser checkpoint.runId request error

/-- The caller has rolled its session back before. -/
def failApplyGatewayLockAcquisition (checkpoint : ProvisioningCheckpoint)
    (request : ProvisionRequest) (error : Exn) : Saga (Option ProvisionOutcome) := do
  alert "GATEWAY_APPLY_FAILED" [("run_id", toString checkpoint.runId), ("user", request.username)]
  match ← (provider (.disableUser request.username)).attempt with
  | .error disableExc => do
    runs (.recordStep checkpoint.runId .applyGateway "PENDING_MANUAL")
    pure (some (pendingManual checkpoint.runId
      (s!"gateway route lock acquisition failed ({error.typeName}), and " ++
        s!"disabling the accounting user also failed ({disableExc.typeName})")
      .gatewayCompensationFailed))
  | .ok _ => do
    failed checkpoint.runId .applyGateway error
    pure none

end Lingsway.Domain
