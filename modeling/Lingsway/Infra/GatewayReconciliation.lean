import Lingsway.Library.Text
import Lingsway.Ports

/-!
# Durable commit-first gateway reconciliation

A job is claimed, the committed routes are projected onto the gateway, and a
second commit finalizes. A commit that raises is classified from an independent
session, because it may have landed all the same.
-/
namespace Lingsway.Infra

open Library Saga

def gatewayRetryLimit : ℕ := 5

def staleAfter : ℤ := minutes 15

def reconciliationError (message : String) : Exn := ⟨.gatewayReconciliationError, message⟩

def commitOutcomeUnknown (message : String) : Exn := ⟨.gatewayCommitOutcomeUnknown, message⟩

inductive FirstCommitOutcome where
  | landed
  | absent
  | unknown
  deriving Repr, DecidableEq

inductive FinalizationCommitOutcome where
  | landed
  | absent
  | unknown
  deriving Repr, DecidableEq

structure GatewayReconciliationResult where
  jobId : ℕ
  applied : Bool
  finalized : Bool
  retryable : Bool
  reasonCode : Option String
  deriving Repr, DecidableEq

def safeReason (error : Exn) : String :=
  if error.isGatewayReconciliationError then error.message
  else "GATEWAY_RECONCILIATION_" ++ Text.upper error.typeName

/-- The members of a payload that this module reads. A provision run has none of
them but the order, which it stores as text. -/
def jobPayload (job : Job) : Except Exn GatewayPayload :=
  match job.payload with
  | .gateway payload => .ok payload
  | .provision _ => .ok ⟨.missing, .missing, .malformed, .missing⟩
  | .unreadable => .error (reconciliationError "GATEWAY_RECONCILIATION_PAYLOAD_INVALID")

/-- Block new route writers while an older projection change is unresolved. -/
def assertNoUnresolvedGatewayMutation : Saga Unit := do
  let existingId ← session .unresolvedGatewayJob
  if existingId.isSome then
    .raise ⟨.gatewayReconciliationBlocked,
      "an older gateway reconciliation is unresolved; recovery or manual " ++
      "resolution is required before a new projection mutation"⟩
  else pure ()

/-- Both the intent and the active route, or neither; anything else is unknown. -/
def firstCommitOutcome (jobId routeId : Option ℕ) : FirstCommitOutcome :=
  match jobId, routeId with
  | some _, some _ => .landed
  | none, none => .absent
  | _, _ => .unknown

def classifyFirstCommitOutcome (dedupeKey : DedupeKey) (subscriptionId : ℕ) :
    Saga FirstCommitOutcome :=
  (do
    let jobId ← session (.probeJobId dedupeKey)
    let routeId ← session (.probeActiveRouteId subscriptionId)
    pure (firstCommitOutcome jobId routeId) : Saga FirstCommitOutcome).tryCatch
      (fun _ => .raise (commitOutcomeUnknown "GATEWAY_FIRST_COMMIT_OUTCOME_UNKNOWN"))

/-- All four rows finalized, or none; a purchase with a missing row is unknown. -/
def purchaseFinalizationOutcome (job : Option JobStatus) (subscription : Option SubscriptionStatus)
    (order : Option OrderStatus) (run : Option JobStatus) : FinalizationCommitOutcome :=
  match job, subscription, order, run with
  | some job, some subscription, some order, some run =>
    if job = .succeeded ∧ subscription = .active ∧ order = .activated ∧ run = .succeeded then .landed
    else if job ≠ .succeeded ∧ subscription ≠ .active ∧ order ≠ .activated ∧ run ≠ .succeeded then
      .absent
    else .unknown
  | _, _, _, _ => .unknown

def otherFinalizationOutcome : Option JobStatus → FinalizationCommitOutcome
  | none => .unknown
  | some job => if job = .succeeded then .landed else .absent

/-- Without a run in the payload the run counts as succeeded. -/
def probeRunStatus : Option ℕ → Saga (Option JobStatus)
  | none => pure (some .succeeded)
  | some runId => session (.probeJobStatus runId)

def probePurchaseFinalization (job : Option JobStatus) (subscriptionId : ℕ) (orderId : Option ℕ)
    (provisionRunId : Option ℕ) : Saga FinalizationCommitOutcome := do
  let subscription ← session (.probeSubscriptionStatus subscriptionId)
  match orderId with
  | none => pure .unknown
  | some orderId => do
    let order ← session (.probeOrderStatus orderId)
    let run ← probeRunStatus provisionRunId
    pure (purchaseFinalizationOutcome job subscription order run)

def classifyFinalizationOutcome (jobId subscriptionId : ℕ) (orderId provisionRunId : Option ℕ)
    (operationKind : Option OperationKind) : Saga FinalizationCommitOutcome :=
  (do
    let job ← session (.probeJobStatus jobId)
    if operationKind = some .purchase then
      probePurchaseFinalization job subscriptionId orderId provisionRunId
    else pure (otherFinalizationOutcome job) : Saga FinalizationCommitOutcome).tryCatch
      (fun _ => .raise (commitOutcomeUnknown "GATEWAY_FINALIZATION_COMMIT_OUTCOME_UNKNOWN"))

def newGatewayJob (operationKind : OperationKind) (subscriptionId : ℕ)
    (orderId provisionRunId : Option ℕ) (operationId : OperationId) (availableAt : Timestamp) :
    Job where
  jobType := .gatewayReconcile
  dedupeKey := .gatewayReconcile operationKind operationId
  payload := .gateway ⟨.value operationKind, .value subscriptionId, .ofOption orderId,
    .ofOption provisionRunId⟩
  status := .pending
  attempts := 0
  maxAttempts := gatewayRetryLimit
  availableAt := availableAt
  lockedAt := none
  lastErrorCode := none

/-- The job that carries the intent: an existing one of the same key, unchanged, or
a new one inside the caller's transaction. -/
def enqueueGatewayReconciliation (operationKind : OperationKind) (subscriptionId : ℕ)
    (orderId provisionRunId : Option ℕ) (operationId : OperationId) : Saga ℕ := do
  match ← session (.jobOfKey (.gatewayReconcile operationKind operationId)) with
  | some existing => pure existing.id
  | none => do
    let availableAt ← now
    session (.insertJob (newGatewayJob operationKind subscriptionId orderId provisionRunId
      operationId availableAt))

/-- `job.status = RUNNING; job.locked_at = now; job.attempts += 1`. -/
def claimed (job : Job) (now : Timestamp) : Job :=
  { job with status := .running, lockedAt := some now, attempts := job.attempts + 1 }

def writeClaim (jobId : ℕ) (job : Job) (now : Timestamp) : Saga Job := do
  session (.write (.updateJob jobId fun row =>
    { row with status := .running, lockedAt := some now, attempts := job.attempts + 1 }))
  commit
  pure (claimed job now)

def claimJob (now : Timestamp) : Saga (Option (Entity Job)) := do
  match ← session (.claimableJob now) with
  | none => pure none
  | some job => do
    let row ← writeClaim job.id job.row now
    pure (some ⟨job.id, row⟩)

/-- `db.get(Subscription, …)` when the payload names one. -/
def payloadSubscription (payload : GatewayPayload) : Saga (Option ℕ) := do
  match payload.subscriptionId with
  | .value subscriptionId => do
    let subscription ← session (.getSubscription subscriptionId)
    pure (subscription.map fun _ => subscriptionId)
  | _ => pure none

/-- Write to the provision run that the payload names, if it exists. -/
def updatePayloadRun (payload : GatewayPayload) (change : Job → Job) : Saga Unit := do
  match payload.provisionRunId with
  | .value runId => do
    let run ← session (.getJob runId)
    when run.isSome (session (.write (.updateJob runId change)))
  | _ => pure ()

def auditSubscription (action : String) (subscriptionId : ℕ) (result detail : String) : Saga Unit :=
  session (.write (.addAuditLog ⟨action, "SUBSCRIPTION", toString subscriptionId, result, detail⟩))

def markSubscriptionRetry (subscriptionId : ℕ) (exhausted : Bool) (reasonCode : String) :
    Saga Unit := do
  session (.write (.updateSubscription subscriptionId fun subscription =>
    { subscription with provisionError := some (if exhausted then
        "gateway reconciliation requires manual intervention"
      else "gateway reconciliation pending retry") }))
  auditSubscription "GATEWAY_RECONCILIATION_FAILED" subscriptionId
    (if exhausted then "MANUAL" else "RETRY")
    ("DB desired state remains authoritative; " ++
      (if exhausted then "manual intervention required" else "retry scheduled") ++
      "; reason=" ++ reasonCode)

def retryDelay (attempts : ℕ) : ℤ := minutes (min (2 ^ max attempts 1) 60)

/-- The in-memory changes of a recorded failure, before its commit. -/
def writeFailure (jobId : ℕ) (job : Job) (payload : GatewayPayload) (subscription : Option ℕ)
    (reasonCode : String) (now : Timestamp) : Saga Unit := do
  let exhausted : Bool := job.maxAttempts ≤ job.attempts
  session (.write (.updateJob jobId fun row =>
    { row with
      status := .failed
      lockedAt := none
      lastErrorCode := some (Text.take 80 reasonCode)
      availableAt := now + retryDelay job.attempts }))
  when exhausted (updatePayloadRun payload fun run =>
    { run with
      status := .failed
      lockedAt := none
      lastErrorCode := some (Text.take 80 reasonCode) })
  match subscription with
  | some subscriptionId => markSubscriptionRetry subscriptionId exhausted reasonCode
  | none => pure ()

def recordFailure (jobId : ℕ) (error : Exn) (now : Timestamp) : Saga GatewayReconciliationResult := do
  rollback
  match ← session (.getJob jobId) with
  | none => .raise (reconciliationError "GATEWAY_RECONCILIATION_JOB_MISSING")
  | some job => do
    let payload ← .ofExcept (jobPayload job)
    let subscription ← payloadSubscription payload
    writeFailure jobId job payload subscription (safeReason error) now
    commit
    pure ⟨jobId, false, false, !decide (job.maxAttempts ≤ job.attempts), some (safeReason error)⟩

/-- The business side of a purchase that is finalized. -/
def finalizePurchase (subscriptionId : ℕ) (payload : GatewayPayload) : Saga Unit := do
  match payload.orderId with
  | .value orderId => do
    match ← session (.getOrder orderId) with
    | none => .raise (reconciliationError "GATEWAY_RECONCILIATION_ORDER_MISSING")
    | some order => do
      let activatedAt ← orNow order.activatedAt
      session (.write (.updateOrder orderId fun row =>
        { row with status := .activated, activatedAt := some activatedAt }))
      session (.write (.updateSubscription subscriptionId fun row =>
        { row with status := .active, provisionError := none }))
  | _ => .raise (reconciliationError "GATEWAY_RECONCILIATION_ORDER_INVALID")

def finalize (jobId : ℕ) (payload : GatewayPayload) : Saga Unit := do
  match payload.subscriptionId with
  | .value subscriptionId => do
    match ← session (.getSubscription subscriptionId) with
    | none => .raise (reconciliationError "GATEWAY_RECONCILIATION_SUBSCRIPTION_MISSING")
    | some _ => do
      when (payload.operationKind = .value .purchase) (finalizePurchase subscriptionId payload)
      session (.write (.updateJob jobId fun row =>
        { row with status := .succeeded, lockedAt := none, lastErrorCode := none }))
      auditSubscription "GATEWAY_RECONCILIATION_SUCCEEDED" subscriptionId "SUCCESS"
        "DB desired state, runtime projection, and finalization committed"
      updatePayloadRun payload (fun run => { run with status := .succeeded, lastErrorCode := none })
  | _ => .raise (reconciliationError "GATEWAY_RECONCILIATION_SUBSCRIPTION_INVALID")

def finalizationUnknown : String := "GATEWAY_FINALIZATION_COMMIT_OUTCOME_UNKNOWN"

def markSubscriptionUnknown : Option ℕ → Saga Unit
  | none => pure ()
  | some subscriptionId => do
    session (.write (.updateSubscription subscriptionId fun subscription =>
      { subscription with provisionError := some "gateway finalization requires manual review" }))
    auditSubscription "GATEWAY_FINALIZATION_OUTCOME_UNKNOWN" subscriptionId "MANUAL"
      ("runtime projection may be applied; finalization " ++ "commit outcome requires review")

/-- Keep an unresolved, writer-blocking state without guessing the commit's truth. -/
def markFinalizationUnknown (jobId : ℕ) (payload : GatewayPayload) (now : Timestamp) :
    Saga GatewayReconciliationResult := do
  rollback
  (do
    match ← session (.getJob jobId) with
    | none => .raise (reconciliationError "GATEWAY_RECONCILIATION_JOB_MISSING")
    | some _ => do
      session (.write (.updateJob jobId fun row =>
        { row with
          status := .running
          lockedAt := some now
          lastErrorCode := some finalizationUnknown }))
      let subscription ← payloadSubscription payload
      markSubscriptionUnknown subscription
      commit : Saga Unit).tryCatch (fun _ => do
        rollback.suppress
        .raise (commitOutcomeUnknown finalizationUnknown))
  pure ⟨jobId, true, false, false, some finalizationUnknown⟩

/-- Project the committed routes: an answer of the gateway other than `applied` is
a failure. -/
def applyProjection : Saga Unit := do
  let desired ← session .routingSnapshot
  let candidate ← provider (.gatewayRender desired)
  let validation ← provider (.gatewayValidate candidate)
  if !validation.valid then .raise (reconciliationError "GATEWAY_CANDIDATE_INVALID")
  else do
    let applied ← provider (.gatewayApply candidate)
    if !applied.applied then .raise (reconciliationError "GATEWAY_APPLY_NOT_CONFIRMED") else pure ()

/-- The members the probe needs, checked after the finalization has been written. -/
def checkedPayload (payload : GatewayPayload) : Except Exn ℕ :=
  match payload.subscriptionId, payload.orderId, payload.provisionRunId with
  | .value subscriptionId, orderId, runId =>
    if orderId = .malformed then
      .error (reconciliationError "GATEWAY_RECONCILIATION_ORDER_INVALID")
    else if runId = .malformed then
      .error (reconciliationError "GATEWAY_RECONCILIATION_RUN_INVALID")
    else .ok subscriptionId
  | _, _, _ => .error (reconciliationError "GATEWAY_RECONCILIATION_SUBSCRIPTION_INVALID")

/-- The handler of a finalization commit that raised. -/
def settleFinalization (jobId subscriptionId : ℕ) (payload : GatewayPayload) (commitError : Exn) :
    Saga GatewayReconciliationResult := do
  rollback.suppress
  match ← classifyFinalizationOutcome jobId subscriptionId payload.orderId.toOption
      payload.provisionRunId.toOption payload.operationKind.toOption with
  | .landed => do
    rollback.suppress
    pure ⟨jobId, true, true, false, none⟩
  | .absent => do
    let now ← now
    recordFailure jobId commitError now
  | .unknown => do
    let now ← now
    markFinalizationUnknown jobId payload now

def commitFinalization (jobId : ℕ) (payload : GatewayPayload) : Saga GatewayReconciliationResult := do
  finalize jobId payload
  let subscriptionId ← .ofExcept (checkedPayload payload)
  match ← commit.attempt with
  | .ok _ => pure ⟨jobId, true, true, false, none⟩
  | .error commitError => settleFinalization jobId subscriptionId payload commitError

def reconcileClaimedJob (jobId : ℕ) (job : Job) : Saga GatewayReconciliationResult := do
  let payload ← .ofExcept (jobPayload job)
  (do applyProjection; commitFinalization jobId payload : Saga _).tryCatch (fun exc =>
    if exc.cls = .gatewayCommitOutcomeUnknown then .raise exc
    else do
      let now ← now
      recordFailure jobId exc now)

def Field.text {α : Type} [ToString α] : Field α → String
  | .value a => toString a
  | _ => "None"

def OperationKind.text : OperationKind → String
  | .purchase => "PURCHASE"
  | .release => "RELEASE"
  | .principalUpdate => "PRINCIPAL_UPDATE"

instance : ToString OperationKind := ⟨OperationKind.text⟩

def notifyAfterLock (result : GatewayReconciliationResult) : Saga Unit := do
  match ← session (.getJob result.jobId) with
  | none => pure ()
  | some job => do
    let payload ← .ofExcept (jobPayload job)
    (provider (.notifySend ⟨"GATEWAY_RECONCILIATION_SUCCEEDED",
      [("job_id", toString result.jobId), ("subscription_id", Field.text payload.subscriptionId),
        ("operation_kind", Field.text payload.operationKind)]⟩)).tryCatch (fun _ => do
        session (.write (.addAuditLog ⟨"GATEWAY_RECONCILIATION_NOTIFY_FAILED", "SUBSCRIPTION",
          Field.text payload.subscriptionId, "WARNING",
          "reconciliation committed; notification failed"⟩))
        commit)

/-- Claim one job and reconcile it, from a session of its own. -/
def reconcileGatewayJob : Saga (Option GatewayReconciliationResult) := do
  let result ← gatewayRouteBindingLock (do
    let now ← now
    match ← claimJob now with
    | none => pure none
    | some job => do
      let result ← reconcileClaimedJob job.id job.row
      pure (some result))
  match result with
  | none => pure none
  | some result => do
    when (result.applied && result.finalized) (notifyAfterLock result)
    pure (some result)

/-- The attempt that follows the first commit, while the caller holds the lock. -/
def reconcileGatewayJobInSession (jobId : ℕ) : Saga GatewayReconciliationResult := do
  match ← session (.getJob jobId) with
  | none => .raise (reconciliationError "GATEWAY_RECONCILIATION_JOB_MISSING")
  | some job => do
    let now ← now
    let row ← writeClaim jobId job now
    reconcileClaimedJob jobId row

end Lingsway.Infra
