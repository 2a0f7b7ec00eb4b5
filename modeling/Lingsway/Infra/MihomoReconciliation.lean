import Lingsway.Infra.MihomoProjectionLock

/-!
# Reconciliation of one Mihomo job

A worker claims the oldest job it may claim, checks under the lock that nothing
older and no blocker is unresolved, and applies the projection. What it cannot
confirm is recorded, so that no later claim applies the job again.
-/
namespace Lingsway.Mihomo

open Library

def mihomoOperationKinds : List String := ["FULL_PROJECTION", "RECONCILE", "CREATE", "UPDATE", "DELETE"]

def staleAfter : ℤ := minutes 15

def reconciliationError (message : String) : Exn := ⟨.other "MihomoReconciliationError", message⟩

def reconciliationBlocked (message : String) : Exn := ⟨.other "MihomoReconciliationBlocked", message⟩

def commitOutcomeUnknown (message : String) : Exn := ⟨.other "MihomoCommitOutcomeUnknown", message⟩

inductive CommitOutcome where
  | landed
  | absent
  | unknown
  deriving Repr, DecidableEq

structure MihomoReconciliationResult where
  jobId : ℕ
  applied : Bool
  finalized : Bool
  retryable : Bool
  reasonCode : Option String
  deriving Repr, DecidableEq

/-- `_validate_operation_id`, whose own bound is the one of the alphabet. -/
def validateOperationId (value : Json) : Option String := validateMihomoOperationId value

def validateOperationKind (value : Json) : Option String :=
  match value with
  | .str s => if s ∈ mihomoOperationKinds then some s else none
  | _ => none

def validateRevision (value : Json) : Option ℤ :=
  match value with
  | .int r => if r ≤ 0 then none else some r
  | _ => none

/-- `[A-Za-z0-9][A-Za-z0-9._:-]{0,63}`. -/
def validEvidenceVersion (value : Json) : Bool :=
  match value with
  | .str s => wordOf Char.isAlphanum identifierChar 63 s
  | _ => false

structure JobIdentity where
  operationId : String
  operationKind : String
  snapshotRevision : ℤ
  deriving Repr, DecidableEq

/-- The identity in a payload, when all of it is valid. -/
def jobIdentity (payload : JobPayload) : Option JobIdentity :=
  match payload with
  | .malformed => none
  | .object members => do
    let operationId ← validateOperationId members.operationId
    let operationKind ← validateOperationKind members.operationKind
    let snapshotRevision ← validateRevision members.snapshotRevision
    pure ⟨operationId, operationKind, snapshotRevision⟩

def unknownDiagnostic (code : Option String) : Bool := code.any mihomoUnknownDiagnostics.contains

/-- The payload names the operation that is expected. -/
def sameOperation (expected : Finalization) (members : JobMembers) : Bool :=
  members.operationId.equal (.str expected.operationId) &&
    members.snapshotRevision.equal (.int expected.snapshotRevision) &&
    members.operationKind.equal (.str expected.operationKind)

/-- The evidence is that of the expected finalization, of an operation of this kind. -/
def evidenceMatches (expected : Finalization) (kind evidence : Json) : Bool :=
  match evidence with
  | .obj members =>
    (Members.item members "operation_id").equal (.str expected.operationId) &&
      (Members.item members "operation_kind").equal kind &&
      (Members.item members "snapshot_revision").equal (.int expected.snapshotRevision) &&
      (Members.item members "candidate_fingerprint").equal (.str expected.candidateFingerprint) &&
      validEvidenceVersion (Members.item members "verification")
  | _ => false

/-- What the row of the job says of its finalization; nothing when the blocker decides. -/
def jobOutcome (expected : Finalization) (job : Option MihomoJob) : Option CommitOutcome :=
  match job with
  | none => some .unknown
  | some job =>
    match job.payload with
    | .malformed => some .unknown
    | .object members =>
      if sameOperation expected members = false then some .unknown
      else if job.status = .succeeded then
        if evidenceMatches expected members.operationKind members.finalizationEvidence then none
        else some .unknown
      else if job.status = .running ∧ members.finalizationEvidence = .null ∧
          unknownDiagnostic job.lastErrorCode = false then some .absent
      else some .unknown

def finalizationBlockerPayload (expected : Finalization) : BlockerPayload :=
  releasePayload ⟨expected.jobId, some expected.operationId, some expected.snapshotRevision⟩

/-- `_has_exact_unresolved_release_blocker`, of the row of its key. -/
def exactUnresolved (expected : Finalization) (blocker : Option Blocker) : Bool :=
  match blocker with
  | none => false
  | some blocker => blocker.unresolved && decide (blocker.payload = some (finalizationBlockerPayload expected))

def blockerOutcome (expected : Finalization) (blocker : Option Blocker) : CommitOutcome :=
  if exactUnresolved expected blocker then .landed else .unknown

/-- Classify by an independent observer; ambiguity is never `absent`. -/
def classifyFinalizationOutcome (site : Site) (expected : Finalization) : Work CommitOutcome :=
  (do
    let job ← perform (.observeJob site expected)
    match jobOutcome expected job with
    | some outcome => .ret outcome
    | none => do
      let blocker ← perform (.observeBlocker site expected)
      .ret (blockerOutcome expected blocker) : Work CommitOutcome).tryCatch fun _ => .ret .unknown

def assertNoUnresolvedMihomoMutation (owningJobId : ℕ) : Work Unit := do
  let held ← perform .holdsProjectionLock
  if held = false then .raise (reconciliationBlocked "MIHOMO_PROJECTION_LOCK_REQUIRED")
  else do
    let blocked ← perform .unresolvedBlocker
    if blocked then .raise (reconciliationBlocked "MIHOMO_GLOBAL_MANUAL_BLOCKER")
    else do
      let older ← perform (.unresolvedOlder owningJobId)
      if older then .raise (reconciliationBlocked "MIHOMO_UNRESOLVED_INTENT_BLOCKS_WRITER") else .ret ()

def claimedJob (now : Timestamp) (job : MihomoJob) : MihomoJob :=
  { job with status := .running, lockedAt := some now, attempts := job.attempts + 1 }

/-- `_claim`. -/
def claim (now : Timestamp) : Work (Option (Entity MihomoJob)) := do
  match ← perform (.claimableJob now) with
  | none => .ret none
  | some job => do
    perform (.write (.job job.id (claimedJob now)))
    perform (.commit .claim)
    .ret (some ⟨job.id, claimedJob now job.row⟩)

/-- The errors whose text is recorded. -/
def namedErrors : List String := ["MihomoReconciliationError", "MihomoPayloadError",
  "MihomoReconciliationBlocked", "MihomoCommitOutcomeUnknown", "MihomoApplyError",
  "MihomoRollbackVerifiedError", "MihomoRollbackUnknownError", "MihomoProjectionError"]

def failureCode (error : Exn) : String :=
  match error.cls with
  | .other name => if name ∈ namedErrors then error.message else "MIHOMO_RECONCILIATION_RUNTIME_FAILURE"
  | _ => "MIHOMO_RECONCILIATION_RUNTIME_FAILURE"

def retryDelay (attempts : ℕ) : ℤ := minutes (min (2 ^ max attempts 1) 60)

def failedJob (error : Exn) (now : Timestamp) (attempts : ℕ) (job : MihomoJob) : MihomoJob :=
  { job with
    status := .failed
    lockedAt := none
    lastErrorCode := some (Text.take 80 (failureCode error))
    availableAt := now + retryDelay attempts }

/-- `_failure`. -/
def failure (jobId : ℕ) (error : Exn) : Work MihomoReconciliationResult := do
  let now ← perform .now
  perform (.rollback .failure)
  match ← perform (.getJob .failure jobId) with
  | none => .raise (reconciliationError "MIHOMO_RECONCILIATION_JOB_MISSING")
  | some job => do
    perform (.write (.job jobId (failedJob error now job.attempts)))
    perform (.commit .failure)
    .ret ⟨jobId, false, false, decide (job.attempts < job.maxAttempts),
      some (Text.take 80 (failureCode error))⟩

def landedResult (jobId : ℕ) (applied : Bool) : MihomoReconciliationResult := ⟨jobId, applied, true, false, none⟩

/-- `_persist_unknown_blocker`. -/
def persistUnknownBlocker (jobId : ℕ) (operationId : Option String) (snapshotRevision : Option ℤ)
    (diagnostic : String) (applied : Bool) : Work MihomoReconciliationResult := do
  (do
    ensureMihomoBlocker .blocker ⟨.finalization, jobId, operationId, snapshotRevision, diagnostic⟩
    perform (.commit .blocker) : Work Unit).tryCatch fun _ => do
      perform .flagDurableStateUnknown
      (perform (.rollback .suppressed)).suppress
      .raise (commitOutcomeUnknown diagnostic)
  .ret ⟨jobId, applied, false, false, some diagnostic⟩

def markedJob (now : Timestamp) (diagnostic : String) (job : MihomoJob) : MihomoJob :=
  { job with status := .running, lockedAt := some now, lastErrorCode := some diagnostic }

/-- Mark the row, which is running and without evidence. -/
def writeMarker (expected : Finalization) (diagnostic : String) (applied persistBlocker : Bool) :
    Work MihomoReconciliationResult := do
  let now ← perform .now
  perform (.write (.job expected.jobId (markedJob now diagnostic)))
  if persistBlocker then
    persistUnknownBlocker expected.jobId (some expected.operationId) (some expected.snapshotRevision)
      diagnostic applied
  else do
    (perform (.commit .marker)).tryCatch fun _ => .raise (commitOutcomeUnknown diagnostic)
    .ret ⟨expected.jobId, applied, false, false, some diagnostic⟩

/-- The members of a row that may be decided by its payload. -/
def membersOf (job : Option MihomoJob) : Option (MihomoJob × JobMembers) :=
  match job with
  | none => none
  | some job =>
    match job.payload with
    | .malformed => none
    | .object members => some (job, members)

/-- What is recorded once the row is read and locked, and is not finalized. -/
def recordUnknown (expected : Finalization) (diagnostic : String) (applied persistBlocker : Bool)
    (job : MihomoJob) (members : JobMembers) : Work MihomoReconciliationResult :=
  if job.status ≠ .running ∨ sameOperation expected members = false ∨
      members.finalizationEvidence ≠ .null ∨ unknownDiagnostic job.lastErrorCode = true then
    persistUnknownBlocker expected.jobId (some expected.operationId) (some expected.snapshotRevision)
      diagnostic applied
  else writeMarker expected diagnostic applied persistBlocker

/-- `_mark_unknown_inner`: a row that turns out to be finalized is left as it is. -/
def markUnknownInner (expected : Finalization) (diagnostic : String) (applied persistBlocker : Bool) :
    Work MihomoReconciliationResult := do
  match ← classifyFinalizationOutcome .marker expected with
  | .landed => .ret (landedResult expected.jobId applied)
  | _ => do
    perform (.rollback .marker)
    let current ← perform (.lockJob expected.jobId)
    match membersOf current with
    | none =>
      persistUnknownBlocker expected.jobId (some expected.operationId) (some expected.snapshotRevision)
        diagnostic applied
    | some (job, members) =>
      if job.status = .succeeded ∧ sameOperation expected members = true ∧
          evidenceMatches expected (.str expected.operationKind) members.finalizationEvidence = true then do
        let blocker ← perform (.readBlocker .lockRelease expected.jobId)
        if exactUnresolved expected blocker then .ret (landedResult expected.jobId applied)
        else recordUnknown expected diagnostic applied persistBlocker job members
      else recordUnknown expected diagnostic applied persistBlocker job members

/-- `_mark_unknown`. -/
def markUnknown (expected : Finalization) (diagnostic : String) (applied persistBlocker : Bool) :
    Work MihomoReconciliationResult :=
  (markUnknownInner expected diagnostic applied persistBlocker).tryCatch fun exc => do
    perform .flagDurableStateUnknown
    if exc.cls = .other "MihomoCommitOutcomeUnknown" then .raise exc
    else .raise (commitOutcomeUnknown diagnostic)

/-- `_reset_blocked_claim`. -/
def resetBlockedClaim (jobId : ℕ) : Work Unit := do
  perform (.rollback .reset)
  match ← perform (.getJob .reset jobId) with
  | none => .ret ()
  | some current =>
    if current.status = .running then do
      perform (.write (.job jobId fun job =>
        { job with status := .pending, lockedAt := none, attempts := current.attempts - 1 }))
      perform (.commit .reset)
    else .ret ()

def evidenceOf (expected : Finalization) (verification : String) : Json := .obj [
  ("operation_id", .str expected.operationId), ("operation_kind", .str expected.operationKind),
  ("snapshot_revision", .int expected.snapshotRevision),
  ("candidate_fingerprint", .str expected.candidateFingerprint), ("verification", .str verification)]

def withEvidence (evidence : Json) (payload : JobPayload) : JobPayload :=
  match payload with
  | .object members => .object { members with finalizationEvidence := evidence }
  | .malformed => .malformed

/-- The row of a job that is finalized, whose payload is the one that was claimed. -/
def finalizedJob (payload : JobPayload) (evidence : Json) (job : MihomoJob) : MihomoJob :=
  { job with
    payload := withEvidence evidence payload
    status := .succeeded
    lockedAt := none
    lastErrorCode := none }

/-- The handler of a finalization that raised. -/
def settleFinalization (expected : Finalization) (commitError : Exn) : Work MihomoReconciliationResult := do
  perform (.rollback .finalization)
  match ← classifyFinalizationOutcome .finalization expected with
  | .landed => .ret (landedResult expected.jobId true)
  | .absent => failure expected.jobId commitError
  | .unknown => markUnknown expected mihomoFinalizationUnknown true false

/-- Success and the pending release are one commit. -/
def finalizeJob (expected : Finalization) (payload : JobPayload) (verification : String) :
    Work MihomoReconciliationResult := do
  perform (.write (.job expected.jobId (finalizedJob payload (evidenceOf expected verification))))
  match ← (do
    ensureMihomoBlocker .finalization (finalizationBlockerPayload expected)
    perform (.commit .finalization) : Work Unit).attempt with
  | .ok _ => .ret (landedResult expected.jobId true)
  | .error commitError => settleFinalization expected commitError

/-- A verification that counts, with its evidence. -/
def verifiedEvidence (verification : Option ProjectionVerification) : Option String :=
  match verification with
  | some ⟨true, .str version⟩ => if validEvidenceVersion (.str version) then some version else none
  | _ => none

def verifyAndFinalize (expected : Finalization) (payload : JobPayload) : Work MihomoReconciliationResult := do
  match ← (perform (.verify expected.jobId expected.operationId expected.snapshotRevision)).attempt with
  | .error _ => markUnknown expected mihomoRuntimeUnknown true false
  | .ok verification =>
    match verifiedEvidence verification with
    | none => markUnknown expected mihomoRuntimeUnknown true false
    | some version => finalizeJob expected payload version

/-- `provider.apply` and what follows from its answer. -/
def applyCandidate (expected : Finalization) (payload : JobPayload) : Work MihomoReconciliationResult := do
  match ← (perform (.apply expected.jobId)).attempt with
  | .error exc =>
    if exc.cls = .other "MihomoRollbackUnknownError" then
      markUnknown expected mihomoRollbackUnknown true false
    else if exc.cls = .other "MihomoRollbackVerifiedError" ∨ exc.cls = .other "MihomoApplyError" then
      failure expected.jobId exc
    else .raise exc
  | .ok applied =>
    if applied then verifyAndFinalize expected payload
    else markUnknown expected mihomoRuntimeUnknown true true

/-- What is done with a claimed job that nothing blocks. -/
def reconcileClaimedJob (job : Entity MihomoJob) : Work MihomoReconciliationResult := do
  match jobIdentity job.row.payload with
  | none => persistUnknownBlocker job.id none none mihomoFinalizationUnknown false
  | some identity => do
    perform (.setReleaseMetadata ⟨job.id, some identity.operationId, some identity.snapshotRevision⟩)
    let desired ← perform (.load job.id)
    if desired ≠ some identity.snapshotRevision then
      .raise (reconciliationError "MIHOMO_STALE_DESIRED_SNAPSHOT")
    else do
      perform .render
      let fingerprint ← perform .finalizeTemplate
      applyCandidate ⟨job.id, identity.operationId, identity.operationKind, identity.snapshotRevision,
        fingerprint⟩ job.row.payload

def reconcileOwnedJob (job : Entity MihomoJob) : Work MihomoReconciliationResult := do
  perform (.setReleaseMetadata ⟨job.id, none, none⟩)
  (reconcileClaimedJob job).tryCatch fun exc =>
    if exc.cls = .other "MihomoCommitOutcomeUnknown" then .raise exc else failure job.id exc

/-- The body of the block of `reconcile_mihomo_job`. -/
def reconcileBody : Work (Option MihomoReconciliationResult) := do
  perform .configure
  let now ← perform .now
  match ← claim now with
  | none => .ret none
  | some job => do
    match ← (assertNoUnresolvedMihomoMutation job.id).attempt with
    | .error exc =>
      if exc.cls = .other "MihomoReconciliationBlocked" then do
        resetBlockedClaim job.id
        .ret none
      else .raise exc
    | .ok _ => do
      let result ← reconcileOwnedJob job
      .ret (some result)

/-- `reconcile_mihomo_job`. -/
def reconcileMihomoJob : Work (Option MihomoReconciliationResult) := mihomoProjectionWrite reconcileBody

end Lingsway.Mihomo
