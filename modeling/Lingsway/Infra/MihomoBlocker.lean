import Lingsway.Infra.MihomoStore

/-!
# Durable blockers for uncertain writer state

A blocker carries identifiers only. While one is unresolved, no writer changes
the projection.
-/
namespace Lingsway.Mihomo

open Library

def mihomoLockReleasePending : String := "MIHOMO_LOCK_RELEASE_PENDING"

def mihomoLockReleaseUnknown : String := "MIHOMO_LOCK_RELEASE_OUTCOME_UNKNOWN"

def mihomoDurableStateUnknown : String := "MIHOMO_DURABLE_STATE_OUTCOME_UNKNOWN"

def blockerError (message : String) : Exn := ⟨.other "MihomoBlockerError", message⟩

def wordOf (first rest : Char → Bool) (bound : ℕ) (s : String) : Bool :=
  match s.toList with
  | [] => false
  | c :: cs => first c && cs.all rest && decide (cs.length ≤ bound)

def identifierChar (c : Char) : Bool := c.isAlphanum || ['.', '_', ':', '-'].contains c

/-- `[A-Za-z0-9][A-Za-z0-9._:-]{0,142}`. -/
def safeIdentifier (s : String) : Bool := wordOf Char.isAlphanum identifierChar 142 s

/-- `MIHOMO_[A-Z0-9_]{1,78}`. -/
def safeReason (s : String) : Bool :=
  "MIHOMO_".toList.isPrefixOf s.toList &&
    wordOf (fun c => c.isUpper || c.isDigit || c = '_') (fun c => c.isUpper || c.isDigit || c = '_') 77
      (String.ofList (s.toList.drop 7))

/-- `validate_mihomo_operation_id`. -/
def validateMihomoOperationId (value : Json) : Option String :=
  match value with
  | .str s => if safeIdentifier s then some s else none
  | _ => none

/-- The checks of `ensure_mihomo_blocker` on what it is given; the identifier of a stored job,
which the source may be, is positive. -/
def checkIdentifiers (payload : BlockerPayload) : Except Exn Unit :=
  if safeReason payload.reasonCode = false then .error (blockerError "MIHOMO_BLOCKER_REASON_INVALID")
  else if payload.operationId.any (fun s => !safeIdentifier s) then
    .error (blockerError "MIHOMO_BLOCKER_OPERATION_ID_INVALID")
  else if payload.snapshotRevision.any (fun r => decide (r ≤ 0)) then
    .error (blockerError "MIHOMO_BLOCKER_REVISION_INVALID")
  else .ok ()

def identityMismatch : Exn := blockerError "MIHOMO_BLOCKER_IDENTITY_MISMATCH"

def reopened (b : Blocker) : Blocker := { b with status := .pending, lastErrorCode := none }

/-- The rest of `ensure_mihomo_blocker`, once the row of its key is read and locked. -/
def ensureRow (site : Site) (payload : BlockerPayload) : Option Blocker → Work Unit
  | some existing =>
    if existing.payload = some payload then
      if existing.status = .succeeded then
        perform (.write (.blocker payload.blockerKind payload.sourceJobId reopened))
      else .ret ()
    else .raise identityMismatch
  | none => perform (.insertBlocker site payload.blockerKind payload.sourceJobId payload)

/-- Create or reuse one unresolved blocker. -/
def ensureMihomoBlocker (site : Site) (payload : BlockerPayload) : Work Unit := do
  .ofExcept (checkIdentifiers payload)
  let existing ← perform (.lockBlocker site payload.blockerKind payload.sourceJobId)
  ensureRow site payload existing

/-- Mark a release blocker resolved; the caller commits. -/
def resolveMihomoBlocker (kind : BlockerKind) (source : ℕ) : Work Unit :=
  perform (.write (.blocker kind source fun b => { b with status := .succeeded, lastErrorCode := none }))

end Lingsway.Mihomo
