import Lingsway.Infra.MihomoBlocker

/-!
# The global lock of the projection writers

A block holds the named lock while its body runs. Behind a body that recorded
release metadata, a blocker is durable before the lock is given up, and it is
resolved only once the release is confirmed and the durable state is known.
-/
namespace Lingsway.Mihomo

open Library

def projectionLockError (message : String) : Exn := ⟨.other "MihomoProjectionLockError", message⟩

/-- `_get_lock`: an answer that is lost leaves the connection unusable. -/
def getLock : Work Unit := do
  let result ← (perform .getLock).tryCatch fun _ => do
    perform .invalidate
    .raise (projectionLockError "failed to acquire Mihomo projection lock; connection state unknown")
  if result = some 1 then .ret ()
  else .raise (projectionLockError "failed to acquire Mihomo projection lock")

/-- Open the connection and take the lock; whatever fails is an error of the lock. -/
def acquireProjectionLock : Work Unit :=
  (do
    perform .openConnection
    getLock : Work Unit).tryCatch fun exc => do
      (perform .closeConnection).suppress
      if exc.cls = .other "MihomoProjectionLockError" then .raise exc
      else .raise (projectionLockError "failed to open Mihomo projection lock connection")

/-- `_release_lock`. -/
def releaseLock : Work Unit := do
  let result ← (perform .releaseLock).tryCatch fun exc => do
    perform .invalidate
    .raise exc
  if result = some 1 then .ret ()
  else do
    perform .invalidate
    .raise (projectionLockError "Mihomo projection lock release was not confirmed")

def releasePayload (metadata : ReleaseMetadata) : BlockerPayload :=
  ⟨.lockRelease, metadata.sourceJobId, metadata.operationId, metadata.snapshotRevision,
    mihomoLockReleasePending⟩

/-- Persist the blocker of a release that is about to be tried. -/
def persistReleaseBlocker (metadata : ReleaseMetadata) (durableStateUnknown : Bool) : Work Unit :=
  (do
    perform (.rollback .release)
    ensureMihomoBlocker .release (releasePayload metadata)
    if durableStateUnknown then
      perform (.write (.blocker .lockRelease metadata.sourceJobId fun b =>
        { b with lastErrorCode := some mihomoDurableStateUnknown }))
    else .ret ()
    perform (.commit .release) : Work Unit).tryCatch fun _ => do
      perform (.rollback .releaseError)
      perform .invalidate
      .raise (projectionLockError "Mihomo release blocker persistence was not confirmed")

/-- Note on the blocker, if there is one, that the release is not confirmed. -/
def noteReleaseUnknown : Option ReleaseMetadata → Work Unit
  | none => .ret ()
  | some metadata =>
    (do
      perform (.rollback .releaseUnknown)
      perform (.write (.blocker .lockRelease metadata.sourceJobId fun b =>
        { b with lastErrorCode := some mihomoLockReleaseUnknown }))
      perform (.commit .releaseUnknown) : Work Unit).tryCatch fun _ => perform (.rollback .releaseUnknownError)

def cleanUpReleaseBlocker (metadata : ReleaseMetadata) : Work Unit :=
  (do
    perform (.rollback .cleanup)
    resolveMihomoBlocker .lockRelease metadata.sourceJobId
    perform (.commit .cleanup) : Work Unit).tryCatch fun _ => do
      perform (.rollback .cleanupError)
      .raise (projectionLockError "Mihomo release blocker cleanup was not confirmed")

/-- What a block does behind its body, whatever became of that. -/
def leaveProjectionWrite : Work Unit := do
  let info ← perform .releaseInfo
  match info.metadata with
  | some metadata => persistReleaseBlocker metadata info.durableStateUnknown
  | none => .ret ()
  releaseLock.tryCatch fun _ => do
    noteReleaseUnknown info.metadata
    .raise (projectionLockError "Mihomo projection lock release outcome is unknown")
  match info.metadata with
  | some metadata => if info.durableStateUnknown then .ret () else cleanUpReleaseBlocker metadata
  | none => .ret ()

/-- `mihomo_projection_write`, around a body. -/
def mihomoProjectionWrite {α : Type} (body : Work α) : Work α := do
  acquireProjectionLock
  let previous ← perform .enterBlock
  (body.tryFinally leaveProjectionWrite).tryFinally (do
    perform (.leaveBlock previous)
    perform .closeConnection)

end Lingsway.Mihomo
