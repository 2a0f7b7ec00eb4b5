import Lingsway.Library.Concurrent
import Lingsway.Library.Json
import Lingsway.Models

/-!
# What a Mihomo worker calls

The rows of the jobs table that Mihomo workers read and write, and every call of
a worker: its session, the named lock, the observer session and the provider.
Jobs and blockers share that table, and are told apart by their type and key.
-/
namespace Lingsway.Mihomo

open Library

def mihomoFinalizationUnknown : String := "MIHOMO_FINALIZATION_COMMIT_OUTCOME_UNKNOWN"

def mihomoRuntimeUnknown : String := "MIHOMO_RUNTIME_PROJECTION_UNKNOWN"

def mihomoRollbackUnknown : String := "MIHOMO_ROLLBACK_OUTCOME_UNKNOWN"

def mihomoUnknownDiagnostics : List String :=
  [mihomoFinalizationUnknown, mihomoRuntimeUnknown, mihomoRollbackUnknown]

/-- The members of a payload that the workers read. -/
structure JobMembers where
  operationId : Json
  operationKind : Json
  snapshotRevision : Json
  finalizationEvidence : Json
  deriving Repr, DecidableEq

inductive JobPayload where
  | object (members : JobMembers)
  | malformed
  deriving Repr, DecidableEq

/-- A row of type `MIHOMO_RECONCILE`. -/
structure MihomoJob where
  payload : JobPayload
  status : JobStatus
  attempts : ℕ
  maxAttempts : ℕ
  availableAt : Timestamp
  lockedAt : Option Timestamp
  lastErrorCode : Option String
  deriving Repr, DecidableEq

inductive BlockerKind where
  | finalization
  | lockRelease
  deriving Repr, DecidableEq

structure BlockerPayload where
  blockerKind : BlockerKind
  sourceJobId : ℕ
  operationId : Option String
  snapshotRevision : Option ℤ
  reasonCode : String
  deriving Repr, DecidableEq

/-- A row of type `MIHOMO_RECONCILE_BLOCKER`, whose key is its kind and source. `holder`, the
worker that wrote it, is for the proofs: no call reads it. -/
structure Blocker where
  payload : Option BlockerPayload
  status : JobStatus
  lastErrorCode : Option String
  holder : Option ℕ
  deriving Repr, DecidableEq

namespace Blocker

def unresolved (b : Blocker) : Bool := b.status ≠ .succeeded

end Blocker

structure Store where
  jobs : Table MihomoJob
  blockers : BlockerKind → Table Blocker

inductive RowKey where
  | job (id : ℕ)
  | blocker (kind : BlockerKind) (source : ℕ)
  deriving Repr, DecidableEq

/-- A change that a session sends with its next commit. -/
inductive Write where
  | job (id : ℕ) (change : MihomoJob → MihomoJob)
  | blocker (kind : BlockerKind) (source : ℕ) (change : Blocker → Blocker)
  | newBlocker (kind : BlockerKind) (source : ℕ) (row : Blocker)

namespace Write

def key : Write → RowKey
  | job id _ => .job id
  | blocker kind source _ => .blocker kind source
  | newBlocker kind source _ => .blocker kind source

end Write

namespace Store

def setBlockers (s : Store) (kind : BlockerKind) (rows : Table Blocker) : Store where
  jobs := s.jobs
  blockers := fun k => if k = kind then rows else s.blockers k

def apply (s : Store) : Write → Store
  | .job id change => ⟨s.jobs.modify id change, s.blockers⟩
  | .blocker kind source change => s.setBlockers kind ((s.blockers kind).modify source change)
  | .newBlocker kind source row => s.setBlockers kind ((s.blockers kind).insert source row)

def applyAll (s : Store) (writes : List Write) : Store := writes.foldl apply s

@[simp] theorem applyAll_nil (s : Store) : s.applyAll [] = s := rfl

@[simp] theorem applyAll_concat (s : Store) (writes : List Write) (write : Write) :
    s.applyAll (writes ++ [write]) = (s.applyAll writes).apply write := by
  simp [applyAll]

theorem applyAll_singleton (s : Store) (write : Write) : s.applyAll [write] = s.apply write := rfl

@[simp] theorem jobs_apply_job (s : Store) (id : ℕ) (change : MihomoJob → MihomoJob) :
    (s.apply (.job id change)).jobs = s.jobs.modify id change := rfl

@[simp] theorem blockers_apply_job (s : Store) (id : ℕ) (change : MihomoJob → MihomoJob) :
    (s.apply (.job id change)).blockers = s.blockers := rfl

@[simp] theorem jobs_apply_blocker (s : Store) (kind : BlockerKind) (source : ℕ) (change : Blocker → Blocker) :
    (s.apply (.blocker kind source change)).jobs = s.jobs := rfl

@[simp] theorem jobs_apply_newBlocker (s : Store) (kind : BlockerKind) (source : ℕ) (row : Blocker) :
    (s.apply (.newBlocker kind source row)).jobs = s.jobs := rfl

@[simp] theorem get_apply_blocker (s : Store) (kind k : BlockerKind) (source j : ℕ)
    (change : Blocker → Blocker) :
    ((s.apply (.blocker kind source change)).blockers k).get j =
      if k = kind ∧ j = source then ((s.blockers k).get j).map change else (s.blockers k).get j := by
  by_cases hk : k = kind
  · subst hk
    by_cases hj : j = source <;> simp [apply, setBlockers, hj]
  · simp [apply, setBlockers, hk]

@[simp] theorem get_apply_newBlocker (s : Store) (kind k : BlockerKind) (source j : ℕ) (row : Blocker) :
    ((s.apply (.newBlocker kind source row)).blockers k).get j =
      if k = kind ∧ j = source then some row else (s.blockers k).get j := by
  by_cases hk : k = kind
  · subst hk
    by_cases hj : j = source <;> simp [apply, setBlockers, hj]
  · simp [apply, setBlockers, hk]

def unresolvedBlockers (s : Store) : Bool :=
  ((s.blockers .finalization).find Blocker.unresolved).isSome ||
    ((s.blockers .lockRelease).find Blocker.unresolved).isSome

def unresolvedOlder (s : Store) (id : ℕ) : Bool :=
  s.jobs.entities.any fun e => e.row.status ≠ .succeeded && decide (e.id < id)

end Store

/-- A commit that the server works off later than its session knows. Whoever locks or changes
one of its rows waits for it, and whoever only reads them may see what was there before. -/
structure LateCommit where
  before : Store
  writes : List Write

namespace LateCommit

def touches (c : LateCommit) (key : RowKey) : Bool := c.writes.any fun w => w.key = key

end LateCommit

/-- What the workers share. `uncertain`, the jobs whose outcome on the runtime or whose
finalization became unknown, is for the proofs: no call reads it. -/
structure World where
  store : Store
  lock : Option ℕ
  late : List LateCommit
  uncertain : List ℕ

namespace World

/-- Wait for the late commits of some rows. -/
def settle (w : World) (keys : RowKey → Bool) : World :=
  { w with late := w.late.filter fun c => !(c.writes.any fun write => keys write.key) }

/-- The version of the store that a read without a lock sees of one row. -/
def seen (w : World) (stale : Option ℕ) (key : RowKey) : Store :=
  match stale.bind fun n => w.late[n]? with
  | some c => if c.touches key then c.before else w.store
  | none => w.store

def land (w : World) (writes : List Write) : World :=
  { w.settle fun key => writes.any fun write => write.key = key with store := w.store.applyAll writes }

def landLate (w : World) (writes : List Write) : World :=
  { w.land writes with late := ⟨w.store, writes⟩ :: (w.land writes).late }

def doubt (w : World) (id : ℕ) : World := { w with uncertain := id :: w.uncertain }

/-- The lock goes with its connection. -/
def unlock (w : World) (i : ℕ) : World := if w.lock = some i then { w with lock := none } else w

end World

structure ReleaseMetadata where
  sourceJobId : ℕ
  operationId : Option String
  snapshotRevision : Option ℤ
  deriving Repr, DecidableEq

structure Session where
  writes : List Write
  projectionLockHeld : Bool
  releaseMetadata : Option ReleaseMetadata
  durableStateUnknown : Bool

/-- What happened to a worker, for the proofs: no call reads it. -/
structure Annals where
  claimed : Option (Entity MihomoJob)
  refused : Bool
  finalized : Bool
  metadata : Option ReleaseMetadata
  known : Bool
  persisted : Bool
  persistReturned : Bool
  confirmed : Bool

structure Worker where
  session : Session
  annals : Annals

/-- Where in the source a call of the session is made. -/
inductive Site where
  | claim
  | reset
  | failure
  | finalization
  | marker
  | blocker
  | suppressed
  | release
  | releaseError
  | releaseUnknown
  | releaseUnknownError
  | cleanup
  | cleanupError
  deriving Repr, DecidableEq

/-- What a finalization is recognized by. -/
structure Finalization where
  jobId : ℕ
  operationId : String
  operationKind : String
  snapshotRevision : ℤ
  candidateFingerprint : String
  deriving Repr, DecidableEq

structure ProjectionVerification where
  verified : Bool
  evidenceVersion : Json
  deriving Repr, DecidableEq

/-- `configure` stands for the loader, the resolvers and the verifier, which has to be given. -/
inductive Call where
  | configure
  | openConnection
  | getLock
  | releaseLock
  | invalidate
  | closeConnection
  | enterBlock
  | leaveBlock (previous : Bool)
  | releaseInfo
  | holdsProjectionLock
  | setReleaseMetadata (metadata : ReleaseMetadata)
  | flagDurableStateUnknown
  | now
  | rollback (site : Site)
  | commit (site : Site)
  | write (change : Write)
  | claimableJob (now : Timestamp)
  | unresolvedBlocker
  | unresolvedOlder (id : ℕ)
  | getJob (site : Site) (id : ℕ)
  | lockJob (id : ℕ)
  | lockBlocker (site : Site) (kind : BlockerKind) (source : ℕ)
  | insertBlocker (site : Site) (kind : BlockerKind) (source : ℕ) (row : BlockerPayload)
  | readBlocker (kind : BlockerKind) (source : ℕ)
  | observeJob (site : Site) (expected : Finalization)
  | observeBlocker (site : Site) (expected : Finalization)
  | load (id : ℕ)
  | render
  | finalizeTemplate
  | apply (id : ℕ)
  | verify (id : ℕ) (operationId : String) (snapshotRevision : ℤ)

/-- `session.info`, as the exit of a block reads it. -/
structure ReleaseInfo where
  metadata : Option ReleaseMetadata
  durableStateUnknown : Bool
  deriving Repr, DecidableEq

@[reducible] def Call.Answer : Call → Type
  | .getLock => Option ℤ
  | .releaseLock => Option ℤ
  | .enterBlock => Bool
  | .releaseInfo => ReleaseInfo
  | .holdsProjectionLock => Bool
  | .now => Timestamp
  | .claimableJob _ => Option (Entity MihomoJob)
  | .unresolvedBlocker => Bool
  | .unresolvedOlder _ => Bool
  | .getJob _ _ => Option MihomoJob
  | .lockJob _ => Option MihomoJob
  | .lockBlocker _ _ _ => Option Blocker
  | .readBlocker _ _ => Option Blocker
  | .observeJob _ _ => Option MihomoJob
  | .observeBlocker _ _ => Option Blocker
  | .load _ => Option ℤ
  | .finalizeTemplate => String
  | .apply _ => Bool
  | .verify _ _ _ => Option ProjectionVerification
  | _ => Unit

def calls : Signature := ⟨Call, Call.Answer⟩

abbrev Work (α : Type) := Program calls Exn α

def perform (c : Call) : Work c.Answer := Program.perform (S := calls) c

end Lingsway.Mihomo
