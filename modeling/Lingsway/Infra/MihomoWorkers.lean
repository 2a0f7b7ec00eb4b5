import Lingsway.Infra.MihomoReconciliation

/-!
# Workers that share the jobs table

What every call of a worker does to the shared rows and to the worker's session,
by a choice of the outside world. A commit that raises may have landed, and may
land later than its session knows.
-/
namespace Lingsway.Mihomo

open Library

inductive CommitChoice where
  | lands
  | lost (late : Bool) (exc : Exn)
  | fails (exc : Exn)

/-- What the outside world decides: the exception of a call, its answer, or the rows that other
sessions lock, and which version a read without a lock sees. -/
@[reducible] def Choice : Call → Type
  | .getLock => Except Exn (Option ℤ)
  | .releaseLock => Except Exn (Option ℤ)
  | .now => Timestamp
  | .commit _ => CommitChoice
  | .claimableJob _ => Except Exn (List ℕ)
  | .getJob _ _ => Except Exn (Option ℕ)
  | .readBlocker _ _ => Except Exn (Option ℕ)
  | .observeJob _ _ => Except Exn (Option ℕ)
  | .observeBlocker _ _ => Except Exn (Option ℕ)
  | .load _ => Except Exn (Option ℤ)
  | .finalizeTemplate => Except Exn String
  | .apply _ => Except Exn Bool
  | .verify _ _ _ => Except Exn (Option ProjectionVerification)
  | .invalidate => Unit
  | .enterBlock => Unit
  | .leaveBlock _ => Unit
  | .releaseInfo => Unit
  | .holdsProjectionLock => Unit
  | .setReleaseMetadata _ => Unit
  | .flagDurableStateUnknown => Unit
  | .write _ => Unit
  | _ => Option Exn

/-- The filter of `_claim`. -/
def claimable (now : Timestamp) (job : MihomoJob) : Bool :=
  (job.status = .pending || job.status = .failed ||
    (job.status = .running && job.lockedAt.any (fun t => decide (t < now - staleAfter)) &&
      !unknownDiagnostic job.lastErrorCode)) &&
  decide (job.availableAt ≤ now) && decide (job.attempts < job.maxAttempts)

/-- The first claimable row that nobody has locked. -/
def World.claimable (w : World) (now : Timestamp) (locked : List ℕ) : Option (Entity MihomoJob) :=
  w.store.jobs.entities.find? fun e =>
    Mihomo.claimable now e.row && !locked.contains e.id && !(w.late.any fun c => c.touches (.job e.id))

abbrev State := World × Worker

namespace Worker

def begin : Worker := ⟨⟨[], false, none, false⟩, ⟨none, false, false, none, true, false, false, false⟩⟩

def setWrites (l : Worker) (writes : List Write) : Worker :=
  { l with session := { l.session with writes := writes } }

def confirm (l : Worker) : Worker := { l with annals := { l.annals with confirmed := true } }

def refuse (l : Worker) (blocked : Bool) : Worker :=
  { l with annals := { l.annals with refused := l.annals.refused || blocked } }

/-- A commit has landed, and has returned or not. -/
def landed (l : Worker) (site : Site) (returned : Bool) : Worker :=
  let l := l.setWrites []
  match site with
  | .finalization => { l with annals := { l.annals with finalized := true } }
  | .release => { l with annals := { l.annals with persisted := true, persistReturned := returned } }
  | _ => l

end Worker

namespace Write

/-- Note on a blocker who has written it. -/
def heldBy (i : ℕ) : Write → Write
  | .blocker kind source change => .blocker kind source fun b => { change b with holder := some i }
  | write => write

end Write

def outcome (choice : Option Exn) (w : State) : Except Exn Unit × State :=
  match choice with
  | none => (.ok (), w)
  | some exc => (.error exc, w)

def commit (site : Site) (choice : CommitChoice) (w : State) : Except Exn Unit × State :=
  let writes := w.2.session.writes
  match choice with
  | .lands => (.ok (), w.1.land writes, w.2.landed site true)
  | .lost late exc =>
    (.error exc, if late then w.1.landLate writes else w.1.land writes, w.2.landed site false)
  | .fails exc => (.error exc, w.1, w.2.setWrites [])

/-- A read that may fail. -/
def readOf {α : Type} (choice : Except Exn (Option ℕ)) (read : Option ℕ → α) : Except Exn α :=
  match choice with
  | .ok stale => .ok (read stale)
  | .error exc => .error exc

/-- A read that locks what it finds, and may fail. -/
def locked {α : Type} (choice : Option Exn) (answer : α) (keys : RowKey → Bool) (w : State) :
    Except Exn α × State :=
  match choice with
  | none => (.ok answer, w.1.settle keys, w.2)
  | some exc => (.error exc, w)

def doubtIf (doubtful : Bool) (id : ℕ) (w : State) : State := if doubtful then (w.1.doubt id, w.2) else w

/-- An apply that did not confirm, or whose rollback is not known. -/
def applyDoubtful : Except Exn Bool → Bool
  | .ok applied => !applied
  | .error exc => exc.cls = .other "MihomoRollbackUnknownError"

def verifyDoubtful : Except Exn (Option ProjectionVerification) → Bool
  | .ok verification => (verifiedEvidence verification).isNone
  | .error _ => true

/-- The observer of a finalization leaves it unknown. -/
def jobDoubtful (site : Site) (expected : Finalization) : Except Exn (Option MihomoJob) → Bool
  | .ok job => site = .finalization && jobOutcome expected job = some .unknown
  | .error _ => site = .finalization

def blockerDoubtful (site : Site) (expected : Finalization) : Except Exn (Option Blocker) → Bool
  | .ok blocker => site = .finalization && blockerOutcome expected blocker = .unknown
  | .error _ => site = .finalization

def isBlocker : RowKey → Bool
  | .blocker _ _ => true
  | .job _ => false

def isOlder (id : ℕ) : RowKey → Bool
  | .job j => j < id
  | .blocker _ _ => false

def act (i : ℕ) : (c : Call) → Choice c → State → Except Exn c.Answer × State
  | .configure, choice, w => outcome choice w
  | .openConnection, choice, w => outcome choice w
  | .closeConnection, choice, w => outcome choice w
  | .render, choice, w => outcome choice w
  | .getLock, choice, w =>
    match choice with
    | .error exc => (.error exc, w)
    | .ok answer =>
      if answer = some 1 then
        if w.1.lock = none then (.ok (some 1), { w.1 with lock := some i }, w.2) else (.ok (some 0), w)
      else (.ok answer, w)
  | .releaseLock, choice, w =>
    match choice with
    | .error exc => (.error exc, w)
    | .ok answer => if answer = some 1 then (.ok (some 1), w.1.unlock i, w.2.confirm) else (.ok answer, w)
  | .invalidate, _, w => (.ok (), w.1.unlock i, w.2)
  | .enterBlock, _, w =>
    (.ok w.2.session.projectionLockHeld,
      w.1, { w.2 with session := { w.2.session with projectionLockHeld := true } })
  | .leaveBlock previous, _, w =>
    (.ok (), w.1, { w.2 with session := ⟨w.2.session.writes, previous, none, false⟩ })
  | .releaseInfo, _, w =>
    (.ok ⟨w.2.session.releaseMetadata, w.2.session.durableStateUnknown⟩, w.1,
      { w.2 with annals := { w.2.annals with
          metadata := w.2.session.releaseMetadata, known := !w.2.session.durableStateUnknown } })
  | .holdsProjectionLock, _, w => (.ok w.2.session.projectionLockHeld, w)
  | .setReleaseMetadata metadata, _, w =>
    (.ok (), w.1, { w.2 with session := { w.2.session with releaseMetadata := some metadata } })
  | .flagDurableStateUnknown, _, w =>
    (.ok (), w.1, { w.2 with session := { w.2.session with durableStateUnknown := true } })
  | .now, choice, w => (.ok choice, w)
  | .rollback _, choice, w =>
    match choice with
    | none => (.ok (), w.1, w.2.setWrites [])
    | some exc => (.error exc, w)
  | .commit site, choice, w => commit site choice w
  | .write change, _, w => (.ok (), w.1, w.2.setWrites (w.2.session.writes ++ [change.heldBy i]))
  | .claimableJob now, choice, w =>
    match choice with
    | .error exc => (.error exc, w)
    | .ok others =>
      let job := w.1.claimable now others
      (.ok job, w.1, { w.2 with annals := { w.2.annals with claimed := job } })
  | .unresolvedBlocker, choice, w =>
    match choice with
    | none => (.ok w.1.store.unresolvedBlockers, w.1.settle isBlocker, w.2.refuse w.1.store.unresolvedBlockers)
    | some exc => (.error exc, w)
  | .unresolvedOlder id, choice, w =>
    match choice with
    | none => (.ok (w.1.store.unresolvedOlder id), w.1.settle (isOlder id),
        w.2.refuse (w.1.store.unresolvedOlder id))
    | some exc => (.error exc, w)
  | .getJob _ id, choice, w => (readOf choice fun stale => (w.1.seen stale (.job id)).jobs.get id, w)
  | .lockJob id, choice, w => locked choice (w.1.store.jobs.get id) (fun key => key = .job id) w
  | .lockBlocker _ kind source, choice, w =>
    locked choice ((w.1.store.blockers kind).get source) (fun key => key = .blocker kind source) w
  | .insertBlocker _ kind source row, choice, w =>
    match choice with
    | some exc => (.error exc, w)
    | none =>
      if ((w.1.store.blockers kind).get source).isSome then (.error ⟨.integrityError, "Duplicate entry"⟩, w)
      else (.ok (), w.1, w.2.setWrites
        (w.2.session.writes ++ [.newBlocker kind source ⟨some row, .pending, none, some i⟩]))
  | .readBlocker kind source, choice, w =>
    (readOf choice fun stale => ((w.1.seen stale (.blocker kind source)).blockers kind).get source, w)
  | .observeJob site expected, choice, w =>
    let job := readOf choice fun stale =>
      (w.1.seen stale (.job expected.jobId)).jobs.get expected.jobId
    (job, doubtIf (jobDoubtful site expected job) expected.jobId w)
  | .observeBlocker site expected, choice, w =>
    let blocker := readOf choice fun stale =>
      ((w.1.seen stale (.blocker .lockRelease expected.jobId)).blockers .lockRelease).get expected.jobId
    (blocker, doubtIf (blockerDoubtful site expected blocker) expected.jobId w)
  | .load _, choice, w => (choice, w)
  | .finalizeTemplate, choice, w => (choice, w)
  | .apply id, choice, w => (choice, doubtIf (applyDoubtful choice) id w)
  | .verify id _ _, choice, w => (choice, doubtIf (verifyDoubtful choice) id w)

def workers : Agents calls Exn World Worker where
  Choice := Choice
  act := act
  leave := fun i w => w.unlock i

end Lingsway.Mihomo
