import Lingsway.Infra.MihomoWorkers

/-!
# What Mihomo workers guarantee one another

While a worker holds the lock, the others do not touch jobs and leave unresolved
blockers alone, but for the blockers of their own that they resolve. A job whose
outcome is uncertain is recorded when its row says so, or when a blocker stands
that nobody resolves.
-/
namespace Lingsway.Mihomo

open Library

def jobAt (w : World) (id : ℕ) : Option MihomoJob := w.store.jobs.get id

def blockerAt (w : World) (kind : BlockerKind) (source : ℕ) : Option Blocker :=
  (w.store.blockers kind).get source

def lateJob (w : World) (id : ℕ) : Prop := ∃ c ∈ w.late, c.touches (.job id) = true

/-- No late commit of a job is new. -/
def NoNewLate (s t : World) : Prop := ∀ c ∈ t.late, ∀ id, c.touches (.job id) = true → c ∈ s.late

/-- A blocker that no worker resolves. -/
def Blocker.lasting (kind : BlockerKind) (b : Blocker) : Prop :=
  b.unresolved = true ∧ (kind = .finalization ∨ b.lastErrorCode.isSome = true)

/-- Some blocker stands for good. -/
def Stopped (w : World) : Prop := ∃ kind source b, blockerAt w kind source = some b ∧ b.lasting kind

def Blocked (w : World) : Prop := ∃ kind source b, blockerAt w kind source = some b ∧ b.unresolved = true

/-- No claim takes the row. -/
def Closed (job : MihomoJob) : Prop :=
  job.status = .succeeded ∨ job.status = .running ∧ unknownDiagnostic job.lastErrorCode = true

def ClosedAt (w : World) (id : ℕ) : Prop := ∃ job, jobAt w id = some job ∧ Closed job

/-- Every uncertainty is recorded, but perhaps that of one job. -/
def RecordedBut (w : World) (id : ℕ) : Prop := ∀ j ∈ w.uncertain, j ≠ id → ClosedAt w j ∨ Stopped w

def Recorded (w : World) : Prop := ∀ j ∈ w.uncertain, ClosedAt w j ∨ Stopped w

/-- What a block over the job records for its release. -/
def metadataOf (id : ℕ) (payload : JobPayload) : ReleaseMetadata :=
  match jobIdentity payload with
  | none => ⟨id, none, none⟩
  | some identity => ⟨id, some identity.operationId, some identity.snapshotRevision⟩

@[simp] theorem metadataOf_sourceJobId (id : ℕ) (payload : JobPayload) :
    (metadataOf id payload).sourceJobId = id := by
  unfold metadataOf
  split <;> rfl

/-- What process `i` may do to the shared state. -/
structure Guarantee (i : ℕ) (s t : World) : Prop where
  others : ∀ kind source b, blockerAt s kind source = some b → b.unresolved = true → b.holder ≠ some i →
    blockerAt t kind source = some b
  quiet : s.lock ≠ some i → ∀ kind source b, blockerAt t kind source = some b → b.unresolved = true →
    ∃ b', blockerAt s kind source = some b' ∧ b'.unresolved = true
  lock : t.lock = s.lock ∨ s.lock = none ∧ t.lock = some i ∨ s.lock = some i ∧ t.lock = none
  jobs : s.lock ≠ some i → t.store.jobs = s.store.jobs ∧ t.uncertain = s.uncertain
  late : s.lock ≠ some i → NoNewLate s t
  rows : ∀ kind source, (blockerAt s kind source).isSome = true → (blockerAt t kind source).isSome = true
  lasting : ∀ kind source b, blockerAt s kind source = some b → b.lasting kind →
    ∃ b', blockerAt t kind source = some b' ∧ b'.lasting kind

/-- The release blocker of a job names the operation of its payload. -/
def Payloads (w : World) : Prop :=
  ∀ id b, blockerAt w .lockRelease id = some b →
    ∃ job, jobAt w id = some job ∧ b.payload = some (releasePayload (metadataOf id job.payload))

/-- A call that fails fails where nothing is lost: the reset of a refused claim takes effect, and
so does the release blocker behind an outcome that is not recorded otherwise. -/
def orderlyCall : (c : Call) → State → Except Exn c.Answer → State → Prop
  | .rollback .reset, _, .error _, _ => False
  | .getJob .reset _, _, .error _, _ => False
  | .commit .reset, w, .error _, w' => w'.1.store = w.1.store.applyAll w.2.session.writes
  | .rollback .release, w, .error _, _ => Recorded w.1
  | .lockBlocker .release _ _, w, .error _, _ => Recorded w.1
  | .insertBlocker .release _ _ _, w, .error _, _ => Recorded w.1
  | .commit .release, _, .error _, w' => Recorded w'.1
  | _, _, _, _ => True

/-- No worker crashes over an outcome that is not recorded. -/
def orderly : Conduct calls Exn World Worker where
  call := fun _ c w x w' => orderlyCall c w x w'
  crash := fun i w => w.1.lock = some i → Recorded w.1

/-- Behind a finalization that landed although its commit raised, the rollback returns, and the
observer reads the row as it is. -/
def settledCall : (c : Call) → State → Except Exn c.Answer → Prop
  | .rollback .finalization, w, .error _ => w.2.annals.finalized = false
  | .observeJob .finalization expected, w, .ok job =>
    w.2.annals.finalized = true → job = jobAt w.1 expected.jobId
  | _, _, _ => True

def settled : Conduct calls Exn World Worker where
  call := fun _ c w x _ => settledCall c w x
  crash := fun _ _ => True

/-- The runs that `K` allows are allowed by `K'`. -/
structure Within (K K' : Conduct calls Exn World Worker) : Prop where
  call : ∀ i c w x w', K.call i c w x w' → K'.call i c w x w'
  crash : ∀ i w, K.crash i w → K'.crash i w

structure Invariant (K : Conduct calls Exn World Worker) (w : World) : Prop where
  payloads : Payloads w
  recorded : Within K orderly → w.lock = none → Recorded w

/-- The blocker of a persisted release stands, unless that is confirmed and the state known. -/
def Kept (i : ℕ) (w : State) : Prop :=
  w.2.annals.persisted = true → (w.2.annals.confirmed = true ∧ w.2.annals.known = true) ∨
    ∃ metadata b, w.2.annals.metadata = some metadata ∧
      blockerAt w.1 .lockRelease metadata.sourceJobId = some b ∧ b.unresolved = true ∧ b.holder = some i

/-- Nothing older is unfinished and nothing is blocked. -/
def Unblocked (w : World) (id : ℕ) : Prop :=
  ¬ Blocked w ∧ ∀ older job, older < id → jobAt w older = some job → job.status = .succeeded

/-- The row has the attempts and the error it was claimed with. -/
def Restored (w : State) : Prop :=
  ∃ claimed job, w.2.annals.claimed = some claimed ∧ jobAt w.1 claimed.id = some job ∧
    job.attempts = claimed.row.attempts ∧ job.lastErrorCode = claimed.row.lastErrorCode

def Allowed (K : Conduct calls Exn World Worker) (i : ℕ) : Call → State → Prop
  | .apply id, w => w.1.lock = some i ∧ Unblocked w.1 id ∧ (Within K orderly → id ∉ w.1.uncertain)
  | .releaseLock, w => Within K orderly → w.2.annals.refused = true → Restored w
  | _, _ => True

def Answered (K : Conduct calls Exn World Worker) : (c : Call) → State → Except Exn c.Answer → Prop
  | .lockBlocker _ .lockRelease id, w, .ok (some b) =>
    ∃ metadata, w.2.session.releaseMetadata = some metadata ∧ metadata.sourceJobId = id ∧
      b.payload = some (releasePayload metadata)
  | .observeJob .finalization expected, w, .ok job =>
    Within K settled → jobOutcome expected job = some .absent → w.2.annals.finalized = false
  | .unresolvedOlder _, w, .ok false => ¬ Blocked w.1
  | _, _, _ => True

/-- A release blocker is resolved by its own holder, whose release is confirmed and known. -/
def ResolvesOwn (i : ℕ) (w w' : State) : Prop :=
  ∀ id b b', blockerAt w.1 .lockRelease id = some b → b.unresolved = true →
    blockerAt w'.1 .lockRelease id = some b' → b'.unresolved = false →
    b.holder = some i ∧ w.2.annals.confirmed = true ∧ w.2.annals.known = true

def HasEvidence (payload : JobPayload) : Prop :=
  match payload with
  | .object members => members.finalizationEvidence ≠ .null
  | .malformed => False

instance (payload : JobPayload) : Decidable (HasEvidence payload) :=
  match payload with
  | .object members => inferInstanceAs (Decidable (members.finalizationEvidence ≠ .null))
  | .malformed => inferInstanceAs (Decidable False)

/-- The job is durably finalized, with this evidence. -/
def Durable (job : MihomoJob) : Prop := job.status = .succeeded ∧ HasEvidence job.payload

instance (job : MihomoJob) : Decidable (Durable job) := inferInstanceAs (Decidable (_ ∧ _))

/-- No success is taken back. -/
def Absorbing (w w' : World) : Prop :=
  ∀ id job, jobAt w id = some job → Durable job →
    ∃ job', jobAt w' id = some job' ∧ job'.status = .succeeded ∧ job'.payload = job.payload

structure Safe (K : Conduct calls Exn World Worker) (i : ℕ) (c : Call) (w : State)
    (x : Except Exn c.Answer) (w' : State) : Prop where
  allowed : Allowed K i c w
  answered : Answered K c w x
  resolves : ResolvesOwn i w w'
  absorbing : Within K settled → Absorbing w.1 w'.1

def contract (K : Conduct calls Exn World Worker) : Contract calls Exn World Worker where
  guarantee := Guarantee
  invariant := Invariant K
  absent := fun i w => w.lock ≠ some i
  kept := Kept
  safe := Safe K

end Lingsway.Mihomo
