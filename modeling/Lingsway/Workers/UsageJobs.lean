import Lingsway.Models
import Lingsway.Library.History

/-!
# Usage jobs

A worker claims a job, syncs its subscription and writes the outcome, in three
transactions. A job that has been running for 15 minutes may be claimed again,
whether or not its worker is still at work.
-/
namespace Lingsway.Workers

open Library

/-- A row of `jobs`, as the usage workers read and write it. -/
structure UsageJob where
  jobType : String
  status : JobStatus
  attempts : ℕ
  maxAttempts : ℕ
  availableAt : Timestamp
  lockedAt : Option Timestamp
  lastErrorCode : Option String
  deriving Repr, DecidableEq

def staleSeconds : ℤ := 15 * 60

/-- The query's condition. A job that was never locked is not stale. -/
def UsageJob.claimable (job : UsageJob) (now : Timestamp) : Bool :=
  job.jobType = "USAGE_SYNC" &&
    (job.status = .pending || job.status = .failed ||
      job.status = .running && job.lockedAt.any fun lockedAt => lockedAt < now - staleSeconds) &&
    job.availableAt ≤ now && job.attempts < job.maxAttempts

def UsageJob.claimed (job : UsageJob) (now : Timestamp) : UsageJob :=
  { job with status := .running, lockedAt := some now, attempts := job.attempts + 1 }

def UsageJob.succeeded (job : UsageJob) : UsageJob :=
  { job with status := .succeeded, lastErrorCode := none, lockedAt := none }

def UsageJob.failed (job : UsageJob) (code : String) (now : Timestamp) : UsageJob :=
  { job with
    status := .failed, lastErrorCode := some code,
    availableAt := now + 60 * min (2 ^ job.attempts) 60, lockedAt := none }

def changed {α : Type} [DecidableEq α] (held new row : α) : α := if new = held then row else new

/-- What a commit writes: the columns in which the session's row differs from the row it loaded. -/
def UsageJob.flush (held new row : UsageJob) : UsageJob where
  jobType := changed held.jobType new.jobType row.jobType
  status := changed held.status new.status row.status
  attempts := changed held.attempts new.attempts row.attempts
  maxAttempts := changed held.maxAttempts new.maxAttempts row.maxAttempts
  availableAt := changed held.availableAt new.availableAt row.availableAt
  lockedAt := changed held.lockedAt new.lockedAt row.lockedAt
  lastErrorCode := changed held.lastErrorCode new.lastErrorCode row.lastErrorCode

structure Claim where
  job : ℕ
  attempt : ℕ
  now : Timestamp
  deriving Repr, DecidableEq

/-- A worker in `run_next_usage_job`, with the row that its session holds. -/
inductive Worker where
  | idle
  | syncing (claim : Claim) (held : UsageJob)
  | settling (claim : Claim) (held new : UsageJob)
  deriving Repr, DecidableEq

/-- What has been committed to a job. -/
inductive Entry where
  | claimed (worker job attempt : ℕ)
  | ended (worker job attempt : ℕ) (status : JobStatus)
  deriving Repr, DecidableEq

structure Jobs where
  rows : ℕ → Option UsageJob
  workers : ℕ → Worker
  log : List Entry

inductive JobStep where
  /-- Rows that others have locked are skipped, so that any claimable job may be the first. -/
  | claim (worker job : ℕ) (now : Timestamp)
  /-- The sync returned. The row is read again if the session has rolled back in it. -/
  | synced (worker : ℕ) (expired : Bool)
  /-- The sync raised: the session rolls back and reads the row. -/
  | raised (worker : ℕ) (code : String)
  | commit (worker : ℕ)
  /-- The call ends otherwise: a crash, or a commit that failed. -/
  | stop (worker : ℕ)
  deriving Repr, DecidableEq

def Worker.claim : Worker → Option Claim
  | .idle => none
  | .syncing claim _ => some claim
  | .settling claim _ _ => some claim

namespace Jobs

def put (s : Jobs) (job : ℕ) (row : UsageJob) : Jobs :=
  { s with rows := fun j => if j = job then some row else s.rows j }

def turn (s : Jobs) (worker : ℕ) (phase : Worker) : Jobs :=
  { s with workers := fun w => if w = worker then phase else s.workers w }

def note (s : Jobs) (entry : Entry) : Jobs := { s with log := entry :: s.log }

/-- `run_next_usage_job`, transaction by transaction. -/
def step (s : Jobs) : JobStep → Option Jobs
  | .claim worker job now =>
    match s.workers worker, s.rows job with
    | .idle, some row =>
      if row.claimable now then
        let row := row.claimed now
        some (((s.put job row).turn worker (.syncing ⟨job, row.attempts, now⟩ row)).note
          (.claimed worker job row.attempts))
      else none
    | _, _ => none
  | .synced worker expired =>
    match s.workers worker with
    | .syncing claim held =>
      match s.rows claim.job with
      | some row =>
        let held := if expired then row else held
        some (s.turn worker (.settling claim held held.succeeded))
      | none => none
    | _ => none
  | .raised worker code =>
    match s.workers worker with
    | .syncing claim _ =>
      match s.rows claim.job with
      | some row => some (s.turn worker (.settling claim row (row.failed code claim.now)))
      | none => none
    | _ => none
  | .commit worker =>
    match s.workers worker with
    | .settling claim held new =>
      match s.rows claim.job with
      | some row =>
        some (((s.put claim.job (UsageJob.flush held new row)).turn worker .idle).note
          (.ended worker claim.job claim.attempt new.status))
      | none => none
    | _ => none
  | .stop worker => some (s.turn worker .idle)

/-- A schedule of the workers' transactions. -/
def run (s : Jobs) : List JobStep → Option Jobs
  | [] => some s
  | a :: steps => (s.step a).bind fun t => run t steps

def start (rows : ℕ → Option UsageJob) : Jobs := ⟨rows, fun _ => .idle, []⟩

/-- No other worker has claimed the job since the worker that commits did. -/
def Undisturbed (s : Jobs) : JobStep → Prop
  | .commit worker => ∀ claim held new, s.workers worker = .settling claim held new →
      ∀ row, s.rows claim.job = some row → row.attempts = claim.attempt
  | _ => True

/-- Every step of a schedule is undisturbed. -/
def AllUndisturbed (s : Jobs) : List JobStep → Prop
  | [] => True
  | a :: steps => s.Undisturbed a ∧ ∀ t, s.step a = some t → AllUndisturbed t steps

/-- The worker and the attempt of a job's latest claim. -/
def latestClaim (job : ℕ) : List Entry → Option (ℕ × ℕ)
  | [] => none
  | .claimed worker j attempt :: past => if j = job then some (worker, attempt) else latestClaim job past
  | .ended _ _ _ _ :: past => latestClaim job past

/-- Every outcome is committed by the holder of the latest claim. -/
def EndedByHolder (log : List Entry) : Prop :=
  History.Always (fun entry past => match entry with
    | .ended worker job attempt _ => latestClaim job past = some (worker, attempt)
    | _ => True) log

/-- What a step can do. -/
theorem step_cases {s t : Jobs} {a : JobStep} (h : s.step a = some t) :
    (∃ worker job now row, a = .claim worker job now ∧ s.workers worker = .idle ∧ s.rows job = some row ∧
      row.claimable now = true ∧
      t = ((s.put job (row.claimed now)).turn worker
        (.syncing ⟨job, row.attempts + 1, now⟩ (row.claimed now))).note (.claimed worker job (row.attempts + 1))) ∨
    (∃ worker claim row held held' new, (a = .synced worker true ∨ a = .synced worker false ∨
        ∃ code, a = .raised worker code) ∧
      s.workers worker = .syncing claim held ∧ s.rows claim.job = some row ∧ (held' = held ∨ held' = row) ∧
      (new = held'.succeeded ∨ ∃ code, new = held'.failed code claim.now) ∧
      t = s.turn worker (.settling claim held' new)) ∨
    (∃ worker claim held new row, a = .commit worker ∧ s.workers worker = .settling claim held new ∧
      s.rows claim.job = some row ∧
      t = ((s.put claim.job (UsageJob.flush held new row)).turn worker .idle).note
        (.ended worker claim.job claim.attempt new.status)) ∨
    ∃ worker, a = .stop worker ∧ t = s.turn worker .idle := by
  cases a with
  | claim worker job now =>
    simp only [step] at h
    split at h
    · rename_i row hidle hrow
      by_cases hclaim : row.claimable now = true
      · rw [if_pos hclaim] at h
        exact .inl ⟨worker, job, now, row, rfl, hidle, hrow, hclaim, (Option.some.inj h).symm⟩
      · rw [if_neg hclaim] at h
        cases h
    · cases h
  | synced worker expired =>
    simp only [step] at h
    split at h
    · rename_i claim held hworker
      split at h
      · rename_i row hrow
        refine .inr (.inl ⟨worker, claim, row, held, _, _, ?_, hworker, hrow, ?_, .inl rfl, (Option.some.inj h).symm⟩)
        · cases expired with
          | true => exact .inl rfl
          | false => exact .inr (.inl rfl)
        · cases expired with
          | true => exact .inr rfl
          | false => exact .inl rfl
      · cases h
    · cases h
  | raised worker code =>
    simp only [step] at h
    split at h
    · rename_i claim held hworker
      split at h
      · rename_i row hrow
        exact .inr (.inl ⟨worker, claim, row, held, row, _, .inr (.inr ⟨code, rfl⟩), hworker, hrow, .inr rfl,
          .inr ⟨code, rfl⟩, (Option.some.inj h).symm⟩)
      · cases h
    · cases h
  | commit worker =>
    simp only [step] at h
    split at h
    · rename_i claim held new hworker
      split at h
      · rename_i row hrow
        exact .inr (.inr (.inl ⟨worker, claim, held, new, row, rfl, hworker, hrow, (Option.some.inj h).symm⟩))
      · cases h
    · cases h
  | stop worker => exact .inr (.inr (.inr ⟨worker, rfl, (Option.some.inj h).symm⟩))

@[simp] theorem rows_put (s : Jobs) (job j : ℕ) (row : UsageJob) :
    (s.put job row).rows j = if j = job then some row else s.rows j := rfl

@[simp] theorem workers_put (s : Jobs) (job : ℕ) (row : UsageJob) : (s.put job row).workers = s.workers := rfl

@[simp] theorem log_put (s : Jobs) (job : ℕ) (row : UsageJob) : (s.put job row).log = s.log := rfl

@[simp] theorem rows_turn (s : Jobs) (worker : ℕ) (phase : Worker) : (s.turn worker phase).rows = s.rows := rfl

@[simp] theorem workers_turn (s : Jobs) (worker w : ℕ) (phase : Worker) :
    (s.turn worker phase).workers w = if w = worker then phase else s.workers w := rfl

@[simp] theorem log_turn (s : Jobs) (worker : ℕ) (phase : Worker) : (s.turn worker phase).log = s.log := rfl

@[simp] theorem rows_note (s : Jobs) (entry : Entry) : (s.note entry).rows = s.rows := rfl

@[simp] theorem workers_note (s : Jobs) (entry : Entry) : (s.note entry).workers = s.workers := rfl

@[simp] theorem log_note (s : Jobs) (entry : Entry) : (s.note entry).log = entry :: s.log := rfl

@[simp] theorem latestClaim_claimed (job worker j attempt : ℕ) (past : List Entry) :
    latestClaim job (.claimed worker j attempt :: past) =
      if j = job then some (worker, attempt) else latestClaim job past := rfl

@[simp] theorem latestClaim_ended (job worker j attempt : ℕ) (status : JobStatus) (past : List Entry) :
    latestClaim job (.ended worker j attempt status :: past) = latestClaim job past := rfl

/-- A job's attempts number its claims: every state that is reached has this. -/
structure Sound (s : Jobs) : Prop where
  counted : ∀ job worker attempt, latestClaim job s.log = some (worker, attempt) →
    ∃ row, s.rows job = some row ∧ row.attempts = attempt
  working : ∀ worker claim, (s.workers worker).claim = some claim →
    ∃ row, s.rows claim.job = some row ∧ claim.attempt ≤ row.attempts ∧
      (row.attempts = claim.attempt → latestClaim claim.job s.log = some (worker, claim.attempt))
  uncounted : ∀ worker claim held new, s.workers worker = .settling claim held new → new.attempts = held.attempts

theorem start_sound (rows : ℕ → Option UsageJob) : Sound (start rows) := by
  constructor
  · intro job worker attempt h
    cases h
  · intro worker claim h
    cases h
  · intro worker claim held new h
    cases h

theorem flush_attempts {held new : UsageJob} (row : UsageJob) (h : new.attempts = held.attempts) :
    (UsageJob.flush held new row).attempts = row.attempts := if_pos h

theorem step_sound {s t : Jobs} {a : JobStep} (hs : Sound s) (h : s.step a = some t) : Sound t := by
  obtain ⟨worker, job, now, row, rfl, hidle, hrow, -, rfl⟩ |
    ⟨worker, claim, row, held, held', new, -, hworker, hrow, -, hnew, rfl⟩ |
    ⟨worker, claim, held, new, row, rfl, hworker, hrow, rfl⟩ | ⟨worker, rfl, rfl⟩ := step_cases h
  · constructor
    · intro j w attempt hlatest
      by_cases hj : j = job
      · simp only [log_note, latestClaim_claimed, hj, if_true, Option.some.injEq, Prod.mk.injEq] at hlatest
        exact ⟨row.claimed now, by simp [hj], hlatest.2⟩
      · simp only [log_note, latestClaim_claimed, Ne.symm hj, if_false, log_turn, log_put] at hlatest
        simpa [hj] using hs.counted j w attempt hlatest
    · intro w claim hclaim
      by_cases hw : w = worker
      · simp only [workers_note, workers_turn, hw, if_true, Worker.claim, Option.some.injEq] at hclaim
        subst hclaim
        exact ⟨row.claimed now, by simp, le_rfl, fun _ => by simp [hw]⟩
      · simp only [workers_note, workers_turn, hw, if_false, workers_put] at hclaim
        obtain ⟨old, hold, hle, hlatest⟩ := hs.working w claim hclaim
        by_cases hj : claim.job = job
        · -- the earlier attempt is behind now
          rw [hj, hrow] at hold
          obtain rfl := Option.some.inj hold
          refine ⟨row.claimed now, by simp [hj], ?_, ?_⟩
          · exact Nat.le_succ_of_le hle
          · intro heq
            have : row.attempts + 1 = claim.attempt := heq
            omega
        · exact ⟨old, by simp [hj, hold], hle, fun heq => by simp [Ne.symm hj, hlatest heq]⟩
    · intro w claim held new hsettling
      by_cases hw : w = worker
      · simp [hw] at hsettling
      · simp only [workers_note, workers_turn, hw, if_false, workers_put] at hsettling
        exact hs.uncounted w claim held new hsettling
  · constructor
    · exact hs.counted
    · intro w c hclaim
      by_cases hw : w = worker
      · simp only [workers_turn, hw, if_true, Worker.claim, Option.some.injEq] at hclaim
        subst hclaim
        rw [hw]
        exact hs.working worker claim (by rw [hworker]; rfl)
      · simp only [workers_turn, hw, if_false] at hclaim
        exact hs.working w c hclaim
    · intro w c h' n hsettling
      by_cases hw : w = worker
      · simp only [workers_turn, hw, if_true, Worker.settling.injEq] at hsettling
        obtain ⟨-, rfl, rfl⟩ := hsettling
        obtain rfl | ⟨code, rfl⟩ := hnew
        · rfl
        · rfl
      · simp only [workers_turn, hw, if_false] at hsettling
        exact hs.uncounted w c h' n hsettling
  · have hattempts := flush_attempts row (hs.uncounted worker claim held new hworker)
    have hrows : ∀ j old, s.rows j = some old → ∃ row', (((s.put claim.job (UsageJob.flush held new row)).turn worker
        .idle).note (.ended worker claim.job claim.attempt new.status)).rows j = some row' ∧
        row'.attempts = old.attempts := by
      intro j old hold
      by_cases hj : j = claim.job
      · rw [hj, hrow] at hold
        obtain rfl := Option.some.inj hold
        exact ⟨_, by simp [hj], hattempts⟩
      · exact ⟨old, by simp [hj, hold], rfl⟩
    constructor
    · intro j w attempt hlatest
      obtain ⟨old, hold, heq⟩ := hs.counted j w attempt hlatest
      obtain ⟨row', hrow', hsame⟩ := hrows j old hold
      exact ⟨row', hrow', hsame.trans heq⟩
    · intro w c hclaim
      by_cases hw : w = worker
      · simp [hw, Worker.claim] at hclaim
      · simp only [workers_note, workers_turn, hw, if_false, workers_put] at hclaim
        obtain ⟨old, hold, hle, hlatest⟩ := hs.working w c hclaim
        obtain ⟨row', hrow', hsame⟩ := hrows c.job old hold
        exact ⟨row', hrow', hsame ▸ hle, fun heq => hlatest (hsame ▸ heq)⟩
    · intro w c h' n hsettling
      by_cases hw : w = worker
      · simp [hw] at hsettling
      · simp only [workers_note, workers_turn, hw, if_false, workers_put] at hsettling
        exact hs.uncounted w c h' n hsettling
  · constructor
    · exact hs.counted
    · intro w c hclaim
      by_cases hw : w = worker
      · simp [hw, Worker.claim] at hclaim
      · simp only [workers_turn, hw, if_false] at hclaim
        exact hs.working w c hclaim
    · intro w c h' n hsettling
      by_cases hw : w = worker
      · simp [hw] at hsettling
      · simp only [workers_turn, hw, if_false] at hsettling
        exact hs.uncounted w c h' n hsettling

/-- The holder of the latest claim is the only one at work that the row may wait for. -/
structure Settled (s : Jobs) : Prop where
  running : ∀ worker claim row, (s.workers worker).claim = some claim → s.rows claim.job = some row →
    row.attempts = claim.attempt → row.status = .running
  syncing : ∀ worker claim held, s.workers worker = .syncing claim held → held.status = .running
  settling : ∀ worker claim held new, s.workers worker = .settling claim held new →
    new.status ≠ .running ∧ ∀ row, s.rows claim.job = some row → row.attempts = claim.attempt → held.status = .running
  outcome : ∀ job row worker attempt, s.rows job = some row → latestClaim job s.log = some (worker, attempt) →
    row.status ≠ .running → .ended worker job attempt row.status ∈ s.log

theorem start_settled (rows : ℕ → Option UsageJob) : Settled (start rows) := by
  constructor
  · intro worker claim row h
    cases h
  · intro worker claim held h
    cases h
  · intro worker claim held new h
    cases h
  · intro job row worker attempt _ h
    cases h

theorem claimable_not_succeeded {row : UsageJob} {now : Timestamp} (h : row.claimable now = true) :
    row.status ≠ .succeeded := by
  intro hstatus
  simp [UsageJob.claimable, hstatus] at h

theorem flush_status {held new row : UsageJob} (h : held.status = .running) (hnew : new.status ≠ .running) :
    (UsageJob.flush held new row).status = new.status :=
  if_neg (by rw [h]; exact hnew)

/-- A worker at work on a job that another one has the latest claim of is behind. -/
theorem Sound.behind {s : Jobs} (hs : Sound s) {w w' : ℕ} {claim : Claim} {row : UsageJob} {attempt : ℕ}
    (hclaim : (s.workers w).claim = some claim) (hrow : s.rows claim.job = some row)
    (hlatest : latestClaim claim.job s.log = some (w', attempt)) (hne : w ≠ w') : row.attempts ≠ claim.attempt := by
  intro heq
  obtain ⟨row', hrow', -, hholder⟩ := hs.working w claim hclaim
  rw [hrow] at hrow'
  obtain rfl := Option.some.inj hrow'
  rw [hholder heq] at hlatest
  cases hlatest
  exact hne rfl

theorem claim_settled {s : Jobs} {worker job : ℕ} {now : Timestamp} {row : UsageJob} (hs : Sound s) (ht : Settled s)
    (hrow : s.rows job = some row) :
    Settled (((s.put job (row.claimed now)).turn worker
      (.syncing ⟨job, row.attempts + 1, now⟩ (row.claimed now))).note (.claimed worker job (row.attempts + 1))) := by
  -- a worker that was at work on the job is behind now
  have hbehind : ∀ w claim, (s.workers w).claim = some claim → claim.job = job →
      row.attempts + 1 ≠ claim.attempt := by
    intro w claim hclaim hj heq
    obtain ⟨old, hold, hle, -⟩ := hs.working w claim hclaim
    rw [hj, hrow] at hold
    obtain rfl := Option.some.inj hold
    omega
  constructor
  · intro w claim row' hclaim hrow' heq
    by_cases hj : claim.job = job
    · simp only [rows_note, rows_turn, rows_put, hj, if_true, Option.some.injEq] at hrow'
      subst hrow'
      rfl
    · simp only [rows_note, rows_turn, rows_put, hj, if_false] at hrow'
      by_cases hw : w = worker
      · simp only [workers_note, workers_turn, hw, if_true, Worker.claim, Option.some.injEq] at hclaim
        subst hclaim
        exact absurd rfl hj
      · simp only [workers_note, workers_turn, hw, if_false, workers_put] at hclaim
        exact ht.running w claim row' hclaim hrow' heq
  · intro w claim held hsyncing
    by_cases hw : w = worker
    · simp only [workers_note, workers_turn, hw, if_true, Worker.syncing.injEq] at hsyncing
      rw [← hsyncing.2]
      rfl
    · simp only [workers_note, workers_turn, hw, if_false, workers_put] at hsyncing
      exact ht.syncing w claim held hsyncing
  · intro w claim held new hsettling
    by_cases hw : w = worker
    · simp [hw] at hsettling
    · simp only [workers_note, workers_turn, hw, if_false, workers_put] at hsettling
      obtain ⟨hnew, hheld⟩ := ht.settling w claim held new hsettling
      refine ⟨hnew, ?_⟩
      intro row' hrow' heq
      by_cases hj : claim.job = job
      · simp only [rows_note, rows_turn, rows_put, hj, if_true, Option.some.injEq] at hrow'
        subst hrow'
        exact absurd heq (hbehind w claim (by rw [hsettling]; rfl) hj)
      · simp only [rows_note, rows_turn, rows_put, hj, if_false] at hrow'
        exact hheld row' hrow' heq
  · intro j row' w attempt hrow' hlatest hstatus
    by_cases hj : j = job
    · simp only [rows_note, rows_turn, rows_put, hj, if_true, Option.some.injEq] at hrow'
      subst hrow'
      exact absurd rfl hstatus
    · simp only [rows_note, rows_turn, rows_put, hj, if_false] at hrow'
      simp only [log_note, latestClaim_claimed, Ne.symm hj, if_false, log_turn, log_put] at hlatest
      exact List.mem_cons_of_mem _ (ht.outcome j row' w attempt hrow' hlatest hstatus)

theorem load_settled {s : Jobs} {worker : ℕ} {claim : Claim} {row held held' new : UsageJob} (ht : Settled s)
    (hworker : s.workers worker = .syncing claim held) (hrow : s.rows claim.job = some row)
    (hheld : held' = held ∨ held' = row) (hnew : new.status ≠ .running) :
    Settled (s.turn worker (.settling claim held' new)) := by
  constructor
  · intro w c row' hclaim hrow' heq
    by_cases hw : w = worker
    · simp only [workers_turn, hw, if_true, Worker.claim, Option.some.injEq] at hclaim
      subst hclaim
      exact ht.running worker claim row' (by rw [hworker]; rfl) hrow' heq
    · simp only [workers_turn, hw, if_false] at hclaim
      exact ht.running w c row' hclaim hrow' heq
  · intro w c h' hsyncing
    by_cases hw : w = worker
    · simp [hw] at hsyncing
    · simp only [workers_turn, hw, if_false] at hsyncing
      exact ht.syncing w c h' hsyncing
  · intro w c h' n hsettling
    by_cases hw : w = worker
    · simp only [workers_turn, hw, if_true, Worker.settling.injEq] at hsettling
      obtain ⟨rfl, rfl, rfl⟩ := hsettling
      refine ⟨hnew, ?_⟩
      intro row' hrow' heq
      obtain rfl | rfl := hheld
      · exact ht.syncing worker claim held' hworker
      · exact ht.running worker claim held' (by rw [hworker]; rfl) hrow (by
          rw [rows_turn, hrow] at hrow'
          rw [Option.some.inj hrow', heq])
    · simp only [workers_turn, hw, if_false] at hsettling
      exact ht.settling w c h' n hsettling
  · exact ht.outcome

theorem stop_settled {s : Jobs} {worker : ℕ} (ht : Settled s) : Settled (s.turn worker .idle) := by
  constructor
  · intro w c row hclaim hrow heq
    by_cases hw : w = worker
    · simp [hw, Worker.claim] at hclaim
    · simp only [workers_turn, hw, if_false] at hclaim
      exact ht.running w c row hclaim hrow heq
  · intro w c held hsyncing
    by_cases hw : w = worker
    · simp [hw] at hsyncing
    · simp only [workers_turn, hw, if_false] at hsyncing
      exact ht.syncing w c held hsyncing
  · intro w c held new hsettling
    by_cases hw : w = worker
    · simp [hw] at hsettling
    · simp only [workers_turn, hw, if_false] at hsettling
      exact ht.settling w c held new hsettling
  · exact ht.outcome

theorem commit_settled {s : Jobs} {worker : ℕ} {claim : Claim} {held new row : UsageJob} (hs : Sound s) (ht : Settled s)
    (hworker : s.workers worker = .settling claim held new) (hrow : s.rows claim.job = some row)
    (hholder : row.attempts = claim.attempt) :
    Settled (((s.put claim.job (UsageJob.flush held new row)).turn worker .idle).note
      (.ended worker claim.job claim.attempt new.status)) := by
  have hattempts := flush_attempts row (hs.uncounted worker claim held new hworker)
  obtain ⟨hnew, hheld⟩ := ht.settling worker claim held new hworker
  have hstatus : (UsageJob.flush held new row).status = new.status := flush_status (hheld row hrow hholder) hnew
  obtain ⟨row', hrow', -, hlatest⟩ := hs.working worker claim (by rw [hworker]; rfl)
  rw [hrow] at hrow'
  obtain rfl := Option.some.inj hrow'
  have hmine := hlatest hholder
  -- whoever else is at work on the job has an earlier claim
  have hbehind : ∀ w c, w ≠ worker → (s.workers w).claim = some c → c.job = claim.job → row.attempts ≠ c.attempt := by
    intro w c hw hclaim hj
    exact hs.behind hclaim (hj ▸ hrow) (hj ▸ hmine) hw
  constructor
  · intro w c row' hclaim hrow' heq
    by_cases hw : w = worker
    · simp [hw, Worker.claim] at hclaim
    · simp only [workers_note, workers_turn, hw, if_false, workers_put] at hclaim
      by_cases hj : c.job = claim.job
      · simp only [rows_note, rows_turn, rows_put, hj, if_true, Option.some.injEq] at hrow'
        subst hrow'
        rw [hattempts] at heq
        exact absurd heq (hbehind w c hw hclaim hj)
      · simp only [rows_note, rows_turn, rows_put, hj, if_false] at hrow'
        exact ht.running w c row' hclaim hrow' heq
  · intro w c h' hsyncing
    by_cases hw : w = worker
    · simp [hw] at hsyncing
    · simp only [workers_note, workers_turn, hw, if_false, workers_put] at hsyncing
      exact ht.syncing w c h' hsyncing
  · intro w c h' n hsettling
    by_cases hw : w = worker
    · simp [hw] at hsettling
    · simp only [workers_note, workers_turn, hw, if_false, workers_put] at hsettling
      obtain ⟨hn, hh'⟩ := ht.settling w c h' n hsettling
      refine ⟨hn, ?_⟩
      intro row' hrow' heq
      by_cases hj : c.job = claim.job
      · simp only [rows_note, rows_turn, rows_put, hj, if_true, Option.some.injEq] at hrow'
        subst hrow'
        rw [hattempts] at heq
        exact absurd heq (hbehind w c hw (by rw [hsettling]; rfl) hj)
      · simp only [rows_note, rows_turn, rows_put, hj, if_false] at hrow'
        exact hh' row' hrow' heq
  · intro j row' w attempt hrow' hclaimed hdone
    simp only [log_note, latestClaim_ended, log_turn, log_put] at hclaimed
    by_cases hj : j = claim.job
    · simp only [rows_note, rows_turn, rows_put, hj, if_true, Option.some.injEq] at hrow'
      subst hrow'
      rw [hj, hmine] at hclaimed
      simp only [Option.some.injEq, Prod.mk.injEq] at hclaimed
      obtain ⟨rfl, rfl⟩ := hclaimed
      rw [hstatus, hj]
      exact List.mem_cons_self
    · simp only [rows_note, rows_turn, rows_put, hj, if_false] at hrow'
      exact List.mem_cons_of_mem _ (ht.outcome j row' w attempt hrow' hclaimed hdone)

theorem step_settled {s t : Jobs} {a : JobStep} (hs : Sound s) (ht : Settled s) (hc : s.Undisturbed a)
    (h : s.step a = some t) : Settled t := by
  obtain ⟨worker, job, now, row, rfl, -, hrow, -, rfl⟩ |
    ⟨worker, claim, row, held, held', new, -, hworker, hrow, hheld, hnew, rfl⟩ |
    ⟨worker, claim, held, new, row, rfl, hworker, hrow, rfl⟩ | ⟨worker, rfl, rfl⟩ := step_cases h
  · exact claim_settled hs ht hrow
  · refine load_settled ht hworker hrow hheld ?_
    obtain rfl | ⟨code, rfl⟩ := hnew
    · simp [UsageJob.succeeded]
    · simp [UsageJob.failed]
  · exact commit_settled hs ht hworker hrow (hc claim held new hworker row hrow)
  · exact stop_settled ht

/-- No step changes a job that has succeeded. -/
theorem step_keeps {s t : Jobs} {a : JobStep} (ht : Settled s) (hc : s.Undisturbed a) (h : s.step a = some t)
    {job : ℕ} {row : UsageJob} (hjob : s.rows job = some row) (hdone : row.status = .succeeded) :
    t.rows job = some row := by
  obtain ⟨worker, j, now, row', rfl, -, hrow, hclaimable, rfl⟩ |
    ⟨worker, claim, row', held, held', new, -, -, -, -, -, rfl⟩ |
    ⟨worker, claim, held, new, row', rfl, hworker, hrow, rfl⟩ | ⟨worker, rfl, rfl⟩ := step_cases h
  · by_cases hj : job = j
    · rw [← hj, hjob] at hrow
      obtain rfl := Option.some.inj hrow
      exact absurd hdone (claimable_not_succeeded hclaimable)
    · simp [hj, hjob]
  · exact hjob
  · by_cases hj : job = claim.job
    · rw [← hj, hjob] at hrow
      obtain rfl := Option.some.inj hrow
      have hholder := hc claim held new hworker row (hj ▸ hjob)
      have hrunning := ht.running worker claim row (by rw [hworker]; rfl) (hj ▸ hjob) hholder
      rw [hdone] at hrunning
      cases hrunning
    · simp [hj, hjob]
  · exact hjob

theorem step_log {s t : Jobs} {a : JobStep} (h : s.step a = some t) : s.log <:+ t.log := by
  obtain ⟨_, _, _, _, -, -, -, -, rfl⟩ | ⟨_, _, _, _, _, _, -, -, -, -, -, rfl⟩ | ⟨_, _, _, _, _, -, -, -, rfl⟩ |
    ⟨_, -, rfl⟩ := step_cases h
  · exact List.suffix_cons _ _
  · exact List.suffix_rfl
  · exact List.suffix_cons _ _
  · exact List.suffix_rfl

/-- A step is undisturbed exactly where it commits no outcome but that of the latest claim. -/
theorem step_ended {s t : Jobs} {a : JobStep} (hs : Sound s) (hlog : EndedByHolder s.log) (h : s.step a = some t) :
    EndedByHolder t.log ↔ s.Undisturbed a := by
  obtain ⟨worker, job, now, row, rfl, -, -, -, rfl⟩ |
    ⟨worker, claim, row, held, held', new, hstep, -, -, -, -, rfl⟩ |
    ⟨worker, claim, held, new, row, rfl, hworker, hrow, rfl⟩ | ⟨worker, rfl, rfl⟩ := step_cases h
  · exact ⟨fun _ => trivial, fun _ => ⟨trivial, hlog⟩⟩
  · have hundisturbed : s.Undisturbed a := by
      obtain rfl | rfl | ⟨code, rfl⟩ := hstep
      · trivial
      · trivial
      · trivial
    exact ⟨fun _ => hundisturbed, fun _ => hlog⟩
  · constructor
    · rintro ⟨hholder, -⟩ claim' held' new' hworker' row' hrow'
      rw [hworker] at hworker'
      obtain ⟨rfl, rfl, rfl⟩ := hworker'
      obtain ⟨row'', hrow'', heq⟩ := hs.counted _ _ _ hholder
      rw [hrow'] at hrow''
      rw [Option.some.inj hrow'', heq]
    · intro hundisturbed
      obtain ⟨row', hrow', -, hholder⟩ := hs.working worker claim (by rw [hworker]; rfl)
      exact ⟨hholder (hundisturbed claim held new hworker row' hrow'), hlog⟩
  · exact ⟨fun _ => trivial, fun _ => hlog⟩

theorem run_cons {s t : Jobs} {a : JobStep} {steps : List JobStep} (h : s.run (a :: steps) = some t) :
    ∃ u, s.step a = some u ∧ u.run steps = some t :=
  Option.bind_eq_some_iff.mp h

theorem run_append {s t u : Jobs} {first rest : List JobStep} (hfirst : s.run first = some t)
    (hrun : s.run (first ++ rest) = some u) : t.run rest = some u := by
  induction first generalizing s with
  | nil =>
    obtain rfl := Option.some.inj hfirst
    exact hrun
  | cons a first ih =>
    obtain ⟨v, hstep, hfirst⟩ := run_cons hfirst
    obtain ⟨v', hstep', hrun⟩ := run_cons hrun
    rw [hstep] at hstep'
    obtain rfl := Option.some.inj hstep'
    exact ih hfirst hrun

theorem run_log {s t : Jobs} {steps : List JobStep} (h : s.run steps = some t) : s.log <:+ t.log := by
  induction steps generalizing s with
  | nil =>
    obtain rfl := Option.some.inj h
    exact List.suffix_rfl
  | cons a steps ih =>
    obtain ⟨u, hstep, hrest⟩ := run_cons h
    exact (step_log hstep).trans (ih hrest)

theorem run_ended {s t : Jobs} {steps : List JobStep} (hs : Sound s) (hlog : EndedByHolder s.log)
    (h : s.run steps = some t) : EndedByHolder t.log ↔ AllUndisturbed s steps := by
  induction steps generalizing s with
  | nil =>
    obtain rfl := Option.some.inj h
    exact ⟨fun _ => trivial, fun _ => hlog⟩
  | cons a steps ih =>
    obtain ⟨u, hstep, hrest⟩ := run_cons h
    have hended := step_ended hs hlog hstep
    constructor
    · intro hall
      have hu : EndedByHolder u.log := hall.of_suffix (run_log hrest)
      refine ⟨hended.mp hu, ?_⟩
      intro v hv
      rw [hstep] at hv
      obtain rfl := Option.some.inj hv
      exact (ih (step_sound hs hstep) hu hrest).mp hall
    · rintro ⟨hundisturbed, hall⟩
      exact (ih (step_sound hs hstep) (hended.mpr hundisturbed) hrest).mpr (hall u hstep)

/-- What an undisturbed schedule preserves. -/
theorem run_settled {s t : Jobs} {steps : List JobStep} (hs : Sound s) (ht : Settled s)
    (hc : AllUndisturbed s steps) (h : s.run steps = some t) :
    Settled t ∧ ∀ job row, s.rows job = some row → row.status = .succeeded → t.rows job = some row := by
  induction steps generalizing s with
  | nil =>
    obtain rfl := Option.some.inj h
    exact ⟨ht, fun _ _ hrow _ => hrow⟩
  | cons a steps ih =>
    obtain ⟨u, hstep, hrest⟩ := run_cons h
    obtain ⟨hundisturbed, hall⟩ := hc
    obtain ⟨hsettled, hkept⟩ := ih (step_sound hs hstep) (step_settled hs ht hundisturbed hstep) (hall u hstep) hrest
    refine ⟨hsettled, ?_⟩
    intro job row hrow hdone
    exact hkept job row (step_keeps ht hundisturbed hstep hrow hdone) hdone

theorem run_first {s t : Jobs} {first rest : List JobStep} (hs : Sound s) (ht : Settled s)
    (hc : AllUndisturbed s (first ++ rest)) (h : s.run first = some t) : Sound t ∧ Settled t ∧ AllUndisturbed t rest := by
  induction first generalizing s with
  | nil =>
    obtain rfl := Option.some.inj h
    exact ⟨hs, ht, hc⟩
  | cons a first ih =>
    obtain ⟨u, hstep, hrest⟩ := run_cons h
    exact ih (step_sound hs hstep) (step_settled hs ht hc.1 hstep) (hc.2 u hstep) hrest

/-- Where no outcome is committed after another worker has claimed the job, a success is
final, and an outcome is that of the latest claim. -/
theorem outcomes_final {rows : ℕ → Option UsageJob} {steps : List JobStep} {t : Jobs}
    (h : (start rows).run steps = some t) :
    (EndedByHolder t.log ↔ AllUndisturbed (start rows) steps) ∧
      (AllUndisturbed (start rows) steps →
        (∀ first rest s, steps = first ++ rest → (start rows).run first = some s →
          ∀ job row, s.rows job = some row → row.status = .succeeded → t.rows job = some row) ∧
        ∀ job row worker attempt, t.rows job = some row → latestClaim job t.log = some (worker, attempt) →
          row.status ≠ .running → .ended worker job attempt row.status ∈ t.log) := by
  have hs := start_sound rows
  have ht := start_settled rows
  refine ⟨run_ended hs trivial h, ?_⟩
  intro hc
  obtain ⟨hsettled, -⟩ := run_settled hs ht hc h
  refine ⟨?_, hsettled.outcome⟩
  intro first rest s hsteps hfirst job row hrow hdone
  subst hsteps
  obtain ⟨hsound, hsettled', hrest⟩ := run_first hs ht hc hfirst
  exact (run_settled hsound hsettled' hrest (run_append hfirst h)).2 job row hrow hdone

def sampleJob : UsageJob := ⟨"USAGE_SYNC", .pending, 0, 5, 0, none, none⟩

def sampleRows (id : ℕ) : Option UsageJob := if id = 1 then some sampleJob else none

/-- A worker crashes, and another one ends the job after 15 minutes. -/
def sampleTakeover : List JobStep := [.claim 1 1 0, .stop 1, .claim 2 1 901, .synced 2 false, .commit 2]

theorem sampleTakeover_undisturbed : AllUndisturbed (start sampleRows) sampleTakeover := by
  refine ⟨trivial, fun s₁ h₁ => ⟨trivial, fun s₂ h₂ => ⟨trivial, fun s₃ h₃ => ⟨trivial, fun s₄ h₄ => ⟨?_, fun _ _ => trivial⟩⟩⟩⟩⟩
  obtain rfl := Option.some.inj h₁
  obtain rfl := Option.some.inj h₂
  obtain rfl := Option.some.inj h₃
  obtain rfl := Option.some.inj h₄
  intro claim held new hworker row hrow
  cases hworker
  cases hrow
  rfl

theorem outcomes_final_sample : ∃ t, (start sampleRows).run sampleTakeover = some t ∧ EndedByHolder t.log ∧
    .ended 2 1 2 .succeeded ∈ t.log := by
  have hsome : ((start sampleRows).run sampleTakeover).isSome = true := by decide
  obtain ⟨t, ht⟩ := Option.isSome_iff_exists.mp hsome
  obtain ⟨hended, hfinal⟩ := outcomes_final ht
  obtain ⟨-, houtcome⟩ := hfinal sampleTakeover_undisturbed
  have hrow : t.rows 1 = some { sampleJob with status := .succeeded, attempts := 2 } := by
    obtain rfl := Option.some.inj ht
    rfl
  have hclaim : latestClaim 1 t.log = some (2, 2) := by
    obtain rfl := Option.some.inj ht
    rfl
  exact ⟨t, ht, hended.mpr sampleTakeover_undisturbed, houtcome 1 _ 2 2 hrow hclaim (by decide)⟩

/-- The first worker is still at work when the second one takes the job over. -/
def sampleOverlap : List JobStep :=
  [.claim 1 1 0, .claim 2 1 901, .synced 1 false, .commit 1, .raised 2 "TimeoutError", .commit 2]

def statusOf (s : Option Jobs) (job : ℕ) : Option JobStatus := do
  let jobs ← s
  let row ← jobs.rows job
  pure row.status

theorem success_lost : ¬∀ (rows : ℕ → Option UsageJob) (first rest : List JobStep) (s t : Jobs),
    (start rows).run first = some s → (start rows).run (first ++ rest) = some t →
    ∀ job row, s.rows job = some row → row.status = .succeeded → ∃ row', t.rows job = some row' ∧
      row'.status ≠ .failed ∧ row'.status ≠ .running := by
  intro h
  have hfirst : ((start sampleRows).run (sampleOverlap.take 4)).isSome = true := by decide
  have hall : ((start sampleRows).run (sampleOverlap.take 4 ++ sampleOverlap.drop 4)).isSome = true := by decide
  obtain ⟨s, hs⟩ := Option.isSome_iff_exists.mp hfirst
  obtain ⟨t, ht⟩ := Option.isSome_iff_exists.mp hall
  have hdone : statusOf ((start sampleRows).run (sampleOverlap.take 4)) 1 = some .succeeded := by decide
  have hlost : statusOf ((start sampleRows).run (sampleOverlap.take 4 ++ sampleOverlap.drop 4)) 1 = some .failed := by
    decide
  rw [hs] at hdone
  rw [ht] at hlost
  simp only [statusOf, Option.pure_def, Option.bind_eq_bind, Option.bind_some, Option.bind_eq_some_iff,
    Option.some.injEq] at hdone hlost
  obtain ⟨row, hrow, hsucceeded⟩ := hdone
  obtain ⟨row', hrow', hfailed⟩ := hlost
  obtain ⟨row'', hrow'', hne, -⟩ := h sampleRows _ _ s t hs ht 1 row hrow hsucceeded
  rw [hrow'] at hrow''
  obtain rfl := Option.some.inj hrow''
  exact hne hfailed

end Jobs

end Lingsway.Workers
