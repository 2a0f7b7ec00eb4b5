import Lingsway.Infra.Finalization

/-!
# Retry accounting of gateway jobs

Attempts come one after the other, because each holds the named lock: an
automatic one claims a job, and one of a route writer takes the job it has just
committed. Between the calls of an attempt others may add jobs and change any
other table. An attempt can crash after any of its calls.
-/
namespace Lingsway.Infra

open Library Saga Program

inductive Attempt where
  | automatic
  | inSession (jobId : ℕ)
  deriving DecidableEq

namespace Attempt

def program : Attempt → Saga (Option GatewayReconciliationResult)
  | automatic => reconcileGatewayJob
  | inSession jobId => gatewayRouteBindingLock (do
      let result ← reconcileGatewayJobInSession jobId
      pure (some result))

/-- The job of an attempt, once it is known. -/
def job (a : Attempt) (tr : List WorldMoment) : Option ℕ :=
  match a with
  | automatic => (firstClaim tr).map Prod.fst
  | inSession jobId => some jobId

end Attempt

def isGateway (row : Job) : Prop := row.jobType = .gatewayReconcile

def payloadRun : JobPayload → Option ℕ
  | .gateway payload => payload.provisionRunId.toOption
  | _ => none

/-- The provision run that the payload of a gateway job names. -/
def runOf (row : Job) : Option ℕ := payloadRun row.payload

/-- Unresolved, and no claim can ever select it. -/
def Doomed (row : Job) : Prop :=
  Database.unresolved row = true ∧ ∀ now, Database.claimable now row = false

/-- An error code is recorded, and the provision run is not left RUNNING. -/
def Accounted (db : Database) (row : Job) : Prop :=
  row.lastErrorCode.isSome ∧
    ∀ runId run, runOf row = some runId → db.jobs.get runId = some run → run.status ≠ .running

def Honest (db : Database) : Prop :=
  ∀ id row, db.jobs.get id = some row → Doomed row → Accounted db row

/-- Every job but the one under attempt is honest. -/
def HonestExcept (attempted : Option ℕ) (db : Database) : Prop :=
  ∀ id row, db.jobs.get id = some row → attempted ≠ some id → Doomed row → Accounted db row

/-- What the writers of gateway jobs establish: payloads can be read, and name runs
that exist. -/
structure WellFormed (db : Database) : Prop where
  readable : ∀ id row, db.jobs.get id = some row → isGateway row → row.payload ≠ .unreadable
  runs : ∀ id row runId, db.jobs.get id = some row → isGateway row → runOf row = some runId →
    ∃ run, db.jobs.get runId = some run ∧ ¬ isGateway run

/-- The job is in its last allowed attempt. -/
def OpenLast (db : Database) (id : ℕ) : Prop :=
  ∃ row, db.jobs.get id = some row ∧ row.status = .running ∧ row.maxAttempts ≤ row.attempts

/-- What others do: gateway jobs and the runs they name stay as they are, and new
gateway jobs can be claimed. -/
structure Elsewhere (db db' : Database) : Prop where
  kept : ∀ id row, db.jobs.get id = some row → isGateway row → db'.jobs.get id = some row
  runs : ∀ id row runId, db.jobs.get id = some row → isGateway row → runOf row = some runId →
    db'.jobs.get runId = db.jobs.get runId
  added : ∀ id row, db'.jobs.get id = some row → isGateway row →
    db.jobs.get id = some row ∨ db.jobs.get id = none ∧ ¬ Doomed row
  wellFormed : WellFormed db → WellFormed db'

def AttemptInterferes (w w' : World) : Prop :=
  w'.session = w.session ∧ Elsewhere w.shared.database w'.shared.database

theorem not_claimable_of_exhausted {row : Job} (h : row.maxAttempts ≤ row.attempts) (now : Timestamp) :
    Database.claimable now row = false := by
  simp [Database.claimable, Nat.not_lt.mpr h]

/-- A job with attempts left can be claimed once it is available and its lock is stale. -/
theorem claimable_later {row : Job} (hg : isGateway row) (hs : row.status ≠ .succeeded)
    (hl : row.status = .running → row.lockedAt.isSome) (ha : row.attempts < row.maxAttempts) :
    ∃ now, Database.claimable now row = true := by
  cases hlocked : row.lockedAt with
  | none =>
    refine ⟨row.availableAt, ?_⟩
    have hrunning : row.status ≠ .running := fun h => by simpa [hlocked] using hl h
    cases hstatus : row.status <;> simp_all [Database.claimable, isGateway]
  | some at' =>
    refine ⟨max row.availableAt (at' + staleAfter + 1), ?_⟩
    have hstale : at' < max row.availableAt (at' + staleAfter + 1) - staleAfter :=
      Int.lt_sub_right_of_add_lt (Int.lt_of_lt_of_le (Int.lt_succ _) (le_max_right _ _))
    have havailable : row.availableAt ≤ max row.availableAt (at' + staleAfter + 1) := le_max_left _ _
    cases hstatus : row.status <;> simp_all [Database.claimable, isGateway]

/-- A job is doomed by its attempts alone. -/
theorem exhausted_of_doomed {row : Job} (hl : row.status = .running → row.lockedAt.isSome)
    (h : Doomed row) : row.maxAttempts ≤ row.attempts := by
  obtain ⟨hunresolved, hnever⟩ := h
  simp only [Database.unresolved, Bool.and_eq_true, decide_eq_true_eq] at hunresolved
  by_contra ha
  obtain ⟨now, hnow⟩ := claimable_later hunresolved.1 hunresolved.2 hl (by omega)
  rw [hnever now] at hnow
  cases hnow

theorem Doomed.gateway {row : Job} (h : Doomed row) : isGateway row := by
  have := h.1
  simp only [Database.unresolved, Bool.and_eq_true, decide_eq_true_eq] at this
  exact this.1

/-! ### The steps that an attempt must not take -/

def raisedCommit : List WorldMoment → Bool
  | ⟨.session .commit, .error _, _, _⟩ :: _ => true
  | _ => false

def isRollback (c : Call) : Bool :=
  match c with
  | .session .rollback => true
  | _ => false

/-- The attempt has failed: it has rolled back. -/
def rollbackSeen (tr : List WorldMoment) : Bool := tr.any (fun m => isRollback m.call)

/-- The exception class that the handlers of an attempt raise on. -/
def raisedUnknown (m : WorldMoment) : Bool :=
  match m.answer with
  | .error e => e.cls = .gatewayCommitOutcomeUnknown
  | .ok _ => false

/-- A call that raises in the last allowed attempt of a job is one whose failure the
attempt still records: a call of a provider, a query before the failure, the commit
of a finalization, and the rollback that directly follows a lost commit. -/
def Contained (id : ℕ) (m : WorldMoment) (past : List WorldMoment) : Prop :=
  m.returned = true ∨ match m.call with
    | .session .rollback => raisedCommit past = true
    | .session .commit => OpenLast m.before.shared.database id ∧ rollbackSeen past = false
    | .session .acquireLock => True
    | .session .releaseLock => True
    | .session _ => rollbackSeen past = false ∧ raisedUnknown m = false
    | _ => raisedUnknown m = false

/-- The classification that the observer of a lost finalization commit arrives at, at
its last probe. -/
def observedOutcome (row : Job) (m : WorldMoment) (past : List WorldMoment) :
    Option FinalizationCommitOutcome :=
  match runOf row, m, past with
  | some _, ⟨.session (.probeJobStatus _), .ok run, _, _⟩,
      ⟨.session (.probeOrderStatus _), .ok order, _, _⟩ ::
      ⟨.session (.probeSubscriptionStatus _), .ok subscription, _, _⟩ ::
      ⟨.session (.probeJobStatus _), .ok job, _, _⟩ :: _ =>
    some (purchaseFinalizationOutcome job subscription order run)
  | none, ⟨.session (.probeOrderStatus _), .ok order, _, _⟩,
      ⟨.session (.probeSubscriptionStatus _), .ok subscription, _, _⟩ ::
      ⟨.session (.probeJobStatus _), .ok job, _, _⟩ :: _ =>
    some (purchaseFinalizationOutcome job subscription order (some .succeeded))
  | _, _, _ => none

/-- No failure in the last allowed attempt stays unrecorded, and no finalization is left
unknown, unless the job is exhausted and its run does not wait for it. -/
structure Orderly (a : Attempt) (m : WorldMoment) (past : List WorldMoment) : Prop where
  recorded : ∀ id, a.job (m :: past) = some id → OpenLast m.after.shared.database id →
    Contained id m past
  observed : ∀ id row, a.job (m :: past) = some id →
    m.after.shared.database.jobs.get id = some row → observedOutcome row m past = some .unknown →
    row.maxAttempts ≤ row.attempts ∧
      ∀ runId run, runOf row = some runId → m.after.shared.database.jobs.get runId = some run →
        run.status ≠ .running

/-! ### What holds at every point of an attempt -/

/-- Since the attempt began, only its own job has changed, and attempts were only added. -/
def Progress (attempted : Option ℕ) (db₀ db : Database) : Prop :=
  ∀ id row, db₀.jobs.get id = some row → isGateway row →
    ∃ row', db.jobs.get id = some row' ∧ isGateway row' ∧ row.attempts ≤ row'.attempts ∧
      row'.maxAttempts = row.maxAttempts ∧ (attempted ≠ some id → row' = row)

structure Books (a : Attempt) (db₀ : Database) (s : Traced) : Prop where
  wellFormed : WellFormed s.1.shared.database
  progress : Progress (a.job s.2) db₀ s.1.shared.database
  others : HonestExcept (a.job s.2) s.1.shared.database
  mine : ∀ id row, a.job s.2 = some id → s.1.shared.database.jobs.get id = some row →
    (Doomed row → Accounted s.1.shared.database row) ∨
      (row.status = .running ∧ row.maxAttempts ≤ row.attempts)
  claim : ∀ id row, a = .automatic → a.job s.2 = some id → db₀.jobs.get id = some row →
    isGateway row → row.attempts < row.maxAttempts

theorem Books.honest {a : Attempt} {db₀ : Database} {s : Traced} (h : Books a db₀ s)
    (hlast : ∀ id, a.job s.2 = some id → ¬ OpenLast s.1.shared.database id) :
    Honest s.1.shared.database := by
  intro id row hrow hdoomed
  by_cases hid : a.job s.2 = some id
  · obtain haccounted | ⟨hrunning, hmax⟩ := h.mine id row hid hrow
    · exact haccounted hdoomed
    · exact absurd ⟨row, hrow, hrunning, hmax⟩ (hlast id hid)
  · exact h.others id row hrow hid hdoomed

/-- A fact about a row and the run it names. -/
structure RowFact where
  holds : Database → Job → Prop
  stable : ∀ {db db' : Database} {row : Job},
    (∀ runId, runOf row = some runId → db'.jobs.get runId = db.jobs.get runId) →
    holds db row → holds db' row

/-- The numbers and the payload of a job under attempt, which only its claim changes. -/
structure Numbers where
  attempts : ℕ
  maxAttempts : ℕ
  payload : JobPayload

structure Numbers.Of (ν : Numbers) (row : Job) : Prop where
  gateway : isGateway row
  attempts : row.attempts = ν.attempts
  maxAttempts : row.maxAttempts = ν.maxAttempts
  payload : row.payload = ν.payload
  locked : row.status = .running → row.lockedAt.isSome

/-- The job of the attempt is `id`, its row has the numbers `ν` and satisfies `Φ`. -/
structure Phase (a : Attempt) (db₀ : Database) (id : ℕ) (ν : Numbers) (Φ : RowFact)
    (K : List Write → Prop) (s : Traced) : Prop where
  books : Books a db₀ s
  job : a.job s.2 = some id
  row : ∃ row, s.1.shared.database.jobs.get id = some row ∧ ν.Of row ∧ Φ.holds s.1.shared.database row
  pending : K s.1.session.pending

theorem Elsewhere.accounted {db db' : Database} (h : Elsewhere db db') {id : ℕ} {row : Job}
    (hrow : db.jobs.get id = some row) (hg : isGateway row) (ha : Accounted db row) :
    Accounted db' row := by
  refine ⟨ha.1, fun runId run hrun hget => ?_⟩
  rw [h.runs id row runId hrow hg hrun] at hget
  exact ha.2 runId run hrun hget

theorem Progress.elsewhere {attempted : Option ℕ} {db₀ db db' : Database}
    (hp : Progress attempted db₀ db) (h : Elsewhere db db') : Progress attempted db₀ db' := by
  intro id row hrow hg
  obtain ⟨row', hrow', hg', hrest⟩ := hp id row hrow hg
  exact ⟨row', h.kept id row' hrow' hg', hg', hrest⟩

/-- A doomed row that others see was there before they came. -/
theorem Elsewhere.doomed_old {db db' : Database} (h : Elsewhere db db') {id : ℕ} {row : Job}
    (hrow : db'.jobs.get id = some row) (hdoomed : Doomed row) : db.jobs.get id = some row := by
  obtain hold | ⟨-, hfresh⟩ := h.added id row hrow hdoomed.gateway
  · exact hold
  · exact absurd hdoomed hfresh

section Rely

variable {a : Attempt} {db₀ : Database} {id : ℕ} {ν : Numbers} {Φ : RowFact}
variable {K : List Write → Prop} {w t : World} {tr : List WorldMoment}

theorem Books.interfere (h : Books a db₀ (w, tr)) (hI : AttemptInterferes w t) :
    Books a db₀ (t, tr) := by
  obtain ⟨-, helse⟩ := hI
  refine ⟨helse.wellFormed h.wellFormed, h.progress.elsewhere helse, ?_, ?_, h.claim⟩
  · intro j row hrow hother hdoomed
    have hold := helse.doomed_old hrow hdoomed
    exact helse.accounted hold hdoomed.gateway (h.others j row hold hother hdoomed)
  · intro j row hjob hrow
    by_cases hdoomed : Doomed row
    · have hold := helse.doomed_old hrow hdoomed
      obtain haccounted | hopen := h.mine j row hjob hold
      · exact .inl fun hd => helse.accounted hold hd.gateway (haccounted hd)
      · exact .inr hopen
    · exact .inl fun hd => absurd hd hdoomed

theorem Honest.interfere (h : Honest w.shared.database) (hI : AttemptInterferes w t) :
    Honest t.shared.database := by
  intro j row hrow hdoomed
  have hold := hI.2.doomed_old hrow hdoomed
  exact hI.2.accounted hold hdoomed.gateway (h j row hold hdoomed)

theorem Phase.interfere (h : Phase a db₀ id ν Φ K (w, tr)) (hI : AttemptInterferes w t) :
    Phase a db₀ id ν Φ K (t, tr) := by
  obtain ⟨row, hrow, hν, hΦ⟩ := h.row
  have helse := hI.2
  refine ⟨h.books.interfere hI, h.job, ⟨row, helse.kept id row hrow hν.gateway, hν, ?_⟩, ?_⟩
  · exact Φ.stable (fun runId hrun => helse.runs id row runId hrow hν.gateway hrun) hΦ
  · rw [hI.1]
    exact h.pending

end Rely

section Steps

variable (a : Attempt) (db₀ : Database)

/-- The orderly runs of an attempt, whose books are kept at every point. -/
abbrev orderly : Handler port Exn Traced :=
  assured worlds AttemptInterferes (Orderly a) fun m past => Books a db₀ (m.after, m :: past)

variable {a db₀} {id : ℕ} {ν : Numbers} {Φ : RowFact} {K : List Write → Prop}
variable {t u : World} {tr : List WorldMoment}

/-- The job of an attempt is known for good. -/
theorem Attempt.job_cons {m : WorldMoment} (h : a.job tr = some id) : a.job (m :: tr) = some id := by
  cases a with
  | automatic =>
    simp only [Attempt.job, Option.map_eq_some_iff] at h ⊢
    obtain ⟨claim, hclaim, hid⟩ := h
    exact ⟨claim, firstClaim_suffix (List.suffix_cons m tr) hclaim, hid⟩
  | inSession jobId => exact h

/-- A step that changes no job leaves the books as they are. -/
theorem Books.same (h : Books a db₀ (t, tr)) {m : WorldMoment} (hjob : a.job (m :: tr) = a.job tr)
    (hrows : ∀ j, u.shared.database.jobs.get j = t.shared.database.jobs.get j) :
    Books a db₀ (u, m :: tr) := by
  have haccounted : ∀ {row}, Accounted t.shared.database row → Accounted u.shared.database row :=
    fun ha => ⟨ha.1, fun runId run hrun hget => ha.2 runId run hrun (hrows runId ▸ hget)⟩
  refine ⟨⟨?_, ?_⟩, ?_, ?_, ?_, fun j row ha hj => h.claim j row ha (hjob ▸ hj)⟩
  · exact fun j row hrow => h.wellFormed.readable j row (hrows j ▸ hrow)
  · intro j row runId hrow hg hrun
    obtain ⟨run, hget, hplain⟩ := h.wellFormed.runs j row runId (hrows j ▸ hrow) hg hrun
    exact ⟨run, (hrows runId).trans hget, hplain⟩
  · intro j row hrow hg
    obtain ⟨row', hrow', hrest⟩ := h.progress j row hrow hg
    rw [hjob]
    exact ⟨row', (hrows j).trans hrow', hrest⟩
  · intro j row hrow hother hdoomed
    rw [hjob] at hother
    exact haccounted (h.others j row (hrows j ▸ hrow) hother hdoomed)
  · intro j row hmine hrow
    rw [hjob] at hmine
    obtain ha | hopen := h.mine j row hmine (hrows j ▸ hrow)
    · exact .inl fun hd => haccounted (ha hd)
    · exact .inr hopen

theorem Phase.same {K' : List Write → Prop} (h : Phase a db₀ id ν Φ K (t, tr)) {m : WorldMoment}
    (hrows : ∀ j, u.shared.database.jobs.get j = t.shared.database.jobs.get j)
    (hpending : K' u.session.pending) : Phase a db₀ id ν Φ K' (u, m :: tr) := by
  obtain ⟨row, hrow, hg, hΦ⟩ := h.row
  have hjob : a.job (m :: tr) = some id := Attempt.job_cons h.job
  refine ⟨h.books.same (hjob.trans h.job.symm) hrows, hjob, ⟨row, (hrows id).trans hrow, hg, ?_⟩,
    hpending⟩
  exact Φ.stable (fun runId _ => hrows runId) hΦ

theorem keeps_phase {c : Call} (hc : c.quiet = true) :
    Keeps (orderly a db₀) (Phase a db₀ id ν Φ K) (perform (S := port) c : Saga c.Answer) := by
  apply Keeps.call_assured
  intro w tr t choice hs hI _
  obtain ⟨hdb, hpending⟩ := World.act_quiet hc choice t
  have ht := hs.interfere hI
  have hafter : Phase a db₀ id ν Φ K ((World.act c choice t).2,
      ⟨c, (World.act c choice t).1, t, (World.act c choice t).2⟩ :: tr) := by
    refine ht.same (fun j => by rw [hdb]) ?_
    rw [hpending]
    exact ht.pending
  exact ⟨hafter.books, hafter⟩

end Steps

/-! ### The job changes of a session -/

def jobChange : Write → List (ℕ × (Job → Job))
  | .updateJob id change => [(id, change)]
  | _ => []

def insertsJob : Write → Bool
  | .insertJob .. => true
  | _ => false

/-- The pending changes of jobs are `L`, in this order, and no job is added. -/
def Pends (L : List (ℕ × (Job → Job))) (ws : List Write) : Prop :=
  (∀ c ∈ ws, insertsJob c = false) ∧ ws.flatMap jobChange = L

theorem pends_nil : Pends [] [] := ⟨by simp, rfl⟩

theorem Pends.append {L : List (ℕ × (Job → Job))} {ws : List Write} (h : Pends L ws) {c : Write}
    (hc : insertsJob c = false) : Pends (L ++ jobChange c) (ws ++ [c]) := by
  refine ⟨fun c' hc' => ?_, by rw [List.flatMap_append, h.2, List.flatMap_singleton]⟩
  rcases List.mem_append.mp hc' with hc' | hc'
  · exact h.1 c' hc'
  · rw [List.mem_singleton.mp hc']
    exact hc

def changeJobs (L : List (ℕ × (Job → Job))) (jobs : Table Job) : Table Job :=
  L.foldl (fun t c => t.modify c.1 c.2) jobs

theorem Pends.jobs {L : List (ℕ × (Job → Job))} {ws : List Write} (h : Pends L ws) (db : Database) :
    (Write.applyAll ws db).jobs = changeJobs L db.jobs := by
  obtain ⟨hplain, rfl⟩ := h
  induction ws generalizing db with
  | nil => rfl
  | cons c ws ih =>
    rw [Write.applyAll_cons, ih _ fun c' hc' => hplain c' (List.mem_cons_of_mem _ hc')]
    have hc := hplain c (List.mem_cons_self ..)
    cases c with
    | insertJob id row => cases hc
    | updateJob id change => rfl
    | _ => rfl

/-- The changes of jobs that an attempt commits: one of its own job, and possibly one
that ends the run which the job names. -/
structure Lands (db : Database) (id : ℕ) (row : Job) (f : Job → Job)
    (rest : List (ℕ × (Job → Job))) : Prop where
  jobType : (f row).jobType = row.jobType
  payload : (f row).payload = row.payload
  maxAttempts : (f row).maxAttempts = row.maxAttempts
  attempts : row.attempts ≤ (f row).attempts
  run : rest = [] ∨ ∃ runId g, rest = [(runId, g)] ∧ runOf row = some runId ∧
    ∀ r, (g r).jobType = r.jobType ∧ (g r).status ≠ .running

section Landing

variable {a : Attempt} {db₀ db : Database} {id : ℕ} {row : Job} {f : Job → Job}
variable {rest : List (ℕ × (Job → Job))}

theorem runOf_change (h : Lands db id row f rest) : runOf (f row) = runOf row := by
  simp only [runOf, h.payload]

/-- What the rows are after the changes. -/
theorem Lands.get (hwf : WellFormed db) (hrow : db.jobs.get id = some row) (hg : isGateway row)
    (h : Lands db id row f rest) :
    (changeJobs ((id, f) :: rest) db.jobs).get id = some (f row) ∧
    (∀ j r, j ≠ id → db.jobs.get j = some r → isGateway r →
      (changeJobs ((id, f) :: rest) db.jobs).get j = some r) ∧
    (∀ j r, (changeJobs ((id, f) :: rest) db.jobs).get j = some r → isGateway r → j ≠ id →
      db.jobs.get j = some r) ∧
    (∀ j r, db.jobs.get j = some r → ¬ isGateway r →
      ∃ r', (changeJobs ((id, f) :: rest) db.jobs).get j = some r' ∧ ¬ isGateway r' ∧
        (r'.status = .running → r.status = .running)) := by
  obtain hrest | ⟨runId, g, hrest, hrun, hchange⟩ := h.run
  · subst hrest
    refine ⟨by simp [changeJobs, hrow], ?_, ?_, ?_⟩
    · intro j r hj hr _
      simp [changeJobs, hj, hr]
    · intro j r hr _ hj
      simpa [changeJobs, hj] using hr
    · intro j r hr hplain
      have hj : j ≠ id := by
        rintro rfl
        rw [hrow] at hr
        cases hr
        exact hplain hg
      exact ⟨r, by simp [changeJobs, hj, hr], hplain, fun h => h⟩
  · subst hrest
    obtain ⟨run, hget, hnot⟩ := hwf.runs id row runId hrow hg hrun
    have hne : runId ≠ id := by
      rintro rfl
      rw [hrow] at hget
      cases hget
      exact hnot hg
    have hgateway : ∀ r, isGateway (g r) ↔ isGateway r := by
      intro r
      simp only [isGateway, (hchange r).1]
    refine ⟨by simp [changeJobs, hrow, hne.symm], ?_, ?_, ?_⟩
    · intro j r hj hr hgr
      have hjr : j ≠ runId := by
        rintro rfl
        rw [hget] at hr
        cases hr
        exact hnot hgr
      simp [changeJobs, hj, hjr, hr]
    · intro j r hr hgr hj
      by_cases hjr : j = runId
      · subst hjr
        simp only [changeJobs, List.foldl_cons, List.foldl_nil, Table.get_modify, if_true, if_neg hj,
          hget, Option.map_some, Option.some.injEq] at hr
        subst hr
        exact absurd ((hgateway run).mp hgr) hnot
      · simpa [changeJobs, hj, hjr] using hr
    · intro j r hr hplain
      have hj : j ≠ id := by
        rintro rfl
        rw [hrow] at hr
        cases hr
        exact hplain hg
      by_cases hjr : j = runId
      · subst hjr
        refine ⟨g r, by simp [changeJobs, hj, hr], fun hgr => hplain ((hgateway r).mp hgr), ?_⟩
        exact fun hs => absurd hs (hchange r).2
      · exact ⟨r, by simp [changeJobs, hj, hjr, hr], hplain, fun h => h⟩

/-- The landed changes keep the books, if they account for the job itself. -/
theorem Books.land {t u : World} {tr : List WorldMoment} {m : WorldMoment}
    (h : Books a db₀ (t, tr)) (hjob : a.job tr = some id)
    (hrow : t.shared.database.jobs.get id = some row) (hg : isGateway row)
    (hl : Lands t.shared.database id row f rest)
    (hjobs : u.shared.database.jobs = changeJobs ((id, f) :: rest) t.shared.database.jobs)
    (hmine : (Doomed (f row) → Accounted u.shared.database (f row)) ∨
      ((f row).status = .running ∧ (f row).maxAttempts ≤ (f row).attempts)) :
    Books a db₀ (u, m :: tr) := by
  have hjob' : a.job (m :: tr) = some id := Attempt.job_cons hjob
  obtain ⟨hself, hkept, hold, hruns⟩ := hl.get h.wellFormed hrow hg
  rw [← hjobs] at hself hkept hold hruns
  have hgf : isGateway (f row) := hl.jobType.trans hg
  refine ⟨⟨?_, ?_⟩, ?_, ?_, ?_, fun j r ha hj => h.claim j r ha ?_⟩
  · intro j r hr hgr
    by_cases hj : j = id
    · subst hj
      rw [hself] at hr
      cases hr
      rw [hl.payload]
      exact h.wellFormed.readable j row hrow hg
    · exact h.wellFormed.readable j r (hold j r hr hgr hj) hgr
  · intro j r runId hr hgr hrun
    have hnamed : ∃ run, t.shared.database.jobs.get runId = some run ∧ ¬ isGateway run := by
      by_cases hj : j = id
      · subst hj
        rw [hself] at hr
        cases hr
        rw [runOf_change hl] at hrun
        exact h.wellFormed.runs j row runId hrow hg hrun
      · exact h.wellFormed.runs j r runId (hold j r hr hgr hj) hgr hrun
    obtain ⟨run, hget, hplain⟩ := hnamed
    obtain ⟨run', hget', hplain', -⟩ := hruns runId run hget hplain
    exact ⟨run', hget', hplain'⟩
  · intro j r hr hgr
    obtain ⟨r', hr', hgr', hattempts, hmax, hsame⟩ := h.progress j r hr hgr
    rw [hjob'] at *
    rw [hjob] at hsame
    by_cases hj : j = id
    · subst hj
      rw [hrow] at hr'
      cases hr'
      refine ⟨f row, hself, hgf, hattempts.trans hl.attempts, hl.maxAttempts.trans hmax, ?_⟩
      exact fun hne => absurd rfl hne
    · refine ⟨r', hkept j r' hj hr' hgr', hgr', hattempts, hmax, ?_⟩
      exact fun _ => hsame fun heq => hj (Option.some.inj heq).symm
  · intro j r hr hother hdoomed
    rw [hjob'] at hother
    have hj : j ≠ id := fun heq => hother (heq ▸ rfl)
    have hrold := hold j r hr hdoomed.gateway hj
    have hacc := h.others j r hrold (fun heq => hother (hjob.symm.trans heq)) hdoomed
    refine ⟨hacc.1, fun runId run hrun hget hrunning => ?_⟩
    obtain ⟨run₀, hget₀, hplain⟩ := h.wellFormed.runs j r runId hrold hdoomed.gateway hrun
    obtain ⟨run', hget', -, hstatus⟩ := hruns runId run₀ hget₀ hplain
    rw [hget] at hget'
    cases hget'
    exact hacc.2 runId run₀ hrun hget₀ (hstatus hrunning)
  · intro j r hmineJob hr
    rw [hjob'] at hmineJob
    cases hmineJob
    rw [hself] at hr
    cases hr
    exact hmine
  · rw [hjob', ← hjob] at hj
    exact hj

end Landing

section Phases

variable {a : Attempt} {db₀ : Database} {id : ℕ} {ν : Numbers} {Φ : RowFact} {K : List Write → Prop}
variable {L : List (ℕ × (Job → Job))} {s : Traced}

/-- How a call went: the state before it, after what others did, and its moment. -/
structure Went (a : Attempt) (c : Call) (past : List WorldMoment) (t : World)
    (r : Except Exn c.Answer) (s' : Traced) : Prop where
  trace : s'.2 = ⟨c, r, t, s'.1⟩ :: past
  orderly : Orderly a ⟨c, r, t, s'.1⟩ past

/-- The rule for one call, for a program that goes on from a phase. -/
theorem call_wp {c : Call} {Q : Except Exn c.Answer → Traced → Prop}
    (hs : Phase a db₀ id ν Φ K s)
    (hc : ∀ t choice, Phase a db₀ id ν Φ K (t, s.2) →
      Went a c s.2 t (World.act c choice t).1
        ((World.act c choice t).2, ⟨c, (World.act c choice t).1, t, (World.act c choice t).2⟩ :: s.2) →
      Books a db₀ ((World.act c choice t).2,
        ⟨c, (World.act c choice t).1, t, (World.act c choice t).2⟩ :: s.2) ∧
      Q (World.act c choice t).1 ((World.act c choice t).2,
        ⟨c, (World.act c choice t).1, t, (World.act c choice t).2⟩ :: s.2)) :
    (perform (S := port) c : Saga c.Answer).wp (orderly a db₀) Q s := by
  obtain ⟨w, tr⟩ := s
  simp only [perform, wp_call_assured, wp_ofExcept]
  intro t hI choice hP
  exact hc t choice (hs.interfere hI) ⟨rfl, hP⟩

/-- A change of a mapped object is pending afterwards. -/
theorem write_phase {change : Write} (hs : Phase a db₀ id ν Φ (Pends L) s)
    (hc : insertsJob change = false) :
    (session (.write change)).wp (orderly a db₀)
      (fun r s' => r = .ok () ∧ Phase a db₀ id ν Φ (Pends (L ++ jobChange change)) s' ∧
        ∃ m, isRollback m.call = false ∧ s'.2 = m :: s.2) s := by
  refine call_wp hs fun t fate ht _ => ?_
  have hafter : Phase a db₀ id ν Φ (Pends (L ++ jobChange change)) (t.stage [change],
      ⟨.session (.write change), .ok (), t, t.stage [change]⟩ :: s.2) :=
    ht.same (fun j => (t.sameRows_stage [change]).jobs j) (ht.pending.append hc)
  exact ⟨hafter.books, rfl, hafter, _, rfl, rfl⟩

/-- A rollback discards the changes, also when it raises. -/
theorem rollback_phase (hs : Phase a db₀ id ν Φ K s) :
    rollback.wp (orderly a db₀)
      (fun r s' => Phase a db₀ id ν Φ (Pends []) s' ∧ ∃ t, Went a (.session .rollback) s.2 t r s') s := by
  refine call_wp hs fun t fate ht hwent => ?_
  have hafter : Phase a db₀ id ν Φ (Pends []) (t.setPending [],
      ⟨.session .rollback, (t.rollback fate).1, t, t.setPending []⟩ :: s.2) :=
    ht.same (fun j => rfl) pends_nil
  exact ⟨hafter.books, hafter, t, hwent⟩

/-- A query changes nothing, and what it answers is what the session sees. -/
theorem reads_phase {c : SessionCall} (hc : c.reads = true) {F : Except Exn c.Answer → Prop}
    (hF : ∀ t fate, Phase a db₀ id ν Φ K (t, s.2) → F (t.sessionCall fate c).1)
    (hs : Phase a db₀ id ν Φ K s) :
    (session c).wp (orderly a db₀)
      (fun r s' => Phase a db₀ id ν Φ K s' ∧ F r ∧ ∃ t, Went a (.session c) s.2 t r s') s := by
  refine call_wp hs fun t fate ht hwent => ?_
  have hact : (World.act (.session c) fate t).2 = t := t.sessionCall_reads fate hc
  rw [hact] at hwent ⊢
  have hafter : Phase a db₀ id ν Φ K (t,
      ⟨.session c, (World.act (.session c) fate t).1, t, t⟩ :: s.2) :=
    ht.same (fun j => rfl) ht.pending
  exact ⟨hafter.books, hafter, hF t fate ht, t, hwent⟩

/-- A commit lands, and moves the job to its next phase, or changes nothing and raises. -/
theorem commit_phase (ν' : Numbers) (Φ' : RowFact) {f : Job → Job} {rest : List (ℕ × (Job → Job))}
    (hs : Phase a db₀ id ν Φ (Pends ((id, f) :: rest)) s)
    (hl : ∀ db row, WellFormed db → db.jobs.get id = some row → ν.Of row → Φ.holds db row →
      Lands db id row f rest ∧ ν'.Of (f row) ∧
        ∀ db', db'.jobs = changeJobs ((id, f) :: rest) db.jobs →
          ((Doomed (f row) → Accounted db' (f row)) ∨
            ((f row).status = .running ∧ (f row).maxAttempts ≤ (f row).attempts)) ∧
          Φ'.holds db' (f row)) :
    commit.wp (orderly a db₀) (fun r s' => ∃ t,
      Phase a db₀ id ν Φ (Pends ((id, f) :: rest)) (t, s.2) ∧ Went a (.session .commit) s.2 t r s' ∧
      (Phase a db₀ id ν' Φ' (Pends []) s' ∨
        (Phase a db₀ id ν Φ (Pends ((id, f) :: rest)) s' ∧ ∃ e, r = .error e))) s := by
  refine call_wp hs fun t fate ht hwent => ?_
  rcases t.commit_cases fate with hland | ⟨hsame, herror⟩
  · have hact : (World.act (.session .commit) fate t).2 = t.land := hland
    rw [hact] at hwent ⊢
    obtain ⟨row, hrow, hν, hΦ⟩ := ht.row
    have hjobs : t.land.shared.database.jobs = changeJobs ((id, f) :: rest) t.shared.database.jobs :=
      ht.pending.jobs _
    obtain ⟨hlands, hν', hafter⟩ := hl _ row ht.books.wellFormed hrow hν hΦ
    obtain ⟨hmine, hΦ'⟩ := hafter _ hjobs
    have hbooks := ht.books.land (m := ⟨.session .commit, (World.act (.session .commit) fate t).1, t, t.land⟩)
      ht.job hrow hν.gateway hlands hjobs hmine
    have hself := (hlands.get ht.books.wellFormed hrow hν.gateway).1
    rw [← hjobs] at hself
    exact ⟨hbooks, t, ht, hwent, .inl ⟨hbooks, Attempt.job_cons ht.job, ⟨f row, hself, hν', hΦ'⟩, pends_nil⟩⟩
  · have hact : (World.act (.session .commit) fate t).2 = t := hsame
    rw [hact] at hwent ⊢
    have hstay : Phase a db₀ id ν Φ (Pends ((id, f) :: rest)) (t,
        ⟨.session .commit, (World.act (.session .commit) fate t).1, t, t⟩ :: s.2) :=
      ht.same (fun j => rfl) ht.pending
    exact ⟨hstay.books, t, ht, hwent, .inr ⟨hstay, herror⟩⟩

end Phases

/-! ### The record of a failure -/

def status (S : JobStatus → Prop) : RowFact where
  holds _ row := S row.status
  stable _ h := h

/-- What a reported result says about the job's row. -/
def Reported (db : Database) (res : GatewayReconciliationResult) : Prop :=
  (res.retryable = true → ∃ row, db.jobs.get res.jobId = some row ∧ isGateway row ∧
    ∀ now, row.availableAt ≤ now → Database.claimable now row = true) ∧
  (res.retryable = false → res.finalized = false → ∃ row, db.jobs.get res.jobId = some row ∧
    isGateway row ∧ row.maxAttempts ≤ row.attempts)

/-- The attempt leaves honest books, and its report is true. -/
structure Ended (a : Attempt) (db₀ : Database) (id : ℕ) (ν : Numbers)
    (r : Except Exn GatewayReconciliationResult) (s : Traced) : Prop where
  phase : Phase a db₀ id ν (status fun _ => True) (fun _ => True) s
  honest : Honest s.1.shared.database
  report : ∀ res, r = .ok res → res.jobId = id ∧ Reported s.1.shared.database res ∧
    Pends [] s.1.session.pending

section Failure

variable {a : Attempt} {db₀ : Database} {id : ℕ} {ν : Numbers} {Φ : RowFact}
variable {K : List Write → Prop} {L : List (ℕ × (Job → Job))} {s : Traced}

theorem Phase.plain (h : Phase a db₀ id ν Φ K s) :
    Phase a db₀ id ν (status fun _ => True) (fun _ => True) s := by
  obtain ⟨row, hrow, hν, -⟩ := h.row
  exact ⟨h.books, h.job, ⟨row, hrow, hν, trivial⟩, trivial⟩

/-- A job that is not running is not left behind. -/
theorem Phase.honest {S : JobStatus → Prop} (h : Phase a db₀ id ν (status S) K s)
    (hS : ¬ S .running) : Honest s.1.shared.database := by
  refine h.books.honest fun j hj => ?_
  have hjob := h.job
  rw [hj] at hjob
  cases hjob
  rintro ⟨row, hrow, hrunning, -⟩
  obtain ⟨row', hrow', -, hstatus⟩ := h.row
  rw [hrow] at hrow'
  cases hrow'
  exact hS (hrunning ▸ hstatus)

theorem Phase.ended {S : JobStatus → Prop} (h : Phase a db₀ id ν (status S) K s)
    (hS : ¬ S .running) (e : Exn) : Ended a db₀ id ν (.error e) s :=
  ⟨h.plain, h.honest hS, fun _ hres => nomatch hres⟩

/-- After a call whose failure nobody records, the job is not in its last attempt. -/
theorem Phase.ended_of_uncontained {c : Call} {past : List WorldMoment} {t : World}
    {r : Except Exn c.Answer} (h : Phase a db₀ id ν Φ K s) (hwent : Went a c past t r s)
    (hc : ¬ Contained id ⟨c, r, t, s.1⟩ past) (e : Exn) : Ended a db₀ id ν (.error e) s := by
  refine ⟨h.plain, h.books.honest fun j hj hopen => hc ?_, fun _ hres => nomatch hres⟩
  have hjob := h.job
  rw [hj] at hjob
  cases hjob
  refine hwent.orderly.recorded id ?_ hopen
  rw [← hwent.trace]
  exact h.job

/-- The failure of the attempt is being recorded. -/
structure Recording (a : Attempt) (db₀ : Database) (id : ℕ) (ν : Numbers) (Φ : RowFact)
    (L : List (ℕ × (Job → Job))) (s : Traced) : Prop where
  phase : Phase a db₀ id ν Φ (Pends L) s
  seen : rollbackSeen s.2 = true

theorem rollbackSeen_suffix {past tr : List WorldMoment} (hs : past <:+ tr)
    (h : rollbackSeen past = true) : rollbackSeen tr = true := by
  obtain ⟨newer, rfl⟩ := hs
  simp only [rollbackSeen, List.any_append, Bool.or_eq_true] at h ⊢
  exact .inr h

theorem rollbackSeen_cons {m : WorldMoment} {past : List WorldMoment} (h : rollbackSeen past = true) :
    rollbackSeen (m :: past) = true := rollbackSeen_suffix (List.suffix_cons m past) h

theorem contained_reads {c : SessionCall} (hc : c.reads = true) {x : Except Exn c.Answer} {t u : World}
    {past : List WorldMoment} (h : Contained id ⟨.session c, x, t, u⟩ past) :
    x.isOk = true ∨ rollbackSeen past = false := by
  obtain hreturned | hrest := h
  · cases x with
    | ok _ => exact .inl rfl
    | error _ => cases hreturned
  · cases c <;> first | exact .inr hrest.1 | cases hc

/-- While a failure is being recorded, nobody records the failure of a query. -/
theorem Recording.not_contained (hs : Recording a db₀ id ν Φ L s) {c : SessionCall}
    (hc : c.reads = true) {e : Exn} {t u : World}
    (h : Contained id ⟨.session c, .error e, t, u⟩ s.2) : False := by
  obtain hok | hunseen := contained_reads hc h
  · cases hok
  · rw [hs.seen] at hunseen
    cases hunseen

/-- A query while a failure is being recorded. -/
theorem probe_wp {c : SessionCall} (hc : c.reads = true) {F : c.Answer → Prop} {β : Type}
    {f : c.Answer → Saga β} {Q : Except Exn β → Traced → Prop}
    (hF : ∀ t fate v, Phase a db₀ id ν Φ (Pends L) (t, s.2) →
      (t.sessionCall fate c).1 = .ok v → F v)
    (herror : ∀ e t, Ended a db₀ id ν (.error e) t → Q (.error e) t)
    (hf : ∀ v t u, F v → Recording a db₀ id ν Φ L t → Went a (.session c) s.2 u (.ok v) t →
      (f v).wp (orderly a db₀) Q t)
    (hs : Recording a db₀ id ν Φ L s) : (session c >>= f).wp (orderly a db₀) Q s := by
  rw [wp_bind]
  refine wp_mono _ _ ?_ (reads_phase hc (F := fun r => ∀ v, r = .ok v → F v)
    (fun t fate ht v hv => hF t fate v ht hv) hs.phase)
  rintro (e | v) t ⟨ht, htrue, u, hwent⟩
  · exact herror e t (ht.ended_of_uncontained hwent (fun hcont => hs.not_contained hc hcont) e)
  · exact hf v t u (htrue v rfl) ⟨ht, hwent.trace ▸ rollbackSeen_cons hs.seen⟩ hwent

theorem recording_write {change : Write} (hc : insertsJob change = false) {β : Type}
    {f : Unit → Saga β} {Q : Except Exn β → Traced → Prop}
    (hf : ∀ t, Recording a db₀ id ν Φ (L ++ jobChange change) t → (f ()).wp (orderly a db₀) Q t)
    (hs : Recording a db₀ id ν Φ L s) :
    (session (.write change) >>= f).wp (orderly a db₀) Q s := by
  rw [wp_bind]
  refine wp_mono _ _ ?_ (write_phase hs.phase hc)
  rintro r t ⟨rfl, ht, m, -, htrace⟩
  exact hf t ⟨ht, htrace ▸ rollbackSeen_cons hs.seen⟩

def failedRow (job : Job) (reasonCode : String) (now : Timestamp) (row : Job) : Job :=
  { row with
    status := .failed
    lockedAt := none
    lastErrorCode := some (Text.take 80 reasonCode)
    availableAt := now + retryDelay job.attempts }

def failedRun (reasonCode : String) (run : Job) : Job :=
  { run with
    status := .failed
    lockedAt := none
    lastErrorCode := some (Text.take 80 reasonCode) }

/-- The change of the run, if there is one and it is made. -/
def runChange (made : Bool) (run : Option ℕ) (g : Job → Job) : List (ℕ × (Job → Job)) :=
  if made then run.toList.map fun runId => (runId, g) else []

/-- What the session sees of a row whose table it has not changed. -/
theorem Pends.view_get {w : World} (h : Pends [] w.session.pending) (j : ℕ) :
    w.view.jobs.get j = w.shared.database.jobs.get j := by
  rw [World.view, h.jobs]
  rfl

/-- No change removes a row. -/
theorem changeJobs_isSome {L : List (ℕ × (Job → Job))} {jobs : Table Job} {j : ℕ}
    (h : (jobs.get j).isSome) : ((changeJobs L jobs).get j).isSome := by
  induction L generalizing jobs with
  | nil => exact h
  | cons c L ih =>
    refine ih ?_
    rw [Table.get_modify]
    split_ifs <;> simp [h]

/-- The run that the job names exists, also for the session. -/
theorem Phase.run_seen (h : Phase a db₀ id ν Φ (Pends L) s) {runId : ℕ}
    (hrun : payloadRun ν.payload = some runId) : (s.1.view.jobs.get runId).isSome := by
  obtain ⟨row, hrow, hν, -⟩ := h.row
  have hnamed : runOf row = some runId := by rw [runOf, hν.payload, hrun]
  obtain ⟨run, hget, -⟩ := h.books.wellFormed.runs id row runId hrow hν.gateway hnamed
  rw [World.view, h.pending.jobs]
  exact changeJobs_isSome (by rw [hget]; rfl)

/-- The change of the run that a payload names is added to the pending ones. -/
theorem updatePayloadRun_wp {gp : GatewayPayload} {g : Job → Job} {β : Type} {f : Unit → Saga β}
    {Q : Except Exn β → Traced → Prop} (hgp : payloadRun ν.payload = gp.provisionRunId.toOption)
    (herror : ∀ runId e u t, Phase a db₀ id ν Φ (Pends L) t →
      Went a (.session (.getJob runId)) s.2 u (.error e) t → Q (.error e) t)
    (hf : ∀ t, Phase a db₀ id ν Φ (Pends (L ++ runChange true (payloadRun ν.payload) g)) t → s.2 <:+ t.2 →
      (f ()).wp (orderly a db₀) Q t)
    (hs : Phase a db₀ id ν Φ (Pends L) s) :
    (updatePayloadRun gp g >>= f).wp (orderly a db₀) Q s := by
  rw [wp_bind]
  unfold updatePayloadRun
  split
  · rename_i runId hfield
    have hrun : payloadRun ν.payload = some runId := by rw [hgp, hfield]; rfl
    rw [wp_bind]
    refine wp_mono _ _ ?_ (reads_phase (c := .getJob runId) rfl
      (F := fun r => ∀ run : Option Job, r = .ok run → run.isSome = true)
      (fun t fate ht run hfound => World.query_ok _ hfound ▸ ht.run_seen hrun) hs)
    rintro (e | run) t ⟨ht, hfound, u, hwent⟩
    · exact herror runId e u t ht hwent
    · have hsome : Option.isSome run = true := hfound run rfl
      simp only [bindPost_ok, Saga.when, hsome, if_true]
      refine wp_mono _ _ ?_ (write_phase ht rfl)
      rintro r x ⟨rfl, hx, mo, -, htrace⟩
      refine hf x ?_ ?_
      · rw [hrun]
        exact hx
      · rw [htrace, hwent.trace]
        exact (List.suffix_cons _ _).trans (List.suffix_cons _ _)
  · rename_i hfield
    have hrun : payloadRun ν.payload = none := by
      rw [hgp]
      cases hp : gp.provisionRunId with
      | value runId => exact absurd hp (hfield runId)
      | _ => rfl
    refine hf s ?_ List.suffix_rfl
    rw [hrun]
    simpa [runChange] using hs

/-- A query of the subscription while a failure is being recorded. -/
theorem payloadSubscription_wp (gp : GatewayPayload) {β : Type} {f : Option ℕ → Saga β}
    {Q : Except Exn β → Traced → Prop}
    (herror : ∀ e t, Ended a db₀ id ν (.error e) t → Q (.error e) t)
    (hf : ∀ v t, Recording a db₀ id ν Φ L t → (f v).wp (orderly a db₀) Q t)
    (hs : Recording a db₀ id ν Φ L s) :
    (payloadSubscription gp >>= f).wp (orderly a db₀) Q s := by
  rw [wp_bind]
  unfold payloadSubscription
  split
  · exact probe_wp rfl (F := fun _ => True) (fun _ _ _ _ _ => trivial) herror
      (fun v t _ _ ht _ => hf _ t ht) hs
  · exact hf _ s hs

/-- The changes of jobs in a recorded failure. -/
def failureChanges (id : ℕ) (job : Job) (reasonCode : String) (now : Timestamp) :
    List (ℕ × (Job → Job)) :=
  (id, failedRow job reasonCode now) ::
    runChange (job.maxAttempts ≤ job.attempts) (payloadRun job.payload) (failedRun reasonCode)

theorem writeFailure_wp {gp : GatewayPayload} {job : Job} (hjob : ν.Of job)
    (hgp : payloadRun ν.payload = gp.provisionRunId.toOption)
    (subscription : Option ℕ) (reasonCode : String) (now : Timestamp)
    (hs : Recording a db₀ id ν Φ [] s) :
    (writeFailure id job gp subscription reasonCode now).wp (orderly a db₀)
      (fun | .ok _ => Recording a db₀ id ν Φ (failureChanges id job reasonCode now)
           | .error e => Ended a db₀ id ν (.error e)) s := by
  unfold writeFailure
  refine recording_write rfl (fun t ht => ?_) hs
  have hmark : ∀ subscriptionId u, Recording a db₀ id ν Φ (failureChanges id job reasonCode now) u →
      (markSubscriptionRetry subscriptionId (decide (job.maxAttempts ≤ job.attempts)) reasonCode).wp
        (orderly a db₀)
        (fun | .ok _ => Recording a db₀ id ν Φ (failureChanges id job reasonCode now)
             | .error e => Ended a db₀ id ν (.error e)) u := by
    intro subscriptionId u hu
    refine recording_write rfl (fun v hv => ?_) hu
    refine wp_mono _ _ ?_ (write_phase hv.phase rfl)
    rintro r x ⟨rfl, hx, mo, -, htrace⟩
    refine ⟨?_, htrace ▸ rollbackSeen_cons hv.seen⟩
    simpa [jobChange] using hx
  by_cases hexhausted : job.maxAttempts ≤ job.attempts
  · simp only [Saga.when, hexhausted, decide_true, if_true] at hmark ⊢
    refine updatePayloadRun_wp hgp (fun runId e u x hx hwent => ?_) (fun u hu hsuffix => ?_) ht.phase
    · exact hx.ended_of_uncontained hwent (fun hcont => ht.not_contained rfl hcont) e
    have hchanges : [] ++ jobChange (.updateJob id (failedRow job reasonCode now)) ++
        runChange true (payloadRun ν.payload) (failedRun reasonCode) =
        failureChanges id job reasonCode now := by
      simp [failureChanges, hexhausted, jobChange, hjob.payload]
    have hrec : Recording a db₀ id ν Φ (failureChanges id job reasonCode now) u :=
      ⟨hchanges ▸ hu, rollbackSeen_suffix hsuffix ht.seen⟩
    cases subscription with
    | none => exact hrec
    | some subscriptionId => exact hmark subscriptionId u hrec
  · simp only [Saga.when, hexhausted, decide_false, Bool.false_eq_true, if_false] at hmark ⊢
    have hchanges : [] ++ jobChange (.updateJob id (failedRow job reasonCode now)) =
        failureChanges id job reasonCode now := by
      simp [failureChanges, hexhausted, jobChange, runChange]
    have hrec : Recording a db₀ id ν Φ (failureChanges id job reasonCode now) t := hchanges ▸ ht
    cases subscription with
    | none => exact hrec
    | some subscriptionId => exact hmark subscriptionId t hrec

/-- A recorded failure accounts for the job. -/
theorem failureChanges_land {db : Database} {row job : Job} (reasonCode : String) (now : Timestamp)
    (hjob : ν.Of job) (hrow : ν.Of row) :
    Lands db id row (failedRow job reasonCode now)
      (runChange (job.maxAttempts ≤ job.attempts) (payloadRun job.payload) (failedRun reasonCode)) ∧
    ν.Of (failedRow job reasonCode now row) ∧
    ∀ db', db'.jobs = changeJobs (failureChanges id job reasonCode now) db.jobs →
      ((Doomed (failedRow job reasonCode now row) → Accounted db' (failedRow job reasonCode now row)) ∨
        ((failedRow job reasonCode now row).status = .running ∧
          (failedRow job reasonCode now row).maxAttempts ≤ (failedRow job reasonCode now row).attempts)) ∧
      (status (· = .failed)).holds db' (failedRow job reasonCode now row) := by
  have hsame : payloadRun job.payload = runOf row := by rw [runOf, hjob.payload, hrow.payload]
  refine ⟨⟨rfl, rfl, rfl, Nat.le_refl _, ?_⟩,
    ⟨hrow.gateway, hrow.attempts, hrow.maxAttempts, hrow.payload, by simp [failedRow]⟩,
    fun db' hdb => ⟨.inl fun hdoomed => ⟨rfl, ?_⟩, rfl⟩⟩
  · rw [hsame, runChange]
    split_ifs
    · cases hrun : runOf row with
      | none => exact .inl rfl
      | some runId =>
        exact .inr ⟨runId, failedRun reasonCode, rfl, rfl, fun r => ⟨rfl, by simp [failedRun]⟩⟩
    · exact .inl rfl
  · intro runId run hrun hget
    have hmax : (failedRow job reasonCode now row).maxAttempts ≤ (failedRow job reasonCode now row).attempts :=
      exhausted_of_doomed (by simp [failedRow]) hdoomed
    have hexhausted : job.maxAttempts ≤ job.attempts := by
      rw [hjob.maxAttempts, hjob.attempts, ← hrow.maxAttempts, ← hrow.attempts]
      exact hmax
    have hnamed : payloadRun job.payload = some runId := hsame.trans hrun
    rw [hdb, failureChanges, hnamed] at hget
    simp only [runChange, hexhausted, decide_true, if_true, Option.toList_some, List.map_cons,
      List.map_nil, changeJobs, List.foldl_cons, List.foldl_nil, Table.get_modify,
      Option.map_eq_some_iff] at hget
    obtain ⟨r, -, rfl⟩ := hget
    simp [failedRun]

/-- What is read of a gateway job's payload names its run. -/
theorem jobPayload_run {job : Job} (h : job.payload ≠ .unreadable) :
    ∃ gp, jobPayload job = .ok gp ∧ payloadRun job.payload = gp.provisionRunId.toOption := by
  unfold jobPayload payloadRun
  cases hp : job.payload with
  | gateway gp => exact ⟨gp, rfl, rfl⟩
  | provision _ => exact ⟨_, rfl, rfl⟩
  | unreadable => exact absurd hp h

/-- The row of the job, as the session reads it when it has changed no job. -/
theorem Phase.row_read (h : Phase a db₀ id ν Φ (Pends []) s) {fate : Fate} {v : Option Job}
    (hv : (s.1.sessionCall fate (.getJob id)).1 = .ok v) :
    ∃ row, v = some row ∧ ν.Of row ∧ row.payload ≠ .unreadable := by
  obtain ⟨row, hrow, hν, -⟩ := h.row
  refine ⟨row, ?_, hν, h.books.wellFormed.readable id row hrow hν.gateway⟩
  rw [World.query_ok _ hv, h.pending.view_get, hrow]

theorem recordFailure_ended (hs : Phase a db₀ id ν Φ K s) (hhead : raisedCommit s.2 = false)
    (error : Exn) (now : Timestamp) :
    (recordFailure id error now).wp (orderly a db₀) (Ended a db₀ id ν) s := by
  unfold recordFailure
  rw [wp_bind]
  refine wp_mono _ _ ?_ (rollback_phase hs)
  rintro (e | _) t ⟨ht, u, hwent⟩
  · refine ht.ended_of_uncontained hwent (fun hcont => ?_) e
    obtain hreturned | hraised := hcont
    · cases hreturned
    · rw [hhead] at hraised
      cases hraised
  have hrec : Recording a db₀ id ν Φ [] t := ⟨ht, by rw [hwent.trace]; rfl⟩
  refine probe_wp (c := .getJob id) rfl
    (F := fun v : Option Job => ∃ row, v = some row ∧ ν.Of row ∧ row.payload ≠ .unreadable)
    (fun x fate v hx hv => hx.row_read hv) (fun e u h => h) (fun v u _ hv hu _ => ?_) hrec
  obtain ⟨job, rfl, hjob, hreadable⟩ := hv
  obtain ⟨gp, hgp, hrun⟩ := jobPayload_run hreadable
  rw [hjob.payload] at hrun
  simp only [hgp, wp_bind, wp_ofExcept, bindPost_ok]
  have hgo := payloadSubscription_wp gp (Q := Ended a db₀ id ν) (f := fun subscription => do
      writeFailure id job gp subscription (safeReason error) now
      commit
      pure ⟨id, false, false, !decide (job.maxAttempts ≤ job.attempts), some (safeReason error)⟩)
    (fun e x h => h) (fun subscription x hx => ?_) hu
  · simpa only [wp_bind] using hgo
  rw [wp_bind]
  refine wp_mono _ _ ?_ (writeFailure_wp hjob hrun subscription (safeReason error) now hx)
  rintro (e | _) y hy
  · exact hy
  rw [bindPost_ok, wp_bind]
  refine wp_mono _ _ ?_ (commit_phase ν (status (· = .failed)) hy.phase
    fun db row _ _ hrow _ => failureChanges_land (safeReason error) now hjob hrow)
  rintro (e | _) z ⟨t', -, hz, hphase | ⟨hphase, e', he⟩⟩
  · exact hphase.ended (fun h => nomatch h) e
  · refine hphase.ended_of_uncontained hz (fun hcont => ?_) e
    obtain hreturned | ⟨-, hunseen⟩ := hcont
    · cases hreturned
    · rw [hy.seen] at hunseen
      cases hunseen
  · refine ⟨hphase.plain, hphase.honest (fun h => nomatch h), fun res hres => ?_⟩
    cases hres
    obtain ⟨row, hrow, hν, hfailed⟩ := hphase.row
    have hn : row.attempts = job.attempts := hν.attempts.trans hjob.attempts.symm
    have hm : row.maxAttempts = job.maxAttempts := hν.maxAttempts.trans hjob.maxAttempts.symm
    refine ⟨rfl, ⟨fun hretry => ⟨row, hrow, hν.gateway, fun later hlater => ?_⟩,
      fun hretry _ => ⟨row, hrow, hν.gateway, ?_⟩⟩, hphase.pending⟩
    · have hlt : row.attempts < row.maxAttempts := by
        simp only [Bool.not_eq_true', decide_eq_false_iff_not] at hretry
        omega
      have hgateway : row.jobType = .gatewayReconcile := hν.gateway
      have hstatus : row.status = .failed := hfailed
      simp [Database.claimable, hgateway, hstatus, hlater, hlt]
    · simp only [Bool.not_eq_false', decide_eq_true_eq] at hretry
      omega
  · cases he

end Failure

/-! ### The observer of a lost finalization -/

/-- The run that the job names does not wait for it. -/
def runDone : RowFact where
  holds db row := ∀ runId run, runOf row = some runId → db.jobs.get runId = some run →
    run.status ≠ .running
  stable hsame h runId run hrun hget := h runId run hrun (hsame runId hrun ▸ hget)

def RowFact.and (Φ Ψ : RowFact) : RowFact where
  holds db row := Φ.holds db row ∧ Ψ.holds db row
  stable hsame h := ⟨Φ.stable hsame h.1, Ψ.stable hsame h.2⟩

theorem purchaseFinalizationOutcome_landed {job : JobStatus} {subscription : Option SubscriptionStatus}
    {order : Option OrderStatus} {run : Option JobStatus}
    (h : purchaseFinalizationOutcome (some job) subscription order run = .landed) : job = .succeeded := by
  by_contra hopen
  exact purchaseFinalizationOutcome_open (fun heq => hopen (Option.some.inj heq)) _ _ _ h

theorem purchaseFinalizationOutcome_absent {job : JobStatus} {subscription : Option SubscriptionStatus}
    {order : Option OrderStatus} {run : Option JobStatus}
    (h : purchaseFinalizationOutcome (some job) subscription order run = .absent) : job ≠ .succeeded := by
  rintro rfl
  cases subscription <;> cases order <;> cases run <;>
    simp only [purchaseFinalizationOutcome, ne_eq, not_true, false_and, if_false, reduceCtorEq] at h
  split_ifs at h

section Observer

variable {a : Attempt} {db₀ : Database} {id : ℕ} {ν : Numbers} {Φ : RowFact}
variable {K : List Write → Prop} {L : List (ℕ × (Job → Job))} {s : Traced}

theorem Ended.raise {e : Exn} (h : Ended a db₀ id ν (.error e) s) (e' : Exn) :
    Ended a db₀ id ν (.error e') s := ⟨h.phase, h.honest, fun _ hres => nomatch hres⟩

/-- What the observer may say of a job in the status `st`. -/
structure Observed (a : Attempt) (db₀ : Database) (id : ℕ) (ν : Numbers) (st : JobStatus)
    (o : FinalizationCommitOutcome) (s : Traced) : Prop where
  recording : Recording a db₀ id ν (status (· = st)) [] s
  landed : o = .landed → st = .succeeded
  absent : o = .absent → st ≠ .succeeded
  unknown : o = .unknown → ν.maxAttempts ≤ ν.attempts ∧
    Recording a db₀ id ν ((status (· = st)).and runDone) [] s

/-- What was observed of the four rows at the last probe. -/
theorem observed_purchase {c : Call} {x : Except Exn c.Answer} {past : List WorldMoment} {u : World}
    {st : JobStatus} {subscription : Option SubscriptionStatus} {order : Option OrderStatus}
    {run : Option JobStatus}
    (hs : Recording a db₀ id ν (status (· = st)) [] s) (hwent : Went a c past u x s)
    (hseen : ∀ row, runOf row = payloadRun ν.payload → observedOutcome row ⟨c, x, u, s.1⟩ past =
      some (purchaseFinalizationOutcome (some st) subscription order run)) :
    Observed a db₀ id ν st (purchaseFinalizationOutcome (some st) subscription order run) s := by
  refine ⟨hs, purchaseFinalizationOutcome_landed, purchaseFinalizationOutcome_absent, fun hunknown => ?_⟩
  obtain ⟨row, hrow, hν, hst⟩ := hs.phase.row
  have hjob : a.job (⟨c, x, u, s.1⟩ :: past) = some id := hwent.trace ▸ hs.phase.job
  obtain ⟨hmax, hdone⟩ := hwent.orderly.observed id row hjob hrow (by
    rw [hseen row (by rw [runOf, hν.payload]), hunknown])
  rw [hν.maxAttempts, hν.attempts] at hmax
  exact ⟨hmax, ⟨hs.phase.books, hs.phase.job, ⟨row, hrow, hν, hst, hdone⟩, hs.phase.pending⟩, hs.seen⟩

theorem classify_observed {st : JobStatus} {gp : GatewayPayload}
    (hgp : payloadRun ν.payload = gp.provisionRunId.toOption)
    (horder : gp.operationKind.toOption = some .purchase → gp.orderId.toOption ≠ none)
    (subscriptionId : ℕ) (hs : Recording a db₀ id ν (status (· = st)) [] s) :
    (classifyFinalizationOutcome id subscriptionId gp.orderId.toOption gp.provisionRunId.toOption
      gp.operationKind.toOption).wp (orderly a db₀)
      (fun | .ok o => Observed a db₀ id ν st o
           | .error e => Ended a db₀ id ν (.error e)) s := by
  unfold classifyFinalizationOutcome
  rw [wp_tryCatch]
  refine probe_wp (c := .probeJobStatus id) rfl (F := fun v => v = some st) (fun t fate v ht hv => ?_)
    (fun e t h => h.raise _) (fun job t₁ u₁ hjob h₁ w₁ => ?_) hs
  · obtain ⟨row, hrow, -, hst⟩ := ht.row
    rw [World.query_ok _ hv, hrow, Option.map_some, hst]
  cases hjob
  split_ifs with hkind
  · unfold probePurchaseFinalization
    refine probe_wp rfl (F := fun _ => True) (fun _ _ _ _ _ => trivial) (fun e t h => h.raise _)
      (fun subscription t₂ u₂ _ h₂ w₂ => ?_) h₁
    cases hoid : gp.orderId.toOption with
    | none => exact absurd hoid (horder hkind)
    | some orderId =>
      refine probe_wp rfl (F := fun _ => True) (fun _ _ _ _ _ => trivial) (fun e t h => h.raise _)
        (fun order t₃ u₃ _ h₃ w₃ => ?_) h₂
      cases hrid : gp.provisionRunId.toOption with
      | none =>
        refine observed_purchase h₃ w₃ fun row hrow => ?_
        rw [hgp, hrid] at hrow
        rw [w₂.trace, w₁.trace]
        simp only [observedOutcome, hrow]
      | some runId =>
        refine probe_wp rfl (F := fun _ => True) (fun _ _ _ _ _ => trivial) (fun e t h => h.raise _)
          (fun run t₄ u₄ _ h₄ w₄ => ?_) h₃
        refine observed_purchase h₄ w₄ fun row hrow => ?_
        rw [hgp, hrid] at hrow
        rw [w₃.trace, w₂.trace, w₁.trace]
        simp only [observedOutcome, hrow]
  · refine ⟨h₁, fun h => ?_, fun h => ?_, fun h => ?_⟩
    · by_contra hne
      simp [otherFinalizationOutcome, hne] at h
    · rintro rfl
      simp [otherFinalizationOutcome] at h
    · simp only [otherFinalizationOutcome] at h
      split_ifs at h

end Observer

section Unknown

variable {a : Attempt} {db₀ : Database} {id : ℕ} {ν : Numbers} {Φ : RowFact}
variable {K : List Write → Prop} {L : List (ℕ × (Job → Job))} {s : Traced}

theorem Honest.same {db db' : Database} (h : Honest db) (hrows : ∀ j, db'.jobs.get j = db.jobs.get j) :
    Honest db' := by
  intro j row hrow hdoomed
  have hold := h j row ((hrows j).symm.trans hrow) hdoomed
  exact ⟨hold.1, fun runId run hrun hget => hold.2 runId run hrun ((hrows runId).symm.trans hget)⟩

/-- An end that changes no job keeps what the attempt has reported. -/
theorem Ended.same {r : Except Exn GatewayReconciliationResult} {t u : World} {tr : List WorldMoment}
    {mo : WorldMoment} (h : Ended a db₀ id ν r (t, tr))
    (hrows : ∀ j, u.shared.database.jobs.get j = t.shared.database.jobs.get j)
    (hpending : Pends [] t.session.pending → Pends [] u.session.pending) :
    Ended a db₀ id ν r (u, mo :: tr) := by
  refine ⟨h.phase.same hrows trivial, h.honest.same hrows, fun res hres => ?_⟩
  · obtain ⟨hid, hreported, hnone⟩ := h.report res hres
    refine ⟨hid, ⟨fun hretry => ?_, fun hretry hfinal => ?_⟩, hpending hnone⟩
    · obtain ⟨row, hrow, hrest⟩ := hreported.1 hretry
      exact ⟨row, (hrows _).trans hrow, hrest⟩
    · obtain ⟨row, hrow, hrest⟩ := hreported.2 hretry hfinal
      exact ⟨row, (hrows _).trans hrow, hrest⟩

theorem Ended.interfere {r : Except Exn GatewayReconciliationResult} {w t : World}
    {tr : List WorldMoment} (h : Ended a db₀ id ν r (w, tr)) (hI : AttemptInterferes w t) :
    Ended a db₀ id ν r (t, tr) := by
  refine ⟨h.phase.interfere hI, Honest.interfere h.honest hI, fun res hres => ?_⟩
  obtain ⟨hid, hreported, hnone⟩ := h.report res hres
  refine ⟨hid, ⟨fun hretry => ?_, fun hretry hfinal => ?_⟩, hI.1 ▸ hnone⟩
  · obtain ⟨row, hrow, hg, hrest⟩ := hreported.1 hretry
    exact ⟨row, hI.2.kept _ row hrow hg, hg, hrest⟩
  · obtain ⟨row, hrow, hg, hrest⟩ := hreported.2 hretry hfinal
    exact ⟨row, hI.2.kept _ row hrow hg, hg, hrest⟩

theorem keeps_ended_rollback (r : Except Exn GatewayReconciliationResult) :
    Keeps (orderly a db₀) (Ended a db₀ id ν r) rollback := by
  apply Keeps.call_assured
  intro w tr t fate hs hI _
  have hafter : Ended a db₀ id ν r (t.setPending [],
      ⟨.session .rollback, (t.rollback fate).1, t, t.setPending []⟩ :: tr) :=
    (hs.interfere hI).same (fun _ => rfl) fun _ => pends_nil
  exact ⟨hafter.phase.books, hafter⟩

theorem keeps_ended {c : Call} (hc : c.quiet = true) (r : Except Exn GatewayReconciliationResult) :
    Keeps (orderly a db₀) (Ended a db₀ id ν r) (perform (S := port) c : Saga c.Answer) := by
  apply Keeps.call_assured
  intro w tr t choice hs hI _
  obtain ⟨hdb, hpending⟩ := World.act_quiet hc choice t
  have hafter : Ended a db₀ id ν r ((World.act c choice t).2,
      ⟨c, (World.act c choice t).1, t, (World.act c choice t).2⟩ :: tr) :=
    (hs.interfere hI).same (fun j => by rw [hdb]) fun hnone => hpending.symm ▸ hnone
  exact ⟨hafter.phase.books, hafter⟩

/-- The row accounts for the job. -/
def accounted : RowFact where
  holds := Accounted
  stable hsame h := ⟨h.1, fun runId run hrun hget => h.2 runId run hrun (hsame runId hrun ▸ hget)⟩

def unknownRow (now : Timestamp) (row : Job) : Job :=
  { row with status := .running, lockedAt := some now, lastErrorCode := some finalizationUnknown }

/-- An unknown outcome accounts for the job, when its run does not wait for it. -/
theorem unknownRow_land {db : Database} {row : Job} (now : Timestamp) (hwf : WellFormed db)
    (hrow : db.jobs.get id = some row) (hν : ν.Of row) (hdone : runDone.holds db row) :
    Lands db id row (unknownRow now) [] ∧ ν.Of (unknownRow now row) ∧
    ∀ db', db'.jobs = changeJobs [(id, unknownRow now)] db.jobs →
      ((Doomed (unknownRow now row) → Accounted db' (unknownRow now row)) ∨
        ((unknownRow now row).status = .running ∧
          (unknownRow now row).maxAttempts ≤ (unknownRow now row).attempts)) ∧
      accounted.holds db' (unknownRow now row) := by
  refine ⟨⟨rfl, rfl, rfl, Nat.le_refl _, .inl rfl⟩,
    ⟨hν.gateway, hν.attempts, hν.maxAttempts, hν.payload, fun _ => rfl⟩, fun db' hdb => ?_⟩
  have haccounted : Accounted db' (unknownRow now row) := by
    refine ⟨rfl, fun runId run hrun hget => ?_⟩
    obtain ⟨run₀, hget₀, hplain⟩ := hwf.runs id row runId hrow hν.gateway hrun
    have hne : runId ≠ id := by
      rintro rfl
      rw [hrow] at hget₀
      cases hget₀
      exact hplain hν.gateway
    rw [hdb] at hget
    simp only [changeJobs, List.foldl_cons, List.foldl_nil, Table.get_modify, if_neg hne] at hget
    exact hdone runId run hrun hget
  exact ⟨.inl fun _ => haccounted, haccounted⟩

theorem markSubscriptionUnknown_wp (subscription : Option ℕ) {β : Type} {f : Unit → Saga β}
    {Q : Except Exn β → Traced → Prop}
    (hf : ∀ t, Recording a db₀ id ν Φ L t → (f ()).wp (orderly a db₀) Q t)
    (hs : Recording a db₀ id ν Φ L s) :
    (markSubscriptionUnknown subscription >>= f).wp (orderly a db₀) Q s := by
  rw [wp_bind]
  cases subscription with
  | none => exact hf s hs
  | some subscriptionId =>
    refine recording_write rfl (fun t ht => ?_) hs
    refine wp_mono _ _ ?_ (write_phase ht.phase rfl)
    rintro r u ⟨rfl, hu, mo, -, htrace⟩
    refine hf u ⟨?_, htrace ▸ rollbackSeen_cons ht.seen⟩
    simpa [jobChange] using hu

/-- A job that is accounted for leaves honest books. -/
theorem Phase.honest_of_accounted (h : Phase a db₀ id ν accounted K s) :
    Honest s.1.shared.database := by
  intro j r hr hdoomed
  by_cases hj : a.job s.2 = some j
  · obtain ⟨row, hrow, -, hacc⟩ := h.row
    rw [h.job] at hj
    cases hj
    rw [hrow] at hr
    cases hr
    exact hacc
  · exact h.books.others j r hr hj hdoomed

theorem markFinalizationUnknown_ended {S : JobStatus → Prop} (hmax : ν.maxAttempts ≤ ν.attempts)
    (hs : Phase a db₀ id ν ((status S).and runDone) K s) (hhead : raisedCommit s.2 = false)
    (gp : GatewayPayload) (now : Timestamp) :
    (markFinalizationUnknown id gp now).wp (orderly a db₀) (Ended a db₀ id ν) s := by
  unfold markFinalizationUnknown
  rw [wp_bind]
  refine wp_mono _ _ ?_ (rollback_phase hs)
  rintro (e | _) t ⟨ht, u, hwent⟩
  · refine ht.ended_of_uncontained hwent (fun hcont => ?_) e
    obtain hreturned | hraised := hcont
    · cases hreturned
    · rw [hhead] at hraised
      cases hraised
  have hrec : Recording a db₀ id ν ((status S).and runDone) [] t :=
    ⟨ht, by rw [hwent.trace]; rfl⟩
  have hhandler : ∀ e u, Ended a db₀ id ν (.error e) u →
      (do
        rollback.suppress
        .raise (commitOutcomeUnknown finalizationUnknown) : Saga Unit).wp (orderly a db₀)
        (bindPost (orderly a db₀)
          (fun _ => pure ⟨id, true, false, false, some finalizationUnknown⟩) (Ended a db₀ id ν)) u := by
    intro e u hu
    rw [wp_bind, wp_suppress]
    exact wp_mono _ _ (fun _ v hv => hv.raise _) (keeps_ended_rollback _ u hu)
  rw [bindPost_ok, wp_bind, wp_tryCatch]
  refine probe_wp (c := .getJob id) rfl (F := fun v : Option Job => ∃ row, v = some row)
    (fun x fate v hx hv => ?_) hhandler (fun v x _ hv hx _ => ?_) hrec
  · obtain ⟨row, hrow, -⟩ := hx.row_read hv
    exact ⟨row, hrow⟩
  obtain ⟨row, rfl⟩ := hv
  refine recording_write rfl (fun y hy => ?_) hx
  refine payloadSubscription_wp gp hhandler (fun subscription z hz => ?_) hy
  refine markSubscriptionUnknown_wp subscription (fun v hv => ?_) hz
  refine wp_mono _ _ ?_ (commit_phase ν accounted hv.phase
    fun db row hwf hrow hν hΦ => unknownRow_land now hwf hrow hν hΦ.2)
  rintro (e | _) x ⟨t', -, hx, hphase | ⟨hphase, e', he⟩⟩
  · exact hhandler e x ⟨hphase.plain, hphase.honest_of_accounted, fun _ hres => nomatch hres⟩
  · refine hhandler e x (hphase.ended_of_uncontained hx (fun hcont => ?_) e)
    obtain hreturned | ⟨-, hunseen⟩ := hcont
    · cases hreturned
    · rw [hv.seen] at hunseen
      cases hunseen
  · refine ⟨hphase.plain, hphase.honest_of_accounted, fun res hres => ?_⟩
    cases hres
    obtain ⟨row, hrow, hν, -⟩ := hphase.row
    refine ⟨rfl, ⟨fun hretry => (nomatch hretry), fun _ _ => ⟨row, hrow, hν.gateway, ?_⟩⟩, hphase.pending⟩
    rw [hν.maxAttempts, hν.attempts]
    exact hmax
  · cases he

end Unknown

/-! ### The finalization -/

section Finalizing

variable {a : Attempt} {db₀ : Database} {id : ℕ} {ν : Numbers} {Φ : RowFact}
variable {K : List Write → Prop} {L : List (ℕ × (Job → Job))} {s : Traced}

/-- The attempt failed at a call while its job was in the phase `Φ`. The handlers leave
an exception of their own class alone. -/
structure Broke (a : Attempt) (db₀ : Database) (id : ℕ) (ν : Numbers) (Φ : RowFact) (e : Exn)
    (s : Traced) : Prop where
  phase : Phase a db₀ id ν Φ (fun _ => True) s
  unknown : e.cls = .gatewayCommitOutcomeUnknown → Ended a db₀ id ν (.error e) s

/-- Calls of providers and queries. -/
def outward : Call → Bool
  | .provider _ => true
  | .session c => c.reads
  | _ => false

theorem quiet_of_outward {c : Call} (hc : outward c = true) : c.quiet = true := by
  cases c with
  | provider c => rfl
  | session c => cases c <;> first | rfl | cases hc
  | _ => cases hc

theorem Phase.any (h : Phase a db₀ id ν Φ K s) : Phase a db₀ id ν Φ (fun _ => True) s :=
  ⟨h.books, h.job, h.row, trivial⟩

/-- An exception that the attempt raises by itself. -/
theorem Phase.broke (h : Phase a db₀ id ν Φ K s) (message : String) :
    Broke a db₀ id ν Φ (reconciliationError message) s :=
  ⟨h.any, fun h => nomatch h⟩

theorem Phase.broke_at {c : Call} (hc : outward c = true) {e : Exn} {past : List WorldMoment} {t : World}
    (h : Phase a db₀ id ν Φ K s) (hwent : Went a c past t (.error e) s) : Broke a db₀ id ν Φ e s := by
  refine ⟨h.any, fun hcls => h.ended_of_uncontained hwent (fun hcont => ?_) e⟩
  have hraised : raisedUnknown ⟨c, .error e, t, s.1⟩ = true := by simp [raisedUnknown, hcls]
  obtain hreturned | hrest := hcont
  · cases hreturned
  · have hnot : raisedUnknown ⟨c, .error e, t, s.1⟩ = false := by
      cases c with
      | provider c => exact hrest
      | session c => cases c <;> first | exact hrest.2 | cases hc
      | _ => cases hc
    rw [hraised] at hnot
    cases hnot

/-- A call of a provider or a query, before the attempt has failed. -/
theorem outward_wp {c : Call} (hc : outward c = true) {β : Type} {f : c.Answer → Saga β}
    {Q : Except Exn β → Traced → Prop}
    (herror : ∀ e t, Broke a db₀ id ν Φ e t → Q (.error e) t)
    (hf : ∀ v t, Phase a db₀ id ν Φ K t → (f v).wp (orderly a db₀) Q t)
    (hs : Phase a db₀ id ν Φ K s) :
    ((perform (S := port) c : Saga c.Answer) >>= f).wp (orderly a db₀) Q s := by
  rw [wp_bind]
  refine call_wp hs fun t choice ht hwent => ?_
  obtain ⟨hdb, hpending⟩ := World.act_quiet (quiet_of_outward hc) choice t
  have hafter : ∀ x, Phase a db₀ id ν Φ K ((World.act c choice t).2,
      ⟨c, x, t, (World.act c choice t).2⟩ :: s.2) := by
    refine fun x => ht.same (fun j => by rw [hdb]) ?_
    rw [hpending]
    exact ht.pending
  refine ⟨(hafter _).books, ?_⟩
  cases hx : (World.act c choice t).1 with
  | error e =>
    rw [hx] at hwent
    exact herror e _ ((hafter _).broke_at hc hwent)
  | ok v => exact hf v _ (hafter _)

/-- A change of another table, on the way through the finalization. -/
theorem write_other {change : Write} (hc : insertsJob change = false) (hj : jobChange change = [])
    {β : Type} {f : Unit → Saga β} {Q : Except Exn β → Traced → Prop}
    (hf : ∀ t, Phase a db₀ id ν Φ (Pends L) t → (f ()).wp (orderly a db₀) Q t)
    (hs : Phase a db₀ id ν Φ (Pends L) s) :
    (session (.write change) >>= f).wp (orderly a db₀) Q s := by
  rw [wp_bind]
  refine wp_mono _ _ ?_ (write_phase hs hc)
  rintro r t ⟨rfl, ht, -⟩
  rw [hj, List.append_nil] at ht
  exact hf t ht

theorem orNow_wp (at' : Option Timestamp) {β : Type} {f : Timestamp → Saga β}
    {Q : Except Exn β → Traced → Prop} (herror : ∀ e t, Broke a db₀ id ν Φ e t → Q (.error e) t)
    (hf : ∀ v t, Phase a db₀ id ν Φ K t → (f v).wp (orderly a db₀) Q t)
    (hs : Phase a db₀ id ν Φ K s) : (orNow at' >>= f).wp (orderly a db₀) Q s := by
  cases at' with
  | none => exact outward_wp rfl herror hf hs
  | some at' => exact hf at' s hs

/-- The business changes of a finalized purchase change no job; they need its order. -/
theorem finalizePurchase_phase (subscriptionId : ℕ) (gp : GatewayPayload)
    (hs : Phase a db₀ id ν Φ (Pends L) s) :
    (finalizePurchase subscriptionId gp).wp (orderly a db₀)
      (fun | .ok _ => fun t => Phase a db₀ id ν Φ (Pends L) t ∧ gp.orderId.toOption ≠ none
           | .error e => Broke a db₀ id ν Φ e) s := by
  unfold finalizePurchase
  split
  · rename_i orderId horder
    refine outward_wp (c := .session (.getOrder orderId)) rfl (fun _ _ h => h) (fun order t ht => ?_) hs
    cases order with
    | none => exact ht.broke _
    | some order =>
      refine orNow_wp _ (fun _ _ h => h) (fun at' u hu => ?_) ht
      refine write_other rfl rfl (fun v hv => ?_) hu
      refine wp_mono _ _ ?_ (write_phase hv rfl)
      rintro r x ⟨rfl, hx, -⟩
      exact ⟨by simpa [jobChange] using hx, by simp [horder, Field.toOption]⟩
  · exact hs.broke _

def succeededRow (row : Job) : Job :=
  { row with status := .succeeded, lockedAt := none, lastErrorCode := none }

def succeededRun (run : Job) : Job := { run with status := .succeeded, lastErrorCode := none }

/-- The changes of jobs in a finalization. -/
def finalChanges (id : ℕ) (payload : JobPayload) : List (ℕ × (Job → Job)) :=
  (id, succeededRow) :: runChange true (payloadRun payload) succeededRun

/-- A finalization resolves the job. -/
theorem finalChanges_land {db : Database} {row : Job} (hν : ν.Of row) :
    Lands db id row succeededRow (runChange true (payloadRun ν.payload) succeededRun) ∧
    ν.Of (succeededRow row) ∧
    ∀ db', db'.jobs = changeJobs (finalChanges id ν.payload) db.jobs →
      ((Doomed (succeededRow row) → Accounted db' (succeededRow row)) ∨
        ((succeededRow row).status = .running ∧
          (succeededRow row).maxAttempts ≤ (succeededRow row).attempts)) ∧
      (status (· = .succeeded)).holds db' (succeededRow row) := by
  refine ⟨⟨rfl, rfl, rfl, Nat.le_refl _, ?_⟩,
    ⟨hν.gateway, hν.attempts, hν.maxAttempts, hν.payload, by simp [succeededRow]⟩,
    fun db' _ => ⟨.inl fun hdoomed => ?_, rfl⟩⟩
  · cases hrun : payloadRun ν.payload with
    | none => exact .inl rfl
    | some runId =>
      exact .inr ⟨runId, succeededRun, rfl, by rw [runOf, hν.payload, hrun],
        fun r => ⟨rfl, by simp [succeededRun]⟩⟩
  · have := hdoomed.1
    simp [Database.unresolved, succeededRow] at this

/-- What a finalization that was written has checked. -/
def OrderNamed (gp : GatewayPayload) : Prop :=
  gp.operationKind.toOption = some .purchase → gp.orderId.toOption ≠ none

theorem finalize_phase {gp : GatewayPayload}
    (hgp : payloadRun ν.payload = gp.provisionRunId.toOption)
    (hs : Phase a db₀ id ν Φ (Pends []) s) :
    (finalize id gp).wp (orderly a db₀)
      (fun | .ok _ => fun t => Phase a db₀ id ν Φ (Pends (finalChanges id ν.payload)) t ∧
              OrderNamed gp
           | .error e => Broke a db₀ id ν Φ e) s := by
  unfold finalize
  split
  · rename_i subscriptionId _
    refine outward_wp (c := .session (.getSubscription subscriptionId)) rfl (fun _ _ h => h)
      (fun subscription t ht => ?_) hs
    cases subscription with
    | none => exact ht.broke _
    | some _ =>
      have htail : ∀ u, Phase a db₀ id ν Φ (Pends []) u → OrderNamed gp →
          (do
            session (.write (.updateJob id succeededRow))
            auditSubscription "GATEWAY_RECONCILIATION_SUCCEEDED" subscriptionId "SUCCESS"
              "DB desired state, runtime projection, and finalization committed"
            updatePayloadRun gp succeededRun : Saga Unit).wp (orderly a db₀)
          (fun | .ok _ => fun t =>
                  Phase a db₀ id ν Φ (Pends (finalChanges id ν.payload)) t ∧
                    OrderNamed gp
               | .error e => Broke a db₀ id ν Φ e) u := by
        intro u hu hnamed
        rw [wp_bind]
        refine wp_mono _ _ ?_ (write_phase hu rfl)
        rintro r v ⟨rfl, hv, -⟩
        refine write_other rfl rfl (fun x hx => ?_) hv
        have hlast := updatePayloadRun_wp (f := fun _ => pure ()) (g := succeededRun)
          (Q := fun
            | .ok _ => fun t =>
              Phase a db₀ id ν Φ (Pends (finalChanges id ν.payload)) t ∧ OrderNamed gp
            | .error e => Broke a db₀ id ν Φ e)
          hgp (fun _ _ _ _ h hwent => h.broke_at rfl hwent) (fun y hy _ => ⟨hy, hnamed⟩) hx
        rw [wp_bind] at hlast
        refine wp_mono _ _ ?_ hlast
        rintro (e | _) y hy
        · exact hy
        · exact hy
      rw [wp_bind]
      by_cases hkind : gp.operationKind = .value .purchase
      · simp only [Saga.when, hkind, decide_true, if_true]
        refine wp_mono _ _ ?_ (finalizePurchase_phase subscriptionId gp ht)
        rintro (e | _) u hu
        · exact hu
        · exact htail u hu.1 fun _ => hu.2
      · simp only [Saga.when, hkind, decide_false, Bool.false_eq_true, if_false]
        refine htail t ht fun hpurchase => ?_
        cases hfield : gp.operationKind with
        | value kind =>
          rw [hfield] at hpurchase hkind
          exact absurd (congrArg Field.value (Option.some.inj hpurchase)) hkind
        | _ => rw [hfield] at hpurchase; cases hpurchase
  · exact hs.broke _

end Finalizing

/-! ### A whole attempt -/

section Whole

variable {a : Attempt} {db₀ : Database} {id : ℕ} {ν : Numbers} {Φ : RowFact}
variable {K : List Write → Prop} {L : List (ℕ × (Job → Job))} {s : Traced}

/-- The clock answers, and its call separates a lost commit from the handler's rollback. -/
theorem now_wp {β : Type} {f : Timestamp → Saga β} {Q : Except Exn β → Traced → Prop}
    (hf : ∀ at' t, Phase a db₀ id ν Φ K t → raisedCommit t.2 = false → (f at').wp (orderly a db₀) Q t)
    (hs : Phase a db₀ id ν Φ K s) : (now >>= f).wp (orderly a db₀) Q s := by
  rw [wp_bind]
  refine call_wp hs fun t choice ht _ => ?_
  obtain ⟨x, took⟩ := choice
  have hafter : ∀ x, Phase a db₀ id ν Φ K (t, ⟨.provider .now, x, t, t⟩ :: s.2) :=
    fun x => ht.same (fun _ => rfl) ht.pending
  cases x with
  | error e => exact ⟨(hafter _).books, hf 0 _ (hafter _) rfl⟩
  | ok at' => exact ⟨(hafter _).books, hf at' _ (hafter _) rfl⟩

theorem settleFinalization_ended {st : JobStatus} (hst : st = .running ∨ st = .succeeded)
    {gp : GatewayPayload} (hgp : payloadRun ν.payload = gp.provisionRunId.toOption)
    (hnamed : OrderNamed gp) (subscriptionId : ℕ) (commitError : Exn)
    (hs : Phase a db₀ id ν (status (· = st)) K s) :
    (settleFinalization id subscriptionId gp commitError).wp (orderly a db₀) (Ended a db₀ id ν) s := by
  unfold settleFinalization
  rw [wp_bind, wp_suppress]
  refine wp_mono _ _ ?_ (rollback_phase hs)
  rintro r t ⟨ht, u, hwent⟩
  have hrec : Recording a db₀ id ν (status (· = st)) [] t :=
    ⟨ht, by rw [hwent.trace]; rfl⟩
  rw [bindPost_ok, wp_bind]
  refine wp_mono _ _ ?_ (classify_observed hgp hnamed subscriptionId hrec)
  rintro (e | o) v hv
  · exact hv
  · cases o with
    | landed =>
      have hsucceeded := hv.landed rfl
      subst hsucceeded
      simp only [bindPost_ok, wp_bind, wp_suppress]
      refine wp_mono _ _ ?_ (rollback_phase hv.recording.phase)
      rintro r x ⟨hx, -⟩
      refine ⟨hx.plain, hx.honest (fun h => nomatch h), fun res hres => ?_⟩
      cases hres
      exact ⟨rfl, ⟨fun h => (nomatch h), fun _ h => (nomatch h)⟩, hx.pending⟩
    | absent =>
      obtain rfl | rfl := hst
      · exact now_wp (fun at' x hx hhead => recordFailure_ended hx hhead _ _) hv.recording.phase
      · exact absurd rfl (hv.absent rfl)
    | unknown =>
      obtain ⟨hmax, hdone⟩ := hv.unknown rfl
      exact now_wp (fun at' x hx hhead => markFinalizationUnknown_ended hmax hx hhead _ _) hdone.phase

/-- What the body of an attempt leaves for its handler. -/
def Attempting (a : Attempt) (db₀ : Database) (id : ℕ) (ν : Numbers)
    (r : Except Exn GatewayReconciliationResult) (s : Traced) : Prop :=
  Ended a db₀ id ν r s ∨ ∃ e, r = .error e ∧ Broke a db₀ id ν (status (· = .running)) e s

theorem checkedPayload_error {gp : GatewayPayload} {e : Exn} (h : checkedPayload gp = .error e) :
    e.cls ≠ .gatewayCommitOutcomeUnknown := by
  unfold checkedPayload at h
  split at h
  · split_ifs at h <;> cases h <;> simp [reconciliationError]
  · cases h
    simp [reconciliationError]

theorem commitFinalization_attempting {gp : GatewayPayload}
    (hgp : payloadRun ν.payload = gp.provisionRunId.toOption)
    (hs : Phase a db₀ id ν (status (· = .running)) (Pends []) s) :
    (commitFinalization id gp).wp (orderly a db₀) (Attempting a db₀ id ν) s := by
  unfold commitFinalization
  rw [wp_bind]
  refine wp_mono _ _ ?_ (finalize_phase hgp hs)
  rintro (e | _) t ht
  · exact .inr ⟨e, rfl, ht⟩
  obtain ⟨ht, hnamed⟩ := ht
  rw [bindPost_ok, wp_bind, wp_ofExcept]
  cases hchecked : checkedPayload gp with
  | error e => exact .inr ⟨e, rfl, ht.any, fun hcls => absurd hcls (checkedPayload_error hchecked)⟩
  | ok subscriptionId =>
    rw [bindPost_ok, wp_bind, wp_attempt]
    refine wp_mono _ _ ?_ (commit_phase ν (status (· = .succeeded)) ht
      fun db row _ _ hν _ => finalChanges_land hν)
    rintro (commitError | _) u ⟨t', -, hu, hphase | ⟨hphase, e', he⟩⟩
    · refine wp_mono _ _ (fun _ _ h => .inl h) ?_
      exact settleFinalization_ended (.inr rfl) hgp hnamed subscriptionId commitError hphase
    · refine wp_mono _ _ (fun _ _ h => .inl h) ?_
      exact settleFinalization_ended (.inl rfl) hgp hnamed subscriptionId commitError hphase
    · refine .inl ⟨hphase.plain, hphase.honest (fun h => nomatch h), fun res hres => ?_⟩
      cases hres
      exact ⟨rfl, ⟨fun h => (nomatch h), fun _ h => (nomatch h)⟩, hphase.pending⟩
    · cases he

theorem applyProjection_phase (hs : Phase a db₀ id ν Φ K s) :
    applyProjection.wp (orderly a db₀)
      (fun | .ok _ => Phase a db₀ id ν Φ K | .error e => Broke a db₀ id ν Φ e) s := by
  refine outward_wp (c := .session .routingSnapshot) rfl (fun _ _ h => h) (fun desired t ht => ?_) hs
  refine outward_wp (c := .provider (.gatewayRender desired)) rfl (fun _ _ h => h)
    (fun candidate u hu => ?_) ht
  refine outward_wp (c := .provider (.gatewayValidate candidate)) rfl (fun _ _ h => h)
    (fun validation v hv => ?_) hu
  rw [wp_ite]
  refine ⟨fun _ => hv.broke _, fun _ => ?_⟩
  refine outward_wp (c := .provider (.gatewayApply candidate)) rfl (fun _ _ h => h)
    (fun applied x hx => ?_) hv
  rw [wp_ite]
  exact ⟨fun _ => hx.broke _, fun _ => hx⟩

/-- A claimed job is resolved, recorded as failed, or can be claimed again. -/
theorem reconcileClaimedJob_ended {job : Job} (hjob : ν.Of job) (hreadable : job.payload ≠ .unreadable)
    (hs : Phase a db₀ id ν (status (· = .running)) (Pends []) s) :
    (reconcileClaimedJob id job).wp (orderly a db₀) (Ended a db₀ id ν) s := by
  obtain ⟨gp, hpayload, hgp⟩ := jobPayload_run hreadable
  rw [hjob.payload] at hgp
  simp only [reconcileClaimedJob, hpayload, wp_bind, wp_ofExcept, bindPost_ok, wp_tryCatch]
  have hhandler : ∀ r t, Attempting a db₀ id ν r t → catchPost (orderly a db₀) (fun exc =>
      if exc.cls = .gatewayCommitOutcomeUnknown then .raise exc
      else do
        let now ← now
        recordFailure id exc now) (Ended a db₀ id ν) r t := by
    rintro (exc | result) t (hended | ⟨e, he, hbroke⟩)
    · rw [catchPost_error, wp_ite]
      refine ⟨fun _ => hended, fun _ => ?_⟩
      exact now_wp (fun at' u hu hhead => recordFailure_ended hu hhead exc at') hended.phase
    · cases he
      rw [catchPost_error, wp_ite]
      refine ⟨fun hcls => hbroke.unknown hcls, fun _ => ?_⟩
      exact now_wp (fun at' u hu hhead => recordFailure_ended hu hhead exc at') hbroke.phase
    · exact hended
    · cases he
  refine wp_mono _ _ ?_ (applyProjection_phase hs)
  rintro (e | _) t ht
  · exact hhandler _ _ (.inr ⟨e, rfl, ht⟩)
  · exact wp_mono _ _ hhandler (commitFinalization_attempting hgp ht)

end Whole

end Lingsway.Infra
