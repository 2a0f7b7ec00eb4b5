import Lingsway.Infra.RetryAccounting

/-!
# Histories of attempts

A history is a sequence of attempts, each finished or crashed, with what others
do in between. The accounting of its jobs is honest as long as no failure of a
last allowed attempt stays unrecorded and no finalization is left unknown.
-/
namespace Lingsway.Infra

open Library Saga Program

/-! ### The claim -/

section Claim

variable {a : Attempt} {db₀ : Database} {id : ℕ} {ν : Numbers}
variable {K : List Write → Prop} {s : Traced}

/-- The job is not in its last allowed attempt. -/
def spare : RowFact where
  holds _ row := row.status = .running → row.attempts < row.maxAttempts
  stable _ h := h

theorem Phase.not_openLast (h : Phase a db₀ id ν spare K s) : ¬ OpenLast s.1.shared.database id := by
  rintro ⟨row, hrow, hrunning, hmax⟩
  obtain ⟨row', hrow', -, hspare⟩ := h.row
  rw [hrow] at hrow'
  cases hrow'
  exact absurd hmax (Nat.not_le.mpr (hspare hrunning))

theorem Phase.ended_of_spare (h : Phase a db₀ id ν spare K s) (e : Exn) :
    Ended a db₀ id ν (.error e) s := by
  refine ⟨h.plain, h.books.honest fun j hj => ?_, fun _ hres => nomatch hres⟩
  have hjob := h.job
  rw [hj] at hjob
  cases hjob
  exact h.not_openLast

def claimedRow (job : Job) (now : Timestamp) (row : Job) : Job :=
  { row with status := .running, lockedAt := some now, attempts := job.attempts + 1 }

def Numbers.next (ν : Numbers) : Numbers := { ν with attempts := ν.attempts + 1 }

/-- A claim leaves a job that can be claimed again, or one in its last attempt. -/
theorem claimedRow_land {db : Database} {row job : Job} (now : Timestamp) (hjob : ν.Of job)
    (hrow : ν.Of row) :
    Lands db id row (claimedRow job now) [] ∧ ν.next.Of (claimedRow job now row) ∧
    ∀ db', db'.jobs = changeJobs [(id, claimedRow job now)] db.jobs →
      ((Doomed (claimedRow job now row) → Accounted db' (claimedRow job now row)) ∨
        ((claimedRow job now row).status = .running ∧
          (claimedRow job now row).maxAttempts ≤ (claimedRow job now row).attempts)) ∧
      (status (· = .running)).holds db' (claimedRow job now row) := by
  have hattempts : row.attempts ≤ job.attempts + 1 := by
    rw [hrow.attempts, hjob.attempts]
    exact Nat.le_succ _
  refine ⟨⟨rfl, rfl, rfl, hattempts, .inl rfl⟩,
    ⟨hrow.gateway, by simp [claimedRow, Numbers.next, hjob.attempts], hrow.maxAttempts, hrow.payload,
      fun _ => rfl⟩, fun db' _ => ⟨?_, rfl⟩⟩
  by_cases hmax : row.maxAttempts ≤ job.attempts + 1
  · exact .inr ⟨rfl, hmax⟩
  · exact .inl fun hdoomed => absurd (exhausted_of_doomed (fun _ => rfl) hdoomed) hmax

/-- A claim commit that raised has not opened a last attempt. -/
theorem writeClaim_phase {job : Job} (now : Timestamp) (hjob : ν.Of job)
    (hs : Phase a db₀ id ν spare (Pends []) s) :
    (writeClaim id job now).wp (orderly a db₀)
      (fun | .ok row => fun t => Phase a db₀ id ν.next (status (· = .running)) (Pends []) t ∧
              row = claimed job now
           | .error e => fun t => ∃ ν', Ended a db₀ id ν' (.error e) t) s := by
  unfold writeClaim
  rw [wp_bind]
  refine wp_mono _ _ ?_ (write_phase hs rfl)
  rintro r t ⟨rfl, ht, -⟩
  rw [bindPost_ok, wp_bind]
  refine wp_mono _ _ ?_ (commit_phase ν.next (status (· = .running)) ht
    fun db row _ _ hrow _ => claimedRow_land now hjob hrow)
  rintro (e | _) u ⟨t', hbefore, hu, hphase | ⟨hphase, e', he⟩⟩
  · refine ⟨ν.next, hphase.ended_of_uncontained hu (fun hcont => ?_) e⟩
    obtain hreturned | ⟨hopen, -⟩ := hcont
    · cases hreturned
    · exact hbefore.not_openLast hopen
  · exact ⟨ν, hphase.ended_of_spare e⟩
  · exact ⟨hphase, rfl⟩
  · cases he

/-- The numbers of a row. -/
def numbersOf (row : Job) : Numbers := ⟨row.attempts, row.maxAttempts, row.payload⟩

theorem numbersOf_of {row : Job} (hg : isGateway row) (hl : row.status = .running → row.lockedAt.isSome) :
    (numbersOf row).Of row := ⟨hg, rfl, rfl, rfl, hl⟩

theorem claimed_of {job : Job} (now : Timestamp) (hjob : ν.Of job) : ν.next.Of (claimed job now) :=
  ⟨hjob.gateway, by simp [claimed, Numbers.next, hjob.attempts], hjob.maxAttempts, hjob.payload,
    fun _ => rfl⟩

/-- Claim the job in hand, and reconcile it. -/
theorem takeJob_ended {job : Job} (now : Timestamp) (hjob : ν.Of job) (hreadable : job.payload ≠ .unreadable)
    (hs : Phase a db₀ id ν spare (Pends []) s) :
    (do
      let row ← writeClaim id job now
      reconcileClaimedJob id row : Saga _).wp (orderly a db₀)
      (fun r t => ∃ ν', Ended a db₀ id ν' r t) s := by
  rw [wp_bind]
  refine wp_mono _ _ ?_ (writeClaim_phase now hjob hs)
  rintro (e | row) t ht
  · exact ht
  · obtain ⟨ht, rfl⟩ := ht
    refine wp_mono _ _ (fun _ _ h => ⟨ν.next, h⟩) ?_
    exact reconcileClaimedJob_ended (claimed_of now hjob) hreadable ht

end Claim

/-! ### Before the claim -/

section Unclaimed

variable {a : Attempt} {db₀ : Database} {s : Traced}

/-- The attempt has not claimed a job yet. -/
structure Unclaimed (a : Attempt) (db₀ : Database) (s : Traced) : Prop where
  books : Books a db₀ s
  job : a.job s.2 = none
  honest : Honest s.1.shared.database
  pending : Pends [] s.1.session.pending

theorem job_none_cons {tr : List WorldMoment} {m : WorldMoment} (h : a.job tr = none)
    (hm : claimOf m = none) : a.job (m :: tr) = none := by
  cases a with
  | automatic =>
    simp only [Attempt.job, Option.map_eq_none_iff] at h
    simp only [Attempt.job, firstClaim, h, hm, Option.or_none, Option.map_none]
  | inSession jobId => cases h

theorem Unclaimed.interfere {w t : World} {tr : List WorldMoment} (h : Unclaimed a db₀ (w, tr))
    (hI : AttemptInterferes w t) : Unclaimed a db₀ (t, tr) :=
  ⟨h.books.interfere hI, h.job, Honest.interfere h.honest hI, hI.1 ▸ h.pending⟩

/-- A step that claims nothing and changes no job. -/
theorem Unclaimed.same {t u : World} {tr : List WorldMoment} {m : WorldMoment}
    (h : Unclaimed a db₀ (t, tr)) (hm : claimOf m = none)
    (hrows : ∀ j, u.shared.database.jobs.get j = t.shared.database.jobs.get j)
    (hpending : u.session.pending = t.session.pending) : Unclaimed a db₀ (u, m :: tr) := by
  have hjob : a.job (m :: tr) = none := job_none_cons h.job hm
  refine ⟨h.books.same (hjob.trans h.job.symm) hrows, hjob, h.honest.same hrows, ?_⟩
  rw [hpending]
  exact h.pending

/-- A claim puts the job that it selects under attempt. -/
theorem Unclaimed.claimed {t : World} {tr : List WorldMoment} {m : WorldMoment} {id : ℕ}
    (h : Unclaimed a db₀ (t, tr)) (hjob : a.job (m :: tr) = some id)
    (hattempts : ∀ row, db₀.jobs.get id = some row → isGateway row → row.attempts < row.maxAttempts) :
    Books a db₀ (t, m :: tr) := by
  refine ⟨h.books.wellFormed, ?_, ?_, ?_, ?_⟩
  · intro j row hrow hg
    obtain ⟨row', hrow', hg', hle, hmax, hsame⟩ := h.books.progress j row hrow hg
    exact ⟨row', hrow', hg', hle, hmax, fun _ => hsame (by rw [h.job]; simp)⟩
  · exact fun j row hrow _ hdoomed => h.honest j row hrow hdoomed
  · exact fun j row _ hrow => .inl (h.honest j row hrow)
  · intro j row _ hj hrow hg
    rw [hjob] at hj
    cases hj
    exact hattempts row hrow hg

theorem keeps_unclaimed {c : Call} (hc : c.quiet = true) (hclaim : ∀ x t u, claimOf ⟨c, x, t, u⟩ = none) :
    Keeps (orderly a db₀) (Unclaimed a db₀) (perform (S := port) c : Saga c.Answer) := by
  apply Keeps.call_assured
  intro w tr t choice hs hI _
  obtain ⟨hdb, hpending⟩ := World.act_quiet hc choice t
  have ht := hs.interfere hI
  have hafter : Unclaimed a db₀ ((World.act c choice t).2,
      ⟨c, (World.act c choice t).1, t, (World.act c choice t).2⟩ :: tr) :=
    ht.same (hclaim _ _ _) (fun j => by rw [hdb]) hpending
  exact ⟨hafter.books, hafter⟩

/-- What the claim has selected. -/
def Selected (a : Attempt) (db₀ : Database) : Except Exn (Option (Entity Job)) → Traced → Prop
  | .ok (some job), s => ∃ ν : Numbers, Phase a db₀ job.id ν spare (Pends []) s ∧ ν.Of job.row ∧
      job.row.payload ≠ .unreadable
  | _, s => Unclaimed a db₀ s

theorem claimable_allowed {now : Timestamp} {row : Job} (h : Database.claimable now row = true) :
    isGateway row ∧ row.attempts < row.maxAttempts ∧ (row.status = .running → row.lockedAt.isSome) := by
  simp only [Database.claimable, Bool.and_eq_true, decide_eq_true_eq, Bool.or_eq_true] at h
  obtain ⟨⟨⟨hg, hstatus⟩, -⟩, hattempts⟩ := h
  refine ⟨hg, hattempts, fun hrunning => ?_⟩
  obtain (hpending | hfailed) | ⟨-, hlocked⟩ := hstatus
  · rw [hrunning] at hpending
    cases hpending
  · rw [hrunning] at hfailed
    cases hfailed
  · cases hlock : row.lockedAt with
    | none => rw [hlock] at hlocked; cases hlocked
    | some at' => rfl

/-- The claim's query selects a job with attempts left. -/
theorem claimableJob_selected (now : Timestamp) (hs : Unclaimed .automatic db₀ s) :
    (session (.claimableJob now)).wp (orderly .automatic db₀) (Selected .automatic db₀) s := by
  obtain ⟨w, tr⟩ := s
  simp only [session, perform, wp_call_assured, wp_ofExcept]
  intro t hI fate _
  have ht := hs.interfere hI
  have hnone : firstClaim tr = none := by simpa only [Attempt.job, Option.map_eq_none_iff] using ht.job
  have hsame : ∀ x, claimOf ⟨.session (.claimableJob now), x, t, t⟩ = none →
      Unclaimed .automatic db₀ (t, ⟨.session (.claimableJob now), x, t, t⟩ :: tr) :=
    fun x hx => ht.same hx (fun _ => rfl) rfl
  change Books .automatic db₀ (t, ⟨.session (.claimableJob now), (t.sessionCall fate (.claimableJob now)).1, t, t⟩ :: tr) ∧
    Selected .automatic db₀ (t.sessionCall fate (.claimableJob now)).1
      (t, ⟨.session (.claimableJob now), (t.sessionCall fate (.claimableJob now)).1, t, t⟩ :: tr)
  cases hx : (t.sessionCall fate (.claimableJob now)).1 with
  | error e => exact ⟨(hsame _ rfl).books, hsame _ rfl⟩
  | ok found =>
    have hfound := World.query_ok _ hx
    cases found with
    | none => exact ⟨(hsame _ rfl).books, hsame _ rfl⟩
    | some job =>
      obtain ⟨hview, hclaimable⟩ := Table.find_some hfound.symm
      have hrow : t.shared.database.jobs.get job.id = some job.row := by
        rw [← ht.pending.view_get]
        exact hview
      obtain ⟨hg, hattempts, hlocked⟩ := claimable_allowed hclaimable
      have hjob : Attempt.automatic.job
          (⟨.session (.claimableJob now), .ok (some job), t, t⟩ :: tr) = some job.id := by
        simp only [Attempt.job, firstClaim, hnone, claimOf, Option.none_or, Option.map_some]
      have hbooks : Books .automatic db₀
          (t, ⟨.session (.claimableJob now), .ok (some job), t, t⟩ :: tr) :=
        ht.claimed hjob fun row hold hgold => by
          obtain ⟨row', hrow', -, -, -, hsame'⟩ := ht.books.progress job.id row hold hgold
          rw [hsame' (by rw [ht.job]; simp), hrow] at hrow'
          cases hrow'
          exact hattempts
      refine ⟨hbooks, numbersOf job.row, ⟨hbooks, hjob, ⟨job.row, hrow, numbersOf_of hg hlocked, ?_⟩,
        ht.pending⟩, numbersOf_of hg hlocked, ?_⟩
      · exact fun _ => hattempts
      · exact ht.books.wellFormed.readable job.id job.row hrow hg

/-- The end of an attempt that has claimed nothing, or has gone through its job. -/
inductive Halted (a : Attempt) (db₀ : Database) (r : Except Exn (Option GatewayReconciliationResult))
    (s : Traced) : Prop where
  | unclaimed (h : Unclaimed a db₀ s) (hr : ∀ res, r ≠ .ok (some res))
  | ended {id : ℕ} {ν : Numbers} {r' : Except Exn GatewayReconciliationResult}
      (h : Ended a db₀ id ν r' s) (hr : ∀ res, r = .ok (some res) → r' = .ok res)

theorem Halted.raise {r : Except Exn (Option GatewayReconciliationResult)} (h : Halted a db₀ r s)
    (e : Exn) : Halted a db₀ (.error e) s := by
  cases h with
  | unclaimed h _ => exact .unclaimed h fun _ hres => nomatch hres
  | ended h _ => exact .ended h fun _ hres => nomatch hres

theorem keeps_halted {c : Call} (hc : c.quiet = true) (hclaim : ∀ x t u, claimOf ⟨c, x, t, u⟩ = none)
    (r : Except Exn (Option GatewayReconciliationResult)) :
    Keeps (orderly a db₀) (Halted a db₀ r) (perform (S := port) c : Saga c.Answer) := by
  intro s hs
  cases hs with
  | unclaimed h hr => exact wp_mono _ _ (fun _ _ h => .unclaimed h hr) (keeps_unclaimed hc hclaim s h)
  | ended h hr => exact wp_mono _ _ (fun _ _ h => .ended h hr) (keeps_ended hc _ s h)

/-- The outcome of an attempt whose job is known. -/
theorem halted_some {id : ℕ} {body : Saga GatewayReconciliationResult}
    (h : body.wp (orderly a db₀) (fun r t => ∃ ν, Ended a db₀ id ν r t) s) :
    (do
      let result ← body
      pure (some result) : Saga _).wp (orderly a db₀) (Halted a db₀) s := by
  rw [wp_bind]
  refine wp_mono _ _ ?_ h
  rintro (e | result) t ⟨ν, ht⟩
  · exact .ended ht fun _ hres => nomatch hres
  · refine .ended ht fun res hres => ?_
    cases hres
    rfl

/-- The locked part: claim, and reconcile what was claimed. -/
theorem lockedPart_halted (hs : Unclaimed .automatic db₀ s) :
    (do
      let now ← now
      match ← claimJob now with
      | none => pure none
      | some job => do
        let result ← reconcileClaimedJob job.id job.row
        pure (some result) : Saga (Option GatewayReconciliationResult)).wp (orderly .automatic db₀)
      (Halted .automatic db₀) s := by
  refine Keeps.wp_bind (keeps_unclaimed (c := .provider .now) rfl fun _ _ _ => rfl)
    (fun e _ h => .unclaimed h fun _ hres => nomatch hres) (fun now t ht => ?_) hs
  rw [wp_bind]
  unfold claimJob
  rw [wp_bind]
  refine wp_mono _ _ ?_ (claimableJob_selected now ht)
  rintro (e | found) u hu
  · exact .unclaimed hu fun _ hres => nomatch hres
  cases found with
  | none => exact .unclaimed hu fun _ hres => nomatch hres
  | some job =>
    obtain ⟨ν, hphase, hν, hreadable⟩ := hu
    have h := halted_some (takeJob_ended now hν hreadable hphase)
    simp only [wp_bind, bindPost_ok] at h ⊢
    refine wp_mono _ _ ?_ h
    rintro (e | row) v hv
    · exact hv
    · simp only [bindPost_ok, wp_bind, wp_pure] at hv ⊢
      exact hv

end Unclaimed

/-! ### The whole attempt -/

section Program

variable {a : Attempt} {db₀ : Database} {s : Traced}

theorem keeps_ended_audit {id : ℕ} {ν : Numbers} (entry : AuditLog)
    (r : Except Exn GatewayReconciliationResult) :
    Keeps (orderly a db₀) (Ended a db₀ id ν r) (session (.write (.addAuditLog entry))) := by
  apply Keeps.call_assured
  intro w tr t fate hs hI _
  have hafter : Ended a db₀ id ν r (t.stage [.addAuditLog entry],
      ⟨.session (.write (.addAuditLog entry)), .ok (), t, t.stage [.addAuditLog entry]⟩ :: tr) :=
    (hs.interfere hI).same (fun _ => rfl) fun hnone => by simpa [jobChange] using hnone.append rfl
  exact ⟨hafter.phase.books, hafter⟩

/-- A commit without changes of jobs. -/
theorem keeps_ended_commit {id : ℕ} {ν : Numbers} (result : GatewayReconciliationResult) :
    Keeps (orderly a db₀) (Ended a db₀ id ν (.ok result)) commit := by
  apply Keeps.call_assured
  intro w tr t fate hs hI _
  have ht := hs.interfere hI
  obtain ⟨-, -, hnone⟩ := ht.report result rfl
  have hafter : Ended a db₀ id ν (.ok result) ((t.commit fate).2,
      ⟨.session .commit, (t.commit fate).1, t, (t.commit fate).2⟩ :: tr) := by
    refine ht.same (fun j => ?_) (fun hpends => ?_)
    · rcases t.commit_cases fate with hland | ⟨hsame, -⟩
      · rw [hland, World.database_land, hnone.view_get]
      · rw [hsame]
    · rcases t.commit_cases fate with hland | ⟨hsame, -⟩
      · rw [hland, World.pending_land]
        exact pends_nil
      · rw [hsame]
        exact hpends
  exact ⟨hafter.phase.books, hafter⟩

/-- The notification changes no job. -/
theorem keeps_ended_notify {id : ℕ} {ν : Numbers} (result : GatewayReconciliationResult) :
    Keeps (orderly a db₀) (Ended a db₀ id ν (.ok result)) (notifyAfterLock result) := by
  unfold notifyAfterLock
  refine Keeps.bind (keeps_ended (c := .session (.getJob result.jobId)) rfl _) fun job => ?_
  cases job with
  | none => exact Keeps.ret _
  | some job =>
    refine Keeps.bind (Keeps.ofExcept _) fun payload => ?_
    refine Keeps.tryCatch (keeps_ended rfl _) fun _ => ?_
    exact Keeps.bind (keeps_ended_audit _ _) fun _ => keeps_ended_commit _

theorem reconcileGatewayJob_halted (hs : Unclaimed .automatic db₀ s) :
    reconcileGatewayJob.wp (orderly .automatic db₀) (Halted .automatic db₀) s := by
  unfold reconcileGatewayJob gatewayRouteBindingLock
  rw [wp_bind, wp_bind]
  refine wp_mono _ _ ?_ (keeps_unclaimed (c := .session .acquireLock) rfl (fun _ _ _ => rfl) s hs)
  rintro (e | _) t ht
  · exact .unclaimed ht fun _ hres => nomatch hres
  rw [bindPost_ok, wp_tryFinally]
  refine wp_mono _ _ ?_ (lockedPart_halted ht)
  intro r u hu
  refine wp_mono _ _ ?_ (keeps_halted (c := .session .releaseLock) rfl (fun _ _ _ => rfl) r u hu)
  rintro (e | _) v hv
  · exact hv.raise e
  cases r with
  | error e => exact hv
  | ok found =>
    cases found with
    | none => exact hv
    | some result =>
      cases hv with
      | unclaimed h hr => exact absurd rfl (hr result)
      | ended h hr =>
        cases hr result rfl
        refine Keeps.wp_bind (Keeps.ite (keeps_ended_notify result) (Keeps.ret ())) (fun e x hx => ?_)
          (fun _ x hx => ?_) h
        · exact .ended hx fun _ hres => nomatch hres
        · refine .ended hx fun res hres => ?_
          cases hres
          rfl

/-- What a route writer has committed before it reconciles in its own session. -/
def Enqueued (db : Database) (jobId : ℕ) : Prop :=
  ∃ row, db.jobs.get jobId = some row ∧ isGateway row ∧ row.status ≠ .running

theorem inSession_halted {jobId : ℕ} {ν : Numbers}
    (hs : Phase (.inSession jobId) db₀ jobId ν spare (Pends []) s) :
    (Attempt.inSession jobId).program.wp (orderly (.inSession jobId) db₀)
      (Halted (.inSession jobId) db₀) s := by
  unfold Attempt.program gatewayRouteBindingLock
  rw [wp_bind]
  refine wp_mono _ _ ?_ (keeps_phase (c := .session .acquireLock) rfl s hs)
  rintro (e | _) t ht
  · exact .ended (ht.ended_of_spare e) fun _ hres => nomatch hres
  rw [bindPost_ok, wp_tryFinally]
  have hbody : (reconcileGatewayJobInSession jobId).wp (orderly (.inSession jobId) db₀)
      (fun r u => ∃ ν, Ended (.inSession jobId) db₀ jobId ν r u) t := by
    unfold reconcileGatewayJobInSession
    rw [wp_bind]
    refine wp_mono _ _ ?_ (reads_phase (c := .getJob jobId) rfl
      (F := fun r => ∀ v : Option Job, r = .ok v →
        ∃ row, v = some row ∧ ν.Of row ∧ row.payload ≠ .unreadable)
      (fun x fate hx v hv => hx.row_read hv) ht)
    rintro (e | v) u ⟨hu, hread, -⟩
    · exact ⟨ν, hu.ended_of_spare e⟩
    obtain ⟨job, rfl, hν, hreadable⟩ := hread v rfl
    refine Keeps.wp_bind (keeps_phase (c := .provider .now) rfl) (fun e x hx => ?_) (fun now x hx => ?_) hu
    · exact ⟨ν, hx.ended_of_spare e⟩
    · exact takeJob_ended now hν hreadable hx
  refine wp_mono _ _ ?_ (halted_some hbody)
  intro r u hu
  refine wp_mono _ _ ?_ (keeps_halted (c := .session .releaseLock) rfl (fun _ _ _ => rfl) r u hu)
  rintro (e | _) v hv
  · exact hv.raise e
  · exact hv

end Program

/-! ### Histories -/

/-- An attempt of the past: what it returned or raised, unless it crashed, its moments
and the database it left. -/
structure Episode where
  attempt : Attempt
  outcome : Option (Except Exn (Option GatewayReconciliationResult))
  trace : List WorldMoment
  after : Database

namespace Episode

def job (e : Episode) : Option ℕ := e.attempt.job e.trace

def reported (e : Episode) (res : GatewayReconciliationResult) : Prop :=
  e.outcome = some (.ok (some res))

/-- No failure of a last attempt stays unrecorded, and no finalization is left unknown. -/
structure Orderly (e : Episode) : Prop where
  moments : History.Always (Infra.Orderly e.attempt) e.trace
  crash : e.outcome = none → ∀ id, e.job = some id → ¬ OpenLast e.after id

end Episode

/-- Where an attempt may begin. -/
structure Begins (a : Attempt) (w : World) : Prop where
  session : w.session.pending = []
  enqueued : ∀ jobId, a = .inSession jobId → Enqueued w.shared.database jobId

/-- The histories from a database, newest episode first, and the database they lead to. -/
inductive Runs (db₁ : Database) : List Episode → Database → Prop where
  | start : Runs db₁ [] db₁
  | elsewhere {h : List Episode} {db db' : Database} (hruns : Runs db₁ h db) (helse : Elsewhere db db') :
      Runs db₁ h db'
  | finished {h : List Episode} {a : Attempt} {w : World} {r : Except Exn (Option GatewayReconciliationResult)}
      {s : Traced} (hruns : Runs db₁ h w.shared.database) (hbegin : Begins a w)
      (hexec : a.program.Exec (traced worlds AttemptInterferes fun _ _ => True) (w, []) r s) :
      Runs db₁ (⟨a, some r, s.2, s.1.shared.database⟩ :: h) s.1.shared.database
  | crashed {h : List Episode} {a : Attempt} {w : World} {s : Traced}
      (hruns : Runs db₁ h w.shared.database) (hbegin : Begins a w)
      (hreach : a.program.Reaches (traced worlds AttemptInterferes fun _ _ => True) (w, []) s) :
      Runs db₁ (⟨a, none, s.2, s.1.shared.database⟩ :: h) s.1.shared.database

section Histories

variable {a : Attempt} {db₀ db₁ db db' : Database} {h : List Episode} {w : World} {s : Traced}

theorem books_start (hwf : WellFormed w.shared.database) (hhonest : Honest w.shared.database) :
    Books a w.shared.database (w, []) where
  wellFormed := hwf
  progress _ row hrow hg := ⟨row, hrow, hg, Nat.le_refl _, rfl, fun _ => rfl⟩
  others j row hrow _ hdoomed := hhonest j row hrow hdoomed
  mine j row _ hrow := .inl (hhonest j row hrow)
  claim j row hauto hjob _ _ := by
    subst hauto
    cases hjob

/-- Every attempt halts from an honest start. -/
theorem program_halted (hbegin : Begins a w) (hwf : WellFormed w.shared.database)
    (hhonest : Honest w.shared.database) :
    a.program.wp (orderly a w.shared.database) (Halted a w.shared.database) (w, []) := by
  have hbooks : Books a w.shared.database (w, []) := books_start hwf hhonest
  have hpending : Pends [] w.session.pending := by
    rw [hbegin.session]
    exact pends_nil
  cases a with
  | automatic => exact reconcileGatewayJob_halted ⟨hbooks, rfl, hhonest, hpending⟩
  | inSession jobId =>
    obtain ⟨row, hrow, hg, hnot⟩ := hbegin.enqueued jobId rfl
    have hν : (numbersOf row).Of row := numbersOf_of hg fun hrunning => absurd hrunning hnot
    exact inSession_halted ⟨hbooks, rfl, ⟨row, hrow, hν, fun hrunning => absurd hrunning hnot⟩, hpending⟩

/-- What an episode leaves to the rest of a history. -/
structure Leaves (db₀ : Database) (e : Episode) : Prop where
  books : ∃ w, w.shared.database = e.after ∧ Books e.attempt db₀ (w, e.trace)
  honest : Honest e.after
  report : ∀ res, e.reported res → e.job = some res.jobId ∧ Reported e.after res

theorem Halted.leaves {r : Except Exn (Option GatewayReconciliationResult)} (hs : Halted a db₀ r s) :
    Leaves db₀ ⟨a, some r, s.2, s.1.shared.database⟩ := by
  cases hs with
  | unclaimed hs hr =>
    refine ⟨⟨s.1, rfl, hs.books⟩, hs.honest, fun res hres => ?_⟩
    exact absurd (Option.some.inj hres) (hr res)
  | ended hs hr =>
    refine ⟨⟨s.1, rfl, hs.phase.books⟩, hs.honest, fun res hres => ?_⟩
    obtain ⟨hid, hreported, -⟩ := hs.report res (hr res (Option.some.inj hres))
    exact ⟨hid ▸ hs.phase.job, hreported⟩

theorem finished_leaves {r : Except Exn (Option GatewayReconciliationResult)} (hbegin : Begins a w)
    (hwf : WellFormed w.shared.database) (hhonest : Honest w.shared.database)
    (hexec : a.program.Exec (traced worlds AttemptInterferes fun _ _ => True) (w, []) r s)
    (horderly : (Episode.mk a (some r) s.2 s.1.shared.database).Orderly) :
    Leaves w.shared.database ⟨a, some r, s.2, s.1.shared.database⟩ :=
  (exec_of_wp (program_halted hbegin hwf hhonest) (traced_of_always hexec horderly.moments)).leaves

/-- A crash leaves the books in order, and an attempt that is not the last leaves
nothing to record. -/
theorem crashed_leaves (hbegin : Begins a w) (hwf : WellFormed w.shared.database)
    (hhonest : Honest w.shared.database)
    (hreach : a.program.Reaches (traced worlds AttemptInterferes fun _ _ => True) (w, []) s)
    (horderly : (Episode.mk a none s.2 s.1.shared.database).Orderly) :
    Leaves w.shared.database ⟨a, none, s.2, s.1.shared.database⟩ := by
  have hbooks : Books a w.shared.database s := by
    obtain rfl | ⟨c, t, x, ⟨u, -, choice, -, htrace, -⟩, hcheck⟩ := reaches_of_wp
      (program_halted hbegin hwf hhonest) (reaches_of_always hreach horderly.moments)
    · exact books_start hwf hhonest
    · have h : Books a w.shared.database (s.1, ⟨c, x, u, s.1⟩ :: t.2) := hcheck _ _ htrace
      rw [← htrace] at h
      exact h
  exact ⟨⟨s.1, rfl, hbooks⟩, hbooks.honest (horderly.crash rfl), fun _ hres => nomatch hres⟩

/-- The job has no attempts left. -/
def Exhausted (db : Database) (id : ℕ) : Prop :=
  ∃ row, db.jobs.get id = some row ∧ isGateway row ∧ row.maxAttempts ≤ row.attempts

/-- The job can be claimed once it is available. -/
def Available (db : Database) (id : ℕ) : Prop :=
  ∃ row, db.jobs.get id = some row ∧ isGateway row ∧
    ∀ now, row.availableAt ≤ now → Database.claimable now row = true

/-- An automatic attempt claims no job that was reported as given up. -/
def RespectsReports (e : Episode) (past : List Episode) : Prop :=
  e.attempt = .automatic → ∀ f ∈ past, ∀ res, f.reported res → res.retryable = false →
    res.finalized = false → e.job ≠ some res.jobId

/-- The reports of a history are still true. -/
structure Kept (h : List Episode) (db : Database) : Prop where
  wellFormed : WellFormed db
  honest : Honest db
  respects : History.Always RespectsReports h
  exhausted : ∀ e ∈ h, ∀ res, e.reported res → res.retryable = false → res.finalized = false →
    Exhausted db res.jobId
  retryable : ∀ newer e older res, h = newer ++ e :: older → e.reported res → res.retryable = true →
    (∀ n ∈ newer, n.job ≠ some res.jobId) → Available db res.jobId

theorem Kept.elsewhere (hk : Kept h db) (helse : Elsewhere db db') : Kept h db' := by
  refine ⟨helse.wellFormed hk.wellFormed, ?_, hk.respects, ?_, ?_⟩
  · intro id row hrow hdoomed
    have hold := helse.doomed_old hrow hdoomed
    exact helse.accounted hold hdoomed.gateway (hk.honest id row hold hdoomed)
  · intro e he res hres hretry hfinal
    obtain ⟨row, hrow, hg, hmax⟩ := hk.exhausted e he res hres hretry hfinal
    exact ⟨row, helse.kept _ row hrow hg, hg, hmax⟩
  · intro newer e older res hsplit hres hretry hnewer
    obtain ⟨row, hrow, hg, havailable⟩ := hk.retryable newer e older res hsplit hres hretry hnewer
    exact ⟨row, helse.kept _ row hrow hg, hg, havailable⟩

/-- One more attempt. -/
theorem Kept.attempt (hk : Kept h db) {e : Episode} (hleaves : Leaves db e) : Kept (e :: h) e.after := by
  obtain ⟨⟨w, hafter, hbooks⟩, hhonest, hreport⟩ := hleaves
  have hprogress := hbooks.progress
  rw [hafter] at hprogress
  refine ⟨hafter ▸ hbooks.wellFormed, hhonest, ⟨?_, hk.respects⟩, ?_, ?_⟩
  · intro hauto f hf res hres hretry hfinal hjob
    obtain ⟨row, hrow, hg, hmax⟩ := hk.exhausted f hf res hres hretry hfinal
    exact absurd hmax (Nat.not_le.mpr (hbooks.claim res.jobId row hauto hjob hrow hg))
  · intro f hf res hres hretry hfinal
    obtain rfl | hf := List.mem_cons.mp hf
    · exact (hreport res hres).2.2 hretry hfinal
    · obtain ⟨row, hrow, hg, hmax⟩ := hk.exhausted f hf res hres hretry hfinal
      obtain ⟨row', hrow', hg', hattempts, hsame, -⟩ := hprogress _ row hrow hg
      exact ⟨row', hrow', hg', by omega⟩
  · intro newer f older res hsplit hres hretry hnewer
    cases newer with
    | nil =>
      obtain ⟨rfl, -⟩ := List.cons.inj hsplit
      exact (hreport res hres).2.1 hretry
    | cons n newer =>
      obtain ⟨rfl, hrest⟩ := List.cons.inj hsplit
      obtain ⟨row, hrow, hg, havailable⟩ := hk.retryable newer f older res hrest hres hretry
        fun m hm => hnewer m (List.mem_cons_of_mem _ hm)
      obtain ⟨row', hrow', hg', -, -, hsame⟩ := hprogress _ row hrow hg
      have hother : e.job ≠ some res.jobId := hnewer e (List.mem_cons_self ..)
      rw [hsame hother] at hrow' hg'
      exact ⟨row, hrow', hg', havailable⟩

theorem runs_kept (hwf : WellFormed db₁) (hhonest : Honest db₁) (hruns : Runs db₁ h db)
    (horderly : ∀ e ∈ h, e.Orderly) : Kept h db := by
  induction hruns with
  | start =>
    refine ⟨hwf, hhonest, trivial, fun e he => (nomatch he), fun newer e older res hsplit => ?_⟩
    cases newer <;> cases hsplit
  | elsewhere _ helse ih => exact (ih horderly).elsewhere helse
  | finished _ hbegin hexec ih =>
    have hk := ih fun e he => horderly e (List.mem_cons_of_mem _ he)
    have hthis := horderly _ (List.mem_cons_self ..)
    exact hk.attempt (finished_leaves hbegin hk.wellFormed hk.honest hexec hthis)
  | crashed _ hbegin hreach ih =>
    have hk := ih fun e he => horderly e (List.mem_cons_of_mem _ he)
    have hthis := horderly _ (List.mem_cons_self ..)
    exact hk.attempt (crashed_leaves hbegin hk.wellFormed hk.honest hreach hthis)

/-- In a history of orderly attempts, a job reported as given up is never claimed
again, a job reported as retryable can be claimed once it is available, until it is
attempted again, and every job that no claim can ever select is accounted for. -/
theorem retry_accounting_honest (hwf : WellFormed db₁) (hhonest : Honest db₁) (hruns : Runs db₁ h db)
    (horderly : ∀ e ∈ h, e.Orderly) :
    History.Always RespectsReports h ∧
    (∀ newer e older res, h = newer ++ e :: older → e.reported res → res.retryable = true →
      (∀ n ∈ newer, n.job ≠ some res.jobId) → Available db res.jobId) ∧
    Honest db := by
  have hk := runs_kept hwf hhonest hruns horderly
  exact ⟨hk.respects, hk.retryable, hk.honest⟩

end Histories

section Instances

theorem elsewhere_of_jobs {db db' : Database} (hjobs : db'.jobs = db.jobs) : Elsewhere db db' where
  kept id row hrow _ := by rw [hjobs]; exact hrow
  runs id row runId _ _ _ := by rw [hjobs]
  added id row hrow _ := .inl (by rw [← hjobs]; exact hrow)
  wellFormed hwf := by
    refine ⟨?_, ?_⟩ <;> rw [hjobs]
    · exact hwf.readable
    · exact hwf.runs

theorem attemptInterferes_refl (w : World) : AttemptInterferes w w := ⟨rfl, elsewhere_of_jobs rfl⟩

theorem paidDatabase_jobs {id : ℕ} {row : Job} (h : paidDatabase.jobs.get id = some row) :
    id = 0 ∧ row.payload = .gateway paidPurchase.payload ∧ row.attempts = 0 ∧ row.maxAttempts = 5 ∧
        row.status = .pending ∨
      id = 1 ∧ row.jobType = .provision := by
  simp only [paidDatabase, Table.get_insert, Table.get_empty] at h
  split_ifs at h with h₁ h₀
  · cases h
    exact .inr ⟨h₁, rfl⟩
  · cases h
    exact .inl ⟨h₀, rfl, rfl, rfl, rfl⟩

theorem wellFormed_paidDatabase : WellFormed paidDatabase := by
  constructor
  · intro id row hrow hg
    obtain ⟨-, hpayload, -⟩ | ⟨-, htype⟩ := paidDatabase_jobs hrow
    · rw [hpayload]
      simp
    · rw [isGateway, htype] at hg
      cases hg
  · intro id row runId hrow hg hrun
    obtain ⟨-, hpayload, -⟩ | ⟨-, htype⟩ := paidDatabase_jobs hrow
    · rw [runOf, hpayload] at hrun
      cases hrun
      exact ⟨_, rfl, by simp [isGateway]⟩
    · rw [isGateway, htype] at hg
      cases hg

theorem honest_paidDatabase : Honest paidDatabase := by
  intro id row hrow hdoomed
  obtain ⟨-, -, hattempts, hmax, hstatus⟩ | ⟨-, htype⟩ := paidDatabase_jobs hrow
  · have hle := exhausted_of_doomed (fun hrunning => by rw [hstatus] at hrunning; cases hrunning) hdoomed
    omega
  · have hg := hdoomed.gateway
    rw [isGateway, htype] at hg
    cases hg

def isProbe (c : Call) : Bool :=
  match c with
  | .session (.probeJobStatus _) => true
  | .session (.probeOrderStatus _) => true
  | _ => false

/-- Nothing fails in a calm attempt, and no finalization has to be classified. -/
theorem orderly_of_calm {a : Attempt} {tr : List WorldMoment}
    (h : ∀ m ∈ tr, m.returned = true ∧ isProbe m.call = false) : History.Always (Orderly a) tr := by
  induction tr with
  | nil => trivial
  | cons m past ih =>
    obtain ⟨hreturned, hprobe⟩ := h m (List.mem_cons_self ..)
    refine ⟨⟨fun _ _ _ => .inl hreturned, fun id row _ _ hunknown => ?_⟩,
      ih fun m' hm' => h m' (List.mem_cons_of_mem _ hm')⟩
    unfold observedOutcome at hunknown
    split at hunknown
    · cases hprobe
    · cases hprobe
    · cases hunknown

/-- One attempt on a paid purchase in which nothing fails. -/
theorem retry_accounting_honest_uneventful :
    History.Always RespectsReports [⟨.automatic,
        some ((tracer worlds).run (fun c _ => (id, c.calm)) reconcileGatewayJob (paidWorld, [])).1,
        ((tracer worlds).run (fun c _ => (id, c.calm)) reconcileGatewayJob (paidWorld, [])).2.2,
        ((tracer worlds).run (fun c _ => (id, c.calm)) reconcileGatewayJob
          (paidWorld, [])).2.1.shared.database⟩] ∧
      Honest ((tracer worlds).run (fun c _ => (id, c.calm)) reconcileGatewayJob
        (paidWorld, [])).2.1.shared.database := by
  have hrun := exec_tracer (S := port) (M := worlds) (fun c _ => (id, c.calm))
    (fun _ s => attemptInterferes_refl s.1) reconcileGatewayJob (paidWorld, [])
  obtain ⟨hrespects, -, hhonest⟩ := retry_accounting_honest wellFormed_paidDatabase honest_paidDatabase
    (Runs.finished (a := .automatic) (w := paidWorld) .start ⟨rfl, fun _ h => nomatch h⟩ hrun) (by
      intro e he
      rw [List.mem_singleton] at he
      subst he
      refine ⟨orderly_of_calm ?_, fun h => nomatch h⟩
      decide)
  exact ⟨hrespects, hhonest⟩

def activate (w : World) : World :=
  w.setDatabase { w.shared.database with
    subscriptions := w.shared.database.subscriptions.modify 0 fun s => { s with status := .active } }

theorem interferes_activate (w : World) : AttemptInterferes w (activate w) := ⟨rfl, elsewhere_of_jobs rfl⟩

/-- The commit of the finalization is lost, and the subscription is activated by others
before it is probed. -/
def lostFinalization (c : Call) (s : Traced) : (World → World) × c.Choice :=
  match c with
  | .session .commit =>
    (id, if s.1.session.pending.length = 5 then
        ⟨(0 : ℤ), some ⟨.other "OperationalError", "connection lost"⟩, 0⟩
      else Fate.calm)
  | .session (.probeSubscriptionStatus _) => (activate, Fate.calm)
  | c => (id, c.calm)

/-- Twenty minutes later. -/
def muchLater (c : Call) (_ : Traced) : (World → World) × c.Choice :=
  match c with
  | .provider .now => (id, (.ok (minutes 20), true))
  | c => (id, c.calm)

def anew (db : Database) : World := ⟨⟨db, ⟨[], []⟩, false⟩, ⟨0, "sub.example.com", false, []⟩⟩

/-- A finalization that was reported as waiting for manual review is claimed again. -/
theorem unknown_finalization_claimed_again :
    ∃ (db₁ db : Database) (h : List Episode), WellFormed db₁ ∧ Honest db₁ ∧ Runs db₁ h db ∧
      ¬ History.Always RespectsReports h := by
  have hlost := exec_tracer (S := port) (M := worlds) (I := AttemptInterferes) lostFinalization
    (fun c s => by
      unfold lostFinalization
      split
      · exact attemptInterferes_refl _
      · exact interferes_activate _
      · exact attemptInterferes_refl _) reconcileGatewayJob (paidWorld, [])
  have hlater := exec_tracer (S := port) (M := worlds) (I := AttemptInterferes) muchLater
    (fun c s => by
      unfold muchLater
      split
      · exact attemptInterferes_refl _
      · exact attemptInterferes_refl _) reconcileGatewayJob
    (anew ((tracer worlds).run lostFinalization reconcileGatewayJob
      (paidWorld, [])).2.1.shared.database, [])
  refine ⟨paidDatabase, _, _, wellFormed_paidDatabase, honest_paidDatabase,
    .finished (a := .automatic) (.finished (a := .automatic) (w := paidWorld) .start
      ⟨rfl, fun _ h => nomatch h⟩ hlost) ⟨rfl, fun _ h => nomatch h⟩ hlater, fun halways => ?_⟩
  exact halways.1 rfl _ (List.mem_cons_self ..) ⟨0, true, false, false, some finalizationUnknown⟩ rfl rfl
    rfl rfl

end Instances

end Lingsway.Infra
