import Lingsway.Infra.MihomoFinalization

/-!
# Every run of every worker

The reconciliation of one job keeps the contract, whatever the other workers do,
and so does every run of all of them.
-/
namespace Lingsway.Mihomo

open Library Program

section Applying

variable {K : Conduct calls Exn World Worker} {i : ℕ} {expected : Finalization} {payload : JobPayload}
variable {Q : Except Exn MihomoReconciliationResult → State → Prop}

/-- The job may be applied: it is ready, and nothing blocks it. -/
structure Applying (K : Conduct calls Exn World Worker) (i id : ℕ) (payload : JobPayload) (w : State) : Prop where
  ready : Ready K i id payload w
  unblocked : Unblocked w.1 id
  writes : w.2.session.writes = []

theorem applying_stable {id : ℕ} : (contract K).Stable i (Applying K i id payload) :=
  stable_of_same (fun _ h => h.ready.sure.owned.body.lock) fun _ _ _ hsame h =>
    ⟨h.ready.same hsame, hsame.unblocked h.unblocked, h.writes⟩

theorem Ready.doubt {id : ℕ} {s : World} {l : Worker} (h : Ready K i id payload (s, l)) :
    Ambiguous K i id (s.doubt id, l) := h.sure.doubt (unfinished_of_fresh h.fresh)

/-- What a call says that confirms nothing. -/
theorem doubtIf_wp {c : Call} {id : ℕ} {doubtful : Bool} {x : Except Exn c.Answer} {s : World} {l : Worker}
    {w' : State} (hact : (x, doubtIf doubtful id (s, l)) = (x, w')) (h : Sure K i id (s, l))
    (hinvariant : Invariant K s) (hkept : Kept i (s, l)) (hallowed : Allowed K i c (s, l))
    (hanswered : Answered K c (s, l) x) : (contract K).Fine i c (s, l) x w' := by
  cases doubtful with
  | true =>
    cases hact
    exact fine_doubt h hinvariant hallowed hanswered
  | false =>
    cases hact
    exact fine_still (Still.refl _) hinvariant hkept hallowed hanswered

theorem markUnknownFailed_wp {diagnostic : String} {applied persistBlocker : Bool} {w : State}
    (hvalid : expected.Valid) (hdiagnostic : diagnostic ∈ mihomoUnknownDiagnostics)
    (hw : Ambiguous K i expected.jobId w) (hok : ∀ r w, Concluded K i expected.jobId w → Q (.ok r) w)
    (herror : ∀ e w, Failed K i expected.jobId e w → Q (.error e) w) :
    (markUnknown expected diagnostic applied persistBlocker).wp (among K i) Q w := by
  refine markUnknown_wp hvalid hdiagnostic hw hok ?_
  intro e w hunknown hconcluded
  exact herror e _ ⟨hconcluded, fun hne => absurd hunknown hne⟩

theorem verifyAndFinalize_wp {w : State} (hvalid : expected.Valid)
    (hnames : finalizationBlockerPayload expected = releasePayload (metadataOf expected.jobId payload))
    (hw : Applying K i expected.jobId payload w) (hok : ∀ r w, Concluded K i expected.jobId w → Q (.ok r) w)
    (herror : ∀ e w, Failed K i expected.jobId e w → Q (.error e) w) :
    (verifyAndFinalize expected payload).wp (among K i) Q w := by
  rw [verifyAndFinalize, wp_bind, wp_attempt]
  refine call_wp applying_stable ?_ hw
  rintro s l choice x w' hinvariant hkept hs hact -
  have hx : x = choice := by
    cases hact
    rfl
  subst hx
  refine ⟨doubtIf_wp hact hs.ready.sure hinvariant hkept trivial trivial, ?_⟩
  cases x with
  | error e =>
    cases hact
    exact markUnknownFailed_wp hvalid (by decide) hs.ready.doubt hok herror
  | ok verification =>
    rw [bindPost_ok]
    cases hevidence : verifiedEvidence verification with
    | none =>
      have hdoubt : verifyDoubtful (.ok verification) = true := by simp [verifyDoubtful, hevidence]
      simp only [act, hdoubt, doubtIf, if_true] at hact
      cases hact
      simp only [hevidence]
      exact markUnknownFailed_wp hvalid (by decide) hs.ready.doubt hok herror
    | some version =>
      have hknown : verifyDoubtful (.ok verification) = false := by simp [verifyDoubtful, hevidence]
      simp only [act, hknown, doubtIf, Bool.false_eq_true, if_false] at hact
      cases hact
      simp only [hevidence]
      exact finalizeJob_wp hvalid hnames hs.ready hs.writes hok herror

theorem failedFailure_wp {error : Exn} {id : ℕ} {w : State} (hw : Failing K i id w)
    (hok : ∀ r w, Concluded K i id w → Q (.ok r) w) (herror : ∀ e w, Failed K i id e w → Q (.error e) w) :
    (failure id error).wp (among K i) Q w := by
  refine failure_wp hw ?_
  intro x w hfailing
  cases x with
  | ok r => exact hok r _ hfailing.sure.concluded
  | error e => exact herror e _ (hfailing.failed' e)

theorem applyCandidate_wp {w : State} (hvalid : expected.Valid)
    (hnames : finalizationBlockerPayload expected = releasePayload (metadataOf expected.jobId payload))
    (hw : Applying K i expected.jobId payload w) (hok : ∀ r w, Concluded K i expected.jobId w → Q (.ok r) w)
    (herror : ∀ e w, Failed K i expected.jobId e w → Q (.error e) w) :
    (applyCandidate expected payload).wp (among K i) Q w := by
  rw [applyCandidate, wp_bind, wp_attempt]
  refine call_wp applying_stable ?_ hw
  rintro s l choice x w' hinvariant hkept hs hact -
  have hx : x = choice := by
    cases hact
    rfl
  subst hx
  have hallowed : Allowed K i (.apply expected.jobId) (s, l) :=
    ⟨hs.ready.sure.owned.body.lock, hs.unblocked, hs.ready.sure.certain⟩
  refine ⟨doubtIf_wp hact hs.ready.sure hinvariant hkept hallowed trivial, ?_⟩
  cases x with
  | error exc =>
    rw [bindPost_ok]
    by_cases hunknown : exc.cls = .other "MihomoRollbackUnknownError"
    · have hdoubt : applyDoubtful (.error exc) = true := by simpa [applyDoubtful] using hunknown
      simp only [act, hdoubt, doubtIf, if_true] at hact
      cases hact
      simp only [if_pos hunknown]
      exact markUnknownFailed_wp hvalid (by decide) hs.ready.doubt hok herror
    · have hknown : applyDoubtful (.error exc) = false := by simpa [applyDoubtful] using hunknown
      simp only [act, hknown, doubtIf, Bool.false_eq_true, if_false] at hact
      cases hact
      simp only [if_neg hunknown]
      split_ifs
      · exact failedFailure_wp hs.ready.failing hok herror
      · exact herror exc _ (hs.ready.failing.failed' exc)
  | ok applied =>
    rw [bindPost_ok]
    cases applied with
    | true =>
      simp only [act, applyDoubtful, doubtIf, Bool.not_true, Bool.false_eq_true, if_false] at hact
      cases hact
      simp only [if_true]
      exact verifyAndFinalize_wp hvalid hnames hs hok herror
    | false =>
      simp only [act, applyDoubtful, doubtIf, Bool.not_false, if_true] at hact
      cases hact
      simp only [Bool.false_eq_true, if_false]
      exact markUnknownFailed_wp hvalid (by decide) hs.ready.doubt hok herror

/-- The claimed job is the one whose release the block records. -/
structure Allotted (K : Conduct calls Exn World Worker) (i : ℕ) (job : Entity MihomoJob) (w : State) : Prop where
  body : InBody i w
  unfinalized : w.2.annals.finalized = false
  idling : w.2.Idling
  row : jobAt w.1 job.id = some job.row
  running : job.row.status = .running
  fresh : ¬ lateJob w.1 job.id
  unblocked : Unblocked w.1 job.id
  recorded : Within K orderly → Recorded w.1
  certain : Within K orderly → job.id ∉ w.1.uncertain
  tagged : w.2.session.releaseMetadata = some ⟨job.id, none, none⟩

variable {job : Entity MihomoJob}

theorem allotted_stable : (contract K).Stable i (Allotted K i job) :=
  stable_of_same (fun _ h => h.body.lock) fun _ _ _ hsame h =>
    ⟨h.body.same hsame, h.unfinalized, h.idling, by rw [hsame.job, h.row], h.running,
      fun hlate => h.fresh (hsame.late.lateJob hlate), hsame.unblocked h.unblocked,
      fun horderly => hsame.recorded (h.recorded horderly),
      fun horderly huncertain => h.certain horderly (hsame.uncertain ▸ huncertain), h.tagged⟩

/-- With its metadata recorded the job is ready. -/
theorem Allotted.applying {w : State} (h : Allotted K i job w) {l : Worker}
    (hframe : l.annals = w.2.annals ∧ l.session.writes = w.2.session.writes)
    (hm : l.session.releaseMetadata = some (metadataOf job.id job.row.payload)) :
    Applying K i job.id job.row.payload (w.1, l) := by
  obtain ⟨hannals, hwrites⟩ := hframe
  refine ⟨⟨⟨⟨?_, mine_of_unblocked h.unblocked, plain_of_unblocked h.unblocked, ?_, job.row, h.row, hm⟩, h.recorded,
    h.certain⟩, ⟨job.row, h.row, h.running, rfl⟩, h.fresh, ?_⟩, h.unblocked, ?_⟩
  · exact ⟨h.body.lock, by rw [hannals]; exact h.body.metadata, by rw [hannals]; exact h.body.persisted,
      by rw [hannals]; exact h.body.returned, by rw [hannals]; exact h.body.confirmed⟩
  · rw [hannals]
    exact h.idling.unrefused
  · rw [hannals]
    exact h.unfinalized
  · rw [hwrites]
    exact h.idling.writes

theorem tag_wp {metadata : ReleaseMetadata} {P : State → Prop} {R : Except Exn Unit → State → Prop} {w : State}
    (hstable : (contract K).Stable i P)
    (hok : ∀ s l, P (s, l) → R (.ok ()) (s, { l with session := { l.session with releaseMetadata := some metadata } }))
    (hw : P w) : (perform (.setReleaseMetadata metadata)).wp (among K i) R w := by
  refine still_wp hstable ?_ hw
  intro s l choice x t l' _ hs hact _
  cases hact
  exact ⟨Still.refl _, rfl, trivial, trivial, hok _ _ hs⟩

theorem reconcileClaimedJob_wp {w : State} (hw : Allotted K i job w)
    (hok : ∀ r w, Concluded K i job.id w → Q (.ok r) w) (herror : ∀ e w, Failed K i job.id e w → Q (.error e) w) :
    (reconcileClaimedJob job).wp (among K i) Q w := by
  rw [reconcileClaimedJob]
  cases hidentity : jobIdentity job.row.payload with
  | none =>
    have hm : metadataOf job.id job.row.payload = ⟨job.id, none, none⟩ := by simp [metadataOf, hidentity]
    have happlying : Applying K i job.id job.row.payload w := hw.applying ⟨rfl, rfl⟩ (by rw [hm]; exact hw.tagged)
    have hambiguous : Ambiguous K i job.id w := ⟨happlying.ready.sure.doubtful, unfinished_of_fresh hw.fresh⟩
    have hreason : safeReason mihomoFinalizationUnknown = true := by decide
    have hcheck : checkIdentifiers ⟨.finalization, job.id, none, none, mihomoFinalizationUnknown⟩ = .ok () :=
      checkIdentifiers_of_valid (by exact hreason) (by simp) (by simp)
    refine persistUnknownBlocker_wp (rewrites_nil _) hcheck hambiguous.noting happlying.writes hok ?_
    intro w hconcluded
    exact herror _ _ ⟨hconcluded, fun hne => absurd rfl hne⟩
  | some identity =>
    have hm : metadataOf job.id job.row.payload =
        ⟨job.id, some identity.operationId, some identity.snapshotRevision⟩ := by simp [metadataOf, hidentity]
    obtain ⟨hoperation, hrevision⟩ := jobIdentity_valid hidentity
    simp only [wp_bind]
    refine tag_wp allotted_stable ?_ hw
    intro s l hs
    rw [bindPost_ok]
    have happlying := hs.applying (l := { l with session := { l.session with
      releaseMetadata := some ⟨job.id, some identity.operationId, some identity.snapshotRevision⟩ } }) ⟨rfl, rfl⟩
      (by rw [hm])
    have hraise : ∀ e w, Applying K i job.id job.row.payload w → Q (.error e) w :=
      fun e w h => herror e _ (h.ready.failing.failed' e)
    rw [wp_bind]
    refine idle_wp (idle_load _) applying_stable ?_ happlying
    intro x w hw
    cases x with
    | error e => exact hraise e _ hw
    | ok desired =>
      rw [bindPost_ok]
      split_ifs
      · rw [wp_raise]
        exact hraise _ _ hw
      · rw [wp_bind]
        refine idle_wp idle_render applying_stable ?_ hw
        intro x w hw
        cases x with
        | error e => exact hraise e _ hw
        | ok _ =>
          rw [bindPost_ok, wp_bind]
          refine idle_wp idle_finalizeTemplate applying_stable ?_ hw
          intro x w hw
          cases x with
          | error e => exact hraise e _ hw
          | ok fingerprint =>
            rw [bindPost_ok]
            have hvalid : Finalization.Valid ⟨job.id, identity.operationId, identity.operationKind,
              identity.snapshotRevision, fingerprint⟩ := ⟨hoperation, hrevision⟩
            refine applyCandidate_wp hvalid ?_ hw hok herror
            rw [hm]
            rfl

theorem Claimed.allotted {s : World} {l : Worker} (h : Claimed K i job (s, l)) (hidling : l.Idling)
    (hunblocked : Unblocked s job.id) :
    Allotted K i job (s, { l with session := { l.session with releaseMetadata := some ⟨job.id, none, none⟩ } }) := by
  refine ⟨⟨h.body.lock, h.body.metadata, h.body.persisted, h.body.returned, h.body.confirmed⟩, h.unfinalized,
    ⟨hidling.unrefused, hidling.writes⟩, h.row, h.running, h.fresh, hunblocked, h.recorded, ?_, rfl⟩
  intro horderly huncertain
  exact hunblocked.1 (stopped_blocked (h.certain horderly huncertain))

theorem reconcileOwnedJob_wp {w : State} (hw : Claimed K i job w) (hidling : w.2.Idling)
    (hunblocked : Unblocked w.1 job.id) (hQ : ∀ x w, Concluded K i job.id w → Q x w) :
    (reconcileOwnedJob job).wp (among K i) Q w := by
  rw [reconcileOwnedJob, wp_bind]
  have hstable : (contract K).Stable i fun w => (Claimed K i job w ∧ w.2.Idling) ∧ Unblocked w.1 job.id :=
    stable_of_same (fun _ h => h.1.1.body.lock) fun _ _ _ hsame h =>
      ⟨⟨h.1.1.same hsame, h.1.2⟩, hsame.unblocked h.2⟩
  refine tag_wp hstable ?_ ⟨⟨hw, hidling⟩, hunblocked⟩
  rintro s l ⟨⟨hs, hidling₁⟩, hunblocked₁⟩
  rw [bindPost_ok, wp_tryCatch]
  refine reconcileClaimedJob_wp (hs.allotted hidling₁ hunblocked₁) (fun r w h => hQ _ _ h) ?_
  rintro e w ⟨hconcluded, hfailing⟩
  rw [catchPost_error]
  split_ifs with hunknown
  · exact hQ _ _ hconcluded
  · exact failure_wp (hfailing hunknown) fun x w h => hQ _ _ h.sure.concluded

theorem reconcileBody_wp {w : State} (hw : Entered K i w) :
    reconcileBody.wp (among K i) (fun _ => Leaving K i) w := by
  rw [reconcileBody, wp_bind]
  refine idle_wp idle_configure entered_stable ?_ hw
  intro x w hw
  cases x with
  | error e => exact .inl hw.bare
  | ok _ =>
    rw [bindPost_ok, wp_bind]
    refine idle_wp idle_now entered_stable ?_ hw
    intro x w hw
    cases x with
    | error e => exact .inl hw.bare
    | ok now =>
      rw [bindPost_ok, wp_bind]
      refine claim_wp hw (fun w h => .inl h) ?_ fun e w h => .inl h
      intro job w hclaimed hidling
      simp only [bindPost_ok, wp_bind, wp_attempt]
      refine assertNoUnresolved_wp hclaimed hidling ?_ ?_
      · intro w hclaimed hidling hunblocked
        rw [bindPost_ok, wp_bind]
        refine reconcileOwnedJob_wp hclaimed hidling hunblocked ?_
        intro x w hconcluded
        cases x with
        | ok r => exact .inr ⟨job.id, hconcluded⟩
        | error e => exact .inr ⟨job.id, hconcluded⟩
      · intro e w hclaimed hrefused
        simp only [bindPost_ok]
        split_ifs with hblocked
        · rw [wp_bind]
          refine resetBlockedClaim_wp hclaimed ?_
          intro x w hbare
          cases x with
          | ok _ => exact .inl hbare
          | error e => exact .inl hbare
        · refine .inl (hclaimed.bare ?_)
          cases hcase : w.2.annals.refused with
          | false => rfl
          | true => exact absurd (hrefused hcase) hblocked

end Applying

section Runs

variable {K : Conduct calls Exn World Worker} {i : ℕ}

theorem kept_stable : (contract K).Stable i (Kept i) := by
  intro j s t l hj hguarantee _ h hpersisted
  obtain hdone | ⟨metadata, b, hmetadata, hb, hunresolved, hholder⟩ := h hpersisted
  · exact .inl hdone
  · have hother : b.holder ≠ some j := by
      rw [hholder]
      simpa using hj.symm
    exact .inr ⟨metadata, b, hmetadata, hguarantee.others _ _ b hb hunresolved hother, hunresolved, hholder⟩

theorem guarantee_refl (i : ℕ) (s : World) : Guarantee i s s := (Still.refl s).guarantee i

/-- A worker that is gone gives up the lock. -/
theorem unlock_leaves {s : World} {l : Worker} (hinvariant : Invariant K s) (hkept : Kept i (s, l))
    (hrecorded : Within K orderly → s.lock = some i → Recorded s) :
    Guarantee i s (s.unlock i) ∧ Invariant K (s.unlock i) ∧ Kept i (s.unlock i, l) := by
  by_cases hheld : s.lock = some i
  · have hfine : (contract K).Fine i .invalidate (s, l) (.ok ()) (s.unlock i, l) := by
      refine fine_unlock hheld hinvariant (fun horderly => hrecorded horderly hheld) ?_ trivial trivial
      rw [World.unlock, if_pos hheld]
      exact hkept
    exact ⟨hfine.guarantee, hfine.invariant, hfine.kept⟩
  · rw [World.unlock, if_neg hheld]
    exact ⟨guarantee_refl i s, hinvariant, hkept⟩

theorem Ended.unlock {raised : Bool} {s : World} {l : Worker} (h : Ended K i raised (s, l)) :
    Ended K i raised (s.unlock i, l) := by
  refine ⟨h.persisted, ?_⟩
  intro horderly hlock
  by_cases hheld : s.lock = some i
  · rw [unlock_lock hheld] at hlock
    cases hlock
  · simp only [World.unlock, if_neg hheld] at hlock
    exact absurd hlock hheld

theorem sound (K : Conduct calls Exn World Worker) :
    (contract K).Sound workers K reconcileMihomoJob Worker.begin fun i r => Ended K i (raised r) where
  kept_stable := fun _ => kept_stable
  ended_stable := fun _ r => ended_stable (raised r)
  absent_stable := fun _ _ _ _ hj hguarantee _ habsent => away_of_guarantee hj hguarantee habsent
  begin_kept := fun _ _ _ _ => kept_of_unpersisted rfl
  verified := fun _ _ _ habsent =>
    mihomoProjectionWrite_wp (fun _ hentered => reconcileBody_wp hentered) ⟨habsent, rfl, rfl⟩
  crash_leaves := by
    intro i s l hinvariant hkept hcrash
    exact unlock_leaves hinvariant hkept fun horderly hheld => horderly.crash _ _ hcrash hheld
  ended_leaves := by
    intro i r s l hinvariant hkept hended
    obtain ⟨hguarantee, hinvariant', hkept'⟩ := unlock_leaves hinvariant hkept hended.recorded
    exact ⟨hguarantee, hinvariant', hkept', hended.unlock⟩

/-- A store before any worker begins: nobody holds the lock, no commit is late, and the
release blockers of the jobs name their operations. -/
structure Initial (w : World) : Prop where
  payloads : Payloads w
  lock : w.lock = none
  late : w.late = []
  certain : w.uncertain = []

/-- A configuration that any number of workers may have come to. -/
abbrev ReachableBy (K : Conduct calls Exn World Worker) :
    Configuration calls Exn (Option MihomoReconciliationResult) World Worker → Prop :=
  workers.Reachable K reconcileMihomoJob Worker.begin Initial

theorem good_of_reachable {g : Configuration calls Exn (Option MihomoReconciliationResult) World Worker}
    (h : ReachableBy K g) : (contract K).Good workers K (fun i r => Ended K i (raised r)) g := by
  refine Contract.good_of_reachable (sound K) ?_ (fun i s _ => guarantee_refl i s) h
  intro s hs
  refine ⟨⟨hs.payloads, ?_⟩, ?_⟩
  · intro _ _ j hj
    rw [hs.certain] at hj
    cases hj
  · intro i
    show s.lock ≠ some i
    rw [hs.lock]
    nofun

/-- What every call of every worker satisfies. -/
theorem safe_of_reachable {g : Configuration calls Exn (Option MihomoReconciliationResult) World Worker}
    (h : ReachableBy K g) {c : Call} {next : Except Exn c.Answer → Work (Option MihomoReconciliationResult)}
    {l : Worker} {x : Except Exn c.Answer} {w : State} {choice : Choice c}
    (hprocess : g.process i = some ⟨.running (.call c next), l⟩) (hact : act i c choice (g.shared, l) = (x, w))
    (hallowed : K.call i c (g.shared, l) x w) : Safe K i c (g.shared, l) x w :=
  ((good_of_reachable h).call choice hprocess hact hallowed).1.safe

end Runs

end Lingsway.Mihomo
