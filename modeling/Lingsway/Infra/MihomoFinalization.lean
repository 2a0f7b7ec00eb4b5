import Lingsway.Infra.MihomoMarking

/-!
# The finalization of a job

Success and the pending release are one commit. Behind a commit that raised an
observer decides, and only a row that it sees running without evidence counts as
absent.
-/
namespace Lingsway.Mihomo

open Library Program

/-- The job may be applied or finalized: its row is running as it was claimed. -/
structure Ready (K : Conduct calls Exn World Worker) (i id : ℕ) (payload : JobPayload) (w : State) : Prop where
  sure : Sure K i id w
  row : ∃ row, jobAt w.1 id = some row ∧ row.status = .running ∧ row.payload = payload
  fresh : ¬ lateJob w.1 id
  unfinalized : w.2.annals.finalized = false

/-- The finalization has raised, and the row is finalized if it landed all the same. -/
structure Settling (K : Conduct calls Exn World Worker) (i id : ℕ) (w : State) : Prop where
  sure : Sure K i id w
  row : ∃ row, jobAt w.1 id = some row ∧ (row.status = .succeeded ↔ w.2.annals.finalized = true)
  unfinished : Unfinished id w.1

/-- How a reconciliation raises: but for an unknown commit the job may fail. -/
def Failed (K : Conduct calls Exn World Worker) (i id : ℕ) (e : Exn) (w : State) : Prop :=
  Concluded K i id w ∧ (e.cls ≠ .other "MihomoCommitOutcomeUnknown" → Failing K i id w)

section Finalizing

variable {K : Conduct calls Exn World Worker} {i id : ℕ} {payload : JobPayload}

theorem Failing.failed' {w : State} (h : Failing K i id w) (e : Exn) : Failed K i id e w :=
  ⟨h.sure.concluded, fun _ => h⟩

theorem Ready.same {s t : World} {l : Worker} (h : Ready K i id payload (s, l)) (hsame : Same i s t) :
    Ready K i id payload (t, l) := by
  obtain ⟨row, hrow, hrunning⟩ := h.row
  exact ⟨h.sure.same hsame, ⟨row, by rw [hsame.job, hrow], hrunning⟩, fun hlate => h.fresh (hsame.late.lateJob hlate),
    h.unfinalized⟩

theorem Ready.setWrites {s : World} {l : Worker} (h : Ready K i id payload (s, l)) (writes : List Write) :
    Ready K i id payload (s, l.setWrites writes) := ⟨h.sure.setWrites writes, h.row, h.fresh, h.unfinalized⟩

theorem unfinished_of_fresh {w : World} (h : ¬ lateJob w id) : Unfinished id w :=
  fun c hc htouches => absurd ⟨c, hc, htouches⟩ h

theorem Ready.settling {w : State} (h : Ready K i id payload w) : Settling K i id w := by
  obtain ⟨row, hrow, hrunning, -⟩ := h.row
  refine ⟨h.sure, ⟨row, hrow, ?_⟩, unfinished_of_fresh h.fresh⟩
  simp [hrunning, h.unfinalized]

theorem Ready.failing {w : State} (h : Ready K i id payload w) : Failing K i id w := by
  refine ⟨h.sure, ?_⟩
  intro _ row hrow hsucceeded
  obtain ⟨row', hrow', hrunning, -⟩ := h.row
  rw [hrow'] at hrow
  cases hrow
  rw [hrunning] at hsucceeded
  cases hsucceeded

theorem Settling.same {s t : World} {l : Worker} (h : Settling K i id (s, l)) (hsame : Same i s t) :
    Settling K i id (t, l) := by
  obtain ⟨row, hrow, hfinalized⟩ := h.row
  exact ⟨h.sure.same hsame, ⟨row, by rw [hsame.job, hrow], hfinalized⟩, hsame.unfinished h.unfinished⟩

theorem Settling.setWrites {s : World} {l : Worker} (h : Settling K i id (s, l)) (writes : List Write) :
    Settling K i id (s, l.setWrites writes) := ⟨h.sure.setWrites writes, h.row, h.unfinished⟩

theorem settling_stable : (contract K).Stable i (Settling K i id) :=
  stable_of_same (fun _ h => h.sure.owned.body.lock) fun _ _ _ hsame h => h.same hsame

/-- A finalization that has not landed may fail. -/
theorem Settling.failing {w : State} (h : Settling K i id w)
    (hunfinalized : Within K settled → w.2.annals.finalized = false) : Failing K i id w := by
  refine ⟨h.sure, ?_⟩
  intro hsettled row hrow hsucceeded
  obtain ⟨row', hrow', hfinalized⟩ := h.row
  rw [hrow'] at hrow
  cases hrow
  have htrue := hfinalized.mp hsucceeded
  rw [hunfinalized hsettled] at htrue
  cases htrue

/-- The outcome of the job becomes uncertain. -/
theorem Sure.doubt {s : World} {l : Worker} (h : Sure K i id (s, l)) (hunfinished : Unfinished id s) :
    Ambiguous K i id (s.doubt id, l) := by
  refine ⟨⟨?_, ?_⟩, hunfinished⟩
  · exact ⟨⟨h.owned.body.lock, h.owned.body.metadata, h.owned.body.persisted, h.owned.body.returned,
      h.owned.body.confirmed⟩, h.owned.mine, h.owned.plain, h.owned.unrefused, h.owned.named⟩
  · intro horderly j hj hne
    obtain rfl | hj := List.mem_cons.mp hj
    · exact absurd rfl hne
    · exact h.recorded horderly j hj

theorem fine_doubt {c : Call} {s : World} {l : Worker} {x : Except Exn c.Answer} (h : Sure K i id (s, l))
    (hinvariant : Invariant K s) (hallowed : Allowed K i c (s, l)) (hanswered : Answered K c (s, l) x) :
    (contract K).Fine i c (s, l) x (s.doubt id, l) :=
  fine_raise h.owned.body.lock rfl (raises_of_same fun _ _ => rfl) hinvariant.payloads
    (kept_of_unpersisted h.owned.body.persisted) hallowed hanswered
    fun _ => absorbing_of_jobs fun _ => rfl

theorem metadataOf_withEvidence (id : ℕ) (evidence : Json) (payload : JobPayload) :
    metadataOf id (withEvidence evidence payload) = metadataOf id payload := by
  cases payload <;> rfl

/-- The finalization and its release are durable, whether the commit returned or not. -/
theorem Ready.finalized {evidence : Json} {blocker : BlockerPayload} (returned : Bool) {s t : World} {l : Worker}
    (h : Ready K i id payload (s, l)) (hblocker : blocker = releasePayload (metadataOf id payload))
    (hdraft : Draft i .lockRelease id blocker (CleanRelease .lockRelease) [.job id (finalizedJob payload evidence)]
      l.session.writes s)
    (hlanded : Landed s l.session.writes t) (hinvariant : Invariant K s) :
    Raises i s t ∧ Payloads t ∧ Absorbing s t ∧ Settling K i id (t, l.landed .finalization returned) := by
  have hrewritten := rewritten_of_draft (rewrites_job id (finalizedJob payload evidence)) hdraft hlanded
  have hraises := raises_draft hdraft hlanded.store h.sure.owned.mine fun _ => h.sure.owned.plain
  obtain ⟨row, hrow, hrunning, hpayload⟩ := h.row
  have hname : metadataOf id (finalizedJob payload evidence row).payload = metadataOf id row.payload := by
    rw [hpayload]
    exact metadataOf_withEvidence id evidence payload
  have hnames := hrewritten.keepsNames hrow hname
  have hpayloads : Payloads t := by
    refine payloads_draft row hdraft ?_ hlanded.store hinvariant.payloads hnames hrow
    rw [hblocker, hpayload]
  have hopen : row.status ≠ .succeeded := by
    intro hsucceeded
    rw [hrunning] at hsucceeded
    cases hsucceeded
  obtain ⟨-, -, b, hb, -, -, hcode, -⟩ := hdraft
  have hplain : Plain id t := by
    intro b' hb' _
    rw [blockerAt, hlanded.store, hb] at hb'
    cases hb'
    exact hcode rfl
  have howned := h.sure.owned.rewritten hrewritten hraises hplain fun row' hrow' => by
    rw [hrow] at hrow'
    cases hrow'
    exact hname
  refine ⟨hraises, hpayloads, hrewritten.absorbing hrow hopen, ⟨?_, ?_, ?_⟩, ⟨_, hrewritten.here hrow, ?_⟩, ?_⟩
  · exact ⟨⟨howned.body.lock, howned.body.metadata, howned.body.persisted, howned.body.returned,
      howned.body.confirmed⟩, howned.mine, howned.plain, howned.unrefused, howned.named⟩
  · intro horderly
    refine hrewritten.recorded hraises (h.sure.recorded horderly) ?_
    exact fun huncertain => absurd huncertain (h.sure.certain horderly)
  · intro horderly huncertain
    exact h.sure.certain horderly (hrewritten.uncertain ▸ huncertain)
  · exact ⟨fun _ => rfl, fun _ => rfl⟩
  · -- a late commit of the row is this one, which found it running
    intro c hc htouches row' hrow'
    obtain hlate | rfl := hlanded.late c hc
    · exact absurd ⟨c, hlate, htouches⟩ h.fresh
    · rw [show s.store.jobs.get id = some row from hrow] at hrow'
      cases hrow'
      exact hopen

theorem classifyFinalization_wp {expected : Finalization} {Q : Except Exn CommitOutcome → State → Prop} {w : State}
    (hw : Settling K i expected.jobId w)
    (hlanded : ∀ w, Sure K i expected.jobId w → Q (.ok .landed) w)
    (habsent : ∀ w, Failing K i expected.jobId w → Q (.ok .absent) w)
    (hunknown : ∀ w, Ambiguous K i expected.jobId w → Q (.ok .unknown) w) :
    (classifyFinalizationOutcome .finalization expected).wp (among K i) Q w := by
  simp only [classifyFinalizationOutcome, wp_tryCatch, wp_bind]
  refine call_wp settling_stable ?_ hw
  rintro s l choice x w' hinvariant hkept hs hact hallowed
  cases choice with
  | error e =>
    cases hact
    refine ⟨fine_doubt hs.sure hinvariant trivial trivial, ?_⟩
    rw [readOf, bindPost_error, catchPost_error, wp_ret]
    exact hunknown _ (hs.sure.doubt hs.unfinished)
  | ok stale =>
    simp only [act, readOf] at hact
    generalize hjob : (s.seen stale (.job expected.jobId)).jobs.get expected.jobId = job at hact
    have hanswered : Within K settled → jobOutcome expected job = some .absent → l.annals.finalized = false := by
      intro hsettled houtcome
      obtain ⟨row, hrow, hrunning⟩ := jobOutcome_absent houtcome
      obtain ⟨current, hcurrent, hfinalized⟩ := hs.row
      cases hdone : l.annals.finalized with
      | false => rfl
      | true =>
        have hx : x = .ok job := by
          cases hact
          rfl
        subst hx
        have hseen : l.annals.finalized = true → job = jobAt s expected.jobId := hsettled.call _ _ _ _ _ hallowed
        rw [hseen hdone] at hrow
        rw [hcurrent] at hrow
        cases hrow
        have hsucceeded := hfinalized.mpr hdone
        rw [hrunning] at hsucceeded
        cases hsucceeded
    cases houtcome : jobOutcome expected job with
    | some outcome =>
      cases outcome with
      | landed => exact absurd houtcome (jobOutcome_ne_landed _ _)
      | absent =>
        have hknown : jobDoubtful .finalization expected (.ok job) = false := by simp [jobDoubtful, houtcome]
        rw [hknown] at hact
        cases hact
        refine ⟨fine_still (Still.refl _) hinvariant hkept trivial hanswered, ?_⟩
        rw [bindPost_ok]
        simp only [houtcome, wp_ret, catchPost_ok]
        exact habsent _ (hs.failing fun hsettled => hanswered hsettled houtcome)
      | unknown =>
        have hdoubt : jobDoubtful .finalization expected (.ok job) = true := by simp [jobDoubtful, houtcome]
        rw [hdoubt] at hact
        cases hact
        refine ⟨fine_doubt hs.sure hinvariant trivial hanswered, ?_⟩
        rw [bindPost_ok]
        simp only [houtcome, wp_ret, catchPost_ok]
        exact hunknown _ (hs.sure.doubt hs.unfinished)
    | none =>
      have hknown : jobDoubtful .finalization expected (.ok job) = false := by simp [jobDoubtful, houtcome]
      rw [hknown] at hact
      cases hact
      refine ⟨fine_still (Still.refl _) hinvariant hkept trivial hanswered, ?_⟩
      rw [bindPost_ok]
      simp only [houtcome, wp_bind]
      refine call_wp settling_stable ?_ hs
      rintro s₁ l₁ choice₁ x₁ w₁ hinvariant₁ hkept₁ hs₁ hact₁ -
      cases choice₁ with
      | error e =>
        cases hact₁
        refine ⟨fine_doubt hs₁.sure hinvariant₁ trivial trivial, ?_⟩
        rw [readOf, bindPost_error, catchPost_error, wp_ret]
        exact hunknown _ (hs₁.sure.doubt hs₁.unfinished)
      | ok stale₁ =>
        simp only [act, readOf] at hact₁
        generalize ((s₁.seen stale₁ (.blocker .lockRelease expected.jobId)).blockers .lockRelease).get
          expected.jobId = blocker at hact₁
        cases houtcome₁ : blockerOutcome expected blocker with
        | landed =>
          have hknown₁ : blockerDoubtful .finalization expected (.ok blocker) = false := by
            simp [blockerDoubtful, houtcome₁]
          rw [hknown₁] at hact₁
          cases hact₁
          refine ⟨fine_still (Still.refl _) hinvariant₁ hkept₁ trivial trivial, ?_⟩
          rw [bindPost_ok, wp_ret, catchPost_ok, houtcome₁]
          exact hlanded _ hs₁.sure
        | absent =>
          exfalso
          unfold blockerOutcome at houtcome₁
          split_ifs at houtcome₁
        | unknown =>
          have hdoubt₁ : blockerDoubtful .finalization expected (.ok blocker) = true := by
            simp [blockerDoubtful, houtcome₁]
          rw [hdoubt₁] at hact₁
          cases hact₁
          refine ⟨fine_doubt hs₁.sure hinvariant₁ trivial trivial, ?_⟩
          rw [bindPost_ok, wp_ret, catchPost_ok, houtcome₁]
          exact hunknown _ (hs₁.sure.doubt hs₁.unfinished)

section Expected

variable {expected : Finalization} {Q : Except Exn MihomoReconciliationResult → State → Prop}

theorem settleFinalization_wp {commitError : Exn} {w : State} (hvalid : expected.Valid)
    (hw : Settling K i expected.jobId w) (hok : ∀ r w, Concluded K i expected.jobId w → Q (.ok r) w)
    (herror : ∀ e w, Failed K i expected.jobId e w → Q (.error e) w) :
    (settleFinalization expected commitError).wp (among K i) Q w := by
  rw [settleFinalization, wp_bind]
  refine rollback_wp settling_stable ?_ ?_ hw
  · intro s l hs
    rw [bindPost_ok, wp_bind]
    refine classifyFinalization_wp (hs.setWrites []) ?_ ?_ ?_
    · intro w hsure
      exact hok _ _ hsure.concluded
    · intro w hfailing
      rw [bindPost_ok]
      refine failure_wp hfailing ?_
      intro x w hfailing
      cases x with
      | ok r => exact hok r _ hfailing.sure.concluded
      | error e => exact herror e _ (hfailing.failed' e)
    · intro w hambiguous
      rw [bindPost_ok]
      refine markUnknown_wp hvalid (by decide) hambiguous hok ?_
      intro e w hunknown hconcluded
      exact herror e _ ⟨hconcluded, fun hne => absurd hunknown hne⟩
  · intro e s l hs hallowed
    have hfailing : Failing K i expected.jobId (s, l) := hs.failing fun hsettled => hsettled.call _ _ _ _ _ hallowed
    exact herror e _ (hfailing.failed' e)

theorem Ready.ensures (id : ℕ) (payload : JobPayload) {base : List Write} (hbase : ∀ s : Store, (s.applyAll base).blockers = s.blockers) :
    Ensures K i .finalization (releasePayload (metadataOf id payload)) base
      (fun w => Ready K i (metadataOf id payload).sourceJobId payload w) where
  lock := fun _ h => h.sure.owned.body.lock
  same := fun _ _ _ hsame h => h.same hsame
  writes := fun _ _ ws h => h.setWrites ws
  mine := fun _ h => h.sure.owned.mine
  plain := fun _ h _ => h.sure.owned.plain
  base := hbase
  check := check_releasePayload id payload
  named := by
    intro s l b hinvariant h hb
    obtain ⟨job, hjob, hm⟩ := h.sure.owned.named
    obtain ⟨job', hjob', hpayload⟩ := hinvariant.payloads _ b hb
    rw [show (releasePayload (metadataOf id payload)).sourceJobId = (metadataOf id payload).sourceJobId from rfl,
      hjob] at hjob'
    cases hjob'
    refine ⟨⟨_, hm, metadataOf_sourceJobId _ _, hpayload⟩, ?_⟩
    intro hsite
    cases hsite

theorem finalizeJob_wp {verification : String} {w : State} (hvalid : expected.Valid)
    (hnames : finalizationBlockerPayload expected = releasePayload (metadataOf expected.jobId payload))
    (hw : Ready K i expected.jobId payload w) (hwrites : w.2.session.writes = [])
    (hok : ∀ r w, Concluded K i expected.jobId w → Q (.ok r) w)
    (herror : ∀ e w, Failed K i expected.jobId e w → Q (.error e) w) :
    (finalizeJob expected payload verification).wp (among K i) Q w := by
  rw [finalizeJob, wp_bind]
  have hsource : (metadataOf expected.jobId payload).sourceJobId = expected.jobId := metadataOf_sourceJobId _ _
  have hstable : (contract K).Stable i fun w => Ready K i expected.jobId payload w ∧ w.2.session.writes = [] :=
    stable_of_same (fun _ h => h.1.sure.owned.body.lock) fun _ _ _ hsame h => ⟨h.1.same hsame, h.2⟩
  refine write_wp hstable ?_ ⟨hw, hwrites⟩
  rintro s l ⟨hs, hwrites₁⟩
  rw [bindPost_ok, hwrites₁, wp_bind, wp_attempt, wp_bind, hnames]
  have hensures := Ready.ensures (K := K) (i := i) expected.jobId payload
    (rewrites_job expected.jobId (finalizedJob payload (evidenceOf expected verification))).blockers
  have hpost : ∀ e w, Settling K i expected.jobId w → (settleFinalization expected e).wp (among K i) Q w :=
    fun e w h => settleFinalization_wp hvalid h hok herror
  have hready : Ready K i (metadataOf expected.jobId payload).sourceJobId payload (s, l.setWrites
      [.job expected.jobId (finalizedJob payload (evidenceOf expected verification))]) := by
    rw [hsource]
    exact hs.setWrites _
  refine ensure_wp hensures ?_ ?_ hready rfl
  · intro s₁ l₁ hs₁ hdrafted
    rw [bindPost_ok]
    refine call_wp (hensures.stable fun _ _ _ hsame hR => Drafted.same hR hsame) ?_ ⟨hs₁, hdrafted⟩
    rintro s₂ l₂ choice x ⟨t, l₂'⟩ hinvariant hkept ⟨hs₂, hdrafted₂⟩ hact -
    rw [hsource] at hs₂
    have hdraft := hdrafted₂ s₂ (Same.refl i s₂)
    rw [show (releasePayload (metadataOf expected.jobId payload)).sourceJobId = expected.jobId from hsource] at hdraft
    have hlands : ∀ t x returned, Landed s₂ l₂.session.writes t →
        (contract K).Fine i (.commit .finalization) (s₂, l₂) x (t, l₂.landed .finalization returned) ∧
          Settling K i expected.jobId (t, l₂.landed .finalization returned) := by
      intro t x returned hlanded
      obtain ⟨hraises, hpayloads, habsorbing, hsettling⟩ :=
        hs₂.finalized returned rfl hdraft hlanded hinvariant
      exact ⟨fine_raise hs₂.sure.owned.body.lock hlanded.lock hraises hpayloads
        (kept_of_unpersisted hs₂.sure.owned.body.persisted) trivial trivial fun _ => habsorbing, hsettling⟩
    obtain ⟨rfl, hlanded, rfl⟩ | ⟨⟨exc, rfl⟩, hlanded, rfl⟩ | ⟨⟨exc, rfl⟩, rfl, rfl⟩ := act_commit hact
    · obtain ⟨hfine, hsettling⟩ := hlands t _ true hlanded
      exact ⟨hfine, hok _ _ hsettling.sure.concluded⟩
    · obtain ⟨hfine, hsettling⟩ := hlands t _ false hlanded
      exact ⟨hfine, hpost exc _ hsettling⟩
    · exact ⟨fine_still (Still.refl _) hinvariant (kept_of_still (l := l₂) (Still.refl _) rfl hkept) trivial trivial,
        hpost exc _ (hs₂.setWrites []).settling⟩
  · intro e s₁ l₁ hs₁ _
    rw [hsource] at hs₁
    exact hpost e _ hs₁.settling

end Expected

end Finalizing

end Lingsway.Mihomo
