import Lingsway.Infra.MihomoBlock

/-!
# The claim of a job

A claim takes a row that is not finalized. If something older or a blocker is
unresolved, the claim is taken back before the block is left.
-/
namespace Lingsway.Mihomo

open Library Program

section Rules

variable {K : Conduct calls Exn World Worker} {i : ℕ} {P : State → Prop}

/-- A call that changes nothing and needs nothing. -/
def Idle (c : Call) : Prop :=
  ∀ (K : Conduct calls Exn World Worker) i choice w x w', act i c choice w = (x, w') →
    w' = w ∧ Allowed K i c w ∧ Answered K c w x

theorem idle_wp {c : Call} {Q : Except Exn c.Answer → State → Prop} (hidle : Idle c)
    (hstable : (contract K).Stable i P) (hQ : ∀ x w, P w → Q x w) {w : State} (hw : P w) :
    (perform c).wp (among K i) Q w := by
  refine still_wp hstable ?_ hw
  intro s l choice x t l' _ hs hact _
  obtain ⟨hsame, hallowed, hanswered⟩ := hidle K i choice (s, l) x (t, l') hact
  cases hsame
  exact ⟨Still.refl _, rfl, hallowed, hanswered, hQ x _ hs⟩

theorem idle_configure : Idle .configure := by
  intro K i choice w x w' h
  exact ⟨act_outcome h, trivial, trivial⟩

theorem idle_render : Idle .render := by
  intro K i choice w x w' h
  exact ⟨act_outcome h, trivial, trivial⟩

theorem idle_now : Idle .now := by
  intro K i choice w x w' h
  cases h
  exact ⟨rfl, trivial, trivial⟩

theorem idle_load (id : ℕ) : Idle (.load id) := by
  intro K i choice w x w' h
  cases h
  exact ⟨rfl, trivial, trivial⟩

theorem idle_finalizeTemplate : Idle .finalizeTemplate := by
  intro K i choice w x w' h
  cases h
  exact ⟨rfl, trivial, trivial⟩

theorem idle_holdsProjectionLock : Idle .holdsProjectionLock := by
  intro K i choice w x w' h
  cases h
  exact ⟨rfl, trivial, trivial⟩

theorem idle_readBlocker (kind : BlockerKind) (source : ℕ) : Idle (.readBlocker kind source) := by
  intro K i choice w x w' h
  cases h
  exact ⟨rfl, trivial, trivial⟩

theorem rollback_wp {site : Site} {Q : Except Exn Unit → State → Prop} (hstable : (contract K).Stable i P)
    (hok : ∀ s l, P (s, l) → Q (.ok ()) (s, l.setWrites []))
    (herror : ∀ e s l, P (s, l) → K.call i (.rollback site) (s, l) (.error e) (s, l) → Q (.error e) (s, l))
    {w : State} (hw : P w) : (perform (.rollback site)).wp (among K i) Q w := by
  refine still_wp hstable ?_ hw
  intro s l choice x t l' _ hs hact hallowed
  obtain ⟨rfl, ⟨rfl, rfl⟩ | ⟨⟨e, rfl⟩, rfl⟩⟩ := act_rollback hact
  · exact ⟨Still.refl _, rfl, trivial, trivial, hok _ _ hs⟩
  · exact ⟨Still.refl _, rfl, trivial, trivial, herror e _ _ hs hallowed⟩

theorem write_wp {change : Write} {Q : Except Exn Unit → State → Prop} (hstable : (contract K).Stable i P)
    (hok : ∀ s l, P (s, l) → Q (.ok ()) (s, l.setWrites (l.session.writes ++ [change.heldBy i])))
    {w : State} (hw : P w) : (perform (.write change)).wp (among K i) Q w := by
  refine still_wp hstable ?_ hw
  intro s l choice x t l' _ hs hact _
  obtain ⟨rfl, rfl, rfl⟩ := act_write hact
  exact ⟨Still.refl _, rfl, trivial, trivial, hok _ _ hs⟩

/-- One row of the jobs is rewritten, and nothing else. -/
structure Rewritten (id : ℕ) (f : MihomoJob → MihomoJob) (s t : World) : Prop where
  jobs : ∀ j, jobAt t j = if j = id then (jobAt s j).map f else jobAt s j
  lock : t.lock = s.lock
  uncertain : t.uncertain = s.uncertain

namespace Rewritten

variable {id : ℕ} {f : MihomoJob → MihomoJob} {s t : World} {row : MihomoJob}

theorem here (h : Rewritten id f s t) (hrow : jobAt s id = some row) : jobAt t id = some (f row) := by
  rw [h.jobs, if_pos rfl, hrow]
  rfl

theorem other (h : Rewritten id f s t) {j : ℕ} (hj : j ≠ id) : jobAt t j = jobAt s j := by
  rw [h.jobs, if_neg hj]

theorem keepsNames (h : Rewritten id f s t) (hrow : jobAt s id = some row)
    (hname : metadataOf id (f row).payload = metadataOf id row.payload) : KeepsNames s t := by
  intro j job hjob
  by_cases hj : j = id
  · subst hj
    rw [hrow] at hjob
    cases hjob
    exact ⟨f row, h.here hrow, hname⟩
  · exact ⟨job, by rw [h.other hj, hjob], rfl⟩

theorem absorbing (h : Rewritten id f s t) (hrow : jobAt s id = some row) (hopen : row.status ≠ .succeeded) :
    Absorbing s t := by
  intro j job hjob hdurable
  by_cases hj : j = id
  · subst hj
    rw [hrow] at hjob
    cases hjob
    exact absurd hdurable.1 hopen
  · exact ⟨job, by rw [h.other hj, hjob], hdurable.1, rfl⟩

theorem recordedBut (h : Rewritten id f s t) (hraises : Raises i s t) (hs : RecordedBut s id) : RecordedBut t id := by
  intro j hj hne
  rw [h.uncertain] at hj
  obtain ⟨job, hjob, hclosed⟩ | hstopped := hs j hj hne
  · exact .inl ⟨job, by rw [h.other hne, hjob], hclosed⟩
  · exact .inr (hraises.stopped hstopped)

/-- What is recorded stays so, when the rewritten job is not uncertain or is recorded itself. -/
theorem recorded (h : Rewritten id f s t) (hraises : Raises i s t) (hs : Recorded s)
    (hown : id ∈ s.uncertain → ClosedAt t id ∨ Stopped t) : Recorded t := by
  intro j hj
  by_cases hne : j = id
  · subst hne
    rw [h.uncertain] at hj
    exact hown hj
  · exact h.recordedBut hraises (fun j hj _ => hs j hj) j hj hne

end Rewritten

theorem rewritten_of_landed {id : ℕ} {f : MihomoJob → MihomoJob} {s t : World} (h : Landed s [.job id f] t) :
    Rewritten id f s t ∧ ∀ kind source, blockerAt t kind source = blockerAt s kind source := by
  refine ⟨⟨?_, h.lock, h.uncertain⟩, ?_⟩
  · intro j
    rw [jobAt, h.store, Store.applyAll_singleton, Store.jobs_apply_job, Table.get_modify, jobAt]
  · intro kind source
    rw [blockerAt, h.store, Store.applyAll_singleton, Store.blockers_apply_job, blockerAt]

/-- A commit of one rewritten job, in the body of a block. -/
theorem commitJob_wp {site : Site} (id : ℕ) (f : MihomoJob → MihomoJob) {Q : Except Exn Unit → State → Prop}
    (hsite : ∀ (l : Worker) returned, l.landed site returned = l.setWrites [])
    (hstable : (contract K).Stable i P) (hbody : ∀ w, P w → InBody i w)
    (hwrites : ∀ w, P w → w.2.session.writes = [.job id f])
    (hrow : ∀ w, P w → ∃ row, jobAt w.1 id = some row ∧
      metadataOf id (f row).payload = metadataOf id row.payload ∧ (Within K settled → row.status ≠ .succeeded))
    (hland : ∀ x s t l, P (s, l) → Rewritten id f s t →
      (∀ kind source, blockerAt t kind source = blockerAt s kind source) → (x = .ok () → ¬ lateJob t id) →
      Q x (t, l.setWrites []))
    (hfail : ∀ e s l, P (s, l) → K.call i (.commit site) (s, l) (.error e) (s, l.setWrites []) →
      Q (.error e) (s, l.setWrites []))
    {w : State} (hw : P w) : (perform (.commit site)).wp (among K i) Q w := by
  refine call_wp hstable ?_ hw
  rintro s l choice x ⟨t, l'⟩ hinvariant hkept hs hact hallowed
  have hfine : ∀ t x, Landed s l.session.writes t →
      (contract K).Fine i (.commit site) (s, l) x (t, l.setWrites []) ∧ Rewritten id f s t ∧
        ∀ kind source, blockerAt t kind source = blockerAt s kind source := by
    intro t x hlanded
    have hlock := hlanded.lock
    rw [show l.session.writes = [.job id f] from hwrites _ hs] at hlanded
    obtain ⟨hrewritten, hblockers⟩ := rewritten_of_landed hlanded
    obtain ⟨row, hjob, hname, hopen⟩ := hrow _ hs
    have hpayloads : Payloads t := by
      refine payloads_of_names hinvariant.payloads (hrewritten.keepsNames hjob hname) ?_
      intro id b hb
      rw [hblockers] at hb
      exact .inl ⟨b, hb, rfl⟩
    refine ⟨fine_raise (hbody _ hs).lock hlock (raises_of_same hblockers) hpayloads ?_ trivial trivial
      fun hsettled => hrewritten.absorbing hjob (hopen hsettled), hrewritten, hblockers⟩
    exact kept_of_unpersisted (hbody _ hs).persisted
  obtain ⟨rfl, rfl, rfl⟩ | ⟨⟨exc, rfl⟩, hlanded, rfl⟩ | ⟨⟨exc, rfl⟩, rfl, rfl⟩ := commit_cases site hact
  · rw [hsite]
    obtain ⟨hfine, hrewritten, hblockers⟩ := hfine _ (.ok ()) (landed_land _ _)
    refine ⟨hfine, hland _ _ _ _ hs hrewritten hblockers ?_⟩
    intro _
    rw [show l.session.writes = [.job id f] from hwrites _ hs]
    exact not_late_land (List.mem_singleton.mpr rfl) rfl
  · rw [hsite]
    obtain ⟨hfine, hrewritten, hblockers⟩ := hfine _ (.error exc) hlanded
    refine ⟨hfine, hland _ _ _ _ hs hrewritten hblockers ?_⟩
    intro hok
    cases hok
  · refine ⟨fine_still (Still.refl _) hinvariant (kept_of_still (l := l) (Still.refl _) rfl hkept) trivial trivial, ?_⟩
    exact hfail exc _ _ hs hallowed

end Rules

section Claims

variable {K : Conduct calls Exn World Worker} {i : ℕ} {job : Entity MihomoJob}

/-- Nothing has to be taken back. -/
theorem bare_of_unrefused {w : State} (hbody : InBody i w) (huntagged : w.2.session.releaseMetadata = none)
    (hrecorded : Within K orderly → Recorded w.1) (hunrefused : w.2.annals.refused = false) : Bare K i w := by
  refine ⟨hbody, huntagged, hrecorded, ?_⟩
  intro _ hrefused
  rw [hunrefused] at hrefused
  cases hrefused

theorem Entered.bare {w : State} (h : Entered K i w) : Bare K i w :=
  bare_of_unrefused h.body h.untagged h.recorded h.unrefused

/-- A row is chosen that may be claimed. -/
structure Chosen (K : Conduct calls Exn World Worker) (i : ℕ) (job : Entity MihomoJob) (w : State) : Prop where
  body : InBody i w
  untagged : w.2.session.releaseMetadata = none
  unrefused : w.2.annals.refused = false
  unfinalized : w.2.annals.finalized = false
  claimed : w.2.annals.claimed = some job
  row : jobAt w.1 job.id = some job.row
  unclosed : ¬ Closed job.row
  recorded : Within K orderly → Recorded w.1

/-- Nothing is refused and nothing is to be sent. -/
structure Worker.Idling (l : Worker) : Prop where
  unrefused : l.annals.refused = false
  writes : l.session.writes = []

/-- The claim of the row is durable. -/
structure Claimed (K : Conduct calls Exn World Worker) (i : ℕ) (job : Entity MihomoJob) (w : State) : Prop where
  body : InBody i w
  untagged : w.2.session.releaseMetadata = none
  unfinalized : w.2.annals.finalized = false
  row : jobAt w.1 job.id = some job.row
  running : job.row.status = .running
  fresh : ¬ lateJob w.1 job.id
  before : ∃ old, w.2.annals.claimed = some ⟨job.id, old⟩ ∧ job.row.attempts = old.attempts + 1 ∧
    job.row.lastErrorCode = old.lastErrorCode
  recorded : Within K orderly → Recorded w.1
  certain : Within K orderly → job.id ∈ w.1.uncertain → Stopped w.1

theorem Chosen.same {s t : World} {l : Worker} (h : Chosen K i job (s, l)) (hsame : Same i s t) :
    Chosen K i job (t, l) :=
  ⟨h.body.same hsame, h.untagged, h.unrefused, h.unfinalized, h.claimed, by rw [hsame.job, h.row], h.unclosed,
    fun horderly => hsame.recorded (h.recorded horderly)⟩

theorem Claimed.same {s t : World} {l : Worker} (h : Claimed K i job (s, l)) (hsame : Same i s t) :
    Claimed K i job (t, l) where
  body := h.body.same hsame
  untagged := h.untagged
  unfinalized := h.unfinalized
  row := by rw [hsame.job, h.row]
  running := h.running
  fresh := fun hlate => h.fresh (hsame.late.lateJob hlate)
  before := h.before
  recorded := fun horderly => hsame.recorded (h.recorded horderly)
  certain := by
    intro horderly huncertain
    rw [hsame.uncertain] at huncertain
    exact hsame.stopped (h.certain horderly huncertain)

theorem Claimed.setWrites {s : World} {l : Worker} (h : Claimed K i job (s, l)) (writes : List Write) :
    Claimed K i job (s, l.setWrites writes) :=
  ⟨⟨h.body.lock, h.body.metadata, h.body.persisted, h.body.returned, h.body.confirmed⟩, h.untagged, h.unfinalized,
    h.row, h.running, h.fresh, h.before, h.recorded, h.certain⟩

theorem Claimed.bare {w : State} (h : Claimed K i job w) (hunrefused : w.2.annals.refused = false) :
    Bare K i w :=
  bare_of_unrefused h.body h.untagged h.recorded hunrefused

/-- A phase of the claim, with what the session is about to send. -/
theorem claimed_stable {R : Worker → Prop} :
    (contract K).Stable i fun w => Claimed K i job w ∧ R w.2 :=
  stable_of_same (fun _ h => h.1.body.lock) fun _ _ _ hsame h => ⟨h.1.same hsame, h.2⟩

theorem chosen_stable {R : Worker → Prop} :
    (contract K).Stable i fun w => Chosen K i job w ∧ R w.2 :=
  stable_of_same (fun _ h => h.1.body.lock) fun _ _ _ hsame h => ⟨h.1.same hsame, h.2⟩

theorem not_closed_of_claimable {now : Timestamp} {row : MihomoJob} (h : claimable now row = true) :
    ¬ Closed row := by
  simp only [claimable, Bool.and_eq_true, Bool.or_eq_true, decide_eq_true_eq, Bool.not_eq_true'] at h
  obtain ⟨⟨(hpending | hfailed) | ⟨⟨hrunning, -⟩, hknown⟩, -⟩, -⟩ := h
  · rintro (hclosed | ⟨hclosed, -⟩)
    · rw [hpending] at hclosed
      cases hclosed
    · rw [hpending] at hclosed
      cases hclosed
  · rintro (hclosed | ⟨hclosed, -⟩)
    · rw [hfailed] at hclosed
      cases hclosed
    · rw [hfailed] at hclosed
      cases hclosed
  · rintro (hclosed | ⟨-, hunknown⟩)
    · rw [hrunning] at hclosed
      cases hclosed
    · rw [hknown] at hunknown
      cases hunknown

theorem claimable_row {w : World} {now : Timestamp} {others : List ℕ} (h : w.claimable now others = some job) :
    jobAt w job.id = some job.row ∧ ¬ Closed job.row := by
  have hmem := List.mem_of_find?_eq_some h
  have hmay := List.find?_some h
  simp only [Bool.and_eq_true] at hmay
  exact ⟨Table.mem_entities.mp hmem, not_closed_of_claimable hmay.1.1⟩

theorem claim_wp {now : Timestamp} {Q : Except Exn (Option (Entity MihomoJob)) → State → Prop} {w : State}
    (hw : Entered K i w) (hnone : ∀ w, Bare K i w → Q (.ok none) w)
    (hsome : ∀ job w, Claimed K i job w → w.2.Idling → Q (.ok (some job)) w)
    (herror : ∀ e w, Bare K i w → Q (.error e) w) : (claim now).wp (among K i) Q w := by
  rw [claim, wp_bind]
  refine call_wp entered_stable ?_ hw
  rintro s l choice x w' hinvariant - hs hact -
  cases choice with
  | error exc =>
    cases hact
    exact ⟨fine_still (Still.refl _) hinvariant hs.body.kept trivial trivial, herror exc _ hs.bare⟩
  | ok others =>
    cases hact
    refine ⟨fine_still (Still.refl _) hinvariant (kept_of_unpersisted hs.body.persisted) trivial trivial, ?_⟩
    rw [bindPost_ok]
    have hbody : ∀ claimed, InBody i (s, { l with annals := { l.annals with claimed := claimed } }) :=
      fun _ => ⟨hs.body.lock, hs.body.metadata, hs.body.persisted, hs.body.returned, hs.body.confirmed⟩
    cases hchoice : s.claimable now others with
    | none =>
      rw [wp_ret]
      exact hnone _ (bare_of_unrefused (hbody _) hs.untagged hs.recorded hs.unrefused)
    | some job =>
      obtain ⟨hrow, hunclosed⟩ := claimable_row hchoice
      have hchosen : Chosen K i job (s, { l with annals := { l.annals with claimed := some job } }) :=
        ⟨hbody _, hs.untagged, hs.unrefused, hs.unfinalized, rfl, hrow, hunclosed, hs.recorded⟩
      simp only [wp_bind]
      refine write_wp (P := fun w => Chosen K i job w ∧ w.2.session.writes = [])
        (chosen_stable (R := fun l => l.session.writes = [])) ?_ ⟨hchosen, hs.writes⟩
      rintro s₁ l₁ ⟨hs₁, hwrites₁⟩
      simp only at hwrites₁
      rw [bindPost_ok, hwrites₁, wp_bind]
      have hsending : Chosen K i job (s₁, l₁.setWrites [.job job.id (claimedJob now)]) :=
        ⟨⟨hs₁.body.lock, hs₁.body.metadata, hs₁.body.persisted, hs₁.body.returned, hs₁.body.confirmed⟩, hs₁.untagged,
          hs₁.unrefused, hs₁.unfinalized, hs₁.claimed, hs₁.row, hs₁.unclosed, hs₁.recorded⟩
      refine commitJob_wp job.id (claimedJob now) (fun _ _ => rfl)
        (chosen_stable (R := fun l => l.session.writes = [.job job.id (claimedJob now)]))
        (fun w hw => hw.1.body) (fun w hw => hw.2) ?_ ?_ ?_ ⟨hsending, rfl⟩
      · rintro w ⟨hw, -⟩
        exact ⟨job.row, hw.row, rfl, fun _ hsucceeded => hw.unclosed (.inl hsucceeded)⟩
      · rintro x s₂ t l₂ ⟨hs₂, -⟩ hrewritten hblockers hfresh
        have hraises : Raises i s₂ t := raises_of_same hblockers
        have hcertain : Within K orderly → job.id ∈ s₂.uncertain → Stopped s₂ := by
          intro horderly huncertain
          obtain ⟨row, hrow, hclosed⟩ | hstopped := hs₂.recorded horderly _ huncertain
          · rw [hs₂.row] at hrow
            cases hrow
            exact absurd hclosed hs₂.unclosed
          · exact hstopped
        have hrecorded : Within K orderly → Recorded t := fun horderly => hrewritten.recorded hraises
          (hs₂.recorded horderly) fun huncertain => .inr (hraises.stopped (hcertain horderly huncertain))
        have hin : InBody i (t, l₂.setWrites []) :=
          ⟨hrewritten.lock.trans hs₂.body.lock, hs₂.body.metadata, hs₂.body.persisted, hs₂.body.returned,
            hs₂.body.confirmed⟩
        cases x with
        | ok _ =>
          rw [bindPost_ok, wp_ret]
          refine hsome ⟨job.id, claimedJob now job.row⟩ _ ⟨hin, hs₂.untagged, hs₂.unfinalized,
            hrewritten.here hs₂.row, rfl, hfresh rfl, ⟨job.row, hs₂.claimed, rfl, rfl⟩, hrecorded, ?_⟩
            ⟨hs₂.unrefused, rfl⟩
          intro horderly huncertain
          rw [hrewritten.uncertain] at huncertain
          exact hraises.stopped (hcertain horderly huncertain)
        | error e =>
          rw [bindPost_error]
          exact herror e _ (bare_of_unrefused hin hs₂.untagged hrecorded hs₂.unrefused)
      · rintro e s₂ l₂ ⟨hs₂, -⟩ -
        rw [bindPost_error]
        have hin : InBody i (s₂, l₂.setWrites []) :=
          ⟨hs₂.body.lock, hs₂.body.metadata, hs₂.body.persisted, hs₂.body.returned, hs₂.body.confirmed⟩
        exact herror e _ (bare_of_unrefused hin hs₂.untagged hs₂.recorded hs₂.unrefused)

theorem Same.unblockedWorld {s t : World} (h : Same i s t) (hs : ¬ Blocked s) : ¬ Blocked t := by
  rintro ⟨kind, source, b, hb, hunresolved⟩
  obtain ⟨b', hb', hunresolved'⟩ := h.unresolved kind source b hb hunresolved
  exact hs ⟨kind, source, b', hb', hunresolved'⟩

/-- The queries that a claim is checked by wait for the rows they read. -/
theorem Claimed.settled {s : World} {l : Worker} (h : Claimed K i job (s, l)) (keys : RowKey → Bool)
    (blocked : Bool) : Claimed K i job (s.settle keys, l.refuse blocked) := by
  have hsame := h.same ((still_settle s keys).same i)
  exact ⟨⟨hsame.body.lock, hsame.body.metadata, hsame.body.persisted, hsame.body.returned, hsame.body.confirmed⟩,
    hsame.untagged, hsame.unfinalized, hsame.row, hsame.running, hsame.fresh, hsame.before, hsame.recorded,
    hsame.certain⟩

theorem Worker.Idling.refuse {l : Worker} (h : l.Idling) : (l.refuse false).Idling :=
  ⟨by simp [Worker.refuse, h.unrefused], h.writes⟩

/-- Only a refusal raises the error of one. -/
def RefusedBy (e : Exn) (w : State) : Prop :=
  w.2.annals.refused = true → e.cls = .other "MihomoReconciliationBlocked"

theorem refusedBy_of_unrefused {w : State} (h : w.2.annals.refused = false) (e : Exn) : RefusedBy e w := by
  intro hrefused
  rw [h] at hrefused
  cases hrefused

theorem assertNoUnresolved_wp {Q : Except Exn Unit → State → Prop} {w : State} (hw : Claimed K i job w)
    (hidling : w.2.Idling)
    (hok : ∀ w, Claimed K i job w → w.2.Idling → Unblocked w.1 job.id → Q (.ok ()) w)
    (herror : ∀ e w, Claimed K i job w → RefusedBy e w → Q (.error e) w) :
    (assertNoUnresolvedMihomoMutation job.id).wp (among K i) Q w := by
  rw [assertNoUnresolvedMihomoMutation, wp_bind]
  have hstable : (contract K).Stable i fun w => Claimed K i job w ∧ w.2.Idling :=
    claimed_stable (R := Worker.Idling)
  refine idle_wp idle_holdsProjectionLock hstable ?_ ⟨hw, hidling⟩
  rintro x w ⟨hw, hidling⟩
  cases x with
  | error e => exact herror e _ hw (refusedBy_of_unrefused hidling.unrefused e)
  | ok held =>
    rw [bindPost_ok]
    split_ifs
    · rw [wp_raise]
      exact herror _ _ hw (refusedBy_of_unrefused hidling.unrefused _)
    rw [wp_bind]
    refine call_wp hstable ?_ ⟨hw, hidling⟩
    rintro s l choice x w' hinvariant hkept ⟨hs, hidling₁⟩ hact -
    cases choice with
    | some exc =>
      cases hact
      exact ⟨fine_still (Still.refl _) hinvariant hkept trivial trivial,
        herror exc _ hs (refusedBy_of_unrefused hidling₁.unrefused exc)⟩
    | none =>
      cases hact
      have hsettled := hs.settled isBlocker s.store.unresolvedBlockers
      refine ⟨fine_still (still_settle s isBlocker) hinvariant (kept_of_unpersisted hsettled.body.persisted) trivial
        trivial, ?_⟩
      rw [bindPost_ok]
      cases hblocked : s.store.unresolvedBlockers with
      | true =>
        rw [hblocked] at hsettled
        rw [if_pos rfl, wp_raise]
        exact herror _ _ hsettled fun _ => rfl
      | false =>
        rw [hblocked] at hsettled
        rw [if_neg (by decide), wp_bind]
        have hclear : ¬ Blocked (s.settle isBlocker) := by
          intro h
          have := (unresolvedBlockers_iff (s.settle isBlocker)).mpr h
          rw [show (s.settle isBlocker).store = s.store from rfl, hblocked] at this
          cases this
        refine call_wp (P := fun w => (Claimed K i job w ∧ w.2.Idling) ∧ ¬ Blocked w.1) ?_ ?_
          ⟨⟨hsettled, hidling₁.refuse⟩, hclear⟩
        · exact stable_of_same (fun _ h => h.1.1.body.lock) fun _ _ _ hsame h =>
            ⟨⟨h.1.1.same hsame, h.1.2⟩, hsame.unblockedWorld h.2⟩
        rintro u m choice₁ x₁ w₁ hinvariant₁ hkept₁ ⟨⟨hu, hidling₂⟩, hclear₂⟩ hact₁ -
        cases choice₁ with
        | some exc =>
          cases hact₁
          exact ⟨fine_still (Still.refl _) hinvariant₁ hkept₁ trivial trivial,
            herror exc _ hu (refusedBy_of_unrefused hidling₂.unrefused exc)⟩
        | none =>
          cases hact₁
          have hsettled₁ := hu.settled (isOlder job.id) (u.store.unresolvedOlder job.id)
          refine ⟨fine_still (still_settle u _) hinvariant₁ (kept_of_unpersisted hsettled₁.body.persisted) trivial
            ?_, ?_⟩
          · cases u.store.unresolvedOlder job.id with
            | true => trivial
            | false => exact hclear₂
          rw [bindPost_ok]
          cases holder : u.store.unresolvedOlder job.id with
          | true =>
            rw [holder] at hsettled₁
            rw [if_pos rfl, wp_raise]
            exact herror _ _ hsettled₁ fun _ => rfl
          | false =>
            rw [holder] at hsettled₁
            rw [if_neg (by decide), wp_ret]
            exact hok _ hsettled₁ hidling₂.refuse ⟨hclear₂, (unresolvedOlder_iff u job.id).mp holder⟩

/-- A row without a late commit is read as it is. -/
theorem seen_fresh {w : World} {id : ℕ} (h : ¬ lateJob w id) (stale : Option ℕ) :
    w.seen stale (.job id) = w.store := by
  unfold World.seen
  split
  · rename_i c hc
    obtain ⟨n, -, hget⟩ := Option.bind_eq_some_iff.mp hc
    rw [if_neg]
    intro htouches
    exact h ⟨c, List.mem_of_getElem? hget, htouches⟩
  · rfl

/-- The row of a claim that is taken back. -/
def resetJob (attempts : ℕ) (job : MihomoJob) : MihomoJob :=
  { job with status := .pending, lockedAt := none, attempts := attempts - 1 }

/-- With the row taken back the claim has left no trace. -/
theorem Claimed.reset {s t : World} {l : Worker} (h : Claimed K i job (s, l))
    (hrewritten : Rewritten job.id (resetJob job.row.attempts) s t) (hraises : Raises i s t) :
    Bare K i (t, l.setWrites []) := by
  refine ⟨⟨hrewritten.lock.trans h.body.lock, h.body.metadata, h.body.persisted, h.body.returned,
    h.body.confirmed⟩, h.untagged, ?_, ?_⟩
  · intro horderly
    refine hrewritten.recorded hraises (h.recorded horderly) ?_
    exact fun huncertain => .inr (hraises.stopped (h.certain horderly huncertain))
  · intro _ _
    obtain ⟨old, hclaimed, hattempts, hcode⟩ := h.before
    refine ⟨⟨job.id, old⟩, resetJob job.row.attempts job.row, hclaimed, hrewritten.here h.row, ?_, hcode⟩
    simp [resetJob, hattempts]

theorem resetBlockedClaim_wp {Q : Except Exn Unit → State → Prop} {w : State} (hw : Claimed K i job w)
    (hQ : ∀ x w, Bare K i w → Q x w) : (resetBlockedClaim job.id).wp (among K i) Q w := by
  rw [resetBlockedClaim, wp_bind]
  have hstable : (contract K).Stable i fun w => Claimed K i job w ∧ True := claimed_stable (R := fun _ => True)
  refine rollback_wp hstable ?_ ?_ ⟨hw, trivial⟩
  · rintro s l ⟨hs, -⟩
    rw [bindPost_ok, wp_bind]
    refine still_wp (P := fun w => Claimed K i job w ∧ w.2.session.writes = [])
      (claimed_stable (R := fun l => l.session.writes = [])) ?_ ⟨hs.setWrites [], rfl⟩
    rintro s₁ l₁ choice x t l₁' - ⟨hs₁, hwrites₁⟩ hact hallowed
    cases choice with
    | error exc =>
      cases hact
      refine ⟨Still.refl _, rfl, trivial, trivial, hQ _ _ ⟨hs₁.body, hs₁.untagged, hs₁.recorded, ?_⟩⟩
      exact fun horderly => (horderly.call _ _ _ _ _ hallowed).elim
    | ok stale =>
      cases hact
      refine ⟨Still.refl _, rfl, trivial, trivial, ?_⟩
      have hrow : (s₁.seen stale (.job job.id)).jobs.get job.id = some job.row := by
        rw [seen_fresh hs₁.fresh, ← hs₁.row]
        rfl
      simp only [readOf, hrow, bindPost_ok, hs₁.running, if_true, wp_bind]
      refine write_wp (claimed_stable (R := fun l => l.session.writes = [])) ?_ ⟨hs₁, hwrites₁⟩
      rintro s₂ l₂ ⟨hs₂, hwrites₂⟩
      rw [bindPost_ok, hwrites₂]
      refine commitJob_wp job.id (resetJob job.row.attempts) (fun _ _ => rfl)
        (claimed_stable (R := fun l => l.session.writes = [.job job.id (resetJob job.row.attempts)]))
        (fun w hw => hw.1.body) (fun w hw => hw.2) ?_ ?_ ?_ ⟨hs₂.setWrites _, rfl⟩
      · rintro w ⟨hw, -⟩
        refine ⟨job.row, hw.row, rfl, ?_⟩
        intro _ hsucceeded
        rw [hw.running] at hsucceeded
        cases hsucceeded
      · rintro x s₃ t l₃ ⟨hs₃, -⟩ hrewritten hblockers -
        exact hQ _ _ (hs₃.reset hrewritten (raises_of_same hblockers))
      · rintro e s₃ l₃ ⟨hs₃, hwrites₃⟩ hallowed₃
        refine hQ _ _ ⟨(hs₃.setWrites []).body, hs₃.untagged, hs₃.recorded, ?_⟩
        -- the commit fails only where it has nothing to change
        intro horderly hrefused
        have hsame : s₃.store = s₃.store.applyAll l₃.session.writes := horderly.call _ _ _ _ _ hallowed₃
        have hlanded : Landed s₃ [.job job.id (resetJob job.row.attempts)] s₃ := by
          rw [show l₃.session.writes = _ from hwrites₃] at hsame
          exact ⟨hsame, rfl, rfl, fun c hc => .inl hc⟩
        obtain ⟨hrewritten, hblockers⟩ := rewritten_of_landed hlanded
        exact (hs₃.reset hrewritten (raises_of_same hblockers)).restored horderly hrefused
  · rintro e s l ⟨hs, -⟩ hallowed
    rw [bindPost_error]
    refine hQ _ _ ⟨hs.body, hs.untagged, hs.recorded, ?_⟩
    exact fun horderly => (horderly.call _ _ _ _ _ hallowed).elim

end Claims

end Lingsway.Mihomo
