import Lingsway.Infra.MihomoClaim

/-!
# What a worker records of its job

Behind a failure the job waits for its next claim. Behind an outcome that is not
known, the row or a blocker says so, or the session knows that neither may.
-/
namespace Lingsway.Mihomo

open Library Program

/-- The outcome of the job may be unknown. -/
structure Doubtful (K : Conduct calls Exn World Worker) (i id : ℕ) (w : State) : Prop where
  owned : Owned i id w
  recordedBut : Within K orderly → RecordedBut w.1 id

/-- Nothing about the job is unknown. -/
structure Sure (K : Conduct calls Exn World Worker) (i id : ℕ) (w : State) : Prop where
  owned : Owned i id w
  recorded : Within K orderly → Recorded w.1
  certain : Within K orderly → id ∉ w.1.uncertain

/-- The job is not finalized, as far as commits are settled. -/
structure Failing (K : Conduct calls Exn World Worker) (i id : ℕ) (w : State) : Prop where
  sure : Sure K i id w
  unfinished : Within K settled → ∀ row, jobAt w.1 id = some row → row.status ≠ .succeeded

/-- No version of the row that may still be read is finalized but the current one. -/
def Unfinished (id : ℕ) (w : World) : Prop :=
  ∀ c ∈ w.late, c.touches (.job id) = true → ∀ row, c.before.jobs.get id = some row → row.status ≠ .succeeded

section Marking

variable {K : Conduct calls Exn World Worker} {i id : ℕ}

theorem Owned.setWrites {s : World} {l : Worker} (h : Owned i id (s, l)) (writes : List Write) :
    Owned i id (s, l.setWrites writes) :=
  ⟨⟨h.body.lock, h.body.metadata, h.body.persisted, h.body.returned, h.body.confirmed⟩, h.mine, h.plain,
    h.unrefused, h.named⟩

theorem Owned.rewritten {f : MihomoJob → MihomoJob} {s t : World} {l : Worker} (h : Owned i id (s, l))
    (hrewritten : Rewritten id f s t) (hraises : Raises i s t) (hplain : Plain id t)
    (hname : ∀ row, jobAt s id = some row → metadataOf id (f row).payload = metadataOf id row.payload) :
    Owned i id (t, l) where
  body := ⟨hrewritten.lock.trans h.body.lock, h.body.metadata, h.body.persisted, h.body.returned, h.body.confirmed⟩
  mine := hraises.mine h.mine
  plain := hplain
  unrefused := h.unrefused
  named := by
    obtain ⟨job, hjob, hm⟩ := h.named
    exact ⟨f job, hrewritten.here hjob, by rw [hm, hname job hjob]⟩

theorem plain_of_same {s t : World} (hblockers : ∀ kind source, blockerAt t kind source = blockerAt s kind source)
    (h : Plain id s) : Plain id t := by
  intro b hb
  rw [hblockers] at hb
  exact h b hb

theorem Doubtful.same {s t : World} {l : Worker} (h : Doubtful K i id (s, l)) (hsame : Same i s t) :
    Doubtful K i id (t, l) :=
  ⟨h.owned.same hsame, fun horderly => hsame.recordedBut (h.recordedBut horderly)⟩

theorem Doubtful.setWrites {s : World} {l : Worker} (h : Doubtful K i id (s, l)) (writes : List Write) :
    Doubtful K i id (s, l.setWrites writes) := ⟨h.owned.setWrites writes, h.recordedBut⟩

theorem Sure.same {s t : World} {l : Worker} (h : Sure K i id (s, l)) (hsame : Same i s t) :
    Sure K i id (t, l) :=
  ⟨h.owned.same hsame, fun horderly => hsame.recorded (h.recorded horderly),
    fun horderly huncertain => h.certain horderly (hsame.uncertain ▸ huncertain)⟩

theorem Sure.setWrites {s : World} {l : Worker} (h : Sure K i id (s, l)) (writes : List Write) :
    Sure K i id (s, l.setWrites writes) := ⟨h.owned.setWrites writes, h.recorded, h.certain⟩

theorem Sure.concluded {w : State} (h : Sure K i id w) : Concluded K i id w :=
  ⟨h.owned, fun horderly => .inl (h.recorded horderly)⟩

theorem Sure.doubtful {w : State} (h : Sure K i id w) : Doubtful K i id w :=
  ⟨h.owned, fun horderly j hj _ => h.recorded horderly j hj⟩

theorem Concluded.doubtful {w : State} (h : Concluded K i id w) : Doubtful K i id w := by
  refine ⟨h.owned, ?_⟩
  intro horderly
  obtain hrecorded | ⟨-, hbut⟩ := h.recorded horderly
  · exact fun j hj _ => hrecorded j hj
  · exact hbut

theorem Same.unfinished {s t : World} (h : Same i s t) (hs : Unfinished id s) : Unfinished id t :=
  fun c hc htouches => hs c (h.late c hc id htouches) htouches

theorem Failing.setWrites {s : World} {l : Worker} (h : Failing K i id (s, l)) (writes : List Write) :
    Failing K i id (s, l.setWrites writes) := ⟨h.sure.setWrites writes, h.unfinished⟩

theorem Failing.same {s t : World} {l : Worker} (h : Failing K i id (s, l)) (hsame : Same i s t) :
    Failing K i id (t, l) := by
  refine ⟨h.sure.same hsame, ?_⟩
  intro hsettled row hrow
  rw [hsame.job] at hrow
  exact h.unfinished hsettled row hrow

theorem failing_stable {R : Worker → Prop} : (contract K).Stable i fun w => Failing K i id w ∧ R w.2 :=
  stable_of_same (fun _ h => h.1.sure.owned.body.lock) fun _ _ _ hsame h => ⟨h.1.same hsame, h.2⟩

theorem Failing.failed {error : Exn} {now : Timestamp} {attempts : ℕ} {s t : World} {l : Worker}
    (h : Failing K i id (s, l)) (hrewritten : Rewritten id (failedJob error now attempts) s t)
    (hblockers : ∀ kind source, blockerAt t kind source = blockerAt s kind source) : Failing K i id (t, l) := by
  have hraises : Raises i s t := raises_of_same hblockers
  refine ⟨⟨?_, ?_, ?_⟩, ?_⟩
  · exact h.sure.owned.rewritten hrewritten hraises (plain_of_same hblockers h.sure.owned.plain) fun _ _ => rfl
  · intro horderly
    refine hrewritten.recorded hraises (h.sure.recorded horderly) ?_
    exact fun huncertain => absurd huncertain (h.sure.certain horderly)
  · intro horderly huncertain
    exact h.sure.certain horderly (hrewritten.uncertain ▸ huncertain)
  · intro _ row hrow
    obtain ⟨job, hjob, -⟩ := h.sure.owned.named
    rw [hrewritten.here hjob] at hrow
    cases hrow
    intro hsucceeded
    cases hsucceeded

/-- A failure leaves a job that may be tried again, whether it is recorded or not. -/
theorem failure_wp {error : Exn} {Q : Except Exn MihomoReconciliationResult → State → Prop} {w : State}
    (hw : Failing K i id w) (hQ : ∀ x w, Failing K i id w → Q x w) : (failure id error).wp (among K i) Q w := by
  rw [failure, wp_bind]
  have hstable : (contract K).Stable i fun w => Failing K i id w ∧ True := failing_stable (R := fun _ => True)
  refine idle_wp idle_now hstable ?_ ⟨hw, trivial⟩
  rintro x w ⟨hw, -⟩
  cases x with
  | error e => exact hQ _ _ hw
  | ok now =>
    rw [bindPost_ok, wp_bind]
    refine rollback_wp hstable ?_ ?_ ⟨hw, trivial⟩
    · rintro s l ⟨hs, -⟩
      rw [bindPost_ok, wp_bind]
      have hwriting : (contract K).Stable i fun w => Failing K i id w ∧ w.2.session.writes = [] :=
        failing_stable (R := fun l => l.session.writes = [])
      refine still_wp hwriting ?_ ⟨hs.setWrites [], rfl⟩
      rintro s₁ l₁ choice x t l₁' - ⟨hs₁, hwrites₁⟩ hact -
      cases hact
      refine ⟨Still.refl _, rfl, trivial, trivial, ?_⟩
      generalize readOf choice (fun stale => (s₁.seen stale (.job id)).jobs.get id) = answer
      cases answer with
      | error e => exact hQ _ _ hs₁
      | ok found =>
        rw [bindPost_ok]
        cases found with
        | none =>
          rw [wp_raise]
          exact hQ _ _ hs₁
        | some job =>
          simp only [wp_bind]
          refine write_wp hwriting ?_ ⟨hs₁, hwrites₁⟩
          rintro s₂ l₂ ⟨hs₂, hwrites₂⟩
          rw [bindPost_ok, hwrites₂, wp_bind]
          refine commitJob_wp id (failedJob error now job.attempts) (fun _ _ => rfl)
            (failing_stable (R := fun l => l.session.writes = [.job id (failedJob error now job.attempts)]))
            (fun w hw => hw.1.sure.owned.body) (fun w hw => hw.2) ?_ ?_ ?_ ⟨hs₂.setWrites _, rfl⟩
          · rintro w ⟨hw, -⟩
            obtain ⟨row, hrow, -⟩ := hw.sure.owned.named
            exact ⟨row, hrow, rfl, fun hsettled => hw.unfinished hsettled row hrow⟩
          · rintro x s₃ t l₃ ⟨hs₃, -⟩ hrewritten hblockers -
            have hfailed := (hs₃.failed hrewritten hblockers).setWrites []
            cases x with
            | ok _ =>
              rw [bindPost_ok, wp_ret]
              exact hQ _ _ hfailed
            | error e => exact hQ _ _ hfailed
          · rintro e s₃ l₃ ⟨hs₃, -⟩ -
            exact hQ _ _ (hs₃.setWrites [])
    · rintro e s l ⟨hs, -⟩ -
      exact hQ _ _ hs

theorem doubtful_stable {R : Worker → Prop} : (contract K).Stable i fun w => Doubtful K i id w ∧ R w.2 :=
  stable_of_same (fun _ h => h.1.owned.body.lock) fun _ _ _ hsame h => ⟨h.1.same hsame, h.2⟩

/-- The session is told that the state is not known. -/
theorem flag_wp {Q : Except Exn Unit → State → Prop} {w : State} (hw : Doubtful K i id w)
    (hok : ∀ w, Concluded K i id w → Q (.ok ()) w) : (perform .flagDurableStateUnknown).wp (among K i) Q w := by
  refine still_wp (P := fun w => Doubtful K i id w ∧ True) (doubtful_stable (R := fun _ => True)) ?_ ⟨hw, trivial⟩
  rintro s l choice x t l' - ⟨hs, -⟩ hact -
  cases hact
  refine ⟨Still.refl _, rfl, trivial, trivial, hok _ ⟨?_, fun horderly => .inr ⟨rfl, hs.recordedBut horderly⟩⟩⟩
  exact ⟨⟨hs.owned.body.lock, hs.owned.body.metadata, hs.owned.body.persisted, hs.owned.body.returned,
    hs.owned.body.confirmed⟩, hs.owned.mine, hs.owned.plain, hs.owned.unrefused, hs.owned.named⟩

/-- The writes rewrite one job. -/
structure Rewrites (id : ℕ) (f : MihomoJob → MihomoJob) (base : List Write) : Prop where
  jobs : ∀ (s : Store) j,
    (s.applyAll base).jobs.get j = if j = id then (s.jobs.get j).map f else s.jobs.get j
  blockers : ∀ s : Store, (s.applyAll base).blockers = s.blockers

theorem rewrites_nil (id : ℕ) : Rewrites id (fun job => job) [] := by
  refine ⟨?_, fun _ => rfl⟩
  intro s j
  simp

theorem rewrites_job (id : ℕ) (f : MihomoJob → MihomoJob) : Rewrites id f [.job id f] := by
  refine ⟨?_, fun _ => rfl⟩
  intro s j
  rw [Store.applyAll_singleton, Store.jobs_apply_job, Table.get_modify]

theorem rewritten_of_draft {f : MihomoJob → MihomoJob} {base writes : List Write} {kind : BlockerKind} {source : ℕ}
    {payload : BlockerPayload} {error : Option String → Prop} {s t : World} (hbase : Rewrites id f base)
    (hdraft : Draft i kind source payload error base writes s) (hlanded : Landed s writes t) : Rewritten id f s t := by
  refine ⟨?_, hlanded.lock, hlanded.uncertain⟩
  intro j
  rw [jobAt, hlanded.store, hdraft.jobs, hbase.jobs, jobAt]

theorem absorbing_of_jobs {s t : World} (h : ∀ j, jobAt t j = jobAt s j) : Absorbing s t :=
  fun j job hjob hdurable => ⟨job, by rw [h, hjob], hdurable.1, rfl⟩

/-- A blocker is about to be noted, perhaps with a change of the row. -/
structure Noting (K : Conduct calls Exn World Worker) (i id : ℕ) (f : MihomoJob → MihomoJob) (w : State) : Prop where
  doubtful : Doubtful K i id w
  row : ∃ row, jobAt w.1 id = some row ∧ (f row).payload = row.payload ∧
    ((∀ job, f job = job) ∨ row.status = .running)

theorem Noting.same {f : MihomoJob → MihomoJob} {s t : World} {l : Worker} (h : Noting K i id f (s, l))
    (hsame : Same i s t) : Noting K i id f (t, l) := by
  obtain ⟨row, hrow, hchange⟩ := h.row
  exact ⟨h.doubtful.same hsame, row, by rw [hsame.job, hrow], hchange⟩

theorem Noting.ensures {f : MihomoJob → MihomoJob} {base : List Write} {operationId : Option String}
    {snapshotRevision : Option ℤ} {diagnostic : String} (hbase : Rewrites id f base)
    (hcheck : checkIdentifiers ⟨.finalization, id, operationId, snapshotRevision, diagnostic⟩ = .ok ()) :
    Ensures K i .blocker ⟨.finalization, id, operationId, snapshotRevision, diagnostic⟩ base (Noting K i id f) where
  lock := fun _ h => h.doubtful.owned.body.lock
  same := fun _ _ _ hsame h => h.same hsame
  writes := fun _ _ ws h => ⟨h.doubtful.setWrites ws, h.row⟩
  mine := fun _ h => h.doubtful.owned.mine
  plain := by
    intro _ _ hkind
    cases hkind
  base := hbase.blockers
  check := hcheck
  named := by
    intro s l b _ _ _
    refine ⟨trivial, ?_⟩
    intro hsite
    cases hsite

/-- The blocker stands for good, and with it everything uncertain is recorded. -/
theorem Noting.landed {f : MihomoJob → MihomoJob} {base : List Write} {payload : BlockerPayload} {s t : World}
    {l : Worker} (h : Noting K i id f (s, l)) (hbase : Rewrites id f base)
    (hdraft : Draft i .finalization id payload (CleanRelease .finalization) base l.session.writes s)
    (hlanded : Landed s l.session.writes t) (hinvariant : Invariant K s) :
    Raises i s t ∧ Payloads t ∧ Absorbing s t ∧ Concluded K i id (t, l.setWrites []) := by
  have hrewritten := rewritten_of_draft hbase hdraft hlanded
  have hraises : Raises i s t := raises_draft hdraft hlanded.store h.doubtful.owned.mine nofun
  obtain ⟨row, hrow, hpayload, hchange⟩ := h.row
  obtain ⟨-, helsewhere, b, hb, hunresolved, -, -, -⟩ := hdraft
  have hrelease : ∀ source, blockerAt t .lockRelease source = blockerAt s .lockRelease source := by
    intro source
    rw [blockerAt, hlanded.store]
    exact helsewhere .lockRelease source fun hkey => by cases hkey.1
  have hname : metadataOf id (f row).payload = metadataOf id row.payload := by rw [hpayload]
  have hstopped : Stopped t := ⟨.finalization, id, b, by rw [blockerAt, hlanded.store, hb], hunresolved, .inl rfl⟩
  refine ⟨hraises, ?_, ?_, ?_, fun _ => .inl fun _ _ => .inr hstopped⟩
  · refine payloads_of_names hinvariant.payloads (hrewritten.keepsNames hrow hname) ?_
    intro source b hb
    rw [hrelease] at hb
    exact .inl ⟨b, hb, rfl⟩
  · obtain hsame | hrunning := hchange
    · refine absorbing_of_jobs ?_
      intro j
      rw [hrewritten.jobs]
      split_ifs
      · cases jobAt s j with
        | none => rfl
        | some job => simp [hsame]
      · rfl
    · refine hrewritten.absorbing hrow ?_
      intro hsucceeded
      rw [hrunning] at hsucceeded
      cases hsucceeded
  · have hplain : Plain id t := by
      intro b hb
      rw [hrelease] at hb
      exact h.doubtful.owned.plain b hb
    have howned := h.doubtful.owned.rewritten hrewritten hraises hplain fun row' hrow' => by
      rw [hrow] at hrow'
      cases hrow'
      exact hname
    exact howned.setWrites []

theorem persistUnknownBlocker_wp {f : MihomoJob → MihomoJob} {base : List Write} {operationId : Option String}
    {snapshotRevision : Option ℤ} {diagnostic : String} {applied : Bool}
    {Q : Except Exn MihomoReconciliationResult → State → Prop} {w : State} (hbase : Rewrites id f base)
    (hcheck : checkIdentifiers ⟨.finalization, id, operationId, snapshotRevision, diagnostic⟩ = .ok ())
    (hw : Noting K i id f w) (hwrites : w.2.session.writes = base)
    (hok : ∀ r w, Concluded K i id w → Q (.ok r) w)
    (herror : ∀ w, Concluded K i id w → Q (.error (commitOutcomeUnknown diagnostic)) w) :
    (persistUnknownBlocker id operationId snapshotRevision diagnostic applied).wp (among K i) Q w := by
  have hensures := Noting.ensures (K := K) (i := i) hbase hcheck
  simp only [persistUnknownBlocker, wp_bind, wp_tryCatch]
  have hhandle : ∀ e w, Doubtful K i id w → catchPost (among K i) (fun _ => do
      perform .flagDurableStateUnknown
      (perform (.rollback .suppressed)).suppress
      .raise (commitOutcomeUnknown diagnostic)) (bindPost (among K i) (fun _ : Unit =>
        .ret ⟨id, applied, false, false, some diagnostic⟩) Q) (.error e) w := by
    intro e w h
    rw [catchPost_error, wp_bind]
    refine flag_wp h ?_
    intro w h
    rw [bindPost_ok, wp_bind, wp_suppress]
    have hstable : (contract K).Stable i (Concluded K i id) := concluded_stable
    refine rollback_wp hstable ?_ ?_ h
    · intro s l hs
      exact herror _ ⟨hs.owned.setWrites [], hs.recorded⟩
    · intro _ s l hs _
      exact herror _ hs
  refine ensure_wp hensures ?_ ?_ hw hwrites
  · intro s l hs hdrafted
    rw [bindPost_ok]
    refine call_wp (hensures.stable fun _ _ _ hsame hR => Drafted.same hR hsame) ?_ ⟨hs, hdrafted⟩
    rintro s₁ l₁ choice x ⟨t, l₁'⟩ hinvariant hkept ⟨hs₁, hdrafted₁⟩ hact -
    have hlands : ∀ t x, Landed s₁ l₁.session.writes t →
        (contract K).Fine i (.commit .blocker) (s₁, l₁) x (t, l₁.setWrites []) ∧
          Concluded K i id (t, l₁.setWrites []) := by
      intro t x hlanded
      obtain ⟨hraises, hpayloads, habsorbing, hconcluded⟩ :=
        hs₁.landed hbase (hdrafted₁ s₁ (Same.refl i s₁)) hlanded hinvariant
      exact ⟨fine_raise hs₁.doubtful.owned.body.lock hlanded.lock hraises hpayloads
        (kept_of_unpersisted hs₁.doubtful.owned.body.persisted) trivial trivial fun _ => habsorbing, hconcluded⟩
    obtain ⟨rfl, hlanded, rfl⟩ | ⟨⟨exc, rfl⟩, hlanded, rfl⟩ | ⟨⟨exc, rfl⟩, rfl, rfl⟩ := act_commit hact
    · obtain ⟨hfine, hconcluded⟩ := hlands t _ hlanded
      exact ⟨hfine, hok _ _ hconcluded⟩
    · obtain ⟨hfine, hconcluded⟩ := hlands t _ hlanded
      exact ⟨hfine, hhandle exc _ hconcluded.doubtful⟩
    · exact ⟨fine_still (Still.refl _) hinvariant (kept_of_still (l := l₁) (Still.refl _) rfl hkept) trivial trivial,
        hhandle exc _ (hs₁.doubtful.setWrites [])⟩
  · intro e s l hs _
    exact hhandle e _ hs.doubtful

/-- The outcome may be unknown, and only the current row can be read as finalized. -/
structure Ambiguous (K : Conduct calls Exn World Worker) (i id : ℕ) (w : State) : Prop where
  doubtful : Doubtful K i id w
  unfinished : Unfinished id w.1

theorem Ambiguous.same {s t : World} {l : Worker} (h : Ambiguous K i id (s, l)) (hsame : Same i s t) :
    Ambiguous K i id (t, l) := ⟨h.doubtful.same hsame, hsame.unfinished h.unfinished⟩

theorem Ambiguous.setWrites {s : World} {l : Worker} (h : Ambiguous K i id (s, l)) (writes : List Write) :
    Ambiguous K i id (s, l.setWrites writes) := ⟨h.doubtful.setWrites writes, h.unfinished⟩

/-- A phase of the marking, with what it knows of the row. -/
theorem ambiguous_stable {R : World → Worker → Prop} (hR : ∀ s t l, Same i s t → R s l → R t l) :
    (contract K).Stable i fun w => Ambiguous K i id w ∧ R w.1 w.2 :=
  stable_of_same (fun _ h => h.1.doubtful.owned.body.lock) fun _ _ _ hsame h => ⟨h.1.same hsame, hR _ _ _ hsame h.2⟩

theorem jobOutcome_eq_none {expected : Finalization} {job : Option MihomoJob} (h : jobOutcome expected job = none) :
    ∃ row, job = some row ∧ row.status = .succeeded := by
  unfold jobOutcome at h
  split at h
  · cases h
  · rename_i row
    split at h
    · cases h
    · split_ifs at h with hsame hsucceeded hmatches hrunning
      exact ⟨row, rfl, hsucceeded⟩

theorem jobOutcome_ne_landed (expected : Finalization) (job : Option MihomoJob) :
    jobOutcome expected job ≠ some .landed := by
  unfold jobOutcome
  split
  · nofun
  · split
    · nofun
    · split_ifs <;> nofun

theorem jobOutcome_absent {expected : Finalization} {job : Option MihomoJob}
    (h : jobOutcome expected job = some .absent) : ∃ row, job = some row ∧ row.status = .running := by
  unfold jobOutcome at h
  split at h
  · cases h
  · rename_i row
    split at h
    · cases h
    · split_ifs at h with hsame hsucceeded hmatches hrunning
      · cases h
      · cases h
      · exact ⟨row, rfl, hrunning.1⟩
      · cases h

/-- A read of a row sees the current version, or what a late commit found. -/
theorem seen_job (w : World) (stale : Option ℕ) (id : ℕ) :
    (w.seen stale (.job id)).jobs.get id = jobAt w id ∨
      ∃ c ∈ w.late, c.touches (.job id) = true ∧ (w.seen stale (.job id)).jobs.get id = c.before.jobs.get id := by
  unfold World.seen
  split
  · rename_i c hc
    obtain ⟨n, -, hget⟩ := Option.bind_eq_some_iff.mp hc
    split_ifs with htouches
    · exact .inr ⟨c, List.mem_of_getElem? hget, htouches, rfl⟩
    · exact .inl rfl
  · exact .inl rfl

/-- What is read as finalized is finalized. -/
theorem closedAt_of_seen {w : World} {stale : Option ℕ} {row : MihomoJob} (h : Unfinished id w)
    (hrow : (w.seen stale (.job id)).jobs.get id = some row) (hsucceeded : row.status = .succeeded) : ClosedAt w id := by
  obtain hcurrent | ⟨c, hc, htouches, hbefore⟩ := seen_job w stale id
  · rw [hrow] at hcurrent
    exact ⟨row, hcurrent.symm, .inl hsucceeded⟩
  · rw [hrow] at hbefore
    exact absurd hsucceeded (h c hc htouches row hbefore.symm)

theorem jobDoubtful_marker (expected : Finalization) (job : Except Exn (Option MihomoJob)) :
    jobDoubtful .marker expected job = false := by
  cases job <;> rfl

theorem blockerDoubtful_marker (expected : Finalization) (blocker : Except Exn (Option Blocker)) :
    blockerDoubtful .marker expected blocker = false := by
  cases blocker <;> rfl

theorem classifyMarker_wp {expected : Finalization} {Q : Except Exn CommitOutcome → State → Prop} {w : State}
    (hw : Ambiguous K i expected.jobId w)
    (hlanded : ∀ w, Ambiguous K i expected.jobId w → ClosedAt w.1 expected.jobId → Q (.ok .landed) w)
    (hother : ∀ o w, o ≠ .landed → Ambiguous K i expected.jobId w → Q (.ok o) w) :
    (classifyFinalizationOutcome .marker expected).wp (among K i) Q w := by
  simp only [classifyFinalizationOutcome, wp_tryCatch, wp_bind]
  have hstable : (contract K).Stable i fun w => Ambiguous K i expected.jobId w ∧ True :=
    ambiguous_stable (R := fun _ _ => True) fun _ _ _ _ h => h
  refine still_wp hstable ?_ ⟨hw, trivial⟩
  rintro s l choice x t l' - ⟨hs, -⟩ hact -
  simp only [act, jobDoubtful_marker, doubtIf, Bool.false_eq_true, if_false] at hact
  cases hact
  refine ⟨Still.refl _, rfl, trivial, trivial, ?_⟩
  cases choice with
  | error e =>
    rw [readOf, bindPost_error, catchPost_error, wp_ret]
    exact hother .unknown _ (by simp) hs
  | ok stale =>
    rw [readOf, bindPost_ok]
    cases houtcome : jobOutcome expected ((s.seen stale (.job expected.jobId)).jobs.get expected.jobId) with
    | some outcome =>
      rw [wp_ret, catchPost_ok]
      refine hother outcome _ ?_ hs
      rintro rfl
      exact jobOutcome_ne_landed _ _ houtcome
    | none =>
      obtain ⟨row, hrow, hsucceeded⟩ := jobOutcome_eq_none houtcome
      have hclosed := closedAt_of_seen hs.unfinished hrow hsucceeded
      simp only [wp_bind]
      refine still_wp (P := fun w => Ambiguous K i expected.jobId w ∧ ClosedAt w.1 expected.jobId)
        (ambiguous_stable (R := fun w _ => ClosedAt w expected.jobId) fun _ _ _ hsame h => hsame.closedAt h) ?_
        ⟨hs, hclosed⟩
      rintro s₁ l₁ choice₁ x₁ t₁ l₁' - ⟨hs₁, hclosed₁⟩ hact₁ -
      simp only [act, blockerDoubtful_marker, doubtIf, Bool.false_eq_true, if_false] at hact₁
      cases hact₁
      refine ⟨Still.refl _, rfl, trivial, trivial, ?_⟩
      cases choice₁ with
      | error e =>
        rw [readOf, bindPost_error, catchPost_error, wp_ret]
        exact hother .unknown _ (by simp) hs₁
      | ok stale₁ =>
        rw [readOf, bindPost_ok, wp_ret, catchPost_ok, blockerOutcome]
        split_ifs
        · exact hlanded _ hs₁ hclosed₁
        · exact hother _ _ (by simp) hs₁

theorem Ambiguous.landed {w : State} (h : Ambiguous K i id w) (hclosed : ClosedAt w.1 id) : Concluded K i id w := by
  refine ⟨h.doubtful.owned, fun horderly => .inl ?_⟩
  intro j hj
  by_cases hne : j = id
  · subst hne
    exact .inl hclosed
  · exact h.doubtful.recordedBut horderly j hj hne

theorem Ambiguous.noting {w : State} (h : Ambiguous K i id w) : Noting K i id (fun job => job) w := by
  obtain ⟨row, hrow, -⟩ := h.doubtful.owned.named
  exact ⟨h.doubtful, row, hrow, rfl, .inl fun _ => rfl⟩

theorem checkIdentifiers_diagnostic {expected : Finalization} {diagnostic : String}
    (hoperation : safeIdentifier expected.operationId = true) (hrevision : 0 < expected.snapshotRevision)
    (hdiagnostic : diagnostic ∈ mihomoUnknownDiagnostics) :
    checkIdentifiers ⟨.finalization, expected.jobId, some expected.operationId, some expected.snapshotRevision,
      diagnostic⟩ = .ok () := by
  have hreason : ∀ d ∈ mihomoUnknownDiagnostics, safeReason d = true := by decide
  refine checkIdentifiers_of_valid (by exact hreason _ hdiagnostic) ?_ ?_
  · simpa using hoperation
  · simpa using hrevision

/-- An operation that a blocker may name. -/
structure Finalization.Valid (expected : Finalization) : Prop where
  operation : safeIdentifier expected.operationId = true
  revision : 0 < expected.snapshotRevision

section MarkUnknown

variable {expected : Finalization} {diagnostic : String} {applied persistBlocker : Bool}
variable {Q : Except Exn MihomoReconciliationResult → State → Prop}

/-- The row is running, read under a lock, with nothing to be sent. -/
def ReadRow (expected : Finalization) (job : MihomoJob) (w : World) (l : Worker) : Prop :=
  jobAt w expected.jobId = some job ∧ l.session.writes = []

theorem readRow_stable {job : MihomoJob} :
    (contract K).Stable i fun w => Ambiguous K i expected.jobId w ∧ ReadRow expected job w.1 w.2 :=
  ambiguous_stable fun _ _ _ hsame h => ⟨by rw [hsame.job, h.1], h.2⟩

theorem closed_marked {job : MihomoJob} {now : Timestamp} (hdiagnostic : diagnostic ∈ mihomoUnknownDiagnostics) :
    Closed (markedJob now diagnostic job) := by
  refine .inr ⟨rfl, ?_⟩
  simpa [markedJob, unknownDiagnostic] using hdiagnostic

/-- With the mark the row itself records the outcome. -/
theorem Doubtful.marked {now : Timestamp} {job : MihomoJob} {s t : World} {l : Worker}
    (h : Doubtful K i expected.jobId (s, l)) (hdiagnostic : diagnostic ∈ mihomoUnknownDiagnostics)
    (hrow : jobAt s expected.jobId = some job) (hrewritten : Rewritten expected.jobId (markedJob now diagnostic) s t)
    (hblockers : ∀ kind source, blockerAt t kind source = blockerAt s kind source) :
    Concluded K i expected.jobId (t, l.setWrites []) := by
  have hraises : Raises i s t := raises_of_same hblockers
  have howned := h.owned.rewritten hrewritten hraises (plain_of_same hblockers h.owned.plain) fun _ _ => rfl
  refine ⟨howned.setWrites [], fun horderly => .inl ?_⟩
  intro j hj
  by_cases hne : j = expected.jobId
  · subst hne
    exact .inl ⟨_, hrewritten.here hrow, closed_marked hdiagnostic⟩
  · exact hrewritten.recordedBut hraises (h.recordedBut horderly) j hj hne

theorem writeMarker_wp {job : MihomoJob} {w : State} (hvalid : expected.Valid)
    (hdiagnostic : diagnostic ∈ mihomoUnknownDiagnostics) (hw : Ambiguous K i expected.jobId w)
    (hread : ReadRow expected job w.1 w.2) (hrunning : job.status = .running)
    (hok : ∀ r w, Concluded K i expected.jobId w → Q (.ok r) w)
    (herror : ∀ e w, Doubtful K i expected.jobId w → Q (.error e) w) :
    (writeMarker expected diagnostic applied persistBlocker).wp (among K i) Q w := by
  rw [writeMarker, wp_bind]
  refine idle_wp idle_now readRow_stable ?_ ⟨hw, hread⟩
  rintro x w ⟨hw, hread⟩
  cases x with
  | error e => exact herror e _ hw.doubtful
  | ok now =>
    rw [bindPost_ok, wp_bind]
    refine write_wp readRow_stable ?_ ⟨hw, hread⟩
    rintro s l ⟨hs, hrow, hwrites⟩
    rw [bindPost_ok, hwrites]
    cases persistBlocker with
    | true =>
      rw [if_pos rfl]
      have hnoting : Noting K i expected.jobId (markedJob now diagnostic) (s, l.setWrites
          ([] ++ [(Write.job expected.jobId (markedJob now diagnostic)).heldBy i])) :=
        ⟨hs.doubtful.setWrites _, job, hrow, rfl, .inr hrunning⟩
      have hcheck := checkIdentifiers_diagnostic hvalid.operation hvalid.revision hdiagnostic
      refine persistUnknownBlocker_wp (rewrites_job _ _) hcheck hnoting rfl hok ?_
      exact fun w h => herror _ _ h.doubtful
    | false =>
      rw [if_neg (by decide), wp_bind, wp_tryCatch]
      refine commitJob_wp (P := fun w => Ambiguous K i expected.jobId w ∧ jobAt w.1 expected.jobId = some job ∧
          w.2.session.writes = [.job expected.jobId (markedJob now diagnostic)]) expected.jobId
        (markedJob now diagnostic) (fun _ _ => rfl)
        (ambiguous_stable (R := fun w l => jobAt w expected.jobId = some job ∧
            l.session.writes = [.job expected.jobId (markedJob now diagnostic)])
          fun _ _ _ hsame h => ⟨by rw [hsame.job, h.1], h.2⟩)
        (fun w h => h.1.doubtful.owned.body) (fun w h => h.2.2) ?_ ?_ ?_ ⟨hs.setWrites _, hrow, rfl⟩
      · rintro w ⟨-, hrow, -⟩
        refine ⟨job, hrow, rfl, ?_⟩
        intro _ hsucceeded
        rw [hrunning] at hsucceeded
        cases hsucceeded
      · rintro x s₁ t l₁ ⟨hs₁, hrow₁, -⟩ hrewritten hblockers -
        have hconcluded := hs₁.doubtful.marked hdiagnostic hrow₁ hrewritten hblockers
        cases x with
        | ok _ => exact hok _ _ hconcluded
        | error e => exact herror _ _ hconcluded.doubtful
      · rintro e s₁ l₁ ⟨hs₁, -⟩ -
        exact herror _ _ (hs₁.doubtful.setWrites [])

theorem recordUnknown_wp {job : MihomoJob} {members : JobMembers} {w : State} (hvalid : expected.Valid)
    (hdiagnostic : diagnostic ∈ mihomoUnknownDiagnostics) (hw : Ambiguous K i expected.jobId w)
    (hread : ReadRow expected job w.1 w.2) (hok : ∀ r w, Concluded K i expected.jobId w → Q (.ok r) w)
    (herror : ∀ e w, Doubtful K i expected.jobId w → Q (.error e) w) :
    (recordUnknown expected diagnostic applied persistBlocker job members).wp (among K i) Q w := by
  rw [recordUnknown]
  have hcheck := checkIdentifiers_diagnostic hvalid.operation hvalid.revision hdiagnostic
  split_ifs with hother
  · refine persistUnknownBlocker_wp (rewrites_nil _) hcheck hw.noting hread.2 hok ?_
    exact fun w h => herror _ _ h.doubtful
  · have hrunning : job.status = .running := by
      by_contra hne
      exact hother (.inl hne)
    exact writeMarker_wp hvalid hdiagnostic hw hread hrunning hok herror

theorem membersOf_some {job : Option MihomoJob} {row : MihomoJob} {members : JobMembers}
    (h : membersOf job = some (row, members)) : job = some row := by
  unfold membersOf at h
  split at h
  · cases h
  · split at h
    · cases h
    · cases h
      rfl

theorem markUnknownInner_wp {w : State} (hvalid : expected.Valid)
    (hdiagnostic : diagnostic ∈ mihomoUnknownDiagnostics) (hw : Ambiguous K i expected.jobId w)
    (hok : ∀ r w, Concluded K i expected.jobId w → Q (.ok r) w)
    (herror : ∀ e w, Doubtful K i expected.jobId w → Q (.error e) w) :
    (markUnknownInner expected diagnostic applied persistBlocker).wp (among K i) Q w := by
  have hcheck := checkIdentifiers_diagnostic hvalid.operation hvalid.revision hdiagnostic
  have hstable : (contract K).Stable i fun w => Ambiguous K i expected.jobId w ∧ True :=
    ambiguous_stable (R := fun _ _ => True) fun _ _ _ _ h => h
  rw [markUnknownInner, wp_bind]
  refine classifyMarker_wp hw ?_ ?_
  · intro w hw hclosed
    exact hok _ _ (hw.landed hclosed)
  intro o w hne hw
  rw [bindPost_ok]
  cases o with
  | landed => exact absurd rfl hne
  | absent | unknown =>
    rw [wp_bind]
    refine rollback_wp hstable ?_ ?_ ⟨hw, trivial⟩
    · rintro s l ⟨hs, -⟩
      rw [bindPost_ok, wp_bind]
      refine still_wp (P := fun w => Ambiguous K i expected.jobId w ∧ w.2.session.writes = [])
        (ambiguous_stable (R := fun _ l => l.session.writes = []) fun _ _ _ _ h => h) ?_ ⟨hs.setWrites [], rfl⟩
      rintro s₁ l₁ choice x t l₁' - ⟨hs₁, hwrites₁⟩ hact -
      cases choice with
      | some exc =>
        cases hact
        exact ⟨Still.refl _, rfl, trivial, trivial, herror exc _ hs₁.doubtful⟩
      | none =>
        cases hact
        have hstill := still_settle s₁ fun key => key = .job expected.jobId
        have hs₂ := hs₁.same (hstill.same i)
        refine ⟨hstill, rfl, trivial, trivial, ?_⟩
        rw [bindPost_ok]
        cases hmembers : membersOf (s₁.store.jobs.get expected.jobId) with
        | none =>
          refine persistUnknownBlocker_wp (rewrites_nil _) hcheck hs₂.noting hwrites₁ hok ?_
          exact fun w h => herror _ _ h.doubtful
        | some found =>
          obtain ⟨job, members⟩ := found
          have hread : ReadRow expected job (s₁.settle fun key => key = .job expected.jobId) l₁ :=
            ⟨membersOf_some hmembers, hwrites₁⟩
          simp only
          split_ifs with hsucceeded
          · rw [wp_bind]
            refine idle_wp (idle_readBlocker _ _) readRow_stable ?_ ⟨hs₂, hread⟩
            rintro x w ⟨hw, hread⟩
            cases x with
            | error e => exact herror e _ hw.doubtful
            | ok blocker =>
              rw [bindPost_ok]
              split_ifs
              · exact hok _ _ (hw.landed ⟨job, hread.1, .inl hsucceeded.1⟩)
              · exact recordUnknown_wp hvalid hdiagnostic hw hread hok herror
          · exact recordUnknown_wp hvalid hdiagnostic hs₂ hread hok herror
    · rintro e s l ⟨hs, -⟩ -
      exact herror e _ hs.doubtful

/-- However the marking ends, the outcome is recorded or the session knows that it may not be. -/
theorem markUnknown_wp {w : State} (hvalid : expected.Valid)
    (hdiagnostic : diagnostic ∈ mihomoUnknownDiagnostics) (hw : Ambiguous K i expected.jobId w)
    (hok : ∀ r w, Concluded K i expected.jobId w → Q (.ok r) w)
    (herror : ∀ e w, e.cls = .other "MihomoCommitOutcomeUnknown" → Concluded K i expected.jobId w →
      Q (.error e) w) :
    (markUnknown expected diagnostic applied persistBlocker).wp (among K i) Q w := by
  rw [markUnknown, wp_tryCatch]
  refine markUnknownInner_wp hvalid hdiagnostic hw hok ?_
  intro e w h
  rw [catchPost_error, wp_bind]
  refine flag_wp h ?_
  intro w h
  rw [bindPost_ok]
  split_ifs with hunknown
  · exact herror e _ hunknown h
  · exact herror _ _ rfl h

end MarkUnknown

end Marking

end Lingsway.Mihomo
