import Lingsway.Infra.MihomoRelease

/-!
# A block of a worker

A worker enters a block with the lock and leaves it, whatever its body did,
through one exit.
-/
namespace Lingsway.Mihomo

open Library Program

/-- A block over a job, whose release its session records. -/
structure Owned (i id : ℕ) (w : State) : Prop where
  body : InBody i w
  mine : Mine i w.1
  plain : Plain id w.1
  unrefused : w.2.annals.refused = false
  named : ∃ job, jobAt w.1 id = some job ∧ w.2.session.releaseMetadata = some (metadataOf id job.payload)

/-- What is uncertain is recorded, or the session knows that the own job may not be. -/
structure Concluded (K : Conduct calls Exn World Worker) (i id : ℕ) (w : State) : Prop where
  owned : Owned i id w
  recorded : Within K orderly →
    Recorded w.1 ∨ w.2.session.durableStateUnknown = true ∧ RecordedBut w.1 id

/-- A block over no job: a refused claim is taken back. -/
structure Bare (K : Conduct calls Exn World Worker) (i : ℕ) (w : State) : Prop where
  body : InBody i w
  untagged : w.2.session.releaseMetadata = none
  recorded : Within K orderly → Recorded w.1
  restored : Within K orderly → w.2.annals.refused = true → Restored w

/-- Where a body may leave its block. -/
def Leaving (K : Conduct calls Exn World Worker) (i : ℕ) (w : State) : Prop :=
  Bare K i w ∨ ∃ id, Concluded K i id w

section Blocks

variable {K : Conduct calls Exn World Worker} {i id : ℕ}

theorem Owned.same {s t : World} {l : Worker} (h : Owned i id (s, l)) (hsame : Same i s t) : Owned i id (t, l) where
  body := h.body.same hsame
  mine := hsame.mine h.mine
  plain := hsame.plain h.mine h.plain
  unrefused := h.unrefused
  named := by
    obtain ⟨job, hjob, hm⟩ := h.named
    exact ⟨job, by rw [hsame.job, hjob], hm⟩

theorem Concluded.same {s t : World} {l : Worker} (h : Concluded K i id (s, l)) (hsame : Same i s t) :
    Concluded K i id (t, l) :=
  ⟨h.owned.same hsame, fun horderly => (h.recorded horderly).imp hsame.recorded (And.imp_right hsame.recordedBut)⟩

theorem Same.restored {s t : World} {l : Worker} (h : Same i s t) (hs : Restored (s, l)) : Restored (t, l) := by
  obtain ⟨claimed, job, hclaimed, hjob, hsame⟩ := hs
  exact ⟨claimed, job, hclaimed, by rw [h.job, hjob], hsame⟩

theorem Bare.same {s t : World} {l : Worker} (h : Bare K i (s, l)) (hsame : Same i s t) : Bare K i (t, l) :=
  ⟨h.body.same hsame, h.untagged, fun horderly => hsame.recorded (h.recorded horderly),
    fun horderly hrefused => hsame.restored (h.restored horderly hrefused)⟩

theorem concluded_stable : (contract K).Stable i (Concluded K i id) :=
  stable_of_same (fun _ h => h.owned.body.lock) fun _ _ _ hsame h => h.same hsame

theorem bare_stable : (contract K).Stable i (Bare K i) :=
  stable_of_same (fun _ h => h.body.lock) fun _ _ _ hsame h => h.same hsame

/-- The exit of a block over no job, once it knows that. -/
structure Untied (K : Conduct calls Exn World Worker) (i : ℕ) (w : State) : Prop where
  lock : w.1.lock = some i
  metadata : w.2.annals.metadata = none
  persisted : w.2.annals.persisted = false
  recorded : Within K orderly → Recorded w.1
  restored : Within K orderly → w.2.annals.refused = true → Restored w

/-- Without the lock and without a blocker. -/
structure Gone (i : ℕ) (w : State) : Prop where
  away : w.1.lock ≠ some i
  metadata : w.2.annals.metadata = none
  persisted : w.2.annals.persisted = false

theorem Gone.ended {w : State} (h : Gone i w) (raised : Bool) : Ended K i raised w := by
  refine ⟨?_, fun _ hlock => absurd hlock h.away⟩
  intro hmetadata
  rw [h.metadata] at hmetadata
  cases hmetadata

theorem untied_givesUp : GivesUp K i (Untied K i) (Gone i) where
  lock := fun _ h => h.lock
  same := fun _ _ _ hsame h => ⟨hsame.lock.trans h.lock, h.metadata, h.persisted,
    fun horderly => hsame.recorded (h.recorded horderly),
    fun horderly hrefused => hsame.restored (h.restored horderly hrefused)⟩
  recorded := fun _ h => h.recorded
  allowed := fun _ h => h.restored
  leaves := fun _ _ h => ⟨⟨unlock_away h.lock, h.metadata, h.persisted⟩, unlock_away h.lock, h.metadata, h.persisted⟩
  kept := by
    intro w h hpersisted
    rw [h.persisted] at hpersisted
    cases hpersisted

theorem kept_of_unpersisted {w : State} (h : w.2.annals.persisted = false) : Kept i w := by
  intro hpersisted
  rw [h] at hpersisted
  cases hpersisted

/-- The rest of the exit of a block over no job. -/
theorem leaveBare_wp {Q : Except Exn Unit → State → Prop} {w : State} (hw : Untied K i w)
    (hQ : ∀ x w, Gone i w → Q x w) :
    (releaseLock.tryCatch fun _ => do
      noteReleaseUnknown none
      .raise (projectionLockError "Mihomo projection lock release outcome is unknown")).wp (among K i) Q w := by
  rw [wp_tryCatch]
  refine releaseLock_wp untied_givesUp hw ?_ ?_
  · intro w h _
    exact hQ _ _ h
  · intro e w h
    exact hQ _ _ h

/-- The rest of the exit of a block over a job. -/
theorem leaveOwned_wp {m : ReleaseMetadata} {flag : Bool} {Q : Except Exn Unit → State → Prop} {w : State}
    (hw : Releasing K i m flag w)
    (hok : ∀ w, Behind i m flag w → w.2.annals.confirmed = true → Q (.ok ()) w)
    (herror : ∀ e w, Away i w → Q (.error e) w) :
    (releaseLock.tryCatch fun _ => do
      noteReleaseUnknown (some m)
      .raise (projectionLockError "Mihomo projection lock release outcome is unknown")).wp (among K i) Q w := by
  rw [wp_tryCatch]
  refine releaseLock_wp releasing_givesUp hw hok ?_
  intro e w h
  rw [catchPost_error, wp_bind]
  refine noteReleaseUnknown_wp h ?_
  intro x w haway
  cases x with
  | ok _ => exact herror _ _ haway
  | error e => exact herror _ _ haway

theorem Concluded.persisting {w : State} (h : Concluded K i id w) {m : ReleaseMetadata}
    (hm : w.2.session.releaseMetadata = some m) :
    Persisting K i m w.2.session.durableStateUnknown (w.1, { w.2 with annals := { w.2.annals with
      metadata := w.2.session.releaseMetadata, known := !w.2.session.durableStateUnknown } }) := by
  obtain ⟨⟨hbody, hmine, hplain, hunrefused, job, hjob, htagged⟩, hrecorded⟩ := h
  have hname : m = metadataOf id job.payload := by
    rw [hm] at htagged
    exact Option.some.inj htagged
  have hsource : m.sourceJobId = id := by
    rw [hname]
    exact metadataOf_sourceJobId _ _
  refine ⟨hbody.lock, hm, rfl, hbody.persisted, hbody.returned, hbody.confirmed, hunrefused, hm, hmine, ?_, ?_, ?_⟩
  · rw [hsource]
    exact hplain
  · rw [hsource]
    exact ⟨job, hjob, hname⟩
  · rw [hsource]
    exact hrecorded

/-- Whatever its body did, a block ends. -/
theorem leaveProjectionWrite_wp {Q : Except Exn Unit → State → Prop} {w : State} (hw : Leaving K i w)
    (hok : ∀ w, Ended K i false w → Q (.ok ()) w) (herror : ∀ e w, Ended K i true w → Q (.error e) w) :
    leaveProjectionWrite.wp (among K i) Q w := by
  simp only [leaveProjectionWrite, wp_bind]
  obtain hbare | ⟨id, hconcluded⟩ := hw
  · refine call_wp bare_stable ?_ hbare
    rintro s l choice x w' hinvariant - hs hact -
    cases hact
    refine ⟨fine_still (Still.refl _) hinvariant (kept_of_unpersisted hs.body.persisted) trivial trivial, ?_⟩
    have huntagged : l.session.releaseMetadata = none := hs.untagged
    simp only [bindPost_ok, huntagged, wp_bind, wp_ret]
    have huntied : Untied K i (s, { l with annals := { l.annals with
        metadata := none, known := !l.session.durableStateUnknown } }) :=
      ⟨hs.body.lock, rfl, hs.body.persisted, hs.recorded, hs.restored⟩
    refine leaveBare_wp huntied ?_
    intro x w hgone
    cases x with
    | ok _ => exact hok _ (hgone.ended false)
    | error e => exact herror e _ (hgone.ended true)
  · refine call_wp concluded_stable ?_ hconcluded
    rintro s l choice x w' hinvariant - hs hact -
    cases hact
    refine ⟨fine_still (Still.refl _) hinvariant (kept_of_unpersisted hs.owned.body.persisted) trivial trivial, ?_⟩
    obtain ⟨job, -, hm⟩ := hs.owned.named
    have htagged : l.session.releaseMetadata = some (metadataOf id job.payload) := hm
    have hpersisting := hs.persisting hm
    simp only [htagged] at hpersisting
    simp only [bindPost_ok, htagged, wp_bind]
    refine persistReleaseBlocker_wp hpersisting ?_ fun e w hended => herror e w hended
    intro w hreleasing
    rw [bindPost_ok, wp_bind]
    refine leaveOwned_wp hreleasing ?_ fun e w haway => herror e w (haway.ended true)
    intro w hbehind hconfirmed
    rw [bindPost_ok]
    cases hflag : l.session.durableStateUnknown with
    | true =>
      simp only [if_true, wp_ret]
      exact hok _ (hbehind.away'.ended false)
    | false =>
      rw [hflag] at hbehind
      simp only [Bool.false_eq_true, if_false]
      refine cleanUpReleaseBlocker_wp hbehind hconfirmed ?_
      intro x w haway
      cases x with
      | ok _ => exact hok _ (haway.ended false)
      | error e => exact herror e _ (haway.ended true)

/-- A worker that has not entered its block. -/
structure Outside (i : ℕ) (w : State) : Prop where
  away : w.1.lock ≠ some i
  metadata : w.2.annals.metadata = none
  own : w.2 = Worker.begin

/-- The lock is taken, with nothing done in the block. -/
structure Taken (K : Conduct calls Exn World Worker) (i : ℕ) (w : State) : Prop where
  lock : w.1.lock = some i
  own : w.2 = Worker.begin
  recorded : Within K orderly → Recorded w.1

/-- The block is entered. -/
structure Entered (K : Conduct calls Exn World Worker) (i : ℕ) (w : State) : Prop where
  body : InBody i w
  untagged : w.2.session.releaseMetadata = none
  unflagged : w.2.session.durableStateUnknown = false
  writes : w.2.session.writes = []
  unrefused : w.2.annals.refused = false
  unfinalized : w.2.annals.finalized = false
  recorded : Within K orderly → Recorded w.1

theorem outside_stable : (contract K).Stable i (Outside i) := by
  intro j s t l hj hguarantee _ h
  exact ⟨away_of_guarantee hj hguarantee h.away, h.metadata, h.own⟩

theorem Outside.ended {w : State} (h : Outside i w) (raised : Bool) : Ended K i raised w := by
  refine ⟨?_, fun _ hlock => absurd hlock h.away⟩
  intro hmetadata
  rw [h.metadata] at hmetadata
  cases hmetadata

theorem taken_stable : (contract K).Stable i (Taken K i) :=
  stable_of_same (fun _ h => h.lock) fun _ _ _ hsame h =>
    ⟨hsame.lock.trans h.lock, h.own, fun horderly => hsame.recorded (h.recorded horderly)⟩

theorem entered_stable : (contract K).Stable i (Entered K i) :=
  stable_of_same (fun _ h => h.body.lock) fun _ _ _ hsame h => ⟨h.body.same hsame, h.untagged, h.unflagged,
    h.writes, h.unrefused, h.unfinalized, fun horderly => hsame.recorded (h.recorded horderly)⟩

/-- A call outside the block that only raises or returns. -/
theorem outside_wp {c : Call} {Q : Except Exn c.Answer → State → Prop} {w : State} (hw : Outside i w)
    (h : ∀ s l choice x t l', Outside i (s, l) → act i c choice (s, l) = (x, t, l') → t = s ∧ l' = l ∧
      Allowed K i c (s, l) ∧ Answered K c (s, l) x ∧ Q x (s, l)) :
    (perform c).wp (among K i) Q w := by
  refine still_wp outside_stable ?_ hw
  intro s l choice x t l' _ hs hact _
  obtain ⟨rfl, rfl, hallowed, hanswered, hQ⟩ := h s l choice x t l' hs hact
  exact ⟨Still.refl _, rfl, hallowed, hanswered, hQ⟩

theorem act_outcome {choice : Option Exn} {w w' : State} {x : Except Exn Unit} (h : outcome choice w = (x, w')) :
    w' = w := by
  cases choice with
  | none =>
    cases h
    rfl
  | some exc =>
    cases h
    rfl

theorem getLock_wp {Q : Except Exn Unit → State → Prop} {w : State} (hw : Outside i w)
    (hok : ∀ w, Taken K i w → Q (.ok ()) w) (herror : ∀ e w, Outside i w → Q (.error e) w) :
    getLock.wp (among K i) Q w := by
  simp only [getLock, wp_bind, wp_tryCatch]
  refine call_wp outside_stable ?_ hw
  rintro s l choice x w' hinvariant hkept hs hact -
  cases choice with
  | error exc =>
    cases hact
    refine ⟨fine_still (Still.refl _) hinvariant hkept trivial trivial, ?_⟩
    rw [catchPost_error, wp_bind]
    refine outside_wp hs ?_
    intro u m choice x t l' hu hact
    cases hact
    exact ⟨if_neg hu.away, rfl, trivial, trivial, herror _ _ hu⟩
  | ok answer =>
    simp only [act] at hact
    split_ifs at hact with hanswer hfree
    · cases hact
      rw [catchPost_ok, bindPost_ok, if_pos rfl, wp_ret]
      have htaken : Taken K i ({ s with lock := some i }, l) :=
        ⟨rfl, hs.own, fun horderly => hinvariant.recorded horderly hfree⟩
      refine ⟨⟨?_, ?_, hkept, trivial, trivial, ?_, fun _ => fun id job h hdurable => ⟨job, h, hdurable.1, rfl⟩⟩,
        hok _ htaken⟩
      · exact ⟨fun _ _ b h _ _ => h, fun _ _ _ b h h' => ⟨b, h, h'⟩, .inr (.inl ⟨hfree, rfl⟩),
          fun _ => ⟨rfl, rfl⟩, fun _ => noNewLate_refl s, fun _ _ h => h, fun _ _ b h h' => ⟨b, h, h'⟩⟩
      · refine ⟨hinvariant.payloads, ?_⟩
        intro _ hnone
        cases hnone
      · intro id b b' hb hunresolved hb' hresolved
        have hsame : some b = some b' := hb.symm.trans hb'
        cases hsame
        rw [hunresolved] at hresolved
        cases hresolved
    · cases hact
      refine ⟨fine_still (Still.refl _) hinvariant hkept trivial trivial, ?_⟩
      rw [catchPost_ok, bindPost_ok, if_neg (by decide), wp_raise]
      exact herror _ _ hs
    · cases hact
      refine ⟨fine_still (Still.refl _) hinvariant hkept trivial trivial, ?_⟩
      rw [catchPost_ok, bindPost_ok, if_neg hanswer, wp_raise]
      exact herror _ _ hs

theorem acquireProjectionLock_wp {Q : Except Exn Unit → State → Prop} {w : State} (hw : Outside i w)
    (hok : ∀ w, Taken K i w → Q (.ok ()) w) (herror : ∀ e w, Outside i w → Q (.error e) w) :
    acquireProjectionLock.wp (among K i) Q w := by
  simp only [acquireProjectionLock, wp_tryCatch, wp_bind]
  have hhandle : ∀ e w, Outside i w → catchPost (among K i) (fun exc => do
      (perform .closeConnection).suppress
      if exc.cls = .other "MihomoProjectionLockError" then .raise exc
      else .raise (projectionLockError "failed to open Mihomo projection lock connection")) Q (.error e) w := by
    intro e w h
    rw [catchPost_error, wp_bind, wp_suppress]
    refine outside_wp h ?_
    intro s l choice x t l' hs hact
    cases act_outcome hact
    refine ⟨rfl, rfl, trivial, trivial, ?_⟩
    rw [bindPost_ok]
    split_ifs
    · exact herror _ _ hs
    · exact herror _ _ hs
  refine outside_wp hw ?_
  intro s l choice x t l' hs hact
  cases act_outcome hact
  refine ⟨rfl, rfl, trivial, trivial, ?_⟩
  cases x with
  | error e => exact hhandle e _ hs
  | ok _ =>
    rw [bindPost_ok]
    exact getLock_wp hs hok hhandle

def raised {α : Type} : Except Exn α → Bool
  | .ok _ => false
  | .error _ => true

/-- What is done behind the exit. -/
theorem closeBlock_wp {previous flag : Bool} {Q : Except Exn Unit → State → Prop} {w : State}
    (hw : Ended K i flag w) (hok : ∀ w, Ended K i flag w → Q (.ok ()) w)
    (herror : ∀ e w, Ended K i true w → Q (.error e) w) :
    (do
      perform (.leaveBlock previous)
      perform .closeConnection : Work Unit).wp (among K i) Q w := by
  rw [wp_bind]
  refine still_wp (ended_stable flag) ?_ hw
  rintro s l choice x t l' - hs hact -
  cases hact
  refine ⟨Still.refl _, rfl, trivial, trivial, ?_⟩
  rw [bindPost_ok]
  have hnext : Ended K i flag (s, { l with session := ⟨l.session.writes, previous, none, false⟩ }) :=
    ⟨hs.persisted, hs.recorded⟩
  refine still_wp (ended_stable flag) ?_ hnext
  rintro s₁ l₁ choice₁ x₁ t₁ l₁' - hs₁ hact₁ -
  cases act_outcome hact₁
  refine ⟨Still.refl _, rfl, trivial, trivial, ?_⟩
  cases x₁ with
  | ok _ => exact hok _ hs₁
  | error e => exact herror e _ hs₁.raise

/-- A body that may leave wherever it ends makes a block that ends well. -/
theorem mihomoProjectionWrite_wp {α : Type} {body : Work α}
    (hbody : ∀ w, Entered K i w → body.wp (among K i) (fun _ => Leaving K i) w) {w : State} (hw : Outside i w) :
    (mihomoProjectionWrite body).wp (among K i) (fun r => Ended K i (raised r)) w := by
  simp only [mihomoProjectionWrite, wp_bind]
  refine acquireProjectionLock_wp hw ?_ fun e w h => h.ended true
  intro w htaken
  rw [bindPost_ok, wp_bind]
  refine still_wp taken_stable ?_ htaken
  rintro s l choice x t l' - hs hact -
  cases hact
  have hown : l = Worker.begin := hs.own
  subst hown
  refine ⟨Still.refl _, rfl, trivial, trivial, ?_⟩
  rw [bindPost_ok, wp_tryFinally, wp_tryFinally]
  have hentered : Entered K i (s, { Worker.begin with session := { Worker.begin.session with projectionLockHeld := true } }) :=
    ⟨⟨hs.lock, rfl, rfl, rfl, rfl⟩, rfl, rfl, rfl, rfl, rfl, hs.recorded⟩
  refine wp_mono _ body ?_ (hbody _ hentered)
  intro r w hleaving
  refine leaveProjectionWrite_wp hleaving ?_ ?_
  · intro w hended
    have hr : Ended K i (raised r) w := by
      cases r with
      | ok _ => exact hended
      | error _ => exact hended.raise
    exact closeBlock_wp hr (fun w h => h) fun e w h => h
  · intro e w hended
    exact closeBlock_wp hended (fun w h => h) fun e w h => h

end Blocks

end Lingsway.Mihomo
