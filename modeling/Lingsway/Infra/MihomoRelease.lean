import Lingsway.Infra.MihomoSteps

/-!
# The exit of a block

Whatever became of its body, a block that recorded release metadata leaves a
blocker of its own, unless it raises because it could not confirm one.
-/
namespace Lingsway.Mihomo

open Library Program

/-- The calls of worker `i` among the others. -/
abbrev among (K : Conduct calls Exn World Worker) (i : ℕ) : Handler calls Exn State :=
  (contract K).handler workers K i

section Rules

variable {K : Conduct calls Exn World Worker} {i : ℕ} {c : Call} {P : State → Prop}
variable {Q : Except Exn c.Answer → State → Prop}

theorem call_wp (hstable : (contract K).Stable i P)
    (h : ∀ s l choice x w', Invariant K s → Kept i (s, l) → P (s, l) → act i c choice (s, l) = (x, w') →
      K.call i c (s, l) x w' → (contract K).Fine i c (s, l) x w' ∧ Q x w')
    {w : State} (hw : P w) : (perform c).wp (among K i) Q w :=
  Contract.perform_wp hstable h hw

theorem kept_of_still {s t : World} {l l' : Worker} (h : Still s t) (hannals : l'.annals = l.annals)
    (hkept : Kept i (s, l)) : Kept i (t, l') := by
  intro hpersisted
  simp only [hannals] at hpersisted ⊢
  obtain hdone | ⟨metadata, b, hmetadata, hb, hstands⟩ := hkept hpersisted
  · exact .inl hdone
  · exact .inr ⟨metadata, b, hmetadata, by rw [h.blocker, hb], hstands⟩

/-- The rule of a call that leaves the shared rows and the annals alone. -/
theorem still_wp (hstable : (contract K).Stable i P)
    (h : ∀ s l choice x t l', Invariant K s → P (s, l) → act i c choice (s, l) = (x, t, l') →
      K.call i c (s, l) x (t, l') → Still s t ∧ l'.annals = l.annals ∧ Allowed K i c (s, l) ∧
        Answered K c (s, l) x ∧ Q x (t, l'))
    {w : State} (hw : P w) : (perform c).wp (among K i) Q w := by
  refine call_wp hstable ?_ hw
  intro s l choice x w' hinvariant hkept hP hact hallowed
  obtain ⟨hstill, hannals, hmay, hanswer, hQ⟩ := h s l choice x w'.1 w'.2 hinvariant hP hact hallowed
  exact ⟨fine_still hstill hinvariant (kept_of_still hstill hannals hkept) hmay hanswer, hQ⟩

end Rules

/-- The block of worker `i`, who holds the lock, has not come to its exit. -/
structure InBody (i : ℕ) (w : State) : Prop where
  lock : w.1.lock = some i
  metadata : w.2.annals.metadata = none
  persisted : w.2.annals.persisted = false
  returned : w.2.annals.persistReturned = false
  confirmed : w.2.annals.confirmed = false

theorem InBody.kept {i : ℕ} {w : State} (h : InBody i w) : Kept i w := by
  intro hpersisted
  rw [h.persisted] at hpersisted
  cases hpersisted

theorem InBody.same {i : ℕ} {s t : World} {l : Worker} (h : InBody i (s, l)) (hsame : Same i s t) :
    InBody i (t, l) :=
  ⟨hsame.lock.trans h.lock, h.metadata, h.persisted, h.returned, h.confirmed⟩

/-- An unresolved release blocker of the job carries no error. -/
def Plain (id : ℕ) (w : World) : Prop :=
  ∀ b, blockerAt w .lockRelease id = some b → b.unresolved = true → b.lastErrorCode = none

theorem Same.plain {i id : ℕ} {s t : World} (h : Same i s t) (hmine : Mine i s) (hs : Plain id s) :
    Plain id t := by
  intro b hb hunresolved
  obtain ⟨b', hb', hunresolved'⟩ := h.unresolved _ _ b hb hunresolved
  have hown := h.own _ _ b' hb' hunresolved' (hmine _ _ b' hb' hunresolved')
  rw [hb] at hown
  cases hown
  exact hs b hb' hunresolved'

theorem plain_of_unblocked {id j : ℕ} {w : World} (h : Unblocked w j) : Plain id w := by
  intro b hb hunresolved
  exact absurd ⟨_, _, b, hb, hunresolved⟩ h.1

/-- With these writes the row of the key stands, unresolved and written by `i`. -/
structure Draft (i : ℕ) (kind : BlockerKind) (source : ℕ) (payload : BlockerPayload) (error : Option String → Prop)
    (base writes : List Write) (s : World) : Prop where
  jobs : (s.store.applyAll writes).jobs = (s.store.applyAll base).jobs
  elsewhere : ∀ k j, ¬ (k = kind ∧ j = source) →
    ((s.store.applyAll writes).blockers k).get j = blockerAt s k j
  here : ∃ b, ((s.store.applyAll writes).blockers kind).get source = some b ∧ b.unresolved = true ∧
    b.holder = some i ∧ error b.lastErrorCode ∧
    (b.payload = some payload ∨ ∃ old, blockerAt s kind source = some old ∧ b.payload = old.payload)

/-- The draft holds up under what the others do. -/
def Drafted (i : ℕ) (kind : BlockerKind) (source : ℕ) (payload : BlockerPayload)
    (error : Option String → Prop) (base : List Write) (w : State) : Prop :=
  ∀ t, Same i w.1 t → Draft i kind source payload error base w.2.session.writes t

theorem Drafted.same {i : ℕ} {kind : BlockerKind} {source : ℕ} {payload : BlockerPayload}
    {error : Option String → Prop} {base : List Write} {s t : World} {l : Worker}
    (h : Drafted i kind source payload error base (s, l)) (hsame : Same i s t) :
    Drafted i kind source payload error base (t, l) :=
  fun u hu => h u (hsame.trans hu)

/-- One more change of the drafted row that leaves it unresolved. -/
theorem Drafted.change {i : ℕ} {kind : BlockerKind} {source : ℕ} {payload : BlockerPayload}
    {error error' : Option String → Prop} {base : List Write} {s : World} {l : Worker}
    (h : Drafted i kind source payload error base (s, l)) (f : Blocker → Blocker)
    (hf : ∀ b, (f b).status = b.status ∧ (f b).payload = b.payload ∧ error' (f b).lastErrorCode) :
    Drafted i kind source payload error' base
      (s, l.setWrites (l.session.writes ++ [(Write.blocker kind source f).heldBy i])) := by
  intro t hsame
  obtain ⟨hjobs, helsewhere, b, hb, hunresolved, -, -, hpayload⟩ := h t hsame
  refine ⟨?_, ?_, { f b with holder := some i }, ?_, ?_, rfl, (hf b).2.2, ?_⟩
  · simpa [Worker.setWrites, Write.heldBy] using hjobs
  · intro k j hne
    simpa [Worker.setWrites, Write.heldBy, hne] using helsewhere k j hne
  · simp only [Worker.setWrites, Write.heldBy, Store.applyAll_concat, Store.get_apply_blocker, and_self,
      if_true]
    simp only at hb
    rw [hb]
    rfl
  · simpa [Blocker.unresolved, (hf b).1] using hunresolved
  · rw [(hf b).2.1]
    exact hpayload

theorem act_write {i : ℕ} {change : Write} {choice : Unit} {s t : World} {l l' : Worker}
    {x : Except Exn Unit} (h : act i (.write change) choice (s, l) = (x, t, l')) :
    x = .ok () ∧ t = s ∧ l' = l.setWrites (l.session.writes ++ [change.heldBy i]) := by
  cases h
  exact ⟨rfl, rfl, rfl⟩

section Ensure

variable {K : Conduct calls Exn World Worker} {i : ℕ} {site : Site} {payload : BlockerPayload}
variable {base : List Write} {P : State → Prop} {Q : Except Exn Unit → State → Prop}

/-- The error of a drafted row: a release blocker carries none. -/
def CleanRelease (kind : BlockerKind) (code : Option String) : Prop := kind = .lockRelease → code = none

/-- What a worker that is about to ensure a blocker knows, whatever it has written before. -/
structure Ensures (K : Conduct calls Exn World Worker) (i : ℕ) (site : Site) (payload : BlockerPayload)
    (base : List Write) (P : State → Prop) : Prop where
  lock : ∀ w, P w → w.1.lock = some i
  same : ∀ s t l, Same i s t → P (s, l) → P (t, l)
  writes : ∀ s l ws, P (s, l) → P (s, l.setWrites ws)
  mine : ∀ w, P w → Mine i w.1
  plain : ∀ w, P w → payload.blockerKind = .lockRelease → Plain payload.sourceJobId w.1
  base : ∀ s : Store, (s.applyAll base).blockers = s.blockers
  check : checkIdentifiers payload = .ok ()
  named : ∀ s l b, Invariant K s → P (s, l) →
    blockerAt s payload.blockerKind payload.sourceJobId = some b →
    Answered K (.lockBlocker site payload.blockerKind payload.sourceJobId) (s, l) (.ok (some b)) ∧
      (site = .release → b.payload = some payload)

theorem Ensures.stable (h : Ensures K i site payload base P) {R : State → Prop}
    (hR : ∀ s t l, Same i s t → R (s, l) → R (t, l)) : (contract K).Stable i fun w => P w ∧ R w := by
  refine stable_of_same (fun w hw => h.lock w hw.1) ?_
  intro s t l hsame hw
  exact ⟨h.same s t l hsame hw.1, hR s t l hsame hw.2⟩

/-- The reopening of a resolved row. -/
theorem drafted_reopened {s : World} {l : Worker} (hbase : ∀ s : Store, (s.applyAll base).blockers = s.blockers)
    (hrow : (blockerAt s payload.blockerKind payload.sourceJobId).isSome = true) :
    Drafted i payload.blockerKind payload.sourceJobId payload (CleanRelease payload.blockerKind) base
      (s, l.setWrites (base ++
        [(Write.blocker payload.blockerKind payload.sourceJobId reopened).heldBy i])) := by
  intro t hsame
  obtain ⟨old, hold⟩ := Option.isSome_iff_exists.mp (hsame.rows _ _ hrow)
  refine ⟨?_, ?_, { reopened old with holder := some i }, ?_, rfl, rfl, fun _ => rfl, .inr ⟨old, hold, rfl⟩⟩
  · simp [Worker.setWrites, Write.heldBy]
  · intro k j hne
    simp [Worker.setWrites, Write.heldBy, hne, hbase, blockerAt]
  · simp only [blockerAt] at hold
    simp [Worker.setWrites, Write.heldBy, hbase, hold]

/-- A row of one's own that is unresolved already. -/
theorem drafted_standing {s : World} {l : Worker} {b : Blocker}
    (hbase : ∀ s : Store, (s.applyAll base).blockers = s.blockers) (hwrites : l.session.writes = base)
    (hb : blockerAt s payload.blockerKind payload.sourceJobId = some b) (hunresolved : b.unresolved = true)
    (hholder : b.holder = some i) (hclean : CleanRelease payload.blockerKind b.lastErrorCode) :
    Drafted i payload.blockerKind payload.sourceJobId payload (CleanRelease payload.blockerKind) base
      (s, l) := by
  intro t hsame
  have hown := hsame.own _ _ b hb hunresolved hholder
  refine ⟨by rw [hwrites], ?_, b, ?_, hunresolved, hholder, hclean, .inr ⟨b, hown, rfl⟩⟩
  · intro k j _
    simp only [hwrites]
    rw [hbase, blockerAt]
  · simp only [hwrites]
    rw [hbase, ← hown, blockerAt]

theorem drafted_new {s : World} {l : Worker} (hbase : ∀ s : Store, (s.applyAll base).blockers = s.blockers) :
    Drafted i payload.blockerKind payload.sourceJobId payload (CleanRelease payload.blockerKind) base
      (s, l.setWrites (base ++ [.newBlocker payload.blockerKind payload.sourceJobId
        ⟨some payload, .pending, none, some i⟩])) := by
  intro t _
  refine ⟨?_, ?_, ⟨some payload, .pending, none, some i⟩, ?_, rfl, rfl, fun _ => rfl, .inl rfl⟩
  · simp [Worker.setWrites]
  · intro k j hne
    simp [Worker.setWrites, hne, hbase, blockerAt]
  · simp [Worker.setWrites]

theorem ensureRow_wp (h : Ensures K i site payload base P)
    (hok : ∀ s l, P (s, l) → Drafted i payload.blockerKind payload.sourceJobId payload
      (CleanRelease payload.blockerKind) base (s, l) → Q (.ok ()) (s, l))
    (herror : ∀ exc s l, P (s, l) → (site = .release → Within K orderly → Recorded s) → Q (.error exc) (s, l))
    {s : World} {l : Worker} (hP : P (s, l)) (hbase : l.session.writes = base) {row : Option Blocker}
    (hrow : row = blockerAt s payload.blockerKind payload.sourceJobId)
    (hpayload : ∀ b, row = some b → site = .release → b.payload = some payload) :
    (ensureRow site payload row).wp (among K i) Q (s, l) := by
  cases row with
  | none =>
    refine still_wp (P := fun w => P w ∧ w.2.session.writes = base) (h.stable fun _ _ _ _ hR => hR) ?_
      ⟨hP, hbase⟩
    rintro u m choice x t l' - ⟨hPu, hbaseu⟩ hact hallowed
    cases choice with
    | some exc =>
      cases hact
      refine ⟨Still.refl _, rfl, trivial, trivial, herror exc u m hPu ?_⟩
      rintro rfl horderly
      exact horderly.call _ _ _ _ _ hallowed
    | none =>
      simp only [act] at hact
      split_ifs at hact with hexists
      · cases hact
        refine ⟨Still.refl _, rfl, trivial, trivial, herror _ u m hPu ?_⟩
        rintro rfl horderly
        exact horderly.call _ _ _ _ _ hallowed
      · cases hact
        rw [hbaseu]
        exact ⟨Still.refl _, rfl, trivial, trivial, hok _ _ (h.writes _ _ _ hPu) (drafted_new h.base)⟩
  | some b =>
    simp only [ensureRow]
    split_ifs with hsame hsucceeded
    · refine still_wp (P := fun w => P w ∧ (w.2.session.writes = base ∧
          (blockerAt w.1 payload.blockerKind payload.sourceJobId).isSome = true)) ?_ ?_
        ⟨hP, hbase, by rw [← hrow]; rfl⟩
      · exact h.stable fun u t l hsame hR => ⟨hR.1, hsame.rows _ _ hR.2⟩
      · rintro u m choice x t l' - ⟨hPu, hbaseu, hrowu⟩ hact -
        obtain ⟨rfl, rfl, rfl⟩ := act_write hact
        rw [hbaseu]
        exact ⟨Still.refl _, rfl, trivial, trivial, hok _ _ (h.writes _ _ _ hPu)
          (drafted_reopened h.base hrowu)⟩
    · have hunresolved : b.unresolved = true := by simpa [Blocker.unresolved] using hsucceeded
      have hholder := h.mine _ hP _ _ b hrow.symm hunresolved
      refine hok s l hP (drafted_standing h.base hbase hrow.symm hunresolved hholder ?_)
      intro hkind
      have hplain := h.plain _ hP hkind b
      rw [← hkind, ← hrow] at hplain
      exact hplain rfl hunresolved
    · rw [wp_raise]
      refine herror _ s l hP ?_
      intro hsite
      exact absurd (hpayload b rfl hsite) hsame

/-- `ensure_mihomo_blocker` ends with the row in the session, or raises. -/
theorem ensure_wp (h : Ensures K i site payload base P)
    (hok : ∀ s l, P (s, l) → Drafted i payload.blockerKind payload.sourceJobId payload
      (CleanRelease payload.blockerKind) base (s, l) → Q (.ok ()) (s, l))
    (herror : ∀ exc s l, P (s, l) → (site = .release → Within K orderly → Recorded s) → Q (.error exc) (s, l))
    {w : State} (hw : P w) (hwrites : w.2.session.writes = base) :
    (ensureMihomoBlocker site payload).wp (among K i) Q w := by
  simp only [ensureMihomoBlocker, h.check, wp_bind, wp_ofExcept, bindPost_ok]
  refine still_wp (P := fun w => P w ∧ w.2.session.writes = base) (h.stable fun _ _ _ _ hR => hR) ?_ ⟨hw, hwrites⟩
  rintro s l choice x t l' hinvariant ⟨hP, hbase⟩ hact hallowed
  cases choice with
  | some exc =>
    cases hact
    refine ⟨Still.refl _, rfl, trivial, ?_, ?_⟩
    · cases payload.blockerKind <;> trivial
    · refine herror exc s l hP ?_
      rintro rfl horderly
      exact horderly.call _ _ _ _ _ hallowed
  | none =>
    cases hact
    have hstill := still_settle s fun key => key = .blocker payload.blockerKind payload.sourceJobId
    have hP' := h.same _ _ _ (hstill.same i) hP
    refine ⟨hstill, rfl, trivial, ?_, ?_⟩
    · cases hrow : blockerAt s payload.blockerKind payload.sourceJobId with
      | none =>
        rw [blockerAt] at hrow
        rw [hrow]
        cases payload.blockerKind <;> trivial
      | some b =>
        have hanswer := (h.named s l b hinvariant hP hrow).1
        rw [blockerAt] at hrow
        rw [hrow]
        exact hanswer
    · refine ensureRow_wp h hok herror hP' hbase (hstill.blocker _ _).symm ?_
      intro b hb hsite
      exact (h.named s l b hinvariant hP hb).2 hsite

end Ensure

theorem safeIdentifier_of_validate {value : Json} {s : String} (h : validateMihomoOperationId value = some s) :
    safeIdentifier s = true := by
  unfold validateMihomoOperationId at h
  split at h
  · split_ifs at h with hsafe
    cases h
    exact hsafe
  · cases h

theorem pos_of_validate {value : Json} {r : ℤ} (h : validateRevision value = some r) : 0 < r := by
  unfold validateRevision at h
  split at h
  · split_ifs at h
    cases h
    omega
  · cases h

theorem jobIdentity_valid {payload : JobPayload} {identity : JobIdentity}
    (h : jobIdentity payload = some identity) :
    safeIdentifier identity.operationId = true ∧ 0 < identity.snapshotRevision := by
  cases payload with
  | malformed => cases h
  | object members =>
    simp only [jobIdentity, Option.bind_eq_bind, Option.bind_eq_some_iff, Option.pure_def,
      Option.some.injEq] at h
    obtain ⟨operationId, hoperation, operationKind, -, revision, hrevision, rfl⟩ := h
    exact ⟨safeIdentifier_of_validate hoperation, pos_of_validate hrevision⟩

/-- What a valid operation names passes the checks of a blocker. -/
theorem checkIdentifiers_of_valid {payload : BlockerPayload} (hreason : safeReason payload.reasonCode = true)
    (hoperation : ∀ s, payload.operationId = some s → safeIdentifier s = true)
    (hrevision : ∀ r, payload.snapshotRevision = some r → 0 < r) : checkIdentifiers payload = .ok () := by
  have hsafe : (payload.operationId.any fun s => !safeIdentifier s) = false := by
    cases hcase : payload.operationId with
    | none => rfl
    | some s => simp [hoperation s hcase]
  have hpositive : (payload.snapshotRevision.any fun r => decide (r ≤ 0)) = false := by
    cases hcase : payload.snapshotRevision with
    | none => rfl
    | some r =>
      have := hrevision r hcase
      simp
      omega
  simp [checkIdentifiers, hreason, hsafe, hpositive]

theorem check_releasePayload (id : ℕ) (payload : JobPayload) :
    checkIdentifiers (releasePayload (metadataOf id payload)) = .ok () := by
  have hreason : safeReason mihomoLockReleasePending = true := by decide
  cases hidentity : jobIdentity payload with
  | none =>
    refine checkIdentifiers_of_valid (by exact hreason) ?_ ?_
    · simp [releasePayload, metadataOf, hidentity]
    · simp [releasePayload, metadataOf, hidentity]
  | some identity =>
    obtain ⟨hsafe, hpositive⟩ := jobIdentity_valid hidentity
    refine checkIdentifiers_of_valid (by exact hreason) ?_ ?_
    · simpa [releasePayload, metadataOf, hidentity] using hsafe
    · simpa [releasePayload, metadataOf, hidentity] using hpositive

/-- How a block ends: behind recorded metadata a blocker was persisted, or it raises without a
confirmation, and nothing uncertain goes unrecorded with the lock. -/
structure Ended (K : Conduct calls Exn World Worker) (i : ℕ) (raised : Bool) (w : State) : Prop where
  persisted : w.2.annals.metadata.isSome = true →
    w.2.annals.persisted = true ∨ raised = true ∧ w.2.annals.persistReturned = false
  recorded : Within K orderly → w.1.lock = some i → Recorded w.1

section Exit

variable {K : Conduct calls Exn World Worker} {i : ℕ} {m : ReleaseMetadata} {flag : Bool}

theorem ended_stable (raised : Bool) : (contract K).Stable i (Ended K i raised) := by
  intro j s t l hj hguarantee _ h
  refine ⟨h.persisted, ?_⟩
  intro horderly hlock
  have hheld : s.lock = some i := by
    obtain hsame | ⟨-, htaken⟩ | ⟨-, hnone⟩ := hguarantee.lock
    · rw [← hsame, hlock]
    · rw [hlock] at htaken
      exact absurd (Option.some.inj htaken).symm hj
    · rw [hlock] at hnone
      cases hnone
  exact (same_of_guarantee hj hheld hguarantee).recorded (h.recorded horderly hheld)

theorem Ended.raise {raised : Bool} {w : State} (h : Ended K i raised w) : Ended K i true w := by
  refine ⟨?_, h.recorded⟩
  intro hmetadata
  obtain hpersisted | ⟨-, hreturned⟩ := h.persisted hmetadata
  · exact .inl hpersisted
  · exact .inr ⟨rfl, hreturned⟩

/-- The exit of a block over a job, before its blocker is persisted. -/
structure Persisting (K : Conduct calls Exn World Worker) (i : ℕ) (m : ReleaseMetadata) (flag : Bool)
    (w : State) : Prop where
  lock : w.1.lock = some i
  metadata : w.2.annals.metadata = some m
  known : w.2.annals.known = !flag
  persisted : w.2.annals.persisted = false
  returned : w.2.annals.persistReturned = false
  confirmed : w.2.annals.confirmed = false
  unrefused : w.2.annals.refused = false
  tagged : w.2.session.releaseMetadata = some m
  mine : Mine i w.1
  plain : Plain m.sourceJobId w.1
  named : ∃ job, jobAt w.1 m.sourceJobId = some job ∧ m = metadataOf m.sourceJobId job.payload
  recorded : Within K orderly → Recorded w.1 ∨ flag = true ∧ RecordedBut w.1 m.sourceJobId

theorem Persisting.same {s t : World} {l : Worker} (h : Persisting K i m flag (s, l)) (hsame : Same i s t) :
    Persisting K i m flag (t, l) where
  lock := hsame.lock.trans h.lock
  metadata := h.metadata
  known := h.known
  persisted := h.persisted
  returned := h.returned
  confirmed := h.confirmed
  unrefused := h.unrefused
  tagged := h.tagged
  mine := hsame.mine h.mine
  plain := hsame.plain h.mine h.plain
  named := by
    obtain ⟨job, hjob, hm⟩ := h.named
    exact ⟨job, by rw [hsame.job, hjob], hm⟩
  recorded := fun horderly => (h.recorded horderly).imp hsame.recorded (And.imp_right hsame.recordedBut)

theorem Persisting.ensures (hcheck : checkIdentifiers (releasePayload m) = .ok ()) : Ensures K i .release (releasePayload m) [] (Persisting K i m flag) where
  lock := fun _ h => h.lock
  same := fun _ _ _ hsame h => h.same hsame
  writes := fun _ _ _ h =>
    ⟨h.lock, h.metadata, h.known, h.persisted, h.returned, h.confirmed, h.unrefused, h.tagged, h.mine, h.plain,
      h.named, h.recorded⟩
  mine := fun _ h => h.mine
  plain := fun _ h _ => h.plain
  base := fun _ => rfl
  check := hcheck
  named := by
    intro s l b hinvariant h hb
    obtain ⟨job, hjob, hm⟩ := h.named
    obtain ⟨job', hjob', hpayload⟩ := hinvariant.payloads _ b hb
    rw [show (releasePayload m).sourceJobId = m.sourceJobId from rfl, hjob] at hjob'
    cases hjob'
    have hsame : b.payload = some (releasePayload m) := by
      rw [hpayload]
      exact congrArg (fun m => some (releasePayload m)) hm.symm
    exact ⟨⟨m, h.tagged, rfl, hsame⟩, fun _ => hsame⟩

/-- A blocker of the release stands, and carries no error when the state is known. -/
structure Standing (i : ℕ) (m : ReleaseMetadata) (flag : Bool) (w : State) : Prop where
  metadata : w.2.annals.metadata = some m
  known : w.2.annals.known = !flag
  persisted : w.2.annals.persisted = true
  unrefused : w.2.annals.refused = false
  row : ∃ b, blockerAt w.1 .lockRelease m.sourceJobId = some b ∧ b.unresolved = true ∧ b.holder = some i ∧
    (flag = false → b.lastErrorCode = none)

theorem Standing.kept {w : State} (h : Standing i m flag w) : Kept i w := by
  intro _
  obtain ⟨b, hb, hunresolved, hholder, -⟩ := h.row
  exact .inr ⟨m, b, h.metadata, hb, hunresolved, hholder⟩

theorem Standing.guarantee {j : ℕ} {s t : World} {l : Worker} (h : Standing i m flag (s, l)) (hj : j ≠ i)
    (hguarantee : Guarantee j s t) : Standing i m flag (t, l) := by
  obtain ⟨b, hb, hunresolved, hholder, hcode⟩ := h.row
  have hother : b.holder ≠ some j := by
    rw [hholder]
    simpa using hj.symm
  exact ⟨h.metadata, h.known, h.persisted, h.unrefused,
    b, hguarantee.others _ _ b hb hunresolved hother, hunresolved, hholder, hcode⟩

theorem unlock_lock {s : World} (h : s.lock = some i) : (s.unlock i).lock = none := by
  rw [World.unlock, if_pos h]

/-- The lock is given up, over nothing that is not recorded. -/
theorem fine_unlock {c : Call} {s : World} {l l' : Worker} {x : Except Exn c.Answer} (hheld : s.lock = some i)
    (hinvariant : Invariant K s) (hrecorded : Within K orderly → Recorded s)
    (hkept : Kept i (s.unlock i, l')) (hallowed : Allowed K i c (s, l)) (hanswered : Answered K c (s, l) x) :
    (contract K).Fine i c (s, l) x (s.unlock i, l') := by
  have hworld : s.unlock i = { s with lock := none } := if_pos hheld
  rw [hworld] at hkept ⊢
  constructor
  · exact ⟨fun _ _ b h _ _ => h, fun _ _ _ b h h' => ⟨b, h, h'⟩, .inr (.inr ⟨hheld, rfl⟩),
      fun _ => ⟨rfl, rfl⟩, fun _ => noNewLate_refl s, fun _ _ h => h, fun _ _ b h h' => ⟨b, h, h'⟩⟩
  · exact ⟨hinvariant.payloads, fun horderly _ => hrecorded horderly⟩
  · exact hkept
  · refine ⟨hallowed, hanswered, ?_, fun _ => fun id job h hdurable => ⟨job, h, hdurable.1, rfl⟩⟩
    intro id b b' hb hunresolved hb' hresolved
    have hsame : some b = some b' := hb.symm.trans hb'
    cases hsame
    rw [hunresolved] at hresolved
    cases hresolved

/-- The end of a persistence that is not confirmed. -/
structure Unconfirmed (K : Conduct calls Exn World Worker) (i : ℕ) (w : State) : Prop where
  lock : w.1.lock = some i
  returned : w.2.annals.persistReturned = false
  recorded : Within K orderly → Recorded w.1

theorem Unconfirmed.ended {w : State} (h : Unconfirmed K i w) : Ended K i true w :=
  ⟨fun _ => .inr ⟨rfl, h.returned⟩, fun horderly _ => h.recorded horderly⟩

theorem unconfirmed_stable : (contract K).Stable i (Unconfirmed K i) := by
  refine stable_of_same (fun w h => h.lock) ?_
  intro s t l hsame h
  exact ⟨hsame.lock.trans h.lock, h.returned, fun horderly => hsame.recorded (h.recorded horderly)⟩

theorem act_rollback {site : Site} {choice : Option Exn} {s t : World} {l l' : Worker} {x : Except Exn Unit}
    (h : act i (.rollback site) choice (s, l) = (x, t, l')) :
    t = s ∧ (x = .ok () ∧ l' = l.setWrites [] ∨ (∃ exc, x = .error exc) ∧ l' = l) := by
  cases choice with
  | none =>
    cases h
    exact ⟨rfl, .inl ⟨rfl, rfl⟩⟩
  | some exc =>
    cases h
    exact ⟨rfl, .inr ⟨⟨exc, rfl⟩, rfl⟩⟩

/-- The handler of a persistence that is not confirmed gives the lock up, if it can. -/
theorem unconfirmed_handler_wp {α : Type} (exc : Exn) {w : State} (h : Unconfirmed K i w)
    {Q : Except Exn α → State → Prop} (hQ : ∀ e w, Ended K i true w → Q (.error e) w) :
    (do
      perform (.rollback .releaseError)
      perform .invalidate
      .raise exc : Work α).wp (among K i) Q w := by
  simp only [wp_bind]
  refine still_wp unconfirmed_stable ?_ h
  intro s l choice x t l' _ hs hact _
  obtain ⟨rfl, ⟨rfl, rfl⟩ | ⟨⟨e, rfl⟩, rfl⟩⟩ := act_rollback hact
  · refine ⟨Still.refl _, rfl, trivial, trivial, ?_⟩
    simp only [bindPost_ok, wp_bind]
    have hnext : Unconfirmed K i (t, l.setWrites []) := ⟨hs.lock, hs.returned, hs.recorded⟩
    refine call_wp unconfirmed_stable ?_ hnext
    intro u l₂ choice₂ x₂ w' hinvariant hkept hu hact₂ _
    cases hact₂
    constructor
    · refine fine_unlock hu.lock hinvariant hu.recorded ?_ trivial trivial
      rw [World.unlock, if_pos hu.lock]
      exact hkept
    · rw [bindPost_ok, wp_raise]
      refine hQ exc _ ⟨fun _ => .inr ⟨rfl, hu.returned⟩, ?_⟩
      intro _ hlock
      rw [unlock_lock hu.lock] at hlock
      cases hlock
  · exact ⟨Still.refl _, rfl, trivial, trivial, hQ e _ hs.ended⟩

/-- What a blocker of the release has for an error when it is persisted. -/
def DraftedCode (flag : Bool) (code : Option String) : Prop :=
  code = if flag then some mihomoDurableStateUnknown else none

/-- The row is in the session, and the commit follows. -/
def Committing (K : Conduct calls Exn World Worker) (i : ℕ) (m : ReleaseMetadata) (flag : Bool)
    (w : State) : Prop :=
  Persisting K i m flag w ∧ Drafted i .lockRelease m.sourceJobId (releasePayload m) (DraftedCode flag) [] w

theorem committing_stable : (contract K).Stable i (Committing K i m flag) := by
  refine stable_of_same (fun w h => h.1.lock) ?_
  intro s t l hsame h
  exact ⟨h.1.same hsame, h.2.same hsame⟩

/-- A drafted row raises its blocker. -/
theorem raises_draft {s t : World} {error : Option String → Prop} {writes base : List Write} {kind : BlockerKind}
    {id : ℕ} {payload : BlockerPayload} (hdraft : Draft i kind id payload error base writes s)
    (hstore : t.store = s.store.applyAll writes) (hmine : Mine i s) (hplain : kind = .lockRelease → Plain id s) :
    Raises i s t := by
  obtain ⟨-, helsewhere, b, hb, hunresolved, hholder, -, -⟩ := hdraft
  intro k source
  by_cases hkey : k = kind ∧ source = id
  · obtain ⟨rfl, rfl⟩ := hkey
    refine .inr ⟨b, by rw [blockerAt, hstore, hb], hunresolved, hholder, ?_⟩
    intro old hold
    refine ⟨hmine _ _ old hold, ?_⟩
    rintro ⟨hopen, hkind | hcode⟩
    · exact ⟨hunresolved, .inl hkind⟩
    · cases k with
      | finalization => exact ⟨hunresolved, .inl rfl⟩
      | lockRelease =>
        rw [hplain rfl old hold hopen] at hcode
        cases hcode
  · left
    rw [blockerAt, hstore, helsewhere k source hkey]

theorem payloads_draft {s t : World} {error : Option String → Prop} {writes base : List Write} {id : ℕ}
    (job : MihomoJob) {payload : BlockerPayload} (hdraft : Draft i .lockRelease id payload error base writes s)
    (hname : payload = releasePayload (metadataOf id job.payload)) (hstore : t.store = s.store.applyAll writes) (hs : Payloads s) (hnames : KeepsNames s t)
    (hjob : jobAt s id = some job) : Payloads t := by
  obtain ⟨-, helsewhere, b, hb, -, -, -, hpayload⟩ := hdraft
  refine payloads_of_names hs hnames ?_
  intro j b' hb'
  by_cases hj : j = id
  · subst hj
    rw [blockerAt, hstore, hb] at hb'
    cases hb'
    obtain hnew | ⟨old, hold, hsame⟩ := hpayload
    · obtain ⟨job', hjob', hkeeps⟩ := hnames j job hjob
      exact .inr ⟨job', hjob', by rw [hnew, hname, hkeeps]⟩
    · exact .inl ⟨old, hold, hsame⟩
  · rw [blockerAt, hstore, helsewhere _ _ fun hkey => hj hkey.2] at hb'
    exact .inl ⟨b', hb', rfl⟩

/-- The blocker is durable. -/
theorem committed {s t : World} {l : Worker} (returned : Bool) (h : Committing K i m flag (s, l))
    (hinvariant : Invariant K s) (hlanded : Landed s l.session.writes t) :
    Raises i s t ∧ Payloads t ∧ Absorbing s t ∧ Standing i m flag (t, l.landed .release returned) ∧
      (Within K orderly → Recorded t) := by
  obtain ⟨hp, hd⟩ := h
  have hdraft := hd s (Same.refl i s)
  have hraises := raises_draft hdraft hlanded.store hp.mine fun _ => hp.plain
  have hjobs : t.store.jobs = s.store.jobs := by rw [hlanded.store, hdraft.jobs]; rfl
  have hsame : ∀ id, jobAt t id = jobAt s id := fun id => by rw [jobAt, jobAt, hjobs]
  have hnames : KeepsNames s t := fun id job hjob => ⟨job, by rw [hsame, hjob], rfl⟩
  obtain ⟨job, hjob, hm⟩ := hp.named
  have hpayloads : Payloads t :=
    payloads_draft job hdraft (congrArg releasePayload hm) hlanded.store hinvariant.payloads hnames hjob
  obtain ⟨-, -, b, hb, hunresolved, hholder, hcode, -⟩ := hdraft
  have hrow : blockerAt t .lockRelease m.sourceJobId = some b := by rw [blockerAt, hlanded.store, hb]
  refine ⟨hraises, hpayloads, fun id job hjob hdurable => ⟨job, by rw [hsame, hjob], hdurable.1, rfl⟩, ?_, ?_⟩
  · refine ⟨hp.metadata, hp.known, rfl, hp.unrefused, b, hrow, hunresolved, hholder, ?_⟩
    rintro rfl
    exact hcode
  · intro horderly j hj
    rw [hlanded.uncertain] at hj
    obtain hrecorded | ⟨rfl, -⟩ := hp.recorded horderly
    · obtain ⟨job', hjob', hclosed⟩ | hstopped := hrecorded j hj
      · exact .inl ⟨job', by rw [hsame, hjob'], hclosed⟩
      · exact .inr (hraises.stopped hstopped)
    · refine .inr ⟨.lockRelease, _, b, hrow, hunresolved, .inr ?_⟩
      rw [hcode]
      rfl

theorem Drafted.mono {kind : BlockerKind} {source : ℕ} {payload : BlockerPayload}
    {error error' : Option String → Prop} {base : List Write} {w : State}
    (h : Drafted i kind source payload error base w) (hcode : ∀ code, error code → error' code) :
    Drafted i kind source payload error' base w := by
  intro t hsame
  obtain ⟨hjobs, helsewhere, b, hb, hunresolved, hholder, herror, hpayload⟩ := h t hsame
  exact ⟨hjobs, helsewhere, b, hb, hunresolved, hholder, hcode _ herror, hpayload⟩

theorem act_commit {site : Site} {choice : CommitChoice} {s t : World} {l l' : Worker} {x : Except Exn Unit}
    (h : act i (.commit site) choice (s, l) = (x, t, l')) :
    x = .ok () ∧ Landed s l.session.writes t ∧ l' = l.landed site true ∨
      (∃ exc, x = .error exc) ∧ Landed s l.session.writes t ∧ l' = l.landed site false ∨
      (∃ exc, x = .error exc) ∧ t = s ∧ l' = l.setWrites [] := by
  obtain ⟨hx, rfl, hl⟩ | h | h := commit_cases site h
  · exact .inl ⟨hx, landed_land _ _, hl⟩
  · exact .inr (.inl h)
  · exact .inr (.inr h)

/-- The blocker of the release stands under the lock, and what is uncertain is recorded. -/
structure Releasing (K : Conduct calls Exn World Worker) (i : ℕ) (m : ReleaseMetadata) (flag : Bool)
    (w : State) : Prop where
  lock : w.1.lock = some i
  standing : Standing i m flag w
  recorded : Within K orderly → Recorded w.1

theorem commitRelease_wp {Q : Except Exn Unit → State → Prop} {w : State} (hw : Committing K i m flag w)
    (hok : ∀ w, Releasing K i m flag w → Q (.ok ()) w) (herror : ∀ e w, Unconfirmed K i w → Q (.error e) w) :
    (perform (.commit .release)).wp (among K i) Q w := by
  refine call_wp committing_stable ?_ hw
  rintro s l choice x ⟨t, l'⟩ hinvariant hkept hs hact hallowed
  obtain ⟨rfl, hlanded, rfl⟩ | ⟨⟨exc, rfl⟩, hlanded, rfl⟩ | ⟨⟨exc, rfl⟩, rfl, rfl⟩ := act_commit hact
  · obtain ⟨hraises, hpayloads, habsorbing, hstanding, hrecorded⟩ :=
      committed true hs hinvariant hlanded
    exact ⟨fine_raise hs.1.lock hlanded.lock hraises hpayloads hstanding.kept trivial trivial fun _ => habsorbing,
      hok _ ⟨hlanded.lock.trans hs.1.lock, hstanding, hrecorded⟩⟩
  · obtain ⟨hraises, hpayloads, habsorbing, hstanding, hrecorded⟩ :=
      committed false hs hinvariant hlanded
    exact ⟨fine_raise hs.1.lock hlanded.lock hraises hpayloads hstanding.kept trivial trivial fun _ => habsorbing,
      herror exc _ ⟨hlanded.lock.trans hs.1.lock, rfl, hrecorded⟩⟩
  · exact ⟨fine_still (Still.refl _) hinvariant (kept_of_still (l := l) (Still.refl _) rfl hkept) trivial trivial,
      herror exc _ ⟨hs.1.lock, hs.1.returned, fun horderly => horderly.call _ _ _ _ _ hallowed⟩⟩

theorem persistReleaseBlocker_wp {Q : Except Exn Unit → State → Prop} {w : State}
    (hw : Persisting K i m flag w) (hok : ∀ w, Releasing K i m flag w → Q (.ok ()) w)
    (herror : ∀ e w, Ended K i true w → Q (.error e) w) :
    (persistReleaseBlocker m flag).wp (among K i) Q w := by
  obtain ⟨job, -, hm⟩ := hw.named
  have hcheck : checkIdentifiers (releasePayload m) = .ok () := by
    rw [hm]
    exact check_releasePayload _ _
  have hensures : Ensures K i .release (releasePayload m) [] (Persisting K i m flag) := Persisting.ensures hcheck
  simp only [persistReleaseBlocker, wp_tryCatch, wp_bind]
  have hhandle : ∀ e w, Unconfirmed K i w → (catchPost (among K i) (fun _ => do
      perform (.rollback .releaseError)
      perform .invalidate
      .raise (projectionLockError "Mihomo release blocker persistence was not confirmed")) Q) (.error e) w :=
    fun e w h => unconfirmed_handler_wp _ h herror
  refine still_wp (hensures.stable (R := fun _ => True) fun _ _ _ _ _ => trivial) ?_ ⟨hw, trivial⟩
  rintro s l choice x t l' - ⟨hs, -⟩ hact hallowed
  obtain ⟨rfl, ⟨rfl, rfl⟩ | ⟨⟨e, rfl⟩, rfl⟩⟩ := act_rollback hact
  · refine ⟨Still.refl _, rfl, trivial, trivial, ?_⟩
    rw [bindPost_ok, wp_bind]
    refine ensure_wp hensures ?_ ?_ (hensures.writes _ _ [] hs) rfl
    · intro s₁ l₁ hs₁ hdrafted
      rw [bindPost_ok]
      cases flag with
      | false =>
        simp only [Bool.false_eq_true, if_false, wp_bind, wp_ret, bindPost_ok]
        exact commitRelease_wp ⟨hs₁, hdrafted.mono fun code hcode => hcode rfl⟩ hok hhandle
      | true =>
        simp only [if_true, wp_bind]
        refine still_wp (hensures.stable fun _ _ _ hsame hR => Drafted.same hR hsame) ?_ ⟨hs₁, hdrafted⟩
        rintro s₂ l₂ choice₂ x₂ t₂ l₂' - ⟨hs₂, hdrafted₂⟩ hact₂ -
        obtain ⟨rfl, rfl, rfl⟩ := act_write hact₂
        refine ⟨Still.refl _, rfl, trivial, trivial, ?_⟩
        rw [bindPost_ok]
        refine commitRelease_wp ⟨hensures.writes _ _ _ hs₂, ?_⟩ hok hhandle
        exact hdrafted₂.change _ fun b => ⟨rfl, rfl, rfl⟩
    · intro e s₁ l₁ hs₁ hrecorded
      exact hhandle e _ ⟨hs₁.lock, hs₁.returned, hrecorded rfl⟩
  · refine ⟨Still.refl _, rfl, trivial, trivial, hhandle e _ ⟨hs.lock, hs.returned, ?_⟩⟩
    exact fun horderly => horderly.call _ _ _ _ _ hallowed

/-- What a worker knows that gives up the lock, before and after. -/
structure GivesUp (K : Conduct calls Exn World Worker) (i : ℕ) (P R : State → Prop) : Prop where
  lock : ∀ w, P w → w.1.lock = some i
  same : ∀ s t l, Same i s t → P (s, l) → P (t, l)
  recorded : ∀ w, P w → Within K orderly → Recorded w.1
  allowed : ∀ w, P w → Allowed K i .releaseLock w
  leaves : ∀ s l, P (s, l) → R (s.unlock i, l) ∧ R (s.unlock i, l.confirm)
  kept : ∀ w, R w → Kept i w

section GivesUp

variable {α : Type} {P R : State → Prop}

theorem GivesUp.stable (h : GivesUp K i P R) : (contract K).Stable i P := stable_of_same h.lock h.same

theorem invalidate_wp (h : GivesUp K i P R) (exc : Exn) {Q : Except Exn α → State → Prop} {w : State} (hw : P w)
    (hQ : ∀ e w, R w → Q (.error e) w) :
    (do
      perform .invalidate
      .raise exc : Work α).wp (among K i) Q w := by
  rw [wp_bind]
  refine call_wp h.stable ?_ hw
  rintro s l choice x w' hinvariant - hs hact -
  cases hact
  have hleaves := (h.leaves s l hs).1
  refine ⟨fine_unlock (h.lock _ hs) hinvariant (h.recorded _ hs) (h.kept _ hleaves) trivial trivial, ?_⟩
  rw [bindPost_ok, wp_raise]
  exact hQ exc _ hleaves

/-- The release is confirmed, or raises with the connection gone. -/
theorem releaseLock_wp (h : GivesUp K i P R) {Q : Except Exn Unit → State → Prop} {w : State} (hw : P w)
    (hok : ∀ w, R w → w.2.annals.confirmed = true → Q (.ok ()) w) (herror : ∀ e w, R w → Q (.error e) w) :
    releaseLock.wp (among K i) Q w := by
  simp only [releaseLock, wp_bind, wp_tryCatch]
  refine call_wp h.stable ?_ hw
  rintro s l choice x w' hinvariant hkept hs hact -
  cases choice with
  | error exc =>
    cases hact
    refine ⟨fine_still (Still.refl _) hinvariant hkept (h.allowed _ hs) trivial, ?_⟩
    rw [catchPost_error]
    exact invalidate_wp h exc hs fun e w hR => herror e w hR
  | ok answer =>
    simp only [act] at hact
    split_ifs at hact with hanswer
    · cases hact
      have hleaves := (h.leaves s l hs).2
      refine ⟨fine_unlock (h.lock _ hs) hinvariant (h.recorded _ hs) (h.kept _ hleaves) (h.allowed _ hs)
        trivial, ?_⟩
      rw [catchPost_ok, bindPost_ok, if_pos rfl, wp_ret]
      exact hok _ hleaves rfl
    · cases hact
      refine ⟨fine_still (Still.refl _) hinvariant hkept (h.allowed _ hs) trivial, ?_⟩
      rw [catchPost_ok, bindPost_ok, if_neg hanswer]
      exact invalidate_wp h _ hs herror

end GivesUp

/-- Behind the lock, over a blocker that stands. -/
structure Behind (i : ℕ) (m : ReleaseMetadata) (flag : Bool) (w : State) : Prop where
  away : w.1.lock ≠ some i
  standing : Standing i m flag w

theorem away_of_guarantee {j : ℕ} {s t : World} (hj : j ≠ i) (hguarantee : Guarantee j s t)
    (haway : s.lock ≠ some i) : t.lock ≠ some i := by
  intro hlock
  obtain hsame | ⟨-, htaken⟩ | ⟨-, hnone⟩ := hguarantee.lock
  · exact haway (hsame ▸ hlock)
  · rw [hlock] at htaken
    exact hj (Option.some.inj htaken).symm
  · rw [hlock] at hnone
    cases hnone

theorem behind_stable : (contract K).Stable i (Behind i m flag) := by
  intro j s t l hj hguarantee _ h
  exact ⟨away_of_guarantee hj hguarantee h.away, h.standing.guarantee hj hguarantee⟩

theorem unlock_away {s : World} (h : s.lock = some i) : (s.unlock i).lock ≠ some i := by
  rw [unlock_lock h]
  simp

theorem standing_unlock {s : World} {l : Worker} (h : Standing i m flag (s, l)) :
    Standing i m flag (s.unlock i, l) := by
  have hstore : (s.unlock i).store = s.store := by
    unfold World.unlock
    split_ifs <;> rfl
  obtain ⟨b, hb, hrow⟩ := h.row
  exact ⟨h.metadata, h.known, h.persisted, h.unrefused, b, by rw [blockerAt, hstore]; exact hb, hrow⟩

theorem releasing_givesUp : GivesUp K i (Releasing K i m flag) (Behind i m flag) where
  lock := fun _ h => h.lock
  same := by
    intro s t l hsame h
    obtain ⟨b, hb, hunresolved, hholder, hcode⟩ := h.standing.row
    exact ⟨hsame.lock.trans h.lock, ⟨h.standing.metadata, h.standing.known, h.standing.persisted,
      h.standing.unrefused, b, hsame.own _ _ b hb hunresolved hholder, hunresolved, hholder, hcode⟩,
      fun horderly => hsame.recorded (h.recorded horderly)⟩
  recorded := fun _ h => h.recorded
  allowed := by
    intro w h _ hrefused
    rw [h.standing.unrefused] at hrefused
    cases hrefused
  leaves := by
    intro s l h
    have hstanding := standing_unlock h.standing
    exact ⟨⟨unlock_away h.lock, hstanding⟩, unlock_away h.lock, hstanding.metadata, hstanding.known,
      hstanding.persisted, hstanding.unrefused, hstanding.row⟩
  kept := fun _ h => h.standing.kept

/-- A change of the blocker behind the lock. -/
theorem touches_of_landed {s t : World} {l : Worker} {f : Blocker → Blocker} (h : Behind i m flag (s, l))
    (hlanded : Landed s [(Write.blocker .lockRelease m.sourceJobId f).heldBy i] t)
    (hpayload : ∀ b, (f b).payload = b.payload)
    (hlasting : ∀ b, (flag = false → b.lastErrorCode = none) → b.lasting .lockRelease →
      (f b).unresolved = true ∧ (f b).lastErrorCode.isSome = true) :
    Touches i m.sourceJobId s t ∧ ∃ b, blockerAt s .lockRelease m.sourceJobId = some b ∧
      b.unresolved = true ∧ b.holder = some i ∧
      blockerAt t .lockRelease m.sourceJobId = some { f b with holder := some i } := by
  obtain ⟨b, hb, hunresolved, hholder, hcode⟩ := h.standing.row
  have hrow : blockerAt t .lockRelease m.sourceJobId = some { f b with holder := some i } := by
    rw [blockerAt, hlanded.store, Store.applyAll_singleton, Write.heldBy, Store.get_apply_blocker,
      if_pos ⟨rfl, rfl⟩]
    rw [blockerAt] at hb
    rw [hb]
    rfl
  refine ⟨⟨?_, hlanded.lock, hlanded.uncertain, ?_, ?_, b, _, hb, hrow, hunresolved, hholder, hpayload b, ?_⟩, b, hb,
    hunresolved, hholder, hrow⟩
  · rw [hlanded.store]
    rfl
  · intro c hc j htouches
    obtain hlate | rfl := hlanded.late c hc
    · exact hlate
    · cases htouches
  · intro kind source hne
    rw [blockerAt, hlanded.store, Store.applyAll_singleton, Write.heldBy, Store.get_apply_blocker, if_neg hne]
    rfl
  · intro hlasts
    obtain ⟨hopen, hsome⟩ := hlasting b hcode hlasts
    exact ⟨hopen, .inr hsome⟩

/-- Behind the lock, with the blocker persisted once. -/
structure Away (i : ℕ) (w : State) : Prop where
  away : w.1.lock ≠ some i
  persisted : w.2.annals.persisted = true

theorem away_stable : (contract K).Stable i (Away i) := by
  intro j s t l hj hguarantee _ h
  exact ⟨away_of_guarantee hj hguarantee h.away, h.persisted⟩

theorem Away.ended {w : State} (h : Away i w) (raised : Bool) : Ended K i raised w :=
  ⟨fun _ => .inl h.persisted, fun _ hlock => absurd hlock h.away⟩

/-- A last rollback, whatever comes of it. -/
theorem lastRollback_wp {site : Site} {Q : Except Exn Unit → State → Prop} {w : State} (hw : Away i w) (hQ : ∀ x w, Away i w → Q x w) :
    (perform (.rollback site)).wp (among K i) Q w := by
  refine still_wp away_stable ?_ hw
  intro s l choice x t l' _ hs hact _
  obtain ⟨rfl, ⟨rfl, rfl⟩ | ⟨⟨e, rfl⟩, rfl⟩⟩ := act_rollback hact
  · exact ⟨Still.refl _, rfl, trivial, trivial, hQ _ _ ⟨hs.away, hs.persisted⟩⟩
  · exact ⟨Still.refl _, rfl, trivial, trivial, hQ _ _ hs⟩

theorem Behind.away' {w : State} (h : Behind i m flag w) : Away i w := ⟨h.away, h.standing.persisted⟩

/-- Behind the lock, with exactly this change to be sent. -/
structure Changing (i : ℕ) (m : ReleaseMetadata) (flag : Bool) (f : Blocker → Blocker) (w : State) : Prop where
  behind : Behind i m flag w
  writes : w.2.session.writes = [(Write.blocker .lockRelease m.sourceJobId f).heldBy i]

theorem Behind.setWrites {s : World} {l : Worker} (h : Behind i m flag (s, l)) (writes : List Write) :
    Behind i m flag (s, l.setWrites writes) :=
  ⟨h.away, h.standing.metadata, h.standing.known, h.standing.persisted, h.standing.unrefused, h.standing.row⟩

/-- The change leaves the blocker unresolved, or the release is confirmed. -/
def Settles (flag : Bool) (f : Blocker → Blocker) (l : Worker) : Prop :=
  (∀ b, b.unresolved = true → (f b).unresolved = true) ∨ flag = false ∧ l.annals.confirmed = true

theorem changing_stable {f : Blocker → Blocker} :
    (contract K).Stable i fun w => Changing i m flag f w ∧ Settles flag f w.2 :=
  fun j s t l hj hguarantee hinvariant h =>
    ⟨⟨behind_stable j s t l hj hguarantee hinvariant h.1.behind, h.1.writes⟩, h.2⟩

/-- The change lands: a blocker is resolved only behind a confirmed release. -/
theorem fine_change {site : Site} {f : Blocker → Blocker} {s t : World} {l : Worker} {x : Except Exn Unit}
    (hpayload : ∀ b, (f b).payload = b.payload)
    (hlasting : ∀ b, (flag = false → b.lastErrorCode = none) → b.lasting .lockRelease →
      (f b).unresolved = true ∧ (f b).lastErrorCode.isSome = true)
    (hresolved : Settles flag f l)
    (h : Changing i m flag f (s, l)) (hinvariant : Invariant K s)
    (hlanded : Landed s l.session.writes t) :
    (contract K).Fine i (.commit site) (s, l) x (t, l.setWrites []) := by
  rw [h.writes] at hlanded
  obtain ⟨htouches, b, hb, hunresolved, hholder, hrow⟩ :=
    touches_of_landed h.behind hlanded hpayload hlasting
  have hknown := h.behind.standing.known
  refine ⟨htouches.guarantee, htouches.invariant hinvariant, ?_, trivial, trivial, ?_, fun _ => htouches.absorbing⟩
  · intro _
    obtain hopen | ⟨hflag, hconfirmed⟩ := hresolved
    · exact .inr ⟨m, _, h.behind.standing.metadata, hrow, hopen b hunresolved, rfl⟩
    · rw [hflag] at hknown
      exact .inl ⟨hconfirmed, hknown⟩
  · intro id b₁ b₂ hb₁ hopen₁ hb₂ hresolved₂
    by_cases hid : id = m.sourceJobId
    · subst hid
      rw [hb] at hb₁
      rw [hrow] at hb₂
      cases hb₁
      cases hb₂
      obtain hopen | ⟨hflag, hconfirmed⟩ := hresolved
      · have hclosed : (f b).unresolved = false := hresolved₂
        rw [hopen b hunresolved] at hclosed
        cases hclosed
      · rw [hflag] at hknown
        exact ⟨hholder, hconfirmed, hknown⟩
    · rw [htouches.elsewhere _ _ fun hkey => hid hkey.2, hb₁] at hb₂
      cases hb₂
      rw [hopen₁] at hresolved₂
      cases hresolved₂

/-- A change of the blocker of the release, in a transaction of its own. -/
theorem changeBlocker_wp {first second : Site} {f : Blocker → Blocker} {Q : Except Exn Unit → State → Prop}
    {w : State} (hsite : ∀ (l : Worker) returned, l.landed second returned = l.setWrites [])
    (hpayload : ∀ b, (f b).payload = b.payload)
    (hlasting : ∀ b, (flag = false → b.lastErrorCode = none) → b.lasting .lockRelease →
      (f b).unresolved = true ∧ (f b).lastErrorCode.isSome = true)
    (hresolved : Settles flag f w.2)
    (hw : Behind i m flag w) (hQ : ∀ x w, Away i w → Q x w) :
    (do
      perform (.rollback first)
      perform (.write (.blocker .lockRelease m.sourceJobId f))
      perform (.commit second) : Work Unit).wp (among K i) Q w := by
  simp only [wp_bind]
  have hbehind : (contract K).Stable i fun w => Behind i m flag w ∧ Settles flag f w.2 :=
    fun j s t l hj hguarantee hinvariant h =>
      ⟨behind_stable j s t l hj hguarantee hinvariant h.1, h.2⟩
  refine still_wp hbehind ?_ ⟨hw, hresolved⟩
  rintro s l choice x t l' - ⟨hs, hmay⟩ hact -
  obtain ⟨rfl, ⟨rfl, rfl⟩ | ⟨⟨e, rfl⟩, rfl⟩⟩ := act_rollback hact
  · refine ⟨Still.refl _, rfl, trivial, trivial, ?_⟩
    rw [bindPost_ok, wp_bind]
    refine still_wp (P := fun w => (Behind i m flag w ∧ Settles flag f w.2) ∧ w.2.session.writes = []) ?_ ?_
      ⟨⟨hs.setWrites [], hmay⟩, rfl⟩
    · exact fun j s t l hj hguarantee hinvariant h => ⟨hbehind j s t l hj hguarantee hinvariant h.1, h.2⟩
    rintro s₁ l₁ choice₁ x₁ t₁ l₁' - ⟨⟨hs₁, hmay₁⟩, hwrites⟩ hact₁ -
    obtain ⟨rfl, rfl, rfl⟩ := act_write hact₁
    refine ⟨Still.refl _, rfl, trivial, trivial, ?_⟩
    rw [bindPost_ok, hwrites]
    have hchanging : Changing i m flag f (t₁, l₁.setWrites
        ([] ++ [(Write.blocker .lockRelease m.sourceJobId f).heldBy i])) := ⟨hs₁.setWrites _, rfl⟩
    refine call_wp changing_stable ?_ ⟨hchanging, hmay₁⟩
    rintro s₂ l₂ choice₂ x₂ ⟨t₂, l₂'⟩ hinvariant hkept ⟨hs₂, hmay₂⟩ hact₂ -
    have haway : ∀ t l', t.lock = s₂.lock → l'.annals = l₂.annals → Away i (t, l') := by
      intro t l' hlock hannals
      refine ⟨?_, ?_⟩
      · rw [hlock]
        exact hs₂.behind.away
      · simp only [hannals]
        exact hs₂.behind.standing.persisted
    obtain ⟨rfl, hlanded, rfl⟩ | ⟨-, hlanded, rfl⟩ | ⟨-, rfl, rfl⟩ := act_commit hact₂
    · rw [hsite]
      exact ⟨fine_change hpayload hlasting hmay₂ hs₂ hinvariant hlanded, hQ _ _ (haway _ _ hlanded.lock rfl)⟩
    · rw [hsite]
      exact ⟨fine_change hpayload hlasting hmay₂ hs₂ hinvariant hlanded, hQ _ _ (haway _ _ hlanded.lock rfl)⟩
    · exact ⟨fine_still (Still.refl _) hinvariant (kept_of_still (l := l₂) (Still.refl _) rfl hkept) trivial
        trivial, hQ _ _ (haway _ _ rfl rfl)⟩
  · exact ⟨Still.refl _, rfl, trivial, trivial, hQ _ _ hs.away'⟩

theorem noteReleaseUnknown_wp {Q : Except Exn Unit → State → Prop} {w : State} (hw : Behind i m flag w)
    (hQ : ∀ x w, Away i w → Q x w) : (noteReleaseUnknown (some m)).wp (among K i) Q w := by
  simp only [noteReleaseUnknown, wp_tryCatch]
  refine changeBlocker_wp (fun _ _ => rfl) (fun _ => rfl) (fun b _ hlasts => ⟨hlasts.1, rfl⟩)
    (.inl fun b hopen => hopen) hw ?_
  intro x w haway
  cases x with
  | ok _ => exact hQ _ _ haway
  | error e => exact lastRollback_wp haway hQ

theorem cleanUpReleaseBlocker_wp {Q : Except Exn Unit → State → Prop} {w : State} (hw : Behind i m false w)
    (hconfirmed : w.2.annals.confirmed = true) (hQ : ∀ x w, Away i w → Q x w) :
    (cleanUpReleaseBlocker m).wp (among K i) Q w := by
  simp only [cleanUpReleaseBlocker, resolveMihomoBlocker, wp_tryCatch]
  refine changeBlocker_wp (fun _ _ => rfl) (fun _ => rfl) ?_ (.inr ⟨rfl, hconfirmed⟩) hw ?_
  · rintro b hclean ⟨-, hkind | hcode⟩
    · cases hkind
    · rw [hclean rfl] at hcode
      cases hcode
  intro x w haway
  cases x with
  | ok _ => exact hQ _ _ haway
  | error e =>
    rw [catchPost_error, wp_bind]
    refine lastRollback_wp haway ?_
    intro x w haway
    cases x with
    | ok _ =>
      rw [bindPost_ok, wp_raise]
      exact hQ _ _ haway
    | error e => exact hQ _ _ haway

end Exit

end Lingsway.Mihomo
