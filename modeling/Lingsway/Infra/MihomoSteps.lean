import Lingsway.Infra.MihomoContract

/-!
# The steps of a Mihomo worker

Most calls leave the shared state alone. Under the lock a commit changes jobs and
raises blockers of its own worker; behind the lock it only touches the blocker
of its own release.
-/
namespace Lingsway.Mihomo

open Library

/-- What does not change under `i`, who holds the lock. -/
structure Same (i : ℕ) (s t : World) : Prop where
  lock : t.lock = s.lock
  jobs : t.store.jobs = s.store.jobs
  uncertain : t.uncertain = s.uncertain
  late : NoNewLate s t
  unresolved : ∀ kind source b, blockerAt t kind source = some b → b.unresolved = true →
    ∃ b', blockerAt s kind source = some b' ∧ b'.unresolved = true
  own : ∀ kind source b, blockerAt s kind source = some b → b.unresolved = true → b.holder = some i →
    blockerAt t kind source = some b
  rows : ∀ kind source, (blockerAt s kind source).isSome = true → (blockerAt t kind source).isSome = true
  lasting : ∀ kind source b, blockerAt s kind source = some b → b.lasting kind →
    ∃ b', blockerAt t kind source = some b' ∧ b'.lasting kind

theorem same_of_guarantee {i j : ℕ} {s t : World} (hj : j ≠ i) (hlock : s.lock = some i)
    (h : Guarantee j s t) : Same i s t := by
  have hother : s.lock ≠ some j := by
    rw [hlock]
    simpa using hj.symm
  refine ⟨?_, (h.jobs hother).1, (h.jobs hother).2, h.late hother, h.quiet hother, ?_, h.rows,
    h.lasting⟩
  · obtain hsame | ⟨hnone, -⟩ | ⟨howner, -⟩ := h.lock
    · exact hsame
    · rw [hlock] at hnone
      cases hnone
    · exact absurd howner hother
  · intro kind source b hb hunresolved hholder
    refine h.others kind source b hb hunresolved ?_
    rw [hholder]
    simpa using hj.symm

/-- A predicate of a holder of the lock that `Same` preserves is stable. -/
theorem stable_of_same {K : Conduct calls Exn World Worker} {i : ℕ} {P : State → Prop}
    (hlock : ∀ w, P w → w.1.lock = some i) (h : ∀ s t l, Same i s t → P (s, l) → P (t, l)) :
    (contract K).Stable i P := by
  intro j s t l hj hguarantee _ hP
  exact h s t l (same_of_guarantee hj (hlock _ hP) hguarantee) hP

namespace Same

variable {i : ℕ} {s t : World}

theorem job (h : Same i s t) (id : ℕ) : jobAt t id = jobAt s id := by
  rw [jobAt, jobAt, h.jobs]

theorem stopped (h : Same i s t) (hs : Stopped s) : Stopped t := by
  obtain ⟨kind, source, b, hb, hlasting⟩ := hs
  obtain ⟨b', hb', hlasting'⟩ := h.lasting kind source b hb hlasting
  exact ⟨kind, source, b', hb', hlasting'⟩

theorem closedAt (h : Same i s t) {id : ℕ} (hs : ClosedAt s id) : ClosedAt t id := by
  obtain ⟨job, hjob, hclosed⟩ := hs
  exact ⟨job, by rw [h.job, hjob], hclosed⟩

theorem recorded (h : Same i s t) (hs : Recorded s) : Recorded t := by
  intro j hj
  rw [h.uncertain] at hj
  exact (hs j hj).imp h.closedAt h.stopped

theorem recordedBut (h : Same i s t) {id : ℕ} (hs : RecordedBut s id) : RecordedBut t id := by
  intro j hj hne
  rw [h.uncertain] at hj
  exact (hs j hj hne).imp h.closedAt h.stopped

theorem refl (i : ℕ) (s : World) : Same i s s :=
  ⟨rfl, rfl, rfl, fun _ h _ _ => h, fun _ _ b h h' => ⟨b, h, h'⟩, fun _ _ _ h _ _ => h, fun _ _ h => h,
    fun _ _ b h h' => ⟨b, h, h'⟩⟩

theorem trans {u : World} (h : Same i s t) (h' : Same i t u) : Same i s u := by
  refine ⟨h'.lock.trans h.lock, h'.jobs.trans h.jobs, h'.uncertain.trans h.uncertain,
    fun c hc id htouches => h.late c (h'.late c hc id htouches) id htouches, ?_, ?_, fun kind source hs => h'.rows kind source (h.rows kind source hs),
    ?_⟩
  · intro kind source b hb hunresolved
    obtain ⟨b', hb', hunresolved'⟩ := h'.unresolved kind source b hb hunresolved
    exact h.unresolved kind source b' hb' hunresolved'
  · intro kind source b hb hunresolved hholder
    exact h'.own kind source b (h.own kind source b hb hunresolved hholder) hunresolved hholder
  · intro kind source b hb hlasting
    obtain ⟨b', hb', hlasting'⟩ := h.lasting kind source b hb hlasting
    exact h'.lasting kind source b' hb' hlasting'

theorem unblocked (h : Same i s t) {id : ℕ} (hs : Unblocked s id) : Unblocked t id := by
  constructor
  · rintro ⟨kind, source, b, hb, hunresolved⟩
    obtain ⟨b', hb', hunresolved'⟩ := h.unresolved kind source b hb hunresolved
    exact hs.1 ⟨kind, source, b', hb', hunresolved'⟩
  · intro older job holder hjob
    rw [h.job] at hjob
    exact hs.2 older job holder hjob

end Same

/-- Every unresolved blocker was written by `i`. -/
def Mine (i : ℕ) (w : World) : Prop :=
  ∀ kind source b, blockerAt w kind source = some b → b.unresolved = true → b.holder = some i

theorem Same.mine {i : ℕ} {s t : World} (h : Same i s t) (hs : Mine i s) : Mine i t := by
  intro kind source b hb hunresolved
  obtain ⟨b', hb', hunresolved'⟩ := h.unresolved kind source b hb hunresolved
  have hholder := hs kind source b' hb' hunresolved'
  have hsame := h.own kind source b' hb' hunresolved' hholder
  rw [hb] at hsame
  cases hsame
  exact hholder

theorem mine_of_unblocked {i id : ℕ} {w : World} (h : Unblocked w id) : Mine i w := by
  intro kind source b hb hunresolved
  exact absurd ⟨kind, source, b, hb, hunresolved⟩ h.1

theorem stopped_blocked {w : World} (h : Stopped w) : Blocked w := by
  obtain ⟨kind, source, b, hb, hlasting⟩ := h
  exact ⟨kind, source, b, hb, hlasting.1⟩

theorem unresolvedBlockers_iff (w : World) : w.store.unresolvedBlockers = true ↔ Blocked w := by
  have hfind : ∀ kind, ((w.store.blockers kind).find Blocker.unresolved).isSome = true ↔
      ∃ source b, blockerAt w kind source = some b ∧ b.unresolved = true := by
    intro kind
    constructor
    · intro h
      obtain ⟨e, he⟩ := Option.isSome_iff_exists.mp h
      obtain ⟨hget, hunresolved⟩ := Table.find_some he
      exact ⟨e.id, e.row, hget, hunresolved⟩
    · rintro ⟨source, b, hb, hunresolved⟩
      obtain ⟨e, he⟩ := Table.find_isSome hb hunresolved
      rw [he]
      rfl
  simp only [Store.unresolvedBlockers, Bool.or_eq_true, hfind]
  constructor
  · rintro (⟨source, b, h⟩ | ⟨source, b, h⟩)
    · exact ⟨_, source, b, h⟩
    · exact ⟨_, source, b, h⟩
  · rintro ⟨kind, source, b, h⟩
    cases kind with
    | finalization => exact .inl ⟨source, b, h⟩
    | lockRelease => exact .inr ⟨source, b, h⟩

theorem unresolvedOlder_iff (w : World) (id : ℕ) :
    w.store.unresolvedOlder id = false ↔ ∀ older job, older < id → jobAt w older = some job → job.status = .succeeded := by
  simp only [Store.unresolvedOlder, List.any_eq_false, Bool.and_eq_true, decide_eq_true_eq, not_and]
  constructor
  · intro h older job holder hjob
    by_contra hne
    exact h ⟨older, job⟩ (Table.mem_entities.mpr hjob) (by simpa using hne) holder
  · intro h e he hne holder
    exact absurd (h e.id e.row holder (Table.mem_entities.mp he)) (by simpa using hne)

section Still

variable {K : Conduct calls Exn World Worker} {i : ℕ} {c : Call} {s t : World} {l l' : Worker}
variable {x : Except Exn c.Answer}

/-- At most late commits are gone. -/
structure Still (s t : World) : Prop where
  store : t.store = s.store
  lock : t.lock = s.lock
  uncertain : t.uncertain = s.uncertain
  late : NoNewLate s t

theorem noNewLate_refl (s : World) : NoNewLate s s := fun _ h _ _ => h

theorem NoNewLate.lateJob {s t : World} (h : NoNewLate s t) {id : ℕ} (hlate : lateJob t id) : lateJob s id := by
  obtain ⟨c, hc, htouches⟩ := hlate
  exact ⟨c, h c hc id htouches, htouches⟩

theorem Still.refl (s : World) : Still s s := ⟨rfl, rfl, rfl, noNewLate_refl s⟩

theorem still_settle (s : World) (keys : RowKey → Bool) : Still s (s.settle keys) := by
  refine ⟨rfl, rfl, rfl, ?_⟩
  intro c hc _ _
  exact (List.mem_filter.mp hc).1

theorem Still.blocker (h : Still s t) (kind : BlockerKind) (source : ℕ) :
    blockerAt t kind source = blockerAt s kind source := by
  rw [blockerAt, blockerAt, h.store]

theorem Still.job (h : Still s t) (id : ℕ) : jobAt t id = jobAt s id := by
  rw [jobAt, jobAt, h.store]

theorem Still.guarantee (h : Still s t) (i : ℕ) : Guarantee i s t := by
  refine ⟨?_, ?_, .inl h.lock, fun _ => ⟨by rw [h.store], h.uncertain⟩, fun _ => h.late, ?_, ?_⟩
  · intro kind source b hb _ _
    rw [h.blocker, hb]
  · intro _ kind source b hb hunresolved
    exact ⟨b, by rw [← h.blocker, hb], hunresolved⟩
  · intro kind source hs
    rw [h.blocker, hs]
  · intro kind source b hb hlasting
    exact ⟨b, by rw [h.blocker, hb], hlasting⟩

/-- What another process could have left all the same. -/
theorem Still.same (h : Still s t) (i : ℕ) : Same i s t := by
  have hguarantee := h.guarantee i
  refine ⟨h.lock, by rw [h.store], h.uncertain, h.late, ?_, ?_, hguarantee.rows, hguarantee.lasting⟩
  · intro kind source b hb hunresolved
    exact ⟨b, by rw [← h.blocker, hb], hunresolved⟩
  · intro kind source b hb _ _
    rw [h.blocker, hb]

theorem Still.invariant (h : Still s t) (hs : Invariant K s) : Invariant K t := by
  constructor
  · intro id b hb
    rw [h.blocker] at hb
    obtain ⟨job, hjob, hpayload⟩ := hs.payloads id b hb
    exact ⟨job, by rw [h.job, hjob], hpayload⟩
  · intro horderly hlock
    rw [h.lock] at hlock
    exact (h.same 0).recorded (hs.recorded horderly hlock)

theorem Still.resolvesOwn (h : Still s t) : ResolvesOwn i (s, l) (t, l') := by
  intro id b b' hb hunresolved hb' hresolved
  have hsame : blockerAt t .lockRelease id = some b := by rw [h.blocker, hb]
  rw [hsame] at hb'
  cases hb'
  rw [hunresolved] at hresolved
  cases hresolved

theorem Still.absorbing (h : Still s t) : Absorbing s t := by
  intro id job hjob hdurable
  exact ⟨job, by rw [h.job, hjob], hdurable.1, rfl⟩

theorem fine_still (h : Still s t) (hinvariant : Invariant K s) (hkept : Kept i (t, l'))
    (hallowed : Allowed K i c (s, l)) (hanswered : Answered K c (s, l) x) :
    (contract K).Fine i c (s, l) x (t, l') where
  guarantee := h.guarantee i
  invariant := h.invariant hinvariant
  kept := hkept
  safe := ⟨hallowed, hanswered, h.resolvesOwn, fun _ => h.absorbing⟩

end Still

/-- The writes are in the store. -/
structure Landed (s : World) (writes : List Write) (t : World) : Prop where
  store : t.store = s.store.applyAll writes
  lock : t.lock = s.lock
  uncertain : t.uncertain = s.uncertain
  late : ∀ c ∈ t.late, c ∈ s.late ∨ c = ⟨s.store, writes⟩

section Commits

variable {K : Conduct calls Exn World Worker} {i : ℕ} {c : Call} {s t : World} {l l' : Worker}
variable {x : Except Exn c.Answer} {writes : List Write}

theorem landed_land (s : World) (writes : List Write) : Landed s writes (s.land writes) := by
  refine ⟨rfl, rfl, rfl, ?_⟩
  intro c hc
  exact .inl (List.mem_filter.mp hc).1

theorem landed_landLate (s : World) (writes : List Write) : Landed s writes (s.landLate writes) := by
  refine ⟨rfl, rfl, rfl, ?_⟩
  intro c hc
  obtain rfl | hc := List.mem_cons.mp hc
  · exact .inr rfl
  · exact .inl (List.mem_filter.mp hc).1

/-- A commit that returns has waited for the late commits of its rows. -/
theorem not_late_land {id : ℕ} {write : Write} (hwrite : write ∈ writes) (hkey : write.key = .job id) :
    ¬ lateJob (s.land writes) id := by
  rintro ⟨c, hc, htouches⟩
  obtain ⟨-, hfree⟩ := List.mem_filter.mp hc
  obtain ⟨change, hchange, hsame⟩ := List.any_eq_true.mp htouches
  have hmeets : (c.writes.any fun write' => writes.any fun w => w.key = write'.key) = true := by
    refine List.any_eq_true.mpr ⟨change, hchange, ?_⟩
    refine List.any_eq_true.mpr ⟨write, hwrite, ?_⟩
    have hkey' : change.key = .job id := by simpa using hsame
    simp [hkey, hkey']
  rw [hmeets] at hfree
  cases hfree

theorem commit_cases (site : Site) {choice : CommitChoice} {y : Except Exn Unit}
    (h : commit site choice (s, l) = (y, t, l')) :
    y = .ok () ∧ t = s.land l.session.writes ∧ l' = l.landed site true ∨
      (∃ exc, y = .error exc) ∧ Landed s l.session.writes t ∧ l' = l.landed site false ∨
      (∃ exc, y = .error exc) ∧ t = s ∧ l' = l.setWrites [] := by
  cases choice with
  | lands =>
    cases h
    exact .inl ⟨rfl, rfl, rfl⟩
  | lost late exc =>
    right; left
    cases late with
    | true =>
      cases h
      exact ⟨⟨exc, rfl⟩, landed_landLate _ _, rfl⟩
    | false =>
      cases h
      exact ⟨⟨exc, rfl⟩, landed_land _ _, rfl⟩
  | fails exc =>
    cases h
    exact .inr (.inr ⟨⟨exc, rfl⟩, rfl, rfl⟩)

/-- Every blocker that is not the same is now an unresolved one of `i`, and was no other's. -/
def Raises (i : ℕ) (s t : World) : Prop :=
  ∀ kind source, blockerAt t kind source = blockerAt s kind source ∨
    ∃ b, blockerAt t kind source = some b ∧ b.unresolved = true ∧ b.holder = some i ∧
      ∀ old, blockerAt s kind source = some old →
        (old.unresolved = true → old.holder = some i) ∧ (old.lasting kind → b.lasting kind)

/-- The payload of every job names the operation it named. -/
def KeepsNames (s t : World) : Prop :=
  ∀ id job, jobAt s id = some job →
    ∃ job', jobAt t id = some job' ∧ metadataOf id job'.payload = metadataOf id job.payload

namespace Raises

theorem lasting (h : Raises i s t) {kind : BlockerKind} {source : ℕ} {b : Blocker}
    (hb : blockerAt s kind source = some b) (hlasting : b.lasting kind) :
    ∃ b', blockerAt t kind source = some b' ∧ b'.lasting kind := by
  obtain hsame | ⟨b', hb', -, -, hold⟩ := h kind source
  · exact ⟨b, by rw [hsame, hb], hlasting⟩
  · exact ⟨b', hb', (hold b hb).2 hlasting⟩

theorem stopped (h : Raises i s t) (hs : Stopped s) : Stopped t := by
  obtain ⟨kind, source, b, hb, hlasting⟩ := hs
  obtain ⟨b', hb', hlasting'⟩ := h.lasting hb hlasting
  exact ⟨kind, source, b', hb', hlasting'⟩

theorem mine (h : Raises i s t) (hs : Mine i s) : Mine i t := by
  intro kind source b hb hunresolved
  obtain hsame | ⟨b', hb', -, hholder, -⟩ := h kind source
  · rw [hsame] at hb
    exact hs kind source b hb hunresolved
  · rw [hb] at hb'
    cases hb'
    exact hholder

theorem guarantee (h : Raises i s t) (hheld : s.lock = some i) (hlock : t.lock = s.lock) :
    Guarantee i s t := by
  refine ⟨?_, fun hn => absurd hheld hn, .inl hlock, fun hn => absurd hheld hn, fun hn => absurd hheld hn,
    ?_, fun kind source b hb hlasting => h.lasting hb hlasting⟩
  · intro kind source b hb hunresolved hholder
    obtain hsame | ⟨b', -, -, -, hold⟩ := h kind source
    · rw [hsame, hb]
    · exact absurd ((hold b hb).1 hunresolved) hholder
  · intro kind source hs
    obtain hsame | ⟨b', hb', -⟩ := h kind source
    · rw [hsame, hs]
    · rw [hb']
      rfl

theorem resolvesOwn (h : Raises i s t) : ResolvesOwn i (s, l) (t, l') := by
  intro id b b' hb hunresolved hb' hresolved
  obtain hsame | ⟨raised, hraised, hunresolved', -⟩ := h .lockRelease id
  · rw [hsame, hb] at hb'
    cases hb'
    rw [hunresolved] at hresolved
    cases hresolved
  · rw [hraised] at hb'
    cases hb'
    rw [hunresolved'] at hresolved
    cases hresolved

end Raises

theorem raises_of_same (h : ∀ kind source, blockerAt t kind source = blockerAt s kind source) : Raises i s t :=
  fun kind source => .inl (h kind source)

/-- A step under the lock that changes jobs and raises blockers. -/
theorem fine_raise (hheld : s.lock = some i) (hlock : t.lock = s.lock) (hraises : Raises i s t)
    (hpayloads : Payloads t) (hkept : Kept i (t, l')) (hallowed : Allowed K i c (s, l))
    (hanswered : Answered K c (s, l) x) (habsorbing : Within K settled → Absorbing s t) :
    (contract K).Fine i c (s, l) x (t, l') where
  guarantee := hraises.guarantee hheld hlock
  invariant := by
    refine ⟨hpayloads, ?_⟩
    intro _ hnone
    rw [hlock, hheld] at hnone
    cases hnone
  kept := hkept
  safe := ⟨hallowed, hanswered, hraises.resolvesOwn, habsorbing⟩

/-- Payloads stay in order when the jobs keep their names and new blockers name theirs. -/
theorem payloads_of_names (hs : Payloads s) (hnames : KeepsNames s t)
    (hblockers : ∀ id b, blockerAt t .lockRelease id = some b →
      (∃ old, blockerAt s .lockRelease id = some old ∧ b.payload = old.payload) ∨
      ∃ job, jobAt t id = some job ∧ b.payload = some (releasePayload (metadataOf id job.payload))) :
    Payloads t := by
  intro id b hb
  obtain ⟨old, hold, hpayload⟩ | hnew := hblockers id b hb
  · obtain ⟨job, hjob, hnamed⟩ := hs id old hold
    obtain ⟨job', hjob', hsame⟩ := hnames id job hjob
    exact ⟨job', hjob', by rw [hpayload, hnamed, hsame]⟩
  · exact hnew

/-- Behind the lock the blocker of the own release is all that changes. -/
structure Touches (i id : ℕ) (s t : World) : Prop where
  jobs : t.store.jobs = s.store.jobs
  lock : t.lock = s.lock
  uncertain : t.uncertain = s.uncertain
  late : NoNewLate s t
  elsewhere : ∀ kind source, ¬ (kind = .lockRelease ∧ source = id) →
    blockerAt t kind source = blockerAt s kind source
  here : ∃ b b', blockerAt s .lockRelease id = some b ∧ blockerAt t .lockRelease id = some b' ∧
    b.unresolved = true ∧ b.holder = some i ∧ b'.payload = b.payload ∧
    (b.lasting .lockRelease → b'.lasting .lockRelease)

namespace Touches

variable {id : ℕ}

theorem lasting (h : Touches i id s t) {kind : BlockerKind} {source : ℕ} {b : Blocker}
    (hb : blockerAt s kind source = some b) (hlasting : b.lasting kind) :
    ∃ b', blockerAt t kind source = some b' ∧ b'.lasting kind := by
  by_cases hkey : kind = .lockRelease ∧ source = id
  · obtain ⟨rfl, rfl⟩ := hkey
    obtain ⟨b₀, b', hb₀, hb', -, -, -, hkeeps⟩ := h.here
    rw [hb] at hb₀
    cases hb₀
    exact ⟨b', hb', hkeeps hlasting⟩
  · exact ⟨b, by rw [h.elsewhere kind source hkey, hb], hlasting⟩

theorem job (h : Touches i id s t) (j : ℕ) : jobAt t j = jobAt s j := by
  rw [jobAt, jobAt, h.jobs]

theorem guarantee (h : Touches i id s t) : Guarantee i s t := by
  obtain ⟨b₀, b', hb₀, hb', hunresolved₀, hholder₀, -, -⟩ := h.here
  refine ⟨?_, ?_, .inl h.lock, fun _ => ⟨h.jobs, h.uncertain⟩, fun _ => h.late, ?_,
    fun kind source b hb hlasting => h.lasting hb hlasting⟩
  · intro kind source b hb _ hholder
    have hkey : ¬ (kind = .lockRelease ∧ source = id) := by
      rintro ⟨rfl, rfl⟩
      rw [hb₀] at hb
      cases hb
      exact hholder hholder₀
    rw [h.elsewhere kind source hkey, hb]
  · intro _ kind source b hb hunresolved
    by_cases hkey : kind = .lockRelease ∧ source = id
    · obtain ⟨rfl, rfl⟩ := hkey
      exact ⟨b₀, hb₀, hunresolved₀⟩
    · exact ⟨b, by rw [← h.elsewhere kind source hkey, hb], hunresolved⟩
  · intro kind source hs
    by_cases hkey : kind = .lockRelease ∧ source = id
    · obtain ⟨rfl, rfl⟩ := hkey
      rw [hb']
      rfl
    · rw [h.elsewhere kind source hkey, hs]

theorem invariant (h : Touches i id s t) (hs : Invariant K s) : Invariant K t := by
  obtain ⟨b₀, b', hb₀, hb', -, -, hpayload, -⟩ := h.here
  constructor
  · intro j b hb
    by_cases hj : j = id
    · subst hj
      rw [hb'] at hb
      cases hb
      obtain ⟨job, hjob, hnamed⟩ := hs.payloads j b₀ hb₀
      exact ⟨job, by rw [h.job, hjob], by rw [hpayload, hnamed]⟩
    · rw [h.elsewhere _ _ fun hkey => hj hkey.2] at hb
      obtain ⟨job, hjob, hnamed⟩ := hs.payloads j b hb
      exact ⟨job, by rw [h.job, hjob], hnamed⟩
  · intro horderly hlock j hj
    rw [h.lock] at hlock
    rw [h.uncertain] at hj
    obtain ⟨job, hjob, hclosed⟩ | ⟨kind, source, b, hb, hlasting⟩ := hs.recorded horderly hlock j hj
    · exact .inl ⟨job, by rw [h.job, hjob], hclosed⟩
    · obtain ⟨b'', hb'', hlasting'⟩ := h.lasting hb hlasting
      exact .inr ⟨kind, source, b'', hb'', hlasting'⟩

theorem absorbing (h : Touches i id s t) : Absorbing s t := by
  intro j job hjob hdurable
  exact ⟨job, by rw [h.job, hjob], hdurable.1, rfl⟩

end Touches

end Commits

end Lingsway.Mihomo
