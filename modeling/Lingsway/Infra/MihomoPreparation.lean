import Lingsway.Infra.MihomoGeneration

/-!
# Preparing reconciliations

One transaction allocates a generation for the current desired state and
enqueues a job that names it. An operation that is prepared again gets its
first job back, or it is refused.
-/
namespace Lingsway.Preparation

open Library Forwarder

structure Generation where
  revision : ℕ
  manifestVersion : String
  desiredFingerprint : Digest
  createdAt : Timestamp
  deriving Repr, DecidableEq

/-- A job, its payload being what its text is read as. -/
structure JobRow where
  id : ℕ
  jobType : String
  dedupeKey : String
  payload : Option Json
  status : String
  attempts : ℕ
  maxAttempts : ℕ
  availableAt : Timestamp
  deriving Repr, DecidableEq

/-- The committed generations and jobs, newest first. -/
structure Store where
  generations : List Generation
  jobs : List JobRow
  deriving Repr, DecidableEq

/-- How a commit ends. An exception may come after it has taken effect. -/
inductive CommitEnd where
  | done
  | lost (e : Exn)
  | late (e : Exn)
  deriving Repr, DecidableEq

/-- What the database answers in one call. An identifier may be skipped. -/
structure Course where
  lock : Option Exn
  latest : Option Exn
  generationGap : ℕ
  flushGeneration : Option Exn
  existing : Option Exn
  jobGap : ℕ
  flushJob : Option Exn
  commit : CommitEnd
  rollback : Option Exn
  release : Option Exn
  deriving Repr, DecidableEq

/-- One call, with what the loader returns in it. -/
structure Request where
  desired : Except Exn Forwarder.DesiredForwarderState
  operationId : String
  operationKind : String
  now : Timestamp

def raised {α : Type} (failure : Option Exn) (k : Except Exn α) : Except Exn α :=
  match failure with
  | some e => .error e
  | none => k

theorem raised_ok {α : Type} {failure : Option Exn} {k : Except Exn α} {a : α} (h : raised failure k = .ok a) :
    k = .ok a := by
  cases failure with
  | none => exact h
  | some e => cases h

/-- A number above all that have been given. -/
def fresh (given : List ℕ) (gap : ℕ) : ℕ := given.foldr max 0 + 1 + gap

theorem lt_fresh {given : List ℕ} {gap n : ℕ} (h : n ∈ given) : n < fresh given gap := by
  have hle : n ≤ given.foldr max 0 := by
    induction given with
    | nil => cases h
    | cons m given ih =>
      obtain rfl | h := List.mem_cons.mp h
      · exact le_max_left _ _
      · exact (ih h).trans (le_max_right _ _)
  unfold fresh
  omega

def newGeneration (c : Course) (s : Store) (manifest : Members) (now : Timestamp) : Generation :=
  ⟨fresh (s.generations.map Generation.revision) c.generationGap, manifestVersion, manifestFingerprint manifest, now⟩

/-- `allocate_generation`. -/
def allocateGeneration (c : Course) (s : Store) (manifest : Members) (now : Timestamp) :
    Except Exn (Store × Generation) :=
  let generation := newGeneration c s manifest now
  let inserted := raised c.flushGeneration (.ok ({ s with generations := generation :: s.generations }, generation))
  raised c.latest (match s.generations.head? with
    | some latest =>
      if latest.manifestVersion = manifestVersion ∧ latest.desiredFingerprint = manifestFingerprint manifest then
        .ok (s, latest)
      else inserted
    | none => inserted)

def reconcileJobType : String := "MIHOMO_RECONCILE"

def operationKinds : List String := ["FULL_PROJECTION", "RECONCILE", "CREATE", "UPDATE", "DELETE"]

def isAlphanumeric (c : Char) : Bool := ('A' ≤ c && c ≤ 'Z') || ('a' ≤ c && c ≤ 'z') || ('0' ≤ c && c ≤ '9')

/-- `_SAFE_IDENTIFIER`. -/
def safeIdentifier (s : String) : Bool :=
  match s.toList with
  | [] => false
  | first :: rest => isAlphanumeric first && rest.length ≤ 142 &&
      rest.all fun c => isAlphanumeric c || c = '.' || c = '_' || c = ':' || c = '-'

def valueError (ok : Bool) (message : String) : Except Exn Unit :=
  if ok then .ok () else .error ⟨.valueError, message⟩

def dedupeKey (operationId : String) : String := "MIHOMO_RECONCILE:" ++ operationId

def identityPayload (operationId operationKind : String) (revision : ℕ) : Members :=
  [("operation_id", .str operationId), ("operation_kind", .str operationKind), ("snapshot_revision", .int revision)]

/-- The job is the one that the operation would enqueue. -/
def identityMatches (job : JobRow) (operationId operationKind : String) (revision : ℕ) : Bool :=
  match job.payload with
  | some (.obj payload) => job.jobType = reconcileJobType && (Members.item payload "operation_id").equal (.str operationId) &&
      (Members.item payload "operation_kind").equal (.str operationKind) &&
      (Members.item payload "snapshot_revision").equal (.int revision)
  | _ => false

def newJob (id : ℕ) (operationId operationKind : String) (revision : ℕ) (now : Timestamp) : JobRow :=
  ⟨id, reconcileJobType, dedupeKey operationId, some (.obj (identityPayload operationId operationKind revision)),
    "PENDING", 0, 5, now⟩

def jobOf (s : Store) (key : String) : Option JobRow := s.jobs.find? fun job => job.dedupeKey = key

/-- The job of an operation, which is inserted if it is missing. -/
def enqueueJob (c : Course) (s : Store) (request : Request) (revision : ℕ) : Except Exn (Store × JobRow) :=
  match jobOf s (dedupeKey request.operationId) with
  | some existing =>
    if identityMatches existing request.operationId request.operationKind revision then .ok (s, existing)
    else .error ⟨.other "MihomoReconciliationError", "MIHOMO_RECONCILIATION_IDENTITY_MISMATCH"⟩
  | none =>
    let job := newJob (fresh (s.jobs.map JobRow.id) c.jobGap) request.operationId request.operationKind revision
      request.now
    raised c.flushJob (.ok ({ s with jobs := job :: s.jobs }, job))

/-- `enqueue_mihomo_reconciliation`. -/
def enqueueMihomoReconciliation (c : Course) (s : Store) (request : Request) (revision : ℕ) :
    Except Exn (Store × JobRow) := do
  valueError (request.operationId.length ≤ 143) "operation_id must be a non-empty canonical string"
  valueError (safeIdentifier request.operationId) "operation_id must use the canonical safe alphabet"
  valueError (operationKinds.contains request.operationKind) "operation_kind is not supported"
  valueError (0 < revision) "snapshot_revision must be a positive integer"
  raised c.existing (enqueueJob c s request revision)

section Prepare

variable (x : Externals)

/-- What the session has written before it commits. -/
def drafted (c : Course) (s : Store) (request : Request) : Except Exn (Store × JobRow) := do
  let desired ← request.desired
  let (s, generation) ← allocateGeneration c s (buildProjectionSourceManifest x desired) request.now
  enqueueMihomoReconciliation c s request generation.revision

/-- The transaction: it is committed or rolled back. -/
def transaction (c : Course) (s : Store) (request : Request) : Store × Except Exn JobRow :=
  match drafted x c s request with
  | .error e => (s, .error (c.rollback.getD e))
  | .ok (t, job) =>
    match c.commit with
    | .done => (t, .ok job)
    | .lost e => (s, .error (c.rollback.getD e))
    | .late e => (t, .error (c.rollback.getD e))

/-- `prepare_mihomo_reconciliation`, under the projection lock. -/
def prepareMihomoReconciliation (c : Course) (s : Store) (request : Request) : Store × Except Exn JobRow :=
  match c.lock with
  | some e => (s, .error e)
  | none =>
    let ended := transaction x c s request
    (ended.1, raised c.release ended.2)

/-- The calls of a history, in their order. -/
def prepareAll (s : Store) (calls : List (Course × Request)) : Store :=
  calls.foldl (fun s call => (prepareMihomoReconciliation x call.1 s call.2).1) s

end Prepare

/-- The generation is one of the manifest. -/
def Generation.IsOf (g : Generation) (manifest : Members) : Prop :=
  g.manifestVersion = Forwarder.manifestVersion ∧ g.desiredFingerprint = manifestFingerprint manifest

/-- The job's payload names the revision. -/
def JobRow.Names (job : JobRow) (revision : ℕ) : Prop :=
  ∃ payload, job.payload = some (.obj payload) ∧ (Members.item payload "snapshot_revision").equal (.int revision) = true

theorem newGeneration_isOf (c : Course) (s : Store) (manifest : Members) (now : Timestamp) :
    (newGeneration c s manifest now).IsOf manifest :=
  ⟨rfl, rfl⟩

theorem lt_newGeneration (c : Course) (s : Store) (manifest : Members) (now : Timestamp) :
    ∀ old ∈ s.generations, old.revision < (newGeneration c s manifest now).revision :=
  fun _ hold => lt_fresh (List.mem_map_of_mem hold)

/-- What an allocation can do: keep the latest generation or add a later one. -/
theorem allocate_cases {c : Course} {s t : Store} {manifest : Members} {now : Timestamp} {g : Generation}
    (h : allocateGeneration c s manifest now = .ok (t, g)) :
    g.IsOf manifest ∧
      ((t = s ∧ s.generations.head? = some g) ∨
        (t = { s with generations := g :: s.generations } ∧ (∀ old ∈ s.generations, old.revision < g.revision) ∧
          ∀ latest ∈ s.generations.head?, ¬latest.IsOf manifest)) := by
  have hbody := raised_ok h
  cases hhead : s.generations.head? with
  | none =>
    simp only [hhead] at hbody
    have hpair := raised_ok hbody
    simp only [Except.ok.injEq, Prod.mk.injEq] at hpair
    obtain ⟨rfl, rfl⟩ := hpair
    exact ⟨newGeneration_isOf c s manifest now, .inr ⟨rfl, lt_newGeneration c s manifest now, by simp⟩⟩
  | some latest =>
    simp only [hhead] at hbody
    by_cases hsame : latest.manifestVersion = Forwarder.manifestVersion ∧
        latest.desiredFingerprint = manifestFingerprint manifest
    · rw [if_pos hsame] at hbody
      simp only [Except.ok.injEq, Prod.mk.injEq] at hbody
      obtain ⟨rfl, rfl⟩ := hbody
      exact ⟨hsame, .inl ⟨rfl, rfl⟩⟩
    · rw [if_neg hsame] at hbody
      have hpair := raised_ok hbody
      simp only [Except.ok.injEq, Prod.mk.injEq] at hpair
      obtain ⟨rfl, rfl⟩ := hpair
      exact ⟨newGeneration_isOf c s manifest now, .inr ⟨rfl, lt_newGeneration c s manifest now,
        by simpa [Generation.IsOf] using hsame⟩⟩

theorem names_of_identity {job : JobRow} {operationId operationKind : String} {revision : ℕ}
    (h : identityMatches job operationId operationKind revision = true) : job.Names revision := by
  unfold identityMatches at h
  split at h
  · rename_i payload hpayload
    simp only [Bool.and_eq_true] at h
    exact ⟨payload, hpayload, h.2⟩
  · cases h

theorem newJob_names {id revision n : ℕ} {operationId operationKind : String} {now : Timestamp} :
    (newJob id operationId operationKind revision now).Names n ↔ n = revision := by
  have hitem : Members.item (identityPayload operationId operationKind revision) "snapshot_revision" =
      .int revision := by
    simp [Members.item, identityPayload, List.lookup]
  have hequal : (Json.int revision).equal (.int n) = true ↔ n = revision := by
    simp [Json.equal, Json.unified, Json.canonical, eq_comm]
  constructor
  · rintro ⟨payload, hpayload, hn⟩
    simp only [newJob, Option.some.injEq, Json.obj.injEq] at hpayload
    rw [← hpayload, hitem] at hn
    exact hequal.mp hn
  · intro hn
    exact ⟨_, rfl, by rw [hitem]; exact hequal.mpr hn⟩

/-- What an enqueue can do: return the operation's job, which names the revision, or add it. -/
theorem enqueue_cases {c : Course} {s t : Store} {request : Request} {revision : ℕ} {job : JobRow}
    (h : enqueueMihomoReconciliation c s request revision = .ok (t, job)) :
    job.Names revision ∧ job.dedupeKey = dedupeKey request.operationId ∧
      ((t = s ∧ jobOf s (dedupeKey request.operationId) = some job) ∨
        (jobOf s (dedupeKey request.operationId) = none ∧ t = { s with jobs := job :: s.jobs } ∧
          ∀ n, job.Names n → n = revision)) := by
  unfold enqueueMihomoReconciliation at h
  obtain ⟨-, -, h⟩ := Reading.bind_ok h
  obtain ⟨-, -, h⟩ := Reading.bind_ok h
  obtain ⟨-, -, h⟩ := Reading.bind_ok h
  obtain ⟨-, -, h⟩ := Reading.bind_ok h
  have hbody := raised_ok h
  unfold enqueueJob at hbody
  cases hfound : jobOf s (dedupeKey request.operationId) with
  | some existing =>
    simp only [hfound] at hbody
    by_cases hmatch : identityMatches existing request.operationId request.operationKind revision = true
    · rw [if_pos hmatch] at hbody
      simp only [Except.ok.injEq, Prod.mk.injEq] at hbody
      obtain ⟨rfl, rfl⟩ := hbody
      have hkey := List.find?_some hfound
      exact ⟨names_of_identity hmatch, by simpa using hkey, .inl ⟨rfl, rfl⟩⟩
    · rw [if_neg hmatch] at hbody
      cases hbody
  | none =>
    simp only [hfound] at hbody
    have hpair := raised_ok hbody
    simp only [Except.ok.injEq, Prod.mk.injEq] at hpair
    obtain ⟨rfl, rfl⟩ := hpair
    exact ⟨newJob_names.mpr rfl, rfl, .inr ⟨rfl, rfl, fun n hn => newJob_names.mp hn⟩⟩

/-- A store as the calls leave it: every generation came with a job, and no job names one that is not there. -/
structure Sound (s : Store) : Prop where
  increasing : s.generations.Pairwise fun later earlier => earlier.revision < later.revision
  accompanied : ∀ g ∈ s.generations, ∃ job ∈ s.jobs, job.Names g.revision
  present : ∀ job ∈ s.jobs, ∀ operationId, job.dedupeKey = dedupeKey operationId →
    ∀ n, job.Names n → ∃ g ∈ s.generations, g.revision = n

/-- One generation is committed, with a job that names it. -/
def Added (s t : Store) (g : Generation) (job : JobRow) : Prop :=
  t = ⟨g :: s.generations, job :: s.jobs⟩ ∧ (∀ old ∈ s.generations, old.revision < g.revision)

theorem jobOf_mem {s : Store} {key : String} {job : JobRow} (h : jobOf s key = some job) :
    job ∈ s.jobs ∧ job.dedupeKey = key := by
  have hkey := List.find?_some h
  exact ⟨List.mem_of_find?_eq_some h, by simpa using hkey⟩

section Steps

variable {x : Externals}

/-- What a call writes. Its job names the latest generation afterwards. -/
structure Wrote (s t : Store) (request : Request) (desired : Forwarder.DesiredForwarderState) (g : Generation)
    (job : JobRow) : Prop where
  latest : t.generations.head? = some g
  isOf : g.IsOf (buildProjectionSourceManifest x desired)
  named : job.Names g.revision
  only : ∀ n, jobOf s (dedupeKey request.operationId) = none → job.Names n → n = g.revision
  key : job.dedupeKey = dedupeKey request.operationId
  returned : t = s ∧ jobOf s (dedupeKey request.operationId) = some job ∨
    jobOf s (dedupeKey request.operationId) = none ∧
      (t = ⟨s.generations, job :: s.jobs⟩ ∨ Added s t g job ∧
        ∀ latest ∈ s.generations.head?, ¬latest.IsOf (buildProjectionSourceManifest x desired))

theorem drafted_cases {c : Course} {s t : Store} {request : Request} {job : JobRow} (hs : Sound s)
    (h : drafted x c s request = .ok (t, job)) :
    ∃ desired g, request.desired = .ok desired ∧ Wrote (x := x) s t request desired g job := by
  unfold drafted at h
  obtain ⟨desired, hdesired, h⟩ := Reading.bind_ok h
  obtain ⟨⟨u, g⟩, hallocate, henqueue⟩ := Reading.bind_ok h
  obtain ⟨hof, hkept⟩ := allocate_cases hallocate
  obtain ⟨hnames, hkey, hjob⟩ := enqueue_cases henqueue
  have hjobs : u.jobs = s.jobs := by
    obtain ⟨rfl, -⟩ | ⟨rfl, -⟩ := hkept
    · rfl
    · rfl
  have hsame : jobOf u (dedupeKey request.operationId) = jobOf s (dedupeKey request.operationId) := by
    simp only [jobOf, hjobs]
  rw [hsame] at hjob
  have honly : ∀ n, jobOf s (dedupeKey request.operationId) = none → job.Names n → n = g.revision := by
    intro n hnone hn
    obtain ⟨-, hfound⟩ | ⟨-, -, hone⟩ := hjob
    · rw [hnone] at hfound
      cases hfound
    · exact hone n hn
  refine ⟨desired, g, hdesired, ?_⟩
  obtain ⟨rfl, hhead⟩ | ⟨rfl, hlater, hother⟩ := hkept
  · obtain ⟨rfl, hfound⟩ | ⟨hnone, rfl, -⟩ := hjob
    · exact ⟨hhead, hof, hnames, honly, hkey, .inl ⟨rfl, hfound⟩⟩
    · exact ⟨hhead, hof, hnames, honly, hkey, .inr ⟨hnone, .inl rfl⟩⟩
  · obtain ⟨rfl, hfound⟩ | ⟨hnone, rfl, -⟩ := hjob
    · -- an earlier job cannot name a revision that is new
      obtain ⟨hmem, hk⟩ := jobOf_mem hfound
      obtain ⟨old, hold, heq⟩ := hs.present job hmem _ hk g.revision hnames
      have := hlater old hold
      omega
    · exact ⟨rfl, hof, hnames, honly, hkey, .inr ⟨hnone, .inr ⟨⟨rfl, hlater⟩, hother⟩⟩⟩

theorem Wrote.sound {s t : Store} {request : Request} {desired : Forwarder.DesiredForwarderState} {g : Generation}
    {job : JobRow} (hs : Sound s) (h : Wrote (x := x) s t request desired g job) : Sound t := by
  obtain ⟨rfl, -⟩ | ⟨hnone, rfl | ⟨⟨rfl, hlater⟩, -⟩⟩ := h.returned
  · exact hs
  · have hhead : g ∈ s.generations := List.mem_of_mem_head? h.latest
    refine ⟨hs.increasing, ?_, ?_⟩
    · intro old hold
      obtain ⟨named, hmem, hnames⟩ := hs.accompanied old hold
      exact ⟨named, List.mem_cons_of_mem _ hmem, hnames⟩
    · intro other hother operationId hkey n hn
      obtain rfl | hother := List.mem_cons.mp hother
      · exact ⟨g, hhead, (h.only n hnone hn).symm⟩
      · exact hs.present other hother operationId hkey n hn
  · refine ⟨List.pairwise_cons.mpr ⟨hlater, hs.increasing⟩, ?_, ?_⟩
    · intro old hold
      obtain rfl | hold := List.mem_cons.mp hold
      · exact ⟨job, List.mem_cons_self, h.named⟩
      · obtain ⟨named, hmem, hnames⟩ := hs.accompanied old hold
        exact ⟨named, List.mem_cons_of_mem _ hmem, hnames⟩
    · intro other hother operationId hkey n hn
      obtain rfl | hother := List.mem_cons.mp hother
      · exact ⟨g, List.mem_cons_self, (h.only n hnone hn).symm⟩
      · obtain ⟨old, hold, heq⟩ := hs.present other hother operationId hkey n hn
        exact ⟨old, List.mem_cons_of_mem _ hold, heq⟩

/-- A call leaves the store alone and raises, or it commits what it drafted. -/
theorem prepare_cases {s : Store} (c : Course) (request : Request) (hs : Sound s) :
    ((prepareMihomoReconciliation x c s request).1 = s ∧
        ∃ e, (prepareMihomoReconciliation x c s request).2 = .error e) ∨
      ∃ desired g job, request.desired = .ok desired ∧
        Wrote (x := x) s (prepareMihomoReconciliation x c s request).1 request desired g job ∧
        ∀ job', (prepareMihomoReconciliation x c s request).2 = .ok job' → job' = job := by
  unfold prepareMihomoReconciliation
  cases c.lock with
  | some e => exact .inl ⟨rfl, e, rfl⟩
  | none =>
    have herror : ∀ e : Exn, ∃ e', raised c.release (Except.error e : Except Exn JobRow) = .error e' := by
      intro e
      cases c.release with
      | none => exact ⟨e, rfl⟩
      | some e' => exact ⟨e', rfl⟩
    unfold transaction
    cases hdraft : drafted x c s request with
    | error e => exact .inl ⟨rfl, herror _⟩
    | ok pair =>
      obtain ⟨t, job⟩ := pair
      obtain ⟨desired, g, hdesired, hwrote⟩ := drafted_cases hs hdraft
      cases c.commit with
      | done =>
        refine .inr ⟨desired, g, job, hdesired, hwrote, ?_⟩
        intro job' hok
        have hjob := raised_ok hok
        simpa using hjob.symm
      | lost e => exact .inl ⟨rfl, herror _⟩
      | late e =>
        refine .inr ⟨desired, g, job, hdesired, hwrote, ?_⟩
        intro job' hok
        have hjob := raised_ok hok
        cases hjob

theorem prepare_sound {s : Store} {c : Course} {request : Request} (hs : Sound s) :
    Sound (prepareMihomoReconciliation x c s request).1 := by
  obtain ⟨hsame, -⟩ | ⟨desired, g, job, -, hwrote, -⟩ := prepare_cases (x := x) c request hs
  · rw [hsame]
    exact hs
  · exact hwrote.sound hs

theorem Wrote.suffix {s t : Store} {request : Request} {desired : Forwarder.DesiredForwarderState} {g : Generation}
    {job : JobRow} (h : Wrote (x := x) s t request desired g job) : s.generations <:+ t.generations := by
  obtain ⟨rfl, -⟩ | ⟨-, rfl | ⟨⟨rfl, -⟩, -⟩⟩ := h.returned
  · exact List.suffix_rfl
  · exact List.suffix_rfl
  · exact List.suffix_cons _ _

theorem prepare_suffix {s : Store} {c : Course} {request : Request} (hs : Sound s) :
    s.generations <:+ (prepareMihomoReconciliation x c s request).1.generations := by
  obtain ⟨hsame, -⟩ | ⟨desired, g, job, -, hwrote, -⟩ := prepare_cases (x := x) c request hs
  · rw [hsame]
  · exact hwrote.suffix

theorem jobOf_cons {s : Store} {job : JobRow} {gens : List Generation} {key : String} :
    jobOf ⟨gens, job :: s.jobs⟩ key = if job.dedupeKey = key then some job else jobOf s key := by
  by_cases hkey : job.dedupeKey = key
  · simp [jobOf, hkey]
  · simp [jobOf, hkey]

/-- The job of a key stays the job of the key. -/
theorem Wrote.keeps {s t : Store} {request : Request} {desired : Forwarder.DesiredForwarderState} {g : Generation}
    {job old : JobRow} {key : String} (h : Wrote (x := x) s t request desired g job)
    (hold : jobOf s key = some old) : jobOf t key = some old := by
  have hcons : jobOf s (dedupeKey request.operationId) = none → ∀ gens, jobOf ⟨gens, job :: s.jobs⟩ key =
      some old := by
    intro hnone gens
    have hne : job.dedupeKey ≠ key := by
      intro heq
      rw [h.key] at heq
      rw [heq, hold] at hnone
      cases hnone
    rw [jobOf_cons, if_neg hne, hold]
  obtain ⟨rfl, -⟩ | ⟨hnone, rfl | ⟨⟨rfl, -⟩, -⟩⟩ := h.returned
  · exact hold
  · exact hcons hnone _
  · exact hcons hnone _

theorem Wrote.holds {s t : Store} {request : Request} {desired : Forwarder.DesiredForwarderState} {g : Generation}
    {job : JobRow} (h : Wrote (x := x) s t request desired g job) :
    jobOf t (dedupeKey request.operationId) = some job := by
  obtain ⟨rfl, hfound⟩ | ⟨hnone, rfl | ⟨⟨rfl, -⟩, -⟩⟩ := h.returned
  · exact hfound
  · rw [jobOf_cons, if_pos h.key]
  · rw [jobOf_cons, if_pos h.key]

theorem prepare_jobOf {s : Store} {c : Course} {request : Request} {key : String} {old : JobRow} (hs : Sound s)
    (hold : jobOf s key = some old) : jobOf (prepareMihomoReconciliation x c s request).1 key = some old := by
  obtain ⟨hsame, -⟩ | ⟨desired, g, job, -, hwrote, -⟩ := prepare_cases (x := x) c request hs
  · rw [hsame]
    exact hold
  · exact hwrote.keeps hold

end Steps

section Runs

variable (x : Externals)

theorem prepareAll_append (s : Store) (first rest : List (Course × Request)) :
    prepareAll x s (first ++ rest) = prepareAll x (prepareAll x s first) rest :=
  List.foldl_append

theorem prepareAll_sound {s : Store} (calls : List (Course × Request)) (hs : Sound s) : Sound (prepareAll x s calls) := by
  induction calls generalizing s with
  | nil => exact hs
  | cons call calls ih => exact ih (prepare_sound hs)

theorem prepareAll_jobOf {s : Store} {key : String} {old : JobRow} (calls : List (Course × Request)) (hs : Sound s)
    (hold : jobOf s key = some old) : jobOf (prepareAll x s calls) key = some old := by
  induction calls generalizing s with
  | nil => exact hold
  | cons call calls ih => exact ih (prepare_sound hs) (prepare_jobOf hs hold)

/-- No reconciliation has been prepared. Other jobs may be there. -/
def Starts (s : Store) : Prop :=
  s.generations = [] ∧ ∀ job ∈ s.jobs, ∀ operationId, job.dedupeKey ≠ dedupeKey operationId

theorem Starts.sound {s : Store} (h : Starts s) : Sound s := by
  obtain ⟨hempty, hother⟩ := h
  refine ⟨by simp [hempty], by simp [hempty], ?_⟩
  intro job hjob operationId hkey
  exact absurd hkey (hother job hjob operationId)

/-- A call that returned a job: a repetition returns it again or raises, and writes nothing. -/
theorem repeated_call {s : Store} {c : Course} {request : Request} {old : JobRow} (hs : Sound s)
    (hold : jobOf s (dedupeKey request.operationId) = some old) :
    (prepareMihomoReconciliation x c s request).1 = s ∧
      ∀ job, (prepareMihomoReconciliation x c s request).2 = .ok job → job = old := by
  obtain ⟨hsame, e, herror⟩ | ⟨desired, g, job, -, hwrote, hret⟩ :=
    prepare_cases (x := x) c request hs
  · refine ⟨hsame, ?_⟩
    intro job hok
    rw [herror] at hok
    cases hok
  · obtain ⟨hsame, hfound⟩ | ⟨hnone, -⟩ := hwrote.returned
    · refine ⟨hsame, ?_⟩
      intro job' hok
      rw [hret job' hok]
      rw [hold] at hfound
      exact (Option.some.inj hfound).symm
    · rw [hold] at hnone
      cases hnone

/-- Generations are only ever added, each with its job, and an operation keeps the job that it has. -/
theorem generations_append_only (s : Store) (calls : List (Course × Request)) (c : Course) (request : Request)
    (hs : Starts s) :
    let before := prepareAll x s calls
    let after := prepareMihomoReconciliation x c before request
    (after.1.generations.Pairwise fun later earlier => earlier.revision < later.revision) ∧
    before.generations <:+ after.1.generations ∧
    (∀ g ∈ after.1.generations, ∃ job ∈ after.1.jobs, job.Names g.revision) ∧
    (after.1.generations = before.generations ∨
      ∃ g job, Added before after.1 g job ∧ job.Names g.revision) ∧
    (∀ job, after.2 = .ok job → ∃ desired g, request.desired = .ok desired ∧ job.Names g.revision ∧
      after.1.generations.head? = some g ∧ g.IsOf (buildProjectionSourceManifest x desired) ∧
      (before.generations.head? = some g ∨ (∀ old ∈ before.generations, old.revision < g.revision) ∧
        ∀ latest ∈ before.generations.head?, ¬latest.IsOf (buildProjectionSourceManifest x desired))) ∧
    (∀ old, jobOf before (dedupeKey request.operationId) = some old →
      after.1 = before ∧ ∀ job, after.2 = .ok job → job = old) ∧
    (∀ first earlier rest job, calls = first ++ earlier :: rest → earlier.2.operationId = request.operationId →
      (prepareMihomoReconciliation x earlier.1 (prepareAll x s first) earlier.2).2 = .ok job →
      jobOf before (dedupeKey request.operationId) = some job) := by
  intro before after
  have hbefore : Sound before := prepareAll_sound x calls hs.sound
  have hafter : Sound after.1 := prepare_sound hbefore
  have hcases := prepare_cases (x := x) c request hbefore
  refine ⟨hafter.increasing, prepare_suffix hbefore, hafter.accompanied, ?_, ?_, fun old => repeated_call x hbefore, ?_⟩
  · obtain ⟨hsame, -⟩ | ⟨desired, g, job, -, hwrote, -⟩ := hcases
    · exact .inl (congrArg Store.generations hsame)
    · obtain ⟨hsame, -⟩ | ⟨-, hjob | ⟨hadded, -⟩⟩ := hwrote.returned
      · exact .inl (congrArg Store.generations hsame)
      · exact .inl (by rw [show after.1 = _ from hjob])
      · exact .inr ⟨g, job, hadded, hwrote.named⟩
  · intro job hok
    obtain ⟨-, e, herror⟩ | ⟨desired, g, job', hdesired, hwrote, hret⟩ := hcases
    · have hnot : after.2 = .error e := herror
      rw [hok] at hnot
      cases hnot
    · have hjob : job = job' := hret job hok
      refine ⟨desired, g, hdesired, hjob ▸ hwrote.named, hwrote.latest, hwrote.isOf, ?_⟩
      obtain ⟨hsame, -⟩ | ⟨-, hadd | ⟨⟨-, hlater⟩, hother⟩⟩ := hwrote.returned
      · exact .inl (hsame ▸ hwrote.latest)
      · have hlatest := hwrote.latest
        rw [hadd] at hlatest
        exact .inl hlatest
      · exact .inr ⟨hlater, hother⟩
  · intro first earlier rest job hcalls hop hok
    have hfirst : Sound (prepareAll x s first) := prepareAll_sound x first hs.sound
    have hfound : jobOf (prepareMihomoReconciliation x earlier.1 (prepareAll x s first) earlier.2).1
        (dedupeKey request.operationId) = some job := by
      obtain ⟨-, e, herror⟩ | ⟨desired, g, job', -, hwrote, hret⟩ :=
        prepare_cases (x := x) earlier.1 earlier.2 hfirst
      · rw [herror] at hok
        cases hok
      · rw [hret job hok, ← hop]
        exact hwrote.holds
    have hsplit : before = prepareAll x (prepareMihomoReconciliation x earlier.1 (prepareAll x s first) earlier.2).1 rest := by
      change prepareAll x s calls = _
      rw [hcalls, prepareAll_append]
      rfl
    rw [hsplit]
    exact prepareAll_jobOf x rest (prepare_sound hfirst) hfound

end Runs

def sampleCourse : Course := ⟨none, none, 0, none, none, 0, none, .done, none, none⟩

def sampleRequest (desired : Forwarder.DesiredForwarderState) : Request := ⟨.ok desired, "node-1:create", "CREATE", 0⟩

/-- The state has lost its rules when the operation is repeated. -/
def sampleChanged : Forwarder.DesiredForwarderState := { sampleDesired with rules := [] }

theorem repeated_operation_sample :
    (jobOf (prepareAll sampleExternals ⟨[], []⟩ [(sampleCourse, sampleRequest sampleDesired)])
      (dedupeKey "node-1:create")).isSome = true ∧
    (prepareMihomoReconciliation sampleExternals sampleCourse
      (prepareAll sampleExternals ⟨[], []⟩ [(sampleCourse, sampleRequest sampleDesired)])
      (sampleRequest sampleChanged)).1 =
      prepareAll sampleExternals ⟨[], []⟩ [(sampleCourse, sampleRequest sampleDesired)] := by
  have hsome : (jobOf (prepareAll sampleExternals ⟨[], []⟩ [(sampleCourse, sampleRequest sampleDesired)])
      (dedupeKey "node-1:create")).isSome = true := by decide +kernel
  have hstarts : Starts ⟨[], []⟩ := ⟨rfl, by simp⟩
  obtain ⟨-, -, -, -, -, hrepeat, -⟩ := generations_append_only sampleExternals ⟨[], []⟩
    [(sampleCourse, sampleRequest sampleDesired)] sampleCourse (sampleRequest sampleChanged) hstarts
  obtain ⟨job, hjob⟩ := Option.isSome_iff_exists.mp hsome
  exact ⟨hsome, (hrepeat job hjob).1⟩

end Lingsway.Preparation
