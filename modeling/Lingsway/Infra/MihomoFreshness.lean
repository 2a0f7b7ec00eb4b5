import Lingsway.Infra.CredentialDrift
import Lingsway.Infra.MihomoPreparation
import Lingsway.Infra.MihomoReconciliation

/-!
# Freshness of the applied snapshot

A job names a generation, whose row holds the fingerprint of the rows as they
were prepared. What the job applies is loaded from the rows as they are then.
-/
namespace Lingsway.Freshness

open Library Forwarder Preparation Routing

/-- The business rows, with the receipts and the cached documents as they are found. -/
structure Rows where
  view : Database
  tables : ForwarderTables
  materialize : Entity TransportProviderRecord → Except Exn (TransportMaterialization × TransportMaterializationReference)
  externalController : String

def Rows.loadCurrent (rows : Rows) : Except Exn Forwarder.DesiredForwarderState :=
  Routing.loadCurrent rows.view rows.tables rows.materialize rows.externalController

section Reconcile

variable (hex : Digest → String)

/-- `snapshot_identity`. -/
def snapshotIdentity (g : Generation) : String :=
  "mihomo:" ++ g.manifestVersion ++ ":" ++ toString g.revision ++ ":" ++ hex g.desiredFingerprint

theorem snapshotIdentity_nonblank (g : Generation) : Text.strip (snapshotIdentity hex g) ≠ "" := by
  intro hblank
  have hm : 'm' ∈ (snapshotIdentity hex g).toList := by
    simp [snapshotIdentity]
  have hspace := Text.strip_eq_empty_iff.mp hblank 'm' hm
  revert hspace
  decide

/-- The desired state under the revision and the identity of a generation. -/
def replace (desired : Forwarder.DesiredForwarderState) (g : Generation) : Except Exn Forwarder.DesiredForwarderState :=
  if h : 0 < g.revision then .ok { desired with
    snapshotRevision := g.revision
    snapshotIdentity := snapshotIdentity hex g
    revision_pos := Int.natCast_pos.mpr h
    identity_nonblank := snapshotIdentity_nonblank hex g }
  else .error ⟨.valueError, "MIHOMO_GENERATION_REVISION_INVALID"⟩

def generationOf (s : Store) (revision : ℤ) : Option Generation :=
  s.generations.find? fun g => (g.revision : ℤ) = revision

def payloadError : Exn := ⟨.other "MihomoPayloadError", "MIHOMO_RECONCILIATION_PAYLOAD_INVALID"⟩

def payloadOf (job : JobRow) : Except Exn Members :=
  match job.payload with
  | some (.obj payload) => .ok payload
  | _ => .error payloadError

/-- `SqlMihomoDesiredSnapshotLoader.load`. -/
def load (rows : Rows) (s : Store) (job : JobRow) : Except Exn Forwarder.DesiredForwarderState := do
  let payload ← payloadOf job
  match Mihomo.validateRevision (payload.item "snapshot_revision") with
  | none => .error payloadError
  | some revision =>
    match generationOf s revision with
    | none => loaderError "MIHOMO_GENERATION_MISSING"
    | some g => do
      let desired ← rows.loadCurrent
      replace hex desired g

/-- The revision that a job names, when its payload is valid. -/
def expectedRevision (job : JobRow) : Except Exn ℤ := do
  let payload ← payloadOf job
  match Mihomo.validateOperationId (payload.item "operation_id"),
      Mihomo.validateOperationKind (payload.item "operation_kind"),
      Mihomo.validateRevision (payload.item "snapshot_revision") with
  | some _, some _, some revision => .ok revision
  | _, _, _ => .error payloadError

/-- A call of `provider.apply`: the revision of its job, the state that was rendered, and a record
of the rows that the state was loaded from. -/
structure Application where
  revision : ℤ
  desired : Forwarder.DesiredForwarderState
  candidate : Candidate
  rows : Rows

/-- One run: its job, and what the secret stores answer. It may leave the job's row in any state. -/
structure Run where
  job : ℕ
  now : Timestamp
  controller : String → Except Exn ControllerSecretSnapshot
  egress : ℕ → String → Except Exn EgressCredentialSnapshot
  record : JobRow → JobRow

variable (x : Externals) (dump : Json → Except RuntimeExn Bytes) (parse : Bytes → Option Json)

/-- `reconcile_mihomo_job`, from the payload of its job to the call of `provider.apply`. -/
def reconcileMihomoJob (rows : Rows) (s : Store) (run : Run) (job : JobRow) : Except Exn Application := do
  let expected ← expectedRevision job
  let desired ← load hex rows s job
  if desired.snapshotRevision ≠ expected then loaderError "MIHOMO_STALE_DESIRED_SNAPSHOT"
  else do
    let template ← render x dump parse run.now desired
    let candidate ← finalize run.controller run.egress template
    .ok ⟨expected, desired, candidate, rows⟩

end Reconcile

/-- The rows, the committed generations and jobs, and the calls of `provider.apply` so far.
`origins` is a record of the rows that each generation was allocated for. -/
structure World where
  rows : Rows
  store : Store
  origins : ℕ → Option Rows
  applied : List Application

inductive Event where
  | change (rows : Rows)
  | prepare (course : Course) (operationId operationKind : String) (now : Timestamp)
  | reconcile (run : Run)

section System

variable (hex : Digest → String) (x : Externals) (dump : Json → Except RuntimeExn Bytes)
variable (parse : Bytes → Option Json)

/-- A generation that is new has the rows as its origin. -/
def recordOrigin (s t : Store) (rows : Rows) (origins : ℕ → Option Rows) (revision : ℕ) : Option Rows :=
  if t.generations ≠ s.generations ∧ t.generations.head?.map Generation.revision = some revision then some rows
  else origins revision

def prepared (w : World) (course : Course) (operationId operationKind : String) (now : Timestamp) : Store :=
  (prepareMihomoReconciliation x course w.store ⟨w.rows.loadCurrent, operationId, operationKind, now⟩).1

def recorded (s : Store) (run : Run) : Store :=
  { s with jobs := s.jobs.map fun job => if job.id = run.job then run.record job else job }

def step (w : World) : Event → World
  | .change rows => { w with rows := rows }
  | .prepare course operationId operationKind now =>
    let t := prepared x w course operationId operationKind now
    { w with store := t, origins := recordOrigin w.store t w.rows w.origins }
  | .reconcile run =>
    match w.store.jobs.find? fun job => job.id = run.job with
    | none => w
    | some job => { w with
        store := recorded w.store run
        applied := match reconcileMihomoJob hex x dump parse w.rows w.store run job with
          | .ok application => application :: w.applied
          | .error _ => w.applied }

def runs (w : World) (events : List Event) : World := events.foldl (step hex x dump parse) w

/-- Nothing has been prepared or applied. -/
def Starts (w : World) : Prop := w.store.generations = [] ∧ w.applied = []

end System

section Runs

variable {hex : Digest → String} {x : Externals} {dump : Json → Except RuntimeExn Bytes} {parse : Bytes → Option Json}

/-- The generation of the job has the fingerprint of the state that was rendered. -/
def Matches (x : Externals) (s : Store) (a : Application) : Prop :=
  ∃ g ∈ s.generations, (g.revision : ℤ) = a.revision ∧
    g.desiredFingerprint = manifestFingerprint (buildProjectionSourceManifest x a.desired)

instance (x : Externals) (s : Store) (a : Application) : Decidable (Matches x s a) :=
  inferInstanceAs (Decidable (∃ g ∈ s.generations, _ ∧ _))

/-- Both rows are loaded, to states whose manifests are one JSON value. -/
def SameManifest (x : Externals) (rows rows' : Rows) : Prop :=
  ∃ d d', rows.loadCurrent = .ok d ∧ rows'.loadCurrent = .ok d' ∧
    (Json.obj (buildProjectionSourceManifest x d)).canonical = (Json.obj (buildProjectionSourceManifest x d')).canonical

/-- The rows that were loaded show nothing new since the generation was allocated. -/
def Unchanged (x : Externals) (origins : ℕ → Option Rows) (a : Application) : Prop :=
  ∃ rows, origins a.revision.toNat = some rows ∧ SameManifest x rows a.rows

theorem fingerprint_iff {m n : Members} :
    manifestFingerprint m = manifestFingerprint n ↔ (Json.obj m).canonical = (Json.obj n).canonical := by
  constructor
  · intro h
    exact Digest.of.inj h
  · intro h
    exact congrArg Digest.of h

/-- The generation is of what the rows were when it was allocated. -/
def Originated (x : Externals) (origins : ℕ → Option Rows) (g : Generation) : Prop :=
  ∃ rows d, origins g.revision = some rows ∧ rows.loadCurrent = .ok d ∧
    g.desiredFingerprint = manifestFingerprint (buildProjectionSourceManifest x d)

/-- The state that was rendered is the one of the rows, under a generation's name. -/
def Loaded (x : Externals) (s : Store) (a : Application) : Prop :=
  ∃ g ∈ s.generations, (g.revision : ℤ) = a.revision ∧ ∃ d, a.rows.loadCurrent = .ok d ∧
    buildProjectionSourceManifest x a.desired = buildProjectionSourceManifest x d

structure Invariant (x : Externals) (w : World) : Prop where
  increasing : w.store.generations.Pairwise fun later earlier => earlier.revision < later.revision
  originated : ∀ g ∈ w.store.generations, Originated x w.origins g
  loaded : ∀ a ∈ w.applied, Loaded x w.store a

/-- Generations of one revision are one. -/
theorem unique_revision {s : Store} {g g' : Generation}
    (h : s.generations.Pairwise fun later earlier => earlier.revision < later.revision) (hg : g ∈ s.generations)
    (hg' : g' ∈ s.generations) (hrevision : g.revision = g'.revision) : g = g' := by
  have hnodup : (s.generations.map Generation.revision).Nodup := List.pairwise_map.mpr (h.imp fun hlt => hlt.ne')
  exact List.inj_on_of_nodup_map hnodup hg hg' hrevision

theorem matches_iff {w : World} {a : Application} (h : Invariant x w) (ha : a ∈ w.applied) :
    Matches x w.store a ↔ Unchanged x w.origins a := by
  obtain ⟨g, hg, hrevision, d, hload, hmanifest⟩ := h.loaded a ha
  obtain ⟨rows, origin, horigin, horiginLoad, hfingerprint⟩ := h.originated g hg
  have hname : w.origins a.revision.toNat = some rows := by rw [← hrevision, Int.toNat_natCast, horigin]
  constructor
  · rintro ⟨g', hg', hrevision', hmatch⟩
    have hsame : g = g' := unique_revision h.increasing hg hg' (by omega)
    subst hsame
    rw [hfingerprint, hmanifest] at hmatch
    exact ⟨rows, hname, origin, d, horiginLoad, hload, fingerprint_iff.mp hmatch⟩
  · rintro ⟨rows', hname', origin', d', hload', hload'', hsame⟩
    rw [hname] at hname'
    cases hname'
    rw [horiginLoad] at hload'
    cases hload'
    rw [hload] at hload''
    cases hload''
    refine ⟨g, hg, hrevision, ?_⟩
    rw [hfingerprint, hmanifest]
    exact fingerprint_iff.mpr hsame

/-- What a call of `prepare_mihomo_reconciliation` does to the generations. -/
theorem prepared_generations {w : World} {course : Course} {operationId operationKind : String} {now : Timestamp} :
    (prepared x w course operationId operationKind now).generations = w.store.generations ∨
      ∃ g d, (prepared x w course operationId operationKind now).generations = g :: w.store.generations ∧
        (∀ old ∈ w.store.generations, old.revision < g.revision) ∧ w.rows.loadCurrent = .ok d ∧
        g.IsOf (buildProjectionSourceManifest x d) := by
  unfold prepared prepareMihomoReconciliation
  cases course.lock with
  | some e => exact .inl rfl
  | none =>
    unfold transaction
    cases hdraft : drafted x course w.store ⟨w.rows.loadCurrent, operationId, operationKind, now⟩ with
    | error e => exact .inl rfl
    | ok pair =>
      obtain ⟨t, job⟩ := pair
      have hdrafted : t.generations = w.store.generations ∨ ∃ g d, t.generations = g :: w.store.generations ∧
          (∀ old ∈ w.store.generations, old.revision < g.revision) ∧ w.rows.loadCurrent = .ok d ∧
          g.IsOf (buildProjectionSourceManifest x d) := by
        obtain ⟨d, hload, hrest⟩ := Reading.bind_ok hdraft
        obtain ⟨⟨u, g⟩, hallocate, henqueue⟩ := Reading.bind_ok hrest
        have hsame : t.generations = u.generations := by
          obtain ⟨-, -, ⟨rfl, -⟩ | ⟨-, rfl, -⟩⟩ := enqueue_cases henqueue
          · rfl
          · rfl
        obtain ⟨hof, ⟨rfl, -⟩ | ⟨rfl, hlater, -⟩⟩ := allocate_cases hallocate
        · exact .inl hsame
        · exact .inr ⟨g, d, hsame, hlater, hload, hof⟩
      cases course.commit with
      | done => exact hdrafted
      | lost e => exact .inl rfl
      | late e => exact hdrafted

/-- An old generation keeps its origin, and a new one has the rows as its own. -/
theorem invariant_prepare {w : World} {course : Course} {operationId operationKind : String} {now : Timestamp}
    (h : Invariant x w) :
    Invariant x (step hex x dump parse w (.prepare course operationId operationKind now)) := by
  simp only [step]
  obtain hsame | ⟨g, d, hadded, hlater, hload, hof⟩ :=
    @prepared_generations x w course operationId operationKind now
  · have horigins : recordOrigin w.store (prepared x w course operationId operationKind now) w.rows w.origins =
        w.origins := by
      funext revision
      rw [recordOrigin, if_neg (fun hnew => hnew.1 hsame)]
    refine ⟨?_, ?_, ?_⟩
    · rw [hsame]
      exact h.increasing
    · rw [hsame, horigins]
      exact h.originated
    · intro a ha
      obtain ⟨old, hold, hrest⟩ := h.loaded a ha
      exact ⟨old, hsame ▸ hold, hrest⟩
  · have hnew : (prepared x w course operationId operationKind now).generations ≠ w.store.generations := by
      rw [hadded]
      exact List.cons_ne_self g _
    refine ⟨?_, ?_, ?_⟩
    · rw [hadded]
      exact List.pairwise_cons.mpr ⟨hlater, h.increasing⟩
    · intro old hold
      rw [hadded] at hold
      obtain rfl | hold := List.mem_cons.mp hold
      · refine ⟨w.rows, d, if_pos ⟨hnew, ?_⟩, hload, hof.2⟩
        rw [hadded]
        rfl
      · obtain ⟨rows, origin, horigin, hrest⟩ := h.originated old hold
        refine ⟨rows, origin, ?_, hrest⟩
        have hother : ¬(prepared x w course operationId operationKind now).generations.head?.map Generation.revision =
            some old.revision := by
          rw [hadded]
          have hlt := hlater old hold
          simp only [List.head?_cons, Option.map_some, Option.some.injEq]
          omega
        exact (if_neg fun hnew => hother hnew.2).trans horigin
    · intro a ha
      obtain ⟨old, hold, hrest⟩ := h.loaded a ha
      exact ⟨old, hadded ▸ List.mem_cons_of_mem _ hold, hrest⟩

theorem replace_ok {desired d : Forwarder.DesiredForwarderState} {g : Generation} (h : replace hex desired g = .ok d) :
    d.snapshotRevision = g.revision ∧
      buildProjectionSourceManifest x d = buildProjectionSourceManifest x desired := by
  unfold replace at h
  split_ifs at h
  cases h
  exact ⟨rfl, rfl⟩

/-- A call of `provider.apply` is for a generation that is there, with the state of the rows. -/
theorem loaded_of_reconcile {rows : Rows} {s : Store} {run : Run} {job : JobRow} {a : Application}
    (h : reconcileMihomoJob hex x dump parse rows s run job = .ok a) : Loaded x s a := by
  obtain ⟨expected, -, h⟩ := Reading.bind_ok h
  obtain ⟨desired, hload, h⟩ := Reading.bind_ok h
  split_ifs at h with hstale
  · cases h
  · obtain ⟨template, -, h⟩ := Reading.bind_ok h
    obtain ⟨candidate, -, h⟩ := Reading.bind_ok h
    cases h
    obtain ⟨payload, -, hload⟩ := Reading.bind_ok hload
    cases hrevision : Mihomo.validateRevision (payload.item "snapshot_revision") with
    | none =>
      rw [hrevision] at hload
      cases hload
    | some revision =>
      simp only [hrevision] at hload
      cases hgeneration : generationOf s revision with
      | none =>
        rw [hgeneration] at hload
        cases hload
      | some g =>
        simp only [hgeneration] at hload
        obtain ⟨current, hcurrent, hreplace⟩ := Reading.bind_ok hload
        obtain ⟨hnumber, hmanifest⟩ := @replace_ok hex x _ _ _ hreplace
        exact ⟨g, List.mem_of_find?_eq_some hgeneration, hnumber.symm.trans (not_not.mp hstale), current, hcurrent,
          hmanifest⟩

theorem invariant_step {w : World} (h : Invariant x w) (event : Event) :
    Invariant x (step hex x dump parse w event) := by
  cases event with
  | change rows => exact ⟨h.increasing, h.originated, h.loaded⟩
  | prepare course operationId operationKind now => exact invariant_prepare h
  | reconcile run =>
    simp only [step]
    cases w.store.jobs.find? fun job => job.id = run.job with
    | none => exact h
    | some job =>
      refine ⟨h.increasing, h.originated, fun a ha => ?_⟩
      dsimp only at ha ⊢
      cases hrun : reconcileMihomoJob hex x dump parse w.rows w.store run job with
      | error e =>
        rw [hrun] at ha
        exact h.loaded a ha
      | ok application =>
        rw [hrun] at ha
        obtain rfl | ha := List.mem_cons.mp ha
        · exact loaded_of_reconcile hrun
        · exact h.loaded a ha

theorem invariant_runs {w : World} (h : Invariant x w) (events : List Event) :
    Invariant x (runs hex x dump parse w events) := by
  induction events generalizing w with
  | nil => exact h
  | cons event events ih => exact ih (invariant_step h event)

theorem Starts.invariant {w : World} (h : Starts w) : Invariant x w := by
  obtain ⟨hgenerations, happlied⟩ := h
  refine ⟨by simp [hgenerations], by simp [hgenerations], by simp [happlied]⟩

/-- A state that is applied is the one that was prepared if and only if the rows show nothing new. -/
theorem applied_is_prepared_iff {w : World} (hs : Starts w) (events : List Event) :
    ∀ a ∈ (runs hex x dump parse w events).applied, Matches x (runs hex x dump parse w events).store a ↔
      Unchanged x (runs hex x dump parse w events).origins a :=
  fun _ ha => matches_iff (invariant_runs hs.invariant events) ha

end Runs

def sampleRows : Rows :=
  ⟨boundView "ref" none, boundTables, fun _ => loaderError "MIHOMO_MATERIALIZATION_RECEIPT_MISSING", boundController⟩

/-- A rule has come. -/
def changedRows : Rows :=
  { sampleRows with
    tables := { boundTables with trafficRules := Table.empty.insert 1 ⟨"DOMAIN", "example.com", "BLOCK", 1, true⟩ } }

def documentOf (rows : Rows) : Json :=
  match rows.loadCurrent.bind (composeMihomoDocument sampleExternals 0) with
  | .ok (document, _) => document
  | .error _ => .null

/-- YAML of the document of the rows. -/
def dumpOf (rows : Rows) (value : Json) : Except RuntimeExn Bytes :=
  if value = documentOf rows then .ok [] else .error representerError

def sampleRuns (rows : Rows) (events : List Event) : World :=
  runs (fun _ => "") sampleExternals (dumpOf rows) (fun _ => some (documentOf rows)) ⟨sampleRows, ⟨[], []⟩, fun _ => none, []⟩
    events

def samplePrepare : Event := .prepare sampleCourse "node-1:create" "CREATE" 0

def sampleReconcile : Event :=
  .reconcile ⟨1, 0, sampleController, sampleEgress, fun job => { job with status := "SUCCEEDED", attempts := 1 }⟩

theorem applied_is_prepared_sample : (sampleRuns sampleRows [samplePrepare, sampleReconcile]).applied.length = 1 ∧
    ∀ a ∈ (sampleRuns sampleRows [samplePrepare, sampleReconcile]).applied,
      Matches sampleExternals (sampleRuns sampleRows [samplePrepare, sampleReconcile]).store a ↔
        Unchanged sampleExternals (sampleRuns sampleRows [samplePrepare, sampleReconcile]).origins a :=
  ⟨by decide +kernel, applied_is_prepared_iff ⟨rfl, rfl⟩ [samplePrepare, sampleReconcile]⟩

/-- The rows change between the preparation and the run of its job. -/
theorem stale_snapshot_applied : ¬∀ (rows : Rows) (events : List Event), ∀ a ∈ (sampleRuns rows events).applied,
    Matches sampleExternals (sampleRuns rows events).store a := by
  intro h
  have hstale : ∃ a ∈ (sampleRuns changedRows [samplePrepare, .change changedRows, sampleReconcile]).applied,
      ¬Matches sampleExternals (sampleRuns changedRows [samplePrepare, .change changedRows, sampleReconcile]).store a := by
    decide +kernel
  obtain ⟨a, ha, hnot⟩ := hstale
  exact hnot (h changedRows _ a ha)

end Lingsway.Freshness
