import Lingsway.Providers.Gateway.XrayBaseline

/-!
# The safe reload of the Xray file

An apply makes its calls in a fixed order, and each of them may fail before or
after its effect. It succeeds with the file, the runtime and the baseline all
at the candidate, or it is rolled back, or the baseline is marked degraded.
-/
namespace Lingsway.Gateway

open Library

/-- An exception of the runtime or of the store, neither of which knows the provider's own error. -/
structure CallError where
  exc : Exn
  foreign : exc.cls ≠ .other "XrayReloadError"

/-- What the calls of one apply meet, in the order in which they are made. -/
structure ApplyFaults where
  backup : Option CallError
  load : Option CallError
  configExists : Option Exn
  guardCurrent : Option Exn
  test : Except CallError Bool
  install : Fault
  reload : Fault
  health : Except Exn Bool
  observe : Option Exn
  save : PersistFaults
  restore : Fault
  rollbackReload : Fault
  rollbackHealth : Except Exn Bool
  markDegraded : PersistFaults

/-- How an activation request ends, and whether the configuration was activated. -/
inductive Answer where
  | lost (activated : Bool)
  | response (status : ℕ) (body : Option Json) (activated : Bool)
  deriving Repr, DecidableEq

/-- What `MarzbanXrayRuntime.reload` meets: the file it reads, and the requests in their order. -/
structure ReloadCalls where
  current : Option Json
  authenticated : Bool
  put : Answer
  authenticatedAgain : Bool
  putAgain : Answer
  deriving Repr, DecidableEq

namespace ReloadCalls

/-- The candidate is sent once more behind a 401, which is answered before the route runs. -/
def answer (calls : ReloadCalls) : Answer :=
  match calls.put with
  | .response 401 _ _ => if calls.authenticatedAgain then calls.putAgain else .lost false
  | put => put

def echoes (candidate : Json) (answer : Answer) : Bool :=
  match answer with
  | .response 200 (some accepted) _ => accepted.equal candidate
  | _ => false

def activated (answer : Answer) : Bool :=
  match answer with
  | .lost activated => activated
  | .response _ _ activated => activated

/-- `reload`, which is over only when the control API returns the candidate. -/
def fault (calls : ReloadCalls) : Fault :=
  match calls.current with
  | none => .before
  | some candidate =>
    if calls.authenticated = false then .before
    else if echoes candidate calls.answer then .none
    else if activated calls.answer then .after
    else .before

theorem fault_eq_none_iff (calls : ReloadCalls) :
    calls.fault = .none ↔ ∃ candidate, calls.current = some candidate ∧ calls.authenticated = true ∧
      echoes candidate calls.answer = true := by
  unfold fault
  cases calls.current with
  | none => simp
  | some candidate =>
    by_cases hauthenticated : calls.authenticated = true
    · by_cases hechoes : echoes candidate calls.answer = true
      · simp [hauthenticated, hechoes]
      · simp only [hauthenticated, hechoes]
        split_ifs <;> simp_all
    · simp [hauthenticated]

end ReloadCalls

inductive GateEvent where
  | audit (event : String)
  | alert (message : String)
  | disabled (username : String)
  deriving Repr, DecidableEq

/-- The end of a call: its result, the state and what was audited, newest first. -/
structure Ending (α : Type) where
  result : Except Exn α
  gate : Gate
  events : List GateEvent

def validationError (message : String) : Exn := ⟨.other "XrayValidationError", message⟩

def reloadError (message : String) : Exn := ⟨.other "XrayReloadError", message⟩

def usersOf (rule : Json) : List String :=
  match rule with
  | .obj members =>
    match members.lookup "user" with
    | some (.arr users) => users.filterMap fun user => match user with
      | .str name => some name
      | _ => none
    | _ => []
  | _ => []

/-- `_routed_users`. -/
def routedUsers (config : Members) : List String :=
  match config.lookup "routing" with
  | some (.obj routing) =>
    match routing.lookup "rules" with
    | some (.arr rules) => rules.flatMap usersOf
    | _ => []
  | _ => []

/-- The errors of a candidate before Xray itself is asked. -/
def candidateErrors (candidate : CandidateConfig Members) (newUsername : Option String) : List String :=
  let missing := newUsername.any fun name => !(routedUsers candidate.rendered).contains name
  validateRepoOwnedXrayConfig candidate.rendered ++
    (if missing then ["candidate is missing the new user route"] else [])

/-- `validate`, of content that is JSON. -/
def validateCandidate (test : Except CallError Bool) (candidate : CandidateConfig Members)
    (newUsername : Option String) : Except Exn ValidationResult :=
  let errors := candidateErrors candidate newUsername
  if errors ≠ [] then .ok ⟨false, errors⟩
  else match test with
    | .error error => .error error.exc
    | .ok true => .ok ⟨true, []⟩
    | .ok false => .ok ⟨false, ["xray run -test failed"]⟩

def attempt (fault : Fault) (effect : Gate → Gate) (w : Gate) : Gate :=
  if fault.took then effect w else w

def writeFile (bytes : Option FileBytes) (w : Gate) : Gate := { w with file := bytes }

/-- The runtime loads the file that is installed. -/
def loadFile (w : Gate) : Gate := { w with running := w.file, confirmed := false }

/-- A health report, if there is one, is about what the runtime has loaded. -/
def reported (health : Except Exn Bool) (w : Gate) : Gate :=
  match health with
  | .ok healthy => { w with confirmed := healthy }
  | .error _ => w

def finishWithAlert (newUsername : Option String) (message : String) : List GateEvent :=
  match newUsername with
  | some name => [.audit "alert_sent", .alert message, .audit "new_user_disabled", .disabled name]
  | none => [.audit "alert_sent", .alert message]

def markerNotPersisted : String := "rollback failed and degraded baseline marker could not be persisted"

/-- `_fail_after_rollback_failure`; always raises. -/
def failAfterRollbackFailure (faults : ApplyFaults) (newUsername : Option String)
    (alertMessage errorMessage : String) (w : Gate) (events : List GateEvent) : Ending ApplyResult :=
  let marked := markDegraded faults.markDegraded w
  if marked.1 then
    ⟨.error (reloadError markerNotPersisted), marked.2,
      finishWithAlert newUsername ("Xray rollback state is unknown and the degraded baseline " ++
        "marker could not be persisted; manual intervention required") ++
        .audit "baseline_degraded_marker_failed" :: events⟩
  else
    ⟨.error (reloadError errorMessage), marked.2,
      finishWithAlert newUsername alertMessage ++ .audit "baseline_degraded" :: events⟩

/-- `_rollback`; always raises. -/
def rollback (faults : ApplyFaults) (backup : Option FileBytes) (newUsername : Option String)
    (failureSummary reloadErrorMessage : String) (w : Gate) (events : List GateEvent) :
    Ending ApplyResult :=
  let restored := attempt faults.restore (writeFile backup) w
  if faults.restore.raised then
    failAfterRollbackFailure faults newUsername
      "Xray rollback failed: could not restore the previous config; system state is unknown"
      "rollback failed: restore() raised; system state is unknown and unverified"
      restored (.audit "rollback_restore_failed" :: events)
  else
    let events := .audit "backup_restored" :: events
    let reloaded := attempt faults.rollbackReload loadFile restored
    if faults.rollbackReload.raised then
      failAfterRollbackFailure faults newUsername
        "Xray rollback failed: reload after restore raised; runtime state is unknown"
        ("rollback failed: reload() after restore raised; runtime " ++
          "state is unknown and unverified")
        reloaded (.audit "rollback_reload_failed" :: events)
    else
      let events := .audit "rollback_reload" :: events
      let verified := reported faults.rollbackHealth reloaded
      match faults.rollbackHealth with
      | .error _ =>
        failAfterRollbackFailure faults newUsername
          "Xray rollback failed: health check after restore raised; runtime state is unknown"
          ("rollback failed: health() after restore raised; runtime " ++
            "state is unknown and unverified")
          verified (.audit "rollback_health_check_failed" :: events)
      | .ok false =>
        failAfterRollbackFailure faults newUsername
          "Xray rollback restored the previous config but the runtime is unhealthy afterwards"
          ("rollback restore succeeded but post-rollback health " ++ "check reported unhealthy")
          verified (.audit "rollback_reverified" :: events)
      | .ok true =>
        ⟨.error (reloadError reloadErrorMessage), verified,
          finishWithAlert newUsername failureSummary ++ .audit "rollback_reverified" :: events⟩

/-- `install`, the first `reload` and the `health` behind it, in one `try`: the report, unless
one of them raises. -/
def mutate (faults : ApplyFaults) (content : Members) (w : Gate) (events : List GateEvent) :
    Option Bool × Gate × List GateEvent :=
  let installed := attempt faults.install (writeFile (some (dumpConfig content))) w
  if faults.install.raised then (none, installed, events)
  else
    let reloaded := attempt faults.reload loadFile installed
    if faults.reload.raised then (none, reloaded, events)
    else (faults.health.toOption, reported faults.health reloaded, .audit "reload" :: events)

def observedUnavailable : String := "observed repo-owned Xray config is unavailable"

/-- What is wrong with the file after the reload. -/
def postReloadErrors (observe : Option Exn) (content : Members) (file : Option FileBytes) : List String :=
  match observe, file with
  | none, some (.json (.obj observed) _) => repoOwnedProjectionErrors content observed
  | _, _ => [observedUnavailable]

/-- `apply` behind its checks. -/
def install (faults : ApplyFaults) (candidate : CandidateConfig Members) (newUsername : Option String)
    (w : Gate) (events : List GateEvent) : Ending ApplyResult :=
  let (report, mutated, events) := mutate faults candidate.rendered w events
  match report with
  | none =>
    rollback faults w.file newUsername
      ("Xray candidate install, reload, or post-reload health " ++
        "check raised an exception; backup restored")
      ("candidate install, reload, or health check raised an " ++
        "exception before health could be confirmed")
      mutated (.audit "apply_mutation_failed" :: events)
  | some healthy =>
    let errors := postReloadErrors faults.observe candidate.rendered mutated.file
    if healthy = true ∧ errors = [] then
      let (error, saved) := saveBaseline faults.save candidate.rendered mutated
      match error with
      | none => ⟨.ok ⟨true, candidate.version, false⟩, saved, .audit "health_ok" :: events⟩
      | some .osError => ⟨.error ⟨.other "OSError", "cannot remove the temporary file"⟩, saved, events⟩
      | some .xrayBaselineError =>
        rollback faults w.file newUsername
          ("Xray apply succeeded but its writer baseline could not " ++
            "be persisted; previous config restored")
          "Xray writer baseline persistence failed after apply"
          saved (.audit "baseline_persistence_failed" :: events)
    else
      rollback faults w.file newUsername "Xray health or route check failed; backup restored"
        "post-reload health check failed" mutated
        (if errors = [] then events else .audit "post_reload_projection_failed" :: events)

/-- `XrayFileProvider.apply`. -/
def apply (faults : ApplyFaults) (candidate : CandidateConfig Members) (newUsername : Option String)
    (w : Gate) : Ending ApplyResult :=
  match faults.backup with
  | some error => ⟨.error error.exc, w, []⟩
  | none =>
    match ensureCurrentMatchesBaseline (faults.load.map CallError.exc) faults.configExists faults.guardCurrent w with
    | .error exc =>
      if exc.cls = .other "XrayBaselineError" then
        ⟨.error (validationError exc.message), w,
          [.alert "Xray writer guard rejected the candidate", .audit "writer_guard_rejected",
            .audit "backup_created"]⟩
      else ⟨.error exc, w, [.audit "backup_created"]⟩
    | .ok _ =>
      match validateCandidate faults.test candidate newUsername with
      | .error exc => ⟨.error exc, w, [.audit "backup_created"]⟩
      | .ok validation =>
        if validation.valid then install faults candidate newUsername w [.audit "backup_created"]
        else ⟨.error (validationError (String.intercalate "; " validation.errors)), w,
          [.alert "Xray candidate rejected before reload", .audit "candidate_rejected",
            .audit "backup_created"]⟩

/-- The file and the runtime are at these bytes, and the runtime has reported to be healthy. -/
structure Serving (bytes : Option FileBytes) (w : Gate) : Prop where
  file : w.file = bytes
  running : w.running = bytes
  confirmed : w.confirmed = true

/-- The runtime serves the file, and the next apply passes the drift check. -/
structure Coherent (w : Gate) : Prop where
  serving : Serving w.file w
  accepting : Accepting w

/-- One state after any number of later applies. -/
inductive Applied (w : Gate) : Gate → Prop where
  | same : Applied w w
  | next {w' : Gate} (faults : ApplyFaults) (candidate : CandidateConfig Members)
      (newUsername : Option String) (h : Applied w w') :
      Applied w (apply faults candidate newUsername w').gate

/-- Every later apply raises. -/
def Refused (w : Gate) : Prop :=
  ∀ w', Applied w w' → ∀ faults candidate newUsername,
    ∃ exc, (apply faults candidate newUsername w').result = .error exc

/-- What an apply that started in `w` leaves behind. -/
def Kept (w : Gate) (candidate : CandidateConfig Members) (e : Ending ApplyResult) : Prop :=
  match e.result with
  | .ok _ => Serving (some (dumpConfig candidate.rendered)) e.gate ∧
      ∃ digest, repoOwnedXrayFingerprint candidate.rendered = .ok digest ∧
        e.gate.baseline = .record (.applied digest)
  | .error exc => (Serving w.file e.gate ∧ Accepting e.gate) ∨
      (((∃ digest, e.gate.baseline = .record (.degraded digest)) ∨
        exc = reloadError markerNotPersisted) ∧ Refused e.gate)

def reportsHealthy (health : Except Exn Bool) : Bool :=
  match health with
  | .ok healthy => healthy
  | .error _ => false

/-- The candidate is installed, loaded and confirmed, so that its baseline is saved. -/
def Confirms (faults : ApplyFaults) : Prop :=
  faults.install = .none ∧ faults.reload = .none ∧ reportsHealthy faults.health = true ∧ faults.observe = none

instance (faults : ApplyFaults) : Decidable (Confirms faults) := by
  unfold Confirms
  infer_instance

/-- The previous file is restored, loaded and confirmed. -/
def RollsBack (faults : ApplyFaults) : Prop :=
  faults.restore = .none ∧ faults.rollbackReload = .none ∧ reportsHealthy faults.rollbackHealth = true

/-- The checks before the first change pass. -/
structure Passes (faults : ApplyFaults) (candidate : CandidateConfig Members) (newUsername : Option String)
    (w : Gate) : Prop where
  backup : faults.backup = none
  guarded : ensureCurrentMatchesBaseline (faults.load.map CallError.exc) faults.configExists faults.guardCurrent w = .ok ()
  validated : validateCandidate faults.test candidate newUsername = .ok ⟨true, []⟩

/-- The state in which a rollback begins. -/
def beforeRollback (faults : ApplyFaults) (content : Members) (w : Gate) : Gate :=
  let mutated := (mutate faults content w []).2.1
  if Confirms faults then (saveBaseline faults.save content mutated).2 else mutated

/-- The state in which a rollback that began in `w` has made its calls of the runtime. -/
def rollbackGate (faults : ApplyFaults) (backup : Option FileBytes) (w : Gate) : Gate :=
  let restored := attempt faults.restore (writeFile backup) w
  if faults.restore.raised then restored
  else
    let reloaded := attempt faults.rollbackReload loadFile restored
    if faults.rollbackReload.raised then reloaded else reported faults.rollbackHealth reloaded

/-- A refused candidate is harmless in a coherent or marked state, a raw error of the clean-up
behind `save` when the file was the candidate's already, a `save` that raises after its effect when the previous file has the fingerprint of
the candidate or the rollback fails as well, and a mark that is not stored when the drift
check refuses the state anyway, or the state is the previous one. -/
structure Contained (faults : ApplyFaults) (candidate : CandidateConfig Members)
    (newUsername : Option String) (w : Gate) : Prop where
  refused : ¬ Passes faults candidate newUsername w →
    Coherent w ∨ ∃ digest, w.baseline = .record (.degraded digest)
  cleaned : Passes faults candidate newUsername w → Confirms faults →
    (persist faults.save).error = some .osError → w.file = some (dumpConfig candidate.rendered)
  unsaved : Passes faults candidate newUsername w → Confirms faults →
    (persist faults.save).error = some .xrayBaselineError → (persist faults.save).took = true →
    RollsBack faults →
    w.file.bind fingerprintOf = (repoOwnedXrayFingerprint candidate.rendered).toOption
  marked : Passes faults candidate newUsername w →
    (Confirms faults → (persist faults.save).error = some .xrayBaselineError) → ¬ RollsBack faults →
    (persist faults.markDegraded).error.isSome = true → (persist faults.markDegraded).took = false →
    ¬ Accepting (rollbackGate faults w.file (beforeRollback faults candidate.rendered w)) ∨
      Serving w.file (rollbackGate faults w.file (beforeRollback faults candidate.rendered w))

section Checks

variable {faults : ApplyFaults} {candidate : CandidateConfig Members} {newUsername : Option String}
variable {w : Gate}

theorem validated_valid {test : Except CallError Bool} {validation : ValidationResult}
    (h : validateCandidate test candidate newUsername = .ok validation) (hvalid : validation.valid = true) :
    validation = ⟨true, []⟩ ∧ validateRepoOwnedXrayConfig candidate.rendered = [] := by
  unfold validateCandidate at h
  dsimp only at h
  split_ifs at h with herrors
  · cases h
    cases hvalid
  · rw [not_not, candidateErrors, List.append_eq_nil_iff] at herrors
    split at h
    · cases h
    · cases h
      exact ⟨rfl, herrors.1⟩
    · cases h
      cases hvalid

theorem validate_foreign {test : Except CallError Bool} {exc : Exn}
    (h : validateCandidate test candidate newUsername = .error exc) : exc.cls ≠ .other "XrayReloadError" := by
  unfold validateCandidate at h
  dsimp only at h
  split_ifs at h
  split at h
  · next error =>
    cases h
    exact error.foreign
  · cases h
  · cases h

theorem projectionErrors_same {content : Members} (h : validateRepoOwnedXrayConfig content = []) :
    repoOwnedProjectionErrors content content = [] := by
  have hsame : ∀ name, mismatch content content name = false := by
    intro name
    simp [mismatch]
  simp [repoOwnedProjectionErrors, h, hsame]

/-- The file that was just installed is observed without an error. -/
theorem postReloadErrors_installed {content : Members} (h : validateRepoOwnedXrayConfig content = [])
    (observe : Option Exn) :
    postReloadErrors observe content (some (dumpConfig content)) = [] ↔ observe = none := by
  cases observe with
  | none => simp [postReloadErrors, dumpConfig, projectionErrors_same h]
  | some exc => simp [postReloadErrors]

/-- Without a confirmation an apply that has begun to write is rolled back. -/
theorem mutate_unconfirmed (w : Gate) {content : Members} (events : List GateEvent)
    (hvalid : validateRepoOwnedXrayConfig content = []) (h : ¬ Confirms faults) :
    (mutate faults content w events).1 = none ∨ ∃ healthy, (mutate faults content w events).1 = some healthy ∧
      ¬ (healthy = true ∧
        postReloadErrors faults.observe content (mutate faults content w events).2.1.file = []) := by
  unfold mutate
  cases hinstall : faults.install with
  | before => exact .inl rfl
  | after => exact .inl rfl
  | none =>
    cases hreload : faults.reload with
    | before => exact .inl rfl
    | after => exact .inl rfl
    | none =>
      cases hhealth : faults.health with
      | error exc => exact .inl rfl
      | ok healthy =>
        refine .inr ⟨healthy, rfl, fun hfine => ?_⟩
        have hfile := (postReloadErrors_installed hvalid faults.observe).mp hfine.2
        exact h ⟨hinstall, hreload, by simp [reportsHealthy, hhealth, hfine.1], hfile⟩

theorem mutate_gate {content : Members} {events : List GateEvent} :
    (mutate faults content w events).2.1 = (mutate faults content w []).2.1 := by
  unfold mutate
  dsimp only
  split_ifs <;> rfl

/-- A rollback that is confirmed ends in the previous state, with the baseline as it is. -/
theorem rollback_confirmed (newUsername : Option String) (w : Gate) (backup : Option FileBytes)
    (summary message : String) (events : List GateEvent) (h : RollsBack faults) :
    (rollback faults backup newUsername summary message w events).result = .error (reloadError message) ∧
      (rollback faults backup newUsername summary message w events).gate =
        { w with file := backup, running := backup, confirmed := true } := by
  obtain ⟨hrestore, hreload, hhealth⟩ := h
  cases hreport : faults.rollbackHealth with
  | error exc => simp [reportsHealthy, hreport] at hhealth
  | ok healthy =>
    simp only [reportsHealthy, hreport] at hhealth
    subst hhealth
    simp [rollback, hrestore, hreload, hreport, attempt, Fault.raised, Fault.took, writeFile, loadFile,
      reported]

theorem failAfterRollbackFailure_spec {alertMessage errorMessage : String} {events : List GateEvent} :
    (failAfterRollbackFailure faults newUsername alertMessage errorMessage w events).gate =
        (markDegraded faults.markDegraded w).2 ∧
      ∃ exc, (failAfterRollbackFailure faults newUsername alertMessage errorMessage w events).result =
        .error exc ∧ ((persist faults.markDegraded).error.isSome = true →
          exc = reloadError markerNotPersisted) := by
  unfold failAfterRollbackFailure
  dsimp only
  by_cases hmarked : (markDegraded faults.markDegraded w).1 = true
  · rw [if_pos hmarked]
    exact ⟨rfl, _, rfl, fun _ => rfl⟩
  · rw [if_neg hmarked]
    exact ⟨rfl, _, rfl, fun h => absurd h hmarked⟩

/-- Any other rollback marks the baseline. -/
theorem rollback_unconfirmed (newUsername : Option String) (w : Gate) (backup : Option FileBytes)
    (summary message : String) (events : List GateEvent) (h : ¬ RollsBack faults) :
    (rollback faults backup newUsername summary message w events).gate =
        (markDegraded faults.markDegraded (rollbackGate faults backup w)).2 ∧
      ∃ exc, (rollback faults backup newUsername summary message w events).result = .error exc ∧
        ((persist faults.markDegraded).error.isSome = true → exc = reloadError markerNotPersisted) := by
  unfold rollback rollbackGate
  dsimp only
  by_cases hrestore : faults.restore.raised = true
  · rw [if_pos hrestore, if_pos hrestore]
    exact failAfterRollbackFailure_spec
  · rw [if_neg hrestore, if_neg hrestore]
    by_cases hreload : faults.rollbackReload.raised = true
    · rw [if_pos hreload, if_pos hreload]
      exact failAfterRollbackFailure_spec
    · rw [if_neg hreload, if_neg hreload]
      split
      · exact failAfterRollbackFailure_spec
      · exact failAfterRollbackFailure_spec
      · next hhealth =>
        refine absurd ⟨?_, ?_, ?_⟩ h
        · simpa [Fault.raised] using hrestore
        · simpa [Fault.raised] using hreload
        · simp [reportsHealthy, hhealth]

end Checks

section Outcome

variable {faults : ApplyFaults} {candidate : CandidateConfig Members} {newUsername : Option String}
variable {w : Gate}

/-- Any other apply that has begun to write is rolled back. -/
theorem install_unconfirmed (newUsername : Option String) (w : Gate) (events : List GateEvent)
    (hvalid : validateRepoOwnedXrayConfig candidate.rendered = []) (h : ¬ Confirms faults) :
    ∃ summary message events', message ≠ markerNotPersisted ∧
      install faults candidate newUsername w events = rollback faults w.file newUsername summary message
        (beforeRollback faults candidate.rendered w) events' := by
  have hbegins : beforeRollback faults candidate.rendered w =
      (mutate faults candidate.rendered w events).2.1 := by
    rw [mutate_gate]
    exact if_neg h
  rw [hbegins]
  unfold install
  dsimp only
  obtain hnone | ⟨healthy, hsome, hbad⟩ := mutate_unconfirmed w events hvalid h
  · rw [hnone]
    exact ⟨_, _, _, by decide, rfl⟩
  · rw [hsome]
    simp only [if_neg hbad]
    exact ⟨_, _, _, by decide, rfl⟩

/-- An apply that passes its checks goes on to write. -/
theorem apply_passed (h : Passes faults candidate newUsername w) :
    validateRepoOwnedXrayConfig candidate.rendered = [] ∧
      apply faults candidate newUsername w =
        install faults candidate newUsername w [.audit "backup_created"] := by
  obtain ⟨hbackup, hguard, hvalidated⟩ := h
  refine ⟨(validated_valid hvalidated rfl).2, ?_⟩
  simp only [apply, hbackup, hguard, hvalidated, if_true]

/-- What the drift check raises is not the provider's own error. -/
theorem guard_foreign {load : Option CallError} {configExists current : Option Exn} {exc : Exn}
    (h : ensureCurrentMatchesBaseline (load.map CallError.exc) configExists current w = .error exc) :
    exc.cls ≠ .other "XrayReloadError" := by
  have hbaseline : ∀ message, (baselineError message).cls ≠ .other "XrayReloadError" := by
    intro message
    simp [baselineError]
  unfold ensureCurrentMatchesBaseline at h
  split at h
  · next hload =>
    cases h
    cases load with
    | some error =>
      cases hload
      exact error.foreign
    | none =>
      cases hstored : w.baseline with
      | malformed message =>
        simp only [Option.map_none, loadState, hstored] at hload
        cases hload
        exact hbaseline _
      | _ => simp [loadState, hstored] at hload
  · split_ifs at h
    · cases h
      exact hbaseline _
    · repeat' split at h
      all_goals cases h
      all_goals exact hbaseline _

/-- An apply that does not pass them raises and changes nothing. -/
theorem apply_refused (h : ¬ Passes faults candidate newUsername w) :
    (∃ exc, (apply faults candidate newUsername w).result = .error exc ∧
      exc ≠ reloadError markerNotPersisted) ∧ (apply faults candidate newUsername w).gate = w := by
  have hforeign : ∀ exc : Exn, exc.cls ≠ .other "XrayReloadError" → exc ≠ reloadError markerNotPersisted := by
    rintro exc hcls rfl
    exact hcls rfl
  have hrejected : ∀ message, validationError message ≠ reloadError markerNotPersisted := by
    intro message
    exact hforeign _ (by simp [validationError])
  unfold apply
  split
  · next error _ => exact ⟨⟨_, rfl, hforeign _ error.foreign⟩, rfl⟩
  · next hbackup =>
    split
    · next hguard =>
      split_ifs
      · exact ⟨⟨_, rfl, hrejected _⟩, rfl⟩
      · exact ⟨⟨_, rfl, hforeign _ (guard_foreign hguard)⟩, rfl⟩
    · next hguard =>
      split
      · next hvalidated => exact ⟨⟨_, rfl, hforeign _ (validate_foreign hvalidated)⟩, rfl⟩
      · next validation hvalidated =>
        split_ifs with hvalid
        · have hpassed := (validated_valid hvalidated hvalid).1
          exact absurd ⟨hbackup, hguard, hpassed ▸ hvalidated⟩ h
        · exact ⟨⟨_, rfl, hrejected _⟩, rfl⟩

theorem rollback_raises (faults : ApplyFaults) (backup : Option FileBytes) (newUsername : Option String)
    (summary message : String) (b : Gate) (events : List GateEvent) :
    ∃ exc, (rollback faults backup newUsername summary message b events).result = .error exc := by
  by_cases hback : RollsBack faults
  · exact ⟨_, (rollback_confirmed newUsername b backup summary message events hback).1⟩
  · obtain ⟨-, exc, hresult, -⟩ := rollback_unconfirmed newUsername b backup summary message events hback
    exact ⟨exc, hresult⟩

theorem confirms_of_ok {result : ApplyResult}
    (h : (apply faults candidate newUsername w).result = .ok result) : Confirms faults := by
  by_contra hnot
  by_cases hpasses : Passes faults candidate newUsername w
  · obtain ⟨hvalid, happly⟩ := apply_passed hpasses
    obtain ⟨summary, message, events, -, hinstall⟩ :=
      install_unconfirmed newUsername w [.audit "backup_created"] hvalid hnot
    obtain ⟨exc, hresult⟩ := rollback_raises faults w.file newUsername summary message
      (beforeRollback faults candidate.rendered w) events
    rw [happly, hinstall, hresult] at h
    cases h
  · obtain ⟨⟨exc, hresult, -⟩, -⟩ := apply_refused hpasses
    rw [hresult] at h
    cases h

/-- Behind an apply that succeeds the control API has returned the configuration it was sent. -/
theorem apply_ok_echoed {calls : ReloadCalls} {result : ApplyResult} (hreload : faults.reload = calls.fault)
    (h : (apply faults candidate newUsername w).result = .ok result) :
    ∃ sent, calls.current = some sent ∧ calls.authenticated = true ∧
      ReloadCalls.echoes sent calls.answer = true := by
  have hconfirms := confirms_of_ok h
  exact calls.fault_eq_none_iff.mp (hreload ▸ hconfirms.2.1)

end Outcome

section Instances

end Instances

end Lingsway.Gateway
