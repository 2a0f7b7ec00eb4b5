import Lingsway.Domain.Compensation
import Lingsway.Domain.StepCalls

/-!
# The forwarder behind a failed run

What the forwarder was last given in a run, against the state that was read
before APPLY_FORWARDER. The handler of that step restores this state; the
handlers of the later steps leave the forwarder alone.
-/
namespace Lingsway.Domain

open Library Saga Program

/-- What a run has done about the forwarder. -/
structure ForwarderTrace where
  applied : Option (CandidateConfig DesiredForwarderState)
  read : Option DesiredForwarderState
  desired : Option DesiredForwarderState
  rendered : List (DesiredForwarderState × CandidateConfig DesiredForwarderState)
  succeeded : Bool

def ForwarderTrace.empty : ForwarderTrace := ⟨none, none, none, [], false⟩

def ForwarderTrace.after (F : ForwarderTrace) : Event port Exn → ForwarderTrace
  | ⟨.state .currentForwarderState, .ok state, _⟩ => { F with read := some state }
  | ⟨.state (.desiredForwarderState ..), .ok state, _⟩ => { F with desired := some state }
  | ⟨.provider (.forwarderRender state), .ok candidate, _⟩ => { F with rendered := (state, candidate) :: F.rendered }
  | ⟨.provider (.forwarderApply candidate), .ok _, _⟩ => { F with applied := some candidate }
  | ⟨.runs (.recordStep _ step status), _, _⟩ =>
    if step = .applyForwarder ∧ status = "SUCCEEDED" then { F with succeeded := true } else F
  | _ => F

def forwarderTrace : History port Exn → ForwarderTrace
  | [] => .empty
  | e :: past => (forwarderTrace past).after e

/-- Nothing was applied, or last a rendering of the state that was read. -/
def ForwarderTrace.Agrees (F : ForwarderTrace) : Prop :=
  ∀ candidate ∈ F.applied, ∃ previous ∈ F.read, (previous, candidate) ∈ F.rendered

/-- APPLY_FORWARDER has not succeeded, or its desired state is the one that was read. -/
def ForwarderTrace.Unchanged (F : ForwarderTrace) : Prop := F.succeeded = true → F.desired = F.read

def recordsFailed (e : Event port Exn) : Bool :=
  match e.call with
  | .runs (.markStatus _ .failed _) => true
  | _ => false

/-- A write of the run status FAILED finds the forwarder with the state that was read. -/
def forwarderFollows (e : Event port Exn) (past : History port Exn) : Prop :=
  recordsFailed e = true → (forwarderTrace past).Agrees

/-- No write of the run status FAILED comes behind the success of APPLY_FORWARDER, unless that has
changed nothing. -/
def failsInTime (e : Event port Exn) (past : History port Exn) : Prop :=
  recordsFailed e = true → (forwarderTrace past).Unchanged

/-- Calls that say nothing about the forwarder. -/
def offForwarder : Call → Bool
  | .provider (.forwarderRender _) => false
  | .provider (.forwarderApply _) => false
  | .state .currentForwarderState => false
  | .state (.desiredForwarderState ..) => false
  | .runs (.recordStep _ step status) => !decide (step = .applyForwarder ∧ status = "SUCCEEDED")
  | _ => true

theorem after_offForwarder (F : ForwarderTrace) {e : Event port Exn} (h : offForwarder e.call = true) :
    F.after e = F := by
  obtain ⟨c, x, took⟩ := e
  rcases c with c | c | c | c | c
  · cases c <;> cases x <;> simp_all [ForwarderTrace.after, offForwarder]
  · cases c with
    | recordStep runId step status =>
      have hother : ¬(step = .applyForwarder ∧ status = "SUCCEEDED") := by
        simpa only [offForwarder, Bool.not_eq_true', decide_eq_false_iff_not] using h
      exact if_neg hother
    | _ => rfl
  · cases c <;> cases x <;> simp_all [ForwarderTrace.after, offForwarder]
  · rfl
  · rfl

/-- The forwarder stands at `F` and no FAILED was written in vain, or the history is spoiled. -/
def Standing (F : ForwarderTrace) (h : History port Exn) : Prop :=
  (forwarderTrace h = F ∧ History.Always forwarderFollows h ∧ History.Always failsInTime h) ∨
    (¬ History.Always forwarderFollows h ∧ ¬ History.Always failsInTime h)

/-- The forwarder is right for a failure exactly when nothing has changed. -/
def ForwarderTrace.Even (F : ForwarderTrace) : Prop := F.Agrees ↔ F.Unchanged

abbrev anyBehaviour : Handler port Exn (History port Exn) := behaviours fun _ _ => True

theorem Standing.off {F : ForwarderTrace} (heven : F.Even) {h : History port Exn} (hs : Standing F h)
    {e : Event port Exn} (he : offForwarder e.call = true) : Standing F (e :: h) := by
  obtain ⟨htrace, hfollows, htime⟩ | ⟨hfollows, htime⟩ := hs
  · have hafter : forwarderTrace (e :: h) = F := by
      rw [forwarderTrace, htrace, after_offForwarder F he]
    by_cases hagrees : recordsFailed e = true → F.Agrees
    · refine .inl ⟨hafter, ⟨?_, hfollows⟩, ?_, htime⟩
      · intro hrecords
        rw [htrace]
        exact hagrees hrecords
      · intro hrecords
        rw [htrace]
        exact heven.mp (hagrees hrecords)
    · have hrecords : recordsFailed e = true := by
        by_contra hnot
        exact hagrees fun hrecords => absurd hrecords hnot
      refine .inr ⟨fun hall => hagrees fun _ => ?_, fun hall => hagrees fun _ => ?_⟩
      · rw [← htrace]
        exact hall.1 hrecords
      · have hunchanged := hall.1 hrecords
        rw [htrace] at hunchanged
        exact heven.mpr hunchanged
  · exact .inr ⟨fun hall => hfollows hall.2, fun hall => htime hall.2⟩

theorem keeps_off {α : Type} {F : ForwarderTrace} (heven : F.Even) {p : Saga α}
    (hp : p.Calls (S := port) fun c => offForwarder c = true) : Keeps anyBehaviour (Standing F) p := by
  refine hp.keeps ?_
  rintro c h x h' hc hs ⟨took, -, rfl⟩
  exact ⟨trivial, hs.off heven hc⟩

abbrev Off {α : Type} (p : Saga α) : Prop := p.Calls (S := port) fun c => offForwarder c = true

section Off

variable {request : ProvisionRequest} {step : ProvisionStep}

theorem off_perform {c : Call} (hc : offForwarder c = true) : Off (perform (S := port) c : Saga c.Answer) :=
  Calls.perform hc

theorem off_record (runId : ℕ) (step : ProvisionStep) {status : String} (hstatus : status ≠ "SUCCEEDED") :
    Off (runs (.recordStep runId step status)) :=
  off_perform (by simp [offForwarder, hstatus])

theorem off_failStep {α : Type} (runId : ℕ) (step : ProvisionStep) (error : Exn) :
    Off (failStep runId step error : Saga α) := by
  have hfailed : Off (failed runId step error) :=
    Calls.bind (off_record runId step (by simp)) fun _ => off_perform rfl
  exact Calls.bind (off_perform rfl) fun _ => Calls.bind hfailed fun _ => Calls.raise error

/-- Only APPLY_FORWARDER is about the forwarder. -/
theorem off_of_belongs (hstep : step ≠ .applyForwarder) (c : Call) (hc : belongs step c = true) :
    offForwarder c = true := by
  rcases c with c | c | c | c | c <;> cases c <;> simp_all [belongs, offForwarder]

theorem StepCalls.off {α : Type} {p : Saga α} (hp : StepCalls step p) (hstep : step ≠ .applyForwarder) : Off p :=
  hp.to (off_of_belongs hstep)

theorem off_compensateCreatedAccountingUser (runId : ℕ) (exc : Exn) :
    Off (compensateCreatedAccountingUser runId request exc) :=
  (calls_compensateCreatedAccountingUser runId exc).off (by simp)

theorem off_provisionApplyGateway (checkpoint : ProvisioningCheckpoint) :
    Off (provisionApplyGateway checkpoint request) := by
  refine Calls.bind ((calls_applyGatewayStep checkpoint).off (by simp)) ?_
  rintro (_ | outcome)
  · refine Calls.bind ((calls_issueSubscriptionStep _).off (by simp)) fun url => ?_
    exact Calls.bind ((calls_notifyStep _).off (by simp)) fun _ => Calls.ret _
  · exact Calls.ret outcome

theorem off_failApplyGatewayLockAcquisition (checkpoint : ProvisioningCheckpoint) (error : Exn) :
    Off (failApplyGatewayLockAcquisition checkpoint request error) := by
  refine Calls.bind (off_perform rfl).suppress fun _ => ?_
  refine Calls.bind (off_perform rfl).attempt ?_
  rintro (disableExc | _)
  · exact Calls.bind ((@calls_record .applyGateway _ _).off (by simp)) fun _ => Calls.ret _
  · exact Calls.bind ((@calls_failed .applyGateway _ _).off (by simp)) fun _ => Calls.ret _

theorem off_markRun (runId : ℕ) (status : ProvisionStatus) (error : Option String) :
    Off (runs (.markStatus runId status error)).suppress :=
  (off_perform rfl).suppress

end Off

/-- The history is as the rule says exactly when every failure was in time. -/
def Followed (h : History port Exn) : Prop := History.Always forwarderFollows h ↔ History.Always failsInTime h

theorem Standing.followed {F : ForwarderTrace} {h : History port Exn} (hs : Standing F h) : Followed h := by
  obtain ⟨-, hfollows, htime⟩ | ⟨hfollows, htime⟩ := hs
  · exact iff_of_true hfollows htime
  · exact iff_of_false hfollows htime

/-- The run goes on with a forwarder that is right for a failure exactly when nothing has changed. -/
def Underway (h : History port Exn) : Prop := ∃ F : ForwarderTrace, F.Even ∧ Standing F h

theorem off_underway {α : Type} {p : Saga α} (hp : Off p) : Keeps anyBehaviour Underway p := by
  rintro h ⟨F, heven, hs⟩
  refine wp_mono _ _ ?_ (keeps_off heven hp h hs)
  exact fun _ _ hs' => ⟨F, heven, hs'⟩

theorem Underway.followed {h : History port Exn} : Underway h → Followed h := by
  rintro ⟨F, heven, hs⟩
  exact hs.followed

/-- A trace without an application or with one that restores is right for a failure. -/
theorem even_of_agrees {F : ForwarderTrace} (hagrees : F.Agrees) (hsucceeded : F.succeeded = false) : F.Even :=
  iff_of_true hagrees (by simp [ForwarderTrace.Unchanged, hsucceeded])

theorem even_succeeded (previous desired : DesiredForwarderState) (candidate : CandidateConfig DesiredForwarderState) :
    ForwarderTrace.Even ⟨some candidate, some previous, some desired, [(desired, candidate)], true⟩ := by
  simp [ForwarderTrace.Even, ForwarderTrace.Agrees, ForwarderTrace.Unchanged, eq_comm]

/-- A call that writes no run status moves the trace on. -/
theorem Standing.on {F : ForwarderTrace} {h : History port Exn} (hs : Standing F h) {e : Event port Exn}
    (he : recordsFailed e = false) : Standing (F.after e) (e :: h) := by
  obtain ⟨htrace, hfollows, htime⟩ | ⟨hfollows, htime⟩ := hs
  · refine .inl ⟨by rw [forwarderTrace, htrace], ⟨?_, hfollows⟩, ?_, htime⟩
    · intro hrecords
      simp [he] at hrecords
    · intro hrecords
      simp [he] at hrecords
  · exact .inr ⟨fun hall => hfollows hall.2, fun hall => htime hall.2⟩

theorem renderAndApplyForwarder_wp {F : ForwarderTrace} {h : History port Exn} (hs : Standing F h)
    (desired : DesiredForwarderState) :
    (renderAndApplyForwarder desired).wp anyBehaviour (fun
      | .ok _ => fun t => ∃ candidate, Standing { F with applied := some candidate, rendered := (desired, candidate) :: F.rendered } t
      | .error _ => fun t => ∃ rendered, Standing { F with rendered := rendered } t) h := by
  simp only [renderAndApplyForwarder, provider, perform, wp_bind, wp_call_behaviours, wp_ofExcept]
  rintro (exc | candidate) took _
  · exact ⟨F.rendered, hs.on rfl⟩
  · have hrendered := hs.on (e := ⟨.provider (.forwarderRender desired), .ok candidate, took⟩) rfl
    simp only [bindPost, wp_bind, wp_call_behaviours, wp_ofExcept]
    rintro (exc | applied) took' _
    · exact ⟨_, hrendered.on rfl⟩
    · exact ⟨candidate, hrendered.on rfl⟩

/-- What APPLY_FORWARDER does about a failure. -/
def restoreForwarder (runId : ℕ) (previous : DesiredForwarderState) (exc : Exn) : Saga (Option ProvisionOutcome) := do
  match ← (renderAndApplyForwarder previous).attempt with
  | .error restoreExc => do
    runs (.recordStep runId .applyForwarder "PENDING_MANUAL")
    pure (some (pendingManual runId
      (s!"forwarder apply failed ({exc.typeName}), and " ++
        s!"restoring the previous forwarder configuration also failed ({restoreExc.typeName})")
      .forwarderCompensationFailed))
  | .ok _ => failStep runId .applyForwarder exc

theorem applyForwarderStep_eq (runId : ℕ) (endpoint : EgressEndpointDTO) (tenant : TenantDTO) (secretRef : String) :
    applyForwarderStep runId endpoint tenant secretRef = (do
      start runId .applyForwarder
      let previous ← state .currentForwarderState
      match ← (state (.desiredForwarderState endpoint tenant secretRef) >>= renderAndApplyForwarder : Saga Unit).attempt with
      | .ok _ => do
        success runId .applyForwarder
        pure none
      | .error exc => restoreForwarder runId previous exc) := by
  rw [applyForwarderStep]
  congr! 4 with _ previous applied

theorem restoreForwarder_wp {F : ForwarderTrace} {h : History port Exn} (hs : Standing F h) {previous : DesiredForwarderState}
    (hread : F.read = some previous) (hnone : F.applied = none) (hsucceeded : F.succeeded = false) (runId : ℕ) (exc : Exn) :
    (restoreForwarder runId previous exc).wp anyBehaviour (fun _ => Underway) h := by
  rw [restoreForwarder, wp_bind, wp_attempt]
  refine wp_mono _ _ ?_ (renderAndApplyForwarder_wp hs previous)
  rintro (restoreExc | _) t ht
  · obtain ⟨rendered, ht⟩ := ht
    have hagrees : ForwarderTrace.Agrees { F with rendered := rendered } := by
      simp [ForwarderTrace.Agrees, hnone]
    exact off_underway (Calls.bind (off_record runId _ (by simp)) fun _ => Calls.ret _) t
      ⟨_, even_of_agrees hagrees hsucceeded, ht⟩
  · obtain ⟨candidate, ht⟩ := ht
    have hagrees : ForwarderTrace.Agrees
        { F with applied := some candidate, rendered := (previous, candidate) :: F.rendered } := by
      simp [ForwarderTrace.Agrees, hread]
    exact off_underway (off_failStep runId _ exc) t ⟨_, even_of_agrees hagrees hsucceeded, ht⟩

theorem applyForwarderStep_wp {h : History port Exn} (hs : Standing .empty h) (runId : ℕ) (endpoint : EgressEndpointDTO)
    (tenant : TenantDTO) (secretRef : String) :
    (applyForwarderStep runId endpoint tenant secretRef).wp anyBehaviour (fun _ => Underway) h := by
  have hempty : ForwarderTrace.empty.Even :=
    even_of_agrees (by simp [ForwarderTrace.Agrees, ForwarderTrace.empty]) rfl
  rw [applyForwarderStep_eq]
  refine Keeps.wp_bind (keeps_off hempty (off_record runId _ (by simp))) (fun _ _ ht => ⟨_, hempty, ht⟩) (fun _ t ht => ?_) hs
  simp only [state, perform, wp_bind, wp_call_behaviours, wp_ofExcept]
  rintro (exc | previous) took _
  · have hraised := ht.on (e := ⟨.state .currentForwarderState, .error exc, took⟩) rfl
    exact ⟨_, hempty, hraised⟩
  have hread := ht.on (e := ⟨.state .currentForwarderState, .ok previous, took⟩) rfl
  simp only [bindPost, wp_bind, wp_attempt, wp_call_behaviours, wp_ofExcept]
  rintro (exc | desired) took' _
  · have hraised := hread.on (e := ⟨.state (.desiredForwarderState endpoint tenant secretRef), .error exc, took'⟩) rfl
    exact restoreForwarder_wp hraised rfl rfl rfl runId exc
  have hdesired := hread.on (e := ⟨.state (.desiredForwarderState endpoint tenant secretRef), .ok desired, took'⟩) rfl
  refine wp_mono _ _ ?_ (renderAndApplyForwarder_wp hdesired desired)
  rintro (exc | _) u hu
  · obtain ⟨rendered, hu⟩ := hu
    exact restoreForwarder_wp hu rfl rfl rfl runId exc
  · obtain ⟨candidate, hu⟩ := hu
    simp only [bindPost, success, runs, perform, wp_bind, wp_call_behaviours, wp_ofExcept]
    intro x took'' _
    have hsucceeded := hu.on (e := ⟨.runs (.recordStep runId .applyForwarder "SUCCEEDED"), x, took''⟩) rfl
    cases x with
    | error exc => exact ⟨_, even_succeeded previous desired candidate, hsucceeded⟩
    | ok _ => exact ⟨_, even_succeeded previous desired candidate, hsucceeded⟩

theorem standing_empty : Standing .empty [] := .inl ⟨rfl, trivial, trivial⟩

theorem provisionPrepare_underway (request : ProvisionRequest) :
    (provisionPrepare request).wp anyBehaviour (fun _ => Underway) [] := by
  have hempty : ForwarderTrace.empty.Even :=
    even_of_agrees (by simp [ForwarderTrace.Agrees, ForwarderTrace.empty]) rfl
  have hend : ∀ (_ : Exn) t, Standing .empty t → Underway t := fun _ t ht => ⟨_, hempty, ht⟩
  have hon : ∀ {α : Type} {p : Saga α}, Off p → Keeps anyBehaviour (Standing .empty) p :=
    fun hp => keeps_off hempty hp
  refine Keeps.wp_bind (hon (off_perform rfl)) hend (fun runId t ht => ?_) standing_empty
  refine Keeps.wp_bind (hon ((calls_capacityStep runId).off (by simp))) hend (fun _ t ht => ?_) ht
  refine Keeps.wp_bind (hon ((calls_allocateEndpointStep runId).off (by simp))) hend (fun endpoint t ht => ?_) ht
  refine Keeps.wp_bind (hon ((calls_createTenantStep runId).off (by simp))) hend ?_ ht
  rintro (tenant | outcome) t ht
  · refine Keeps.wp_bind (hon ((calls_storeCredentialsStep runId endpoint tenant).off (by simp))) hend (fun secretRef t ht => ?_) ht
    rw [wp_bind]
    refine wp_mono _ _ ?_ (applyForwarderStep_wp ht runId endpoint tenant secretRef)
    rintro (exc | none | outcome) t ht
    · exact ht
    · refine Keeps.wp_bind (off_underway ((calls_createAccountingUserStep runId).off (by simp))) (fun _ _ ht => ht) ?_ ht
      rintro (accountUser | outcome) t ht
      · exact ht
      · exact ht
    · exact ht
  · exact ⟨_, hempty, ht⟩

theorem provision_underway (request : ProvisionRequest) :
    (provision request).wp anyBehaviour (fun _ => Underway) [] := by
  rw [provision, wp_bind]
  refine wp_mono _ _ ?_ (provisionPrepare_underway request)
  rintro (exc | checkpoint | outcome) t ht
  · exact ht
  · refine off_underway (Calls.bind (off_provisionApplyGateway checkpoint) fun outcome => Calls.ite ?_ ?_) t ht
    · exact Calls.bind (off_markRun _ _ _) fun _ => Calls.ret _
    · exact Calls.bind (off_markRun _ _ _) fun _ => Calls.ret _
  · exact off_underway (Calls.bind (off_markRun _ _ _) fun _ => Calls.ret _) t ht

/-- Whatever comes behind `provision_prepare` leaves the forwarder alone. -/
theorem entry_underway (request : ProvisionRequest) (entry : Entry) :
    (entry.run request).wp anyBehaviour (fun _ => Underway) [] := by
  have hafter : ∀ next, (∀ checkpoint, Off (next checkpoint)) →
      (fromCheckpoint request next).wp anyBehaviour (fun _ => Underway) [] := by
    intro next hnext
    rw [fromCheckpoint, wp_bind]
    refine wp_mono _ _ ?_ (provisionPrepare_underway request)
    rintro (exc | checkpoint | outcome) t ht
    · exact ht
    · exact off_underway (hnext checkpoint) t ht
    · exact ht
  cases entry with
  | provision =>
    simp only [Entry.run, wp_bind]
    refine wp_mono _ _ ?_ (provision_underway request)
    rintro (exc | outcome) t ht
    · exact ht
    · exact ht
  | prepareThenApplyGateway =>
    exact hafter _ fun checkpoint => Calls.bind (off_provisionApplyGateway checkpoint) fun _ => Calls.ret _
  | prepareThenFailBeforeGatewayAuthoritativeCommit error =>
    refine hafter _ fun checkpoint => Calls.bind (off_perform rfl) fun _ => ?_
    exact Calls.bind (off_compensateCreatedAccountingUser _ _) fun _ => Calls.ret _
  | prepareThenFailApplyGatewayLockAcquisition error =>
    refine hafter _ fun checkpoint => Calls.bind (off_perform rfl) fun _ => ?_
    exact Calls.bind (off_failApplyGatewayLockAcquisition _ _) fun _ => Calls.ret _

/-- A failed run leaves the forwarder with the state that was read before, exactly when no failure
comes behind a change. -/
theorem forwarder_follows_iff (request : ProvisionRequest) (entry : Entry) (r : Except Exn Unit)
    (h : History port Exn) (hrun : (entry.run request).Exec anyBehaviour [] r h) :
    History.Always forwarderFollows h ↔ History.Always failsInTime h := by
  have hfollowed := exec_of_wp (entry_underway request entry) hrun
  exact hfollowed.followed

/-- The forwarder is to get the new tenant, and the provider does not create the user. -/
def creationRefused (c : Call) (_ : History port Exn) : Except Exn c.Answer × Bool :=
  match c with
  | .state (.desiredForwarderState ..) => (.ok ⟨[("3", "webshare/subuser/1/egress/3")]⟩, true)
  | .provider (.createUser ..) => (.error ⟨.accountingCreateUserError .noSideEffect, "409"⟩, false)
  | c => (calmAnswer c, true)

instance (e : Event port Exn) (past : History port Exn) : Decidable (forwarderFollows e past) := by
  unfold forwarderFollows ForwarderTrace.Agrees
  infer_instance

theorem forwarder_keeps_the_allocation :
    ∃ request entry r h, (Entry.run request entry).Exec anyBehaviour [] r h ∧
      ¬ History.Always forwarderFollows h := by
  refine ⟨firstPurchase, .provision, _, _, exec_recorder creationRefused _ ?_, ?_⟩
  · decide
  · decide

theorem forwarder_follows_iff_gateway_down :
    History.Always forwarderFollows
        ((recorder port Exn).run gatewayDown (Entry.run firstPurchase .provision) []).2 ↔
      History.Always failsInTime
        ((recorder port Exn).run gatewayDown (Entry.run firstPurchase .provision) []).2 := by
  refine forwarder_follows_iff firstPurchase .provision _ _ (exec_recorder (S := port) gatewayDown _ ?_)
  decide

end Lingsway.Domain
