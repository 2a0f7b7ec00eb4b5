import Lingsway.Domain.Provisioning
import Lingsway.Library.History

/-!
# A run is recorded FAILED only when it is fully compensated

Collaborators may return or raise in any way; only the progress bookkeeping of
the run store is taken to return. Step 8 is the one failure handler that does
not disable the accounting user, and it is the one exception to the rule.
-/
namespace Lingsway.Domain

open Library Saga Program

/-- The users that `create_user` may have created and `disable_user` has not closed. -/
def openUsers : History port Exn → List String
  | [] => []
  | ⟨.provider (.createUser username _ _), .ok _, _⟩ :: past => username :: openUsers past
  | ⟨.provider (.createUser username _ _), .error exc, _⟩ :: past =>
    if exc.cls = .accountingCreateUserError .noSideEffect then openUsers past
    else username :: openUsers past
  | ⟨.provider (.disableUser username), .ok _, _⟩ :: past =>
    (openUsers past).filter (fun u => u ≠ username)
  | _ :: past => openUsers past

/-- A `rollback_database` returned, and since then there was only compensation,
notification and bookkeeping. -/
def rolledBack : History port Exn → Bool
  | [] => false
  | ⟨.session .rollback, .ok _, _⟩ :: _ => true
  | ⟨.provider (.disableUser _), _, _⟩ :: past => rolledBack past
  | ⟨.provider (.notifySend _), _, _⟩ :: past => rolledBack past
  | ⟨.runs _, _, _⟩ :: past => rolledBack past
  | _ :: _ => false

/-- A write of the run status FAILED finds the failure rolled back and no user open. -/
def compensated (e : Event port Exn) (past : History port Exn) : Prop :=
  match e.call with
  | .runs (.markStatus _ .failed _) => rolledBack past = true ∧ openUsers past = []
  | _ => True

/-- `record_step` and `record_external_id` return, as the run store's contract says. -/
def bookkeepingReturns (e : Event port Exn) (_ : History port Exn) : Prop :=
  match e.call with
  | .runs (.recordStep ..) => e.returned = true
  | .runs (.recordExternalId ..) => e.returned = true
  | _ => True

/-- The answer with which ISSUE_SUBSCRIPTION fails. -/
def issueFails (request : ProvisionRequest) (e : Event port Exn) : Prop :=
  match e with
  | ⟨.provider .tokenFactory, .error _, _⟩ => True
  | ⟨.state (.storeSubscriptionToken _ _), .error _, _⟩ => True
  | ⟨.state (.storeSubscriptionToken _ rawToken), .ok _, _⟩ =>
    ∃ exc, subscriptionUrl request.subscriptionDomain rawToken = .error exc
  | _ => False

/-- ISSUE_SUBSCRIPTION did not fail, or the rollback of its failure raised. -/
def IssueHarmless (request : ProvisionRequest) (h : History port Exn) : Prop :=
  (∀ e ∈ h, ¬ issueFails request e) ∨
    ∃ exc took past, h = ⟨.session .rollback, .error exc, took⟩ :: past

/-- The executions in which a run status is written by the service itself. -/
inductive Entry where
  | provision
  | prepareThenApplyGateway
  | prepareThenFailBeforeGatewayAuthoritativeCommit (error : Exn)
  | prepareThenFailApplyGatewayLockAcquisition (error : Exn)

/-- Continue from a checkpoint, if there is one. -/
def fromCheckpoint (request : ProvisionRequest) (next : ProvisioningCheckpoint → Saga Unit) :
    Saga Unit := do
  match ← provisionPrepare request with
  | .inr _ => pure ()
  | .inl checkpoint => next checkpoint

def Entry.run (request : ProvisionRequest) : Entry → Saga Unit
  | provision => do let _ ← Domain.provision request
  | prepareThenApplyGateway =>
    fromCheckpoint request (fun checkpoint => do let _ ← provisionApplyGateway checkpoint request)
  | prepareThenFailBeforeGatewayAuthoritativeCommit error =>
    fromCheckpoint request (fun checkpoint => do
      rollbackDatabase
      let _ ← failBeforeGatewayAuthoritativeCommit checkpoint request error)
  | prepareThenFailApplyGatewayLockAcquisition error =>
    fromCheckpoint request (fun checkpoint => do
      rollbackDatabase
      let _ ← failApplyGatewayLockAcquisition checkpoint request error)

section Stages

variable {request : ProvisionRequest} {users : List String}

/-- Every FAILED so far was compensated, step 8 has not failed, and `users` are open. -/
structure Stage (request : ProvisionRequest) (users : List String) (h : History port Exn) : Prop where
  settled : History.Always compensated h
  issue : ∀ e ∈ h, ¬ issueFails request e
  open_eq : openUsers h = users

/-- Calls that no clause of a stage looks at. -/
def neutral : Call → Bool
  | .provider (.createUser ..) => false
  | .provider (.disableUser _) => false
  | .provider .tokenFactory => false
  | .state (.storeSubscriptionToken ..) => false
  | .runs (.markStatus _ .failed _) => false
  | _ => true

theorem Stage.neutral {h : History port Exn} (hs : Stage request users h) {e : Event port Exn}
    (he : neutral e.call = true) : Stage request users (e :: h) := by
  obtain ⟨c, x, took⟩ := e
  refine ⟨⟨?_, hs.settled⟩, ?_, ?_⟩
  · cases c with
    | runs c => cases c with
      | markStatus runId status error => cases status <;> simp_all [compensated, Domain.neutral]
      | _ => trivial
    | _ => trivial
  · intro e he
    rcases List.mem_cons.mp he with rfl | he
    · rcases c with c | c | c | c | c <;> cases c <;> simp_all [issueFails, Domain.neutral]
    · exact hs.issue e he
  · rw [← hs.open_eq]
    rcases c with c | c | c | c | c <;> cases c <;> simp_all [openUsers, Domain.neutral]

theorem keeps_neutral {c : Call} (hc : neutral c = true) :
    Keeps (behaviours bookkeepingReturns) (Stage request users)
      (perform (S := port) c : Saga c.Answer) := by
  apply Keeps.perform
  rintro h x h' hs ⟨took, _, rfl⟩
  exact ⟨trivial, hs.neutral hc⟩

theorem keeps_alert (eventType : String) (payload : List (String × String)) :
    Keeps (behaviours bookkeepingReturns) (Stage request users) (alert eventType payload) :=
  Keeps.suppress (keeps_neutral rfl)

theorem Stage.failed {h : History port Exn} (hs : Stage request [] h) (hr : rolledBack h = true)
    (runId : ℕ) (error : Option String) (x : Except Exn Unit) (took : Bool) :
    Stage request [] (⟨.runs (.markStatus runId .failed error), x, took⟩ :: h) := by
  refine ⟨⟨⟨hr, hs.open_eq⟩, hs.settled⟩, ?_, hs.open_eq⟩
  intro e he
  rcases List.mem_cons.mp he with rfl | he
  · exact id
  · exact hs.issue e he

theorem failed_wp {h : History port Exn} (hs : Stage request [] h) (hr : rolledBack h = true)
    (runId : ℕ) (step : ProvisionStep) (error : Exn) :
    (failed runId step error).wp (behaviours bookkeepingReturns) (fun _ => Stage request []) h := by
  simp only [failed, runs, perform, wp_bind, wp_call_behaviours, wp_ofExcept]
  intro x took hreturned
  cases x with
  | error exc => cases hreturned
  | ok _ =>
    simp only [bindPost, wp_call_behaviours, wp_ofExcept]
    intro y took' _
    exact (hs.neutral (e := ⟨.runs (.recordStep runId step "FAILED"), .ok (), took⟩) rfl).failed hr ..

theorem failStep_wp {α : Type} {h : History port Exn} (hs : Stage request [] h) (runId : ℕ)
    (step : ProvisionStep) (error : Exn) :
    (failStep runId step error : Saga α).wp (behaviours bookkeepingReturns) (fun
      | .ok _ => fun _ => False
      | .error _ => Stage request []) h := by
  simp only [failStep, rollbackDatabase, rollback, session, perform, wp_bind, wp_call_behaviours,
    wp_ofExcept]
  intro x took _
  have hs' := hs.neutral (e := ⟨.session .rollback, x, took⟩) rfl
  cases x with
  | error exc => exact hs'
  | ok _ =>
    simp only [bindPost, wp_bind]
    refine wp_mono _ _ ?_ (failed_wp hs' rfl runId step error)
    rintro (exc | _) h' hs''
    · exact hs''
    · exact hs''

theorem keeps_failStep {α : Type} (runId : ℕ) (step : ProvisionStep) (error : Exn) :
    Keeps (behaviours bookkeepingReturns) (Stage request []) (failStep runId step error : Saga α) := by
  intro h hs
  refine wp_mono _ _ ?_ (failStep_wp hs runId step error)
  rintro (exc | a) h' hs'
  · exact hs'
  · exact hs'.elim

theorem keeps_capacityStep (runId : ℕ) :
    Keeps (behaviours bookkeepingReturns) (Stage request []) (capacityStep runId request) := by
  refine Keeps.bind (keeps_neutral rfl) fun _ => ?_
  refine Keeps.bind (Keeps.attempt (Keeps.bind (keeps_neutral rfl) fun _ => Keeps.ofExcept _)) ?_
  rintro (exc | _)
  · refine Keeps.ite ?_ (Keeps.raise _)
    refine Keeps.bind (keeps_neutral rfl) fun _ => ?_
    exact Keeps.bind (keeps_alert _ _) fun _ => keeps_failStep _ _ _
  · exact keeps_neutral rfl

theorem keeps_allocateEndpointStep (runId : ℕ) :
    Keeps (behaviours bookkeepingReturns) (Stage request []) (allocateEndpointStep runId request) := by
  refine Keeps.bind (keeps_neutral rfl) fun _ => ?_
  refine Keeps.bind (Keeps.attempt (keeps_neutral rfl)) ?_
  rintro (exc | endpoint)
  · exact keeps_failStep _ _ _
  · exact Keeps.bind (keeps_neutral rfl) fun _ => Keeps.ret _

theorem keeps_recordUnconfirmedTenant (runId : ℕ) (exc : Exn) :
    Keeps (behaviours bookkeepingReturns) (Stage request users) (recordUnconfirmedTenant runId exc) := by
  unfold recordUnconfirmedTenant
  split
  · exact keeps_neutral rfl
  · exact Keeps.ret _

theorem keeps_createTenantStep (runId : ℕ) :
    Keeps (behaviours bookkeepingReturns) (Stage request users) (createTenantStep runId request) := by
  refine Keeps.bind (keeps_neutral rfl) fun _ => ?_
  refine Keeps.bind (Keeps.attempt (keeps_neutral rfl)) ?_
  rintro (exc | tenant)
  · refine Keeps.bind (keeps_recordUnconfirmedTenant runId exc) fun _ => ?_
    exact Keeps.bind (keeps_neutral rfl) fun _ => Keeps.ret _
  · refine Keeps.bind (keeps_neutral rfl) fun _ => ?_
    exact Keeps.bind (keeps_neutral rfl) fun _ => Keeps.ret _

theorem keeps_storeCredentialsStep (runId : ℕ) (endpoint : EgressEndpointDTO) (tenant : TenantDTO) :
    Keeps (behaviours bookkeepingReturns) (Stage request [])
      (storeCredentialsStep runId endpoint tenant) := by
  refine Keeps.bind (keeps_neutral rfl) fun _ => ?_
  refine Keeps.bind (Keeps.attempt (Keeps.bind (keeps_neutral rfl) fun credential =>
    keeps_neutral (c := .state (.saveCredentials tenant endpoint credential)) rfl)) ?_
  rintro (exc | secretRef)
  · exact keeps_failStep _ _ _
  · exact Keeps.bind (keeps_neutral rfl) fun _ => Keeps.ret _

theorem keeps_renderAndApplyForwarder (desired : DesiredForwarderState) :
    Keeps (behaviours bookkeepingReturns) (Stage request users) (renderAndApplyForwarder desired) := by
  refine Keeps.bind (keeps_neutral rfl) fun _ => ?_
  exact Keeps.bind (keeps_neutral rfl) fun _ => Keeps.ret _

theorem keeps_applyForwarderStep (runId : ℕ) (endpoint : EgressEndpointDTO) (tenant : TenantDTO)
    (secretRef : String) :
    Keeps (behaviours bookkeepingReturns) (Stage request [])
      (applyForwarderStep runId endpoint tenant secretRef) := by
  refine Keeps.bind (keeps_neutral rfl) fun _ => ?_
  refine Keeps.bind (keeps_neutral rfl) fun _ => ?_
  refine Keeps.bind (Keeps.attempt (Keeps.bind (keeps_neutral rfl)
    fun _ => keeps_renderAndApplyForwarder _)) ?_
  rintro (exc | _)
  · refine Keeps.bind (Keeps.attempt (keeps_renderAndApplyForwarder _)) ?_
    rintro (restoreExc | _)
    · exact Keeps.bind (keeps_neutral rfl) fun _ => Keeps.ret _
    · exact keeps_failStep _ _ _
  · exact Keeps.bind (keeps_neutral rfl) fun _ => Keeps.ret _

/-- The run is over and nothing after step 6 went wrong unnoticed. -/
def Ended (request : ProvisionRequest) (h : History port Exn) : Prop :=
  ∃ users, Stage request users h

/-- The user may be open, and is not if the provider reported NO_SIDE_EFFECT. -/
def CreateFailed (request : ProvisionRequest) (exc : Exn) (h : History port Exn) : Prop :=
  Stage request [] h ∨
    (Stage request [request.username] h ∧ exc.cls ≠ .accountingCreateUserError .noSideEffect)

theorem createValidatedUser_wp {h : History port Exn} (hs : Stage request [] h) :
    (createValidatedUser request).wp (behaviours bookkeepingReturns) (fun
      | .ok _ => Stage request [request.username]
      | .error exc => CreateFailed request exc) h := by
  cases hquota : quotaGbToBytes request.quotaGb with
  | error exc =>
    simp only [createValidatedUser, hquota, wp_bind, wp_ofExcept, bindPost]
    exact .inl hs
  | ok quotaBytes =>
    simp only [createValidatedUser, hquota, wp_bind, wp_ofExcept, bindPost, provider, perform,
      wp_call_behaviours]
    rintro (exc | accountUser) took _
    · by_cases hexc : exc.cls = .accountingCreateUserError .noSideEffect
      · refine .inl ⟨⟨trivial, hs.settled⟩, ?_, ?_⟩
        · exact List.forall_mem_cons.mpr ⟨id, hs.issue⟩
        · rw [openUsers, if_pos hexc, hs.open_eq]
      · refine .inr ⟨⟨⟨trivial, hs.settled⟩, ?_, ?_⟩, hexc⟩
        · exact List.forall_mem_cons.mpr ⟨id, hs.issue⟩
        · rw [openUsers, if_neg hexc, hs.open_eq]
    · have hopen : Stage request [request.username]
          (⟨.provider (.createUser request.username quotaBytes request.expireAt),
            .ok accountUser, took⟩ :: h) := by
        refine ⟨⟨trivial, hs.settled⟩, List.forall_mem_cons.mpr ⟨id, hs.issue⟩, ?_⟩
        rw [openUsers, hs.open_eq]
      simp only [wp_ite, wp_raise, wp_pure]
      refine ⟨fun _ => .inr ⟨hopen, by simp⟩, fun _ => ⟨fun _ => .inr ⟨hopen, by simp⟩, fun _ => hopen⟩⟩

/-- Closing the user leaves nothing open. -/
theorem Stage.disabled {h : History port Exn}
    (hs : Stage request [] h ∨ Stage request [request.username] h) (x : Except Exn Unit)
    (took : Bool) :
    match x with
    | .ok _ => Stage request [] (⟨.provider (.disableUser request.username), x, took⟩ :: h)
    | .error _ => Ended request (⟨.provider (.disableUser request.username), x, took⟩ :: h) := by
  have hissue : ∀ e : Event port Exn, e.call = .provider (.disableUser request.username) →
      ¬ issueFails request e := by
    rintro ⟨c, y, took'⟩ rfl
    exact id
  cases x with
  | error exc =>
    rcases hs with hs | hs
    · exact ⟨[], ⟨trivial, hs.settled⟩, List.forall_mem_cons.mpr ⟨hissue _ rfl, hs.issue⟩, hs.open_eq⟩
    · exact ⟨_, ⟨trivial, hs.settled⟩, List.forall_mem_cons.mpr ⟨hissue _ rfl, hs.issue⟩, hs.open_eq⟩
  | ok _ =>
    rcases hs with hs | hs
    · refine ⟨⟨trivial, hs.settled⟩, List.forall_mem_cons.mpr ⟨hissue _ rfl, hs.issue⟩, ?_⟩
      rw [openUsers, hs.open_eq, List.filter_nil]
    · refine ⟨⟨trivial, hs.settled⟩, List.forall_mem_cons.mpr ⟨hissue _ rfl, hs.issue⟩, ?_⟩
      rw [openUsers, hs.open_eq]
      simp

theorem compensateCreatedAccountingUser_wp {h : History port Exn}
    (hs : Stage request [] h ∨ Stage request [request.username] h) (runId : ℕ) (exc : Exn) :
    (compensateCreatedAccountingUser runId request exc).wp (behaviours bookkeepingReturns)
      (fun _ => Ended request) h := by
  simp only [compensateCreatedAccountingUser, provider, perform, wp_bind, wp_attempt,
    wp_call_behaviours, wp_ofExcept, bindPost]
  intro x took _
  have hdisabled := Stage.disabled hs x took
  cases x with
  | error disableExc =>
    obtain ⟨users, hended⟩ := hdisabled
    refine wp_mono _ _ ?_ (Keeps.bind (keeps_neutral rfl) (fun _ => Keeps.ret _) _ hended)
    exact fun _ _ hended => ⟨users, hended⟩
  | ok _ =>
    refine wp_mono _ _ ?_ (keeps_failStep runId .createAccountingUser exc _ hdisabled)
    exact fun _ _ hended => ⟨[], hended⟩

theorem createAccountingUserStep_wp {h : History port Exn} (hs : Stage request [] h) (runId : ℕ) :
    (createAccountingUserStep runId request).wp (behaviours bookkeepingReturns) (fun
      | .ok (.inl _) => Stage request [request.username]
      | _ => Ended request) h := by
  refine Keeps.wp_bind (keeps_neutral rfl) (fun _ _ ht => ⟨[], ht⟩) (fun _ t ht => ?_) hs
  simp only [wp_bind, wp_attempt]
  refine wp_mono _ _ ?_ (createValidatedUser_wp ht)
  rintro (exc | accountUser) t' ht'
  · simp only [bindPost]
    split
    · next hcls =>
      obtain hs' | ⟨_, hne⟩ := ht'
      · refine wp_mono _ _ ?_ (failStep_wp hs' runId .createAccountingUser exc)
        rintro (exc' | a) t'' hend
        · exact ⟨[], hend⟩
        · exact hend.elim
      · exact absurd hcls hne
    · obtain ⟨users, hs'⟩ : Ended request t' := ht'.elim (fun hs' => ⟨_, hs'⟩) (fun hs' => ⟨_, hs'.1⟩)
      refine Keeps.wp_bind (keeps_neutral rfl) (fun _ _ hend => ?_) (fun _ _ hend => ?_) hs'
      · exact ⟨_, hend⟩
      · exact ⟨_, hend⟩
    · rw [wp_bind]
      refine wp_mono _ _ ?_
        (compensateCreatedAccountingUser_wp (ht'.imp_right And.left) runId exc)
      rintro (exc' | outcome) t'' hend
      · exact hend
      · exact hend
  · refine Keeps.wp_bind (keeps_neutral rfl) (fun _ _ hs' => ?_) (fun _ _ hs' => ?_) ht'
    · exact ⟨_, hs'⟩
    · exact hs'

theorem provisionPrepare_wp {h : History port Exn} (hs : Stage request [] h) :
    (provisionPrepare request).wp (behaviours bookkeepingReturns) (fun
      | .ok (.inl _) => Stage request [request.username]
      | _ => Ended request) h := by
  have hend : ∀ (_ : Exn) t, Stage request [] t → Ended request t := fun _ _ ht => ⟨[], ht⟩
  refine Keeps.wp_bind (keeps_neutral rfl) hend (fun runId _ hs => ?_) hs
  refine Keeps.wp_bind (keeps_capacityStep runId) hend (fun _ _ hs => ?_) hs
  refine Keeps.wp_bind (keeps_allocateEndpointStep runId) hend (fun endpoint _ hs => ?_) hs
  refine Keeps.wp_bind (keeps_createTenantStep runId) hend (fun tenant _ hs => ?_) hs
  cases tenant with
  | inr outcome => exact ⟨[], hs⟩
  | inl tenant =>
    refine Keeps.wp_bind (keeps_storeCredentialsStep runId _ _) hend (fun secretRef _ hs => ?_) hs
    refine Keeps.wp_bind (keeps_applyForwarderStep runId _ _ _) hend (fun outcome _ hs => ?_) hs
    cases outcome with
    | some outcome => exact ⟨[], hs⟩
    | none =>
      simp only [wp_bind]
      refine wp_mono _ _ ?_ (createAccountingUserStep_wp hs runId)
      rintro (exc | accountUser | outcome) t ht
      · exact ht
      · exact ht
      · exact ht

theorem keeps_renderAndApplyGateway (checkpoint : ProvisioningCheckpoint) :
    Keeps (behaviours bookkeepingReturns) (Stage request users)
      (renderAndApplyGateway checkpoint request) := by
  refine Keeps.bind (keeps_neutral rfl) fun desired => ?_
  refine Keeps.bind (keeps_neutral rfl) fun candidate => ?_
  refine Keeps.bind (keeps_neutral rfl) fun validation => ?_
  refine Keeps.ite (Keeps.raise _) ?_
  exact Keeps.bind (keeps_neutral rfl) fun _ => Keeps.ret _

theorem applyGatewayStep_wp {h : History port Exn} (hs : Stage request [request.username] h)
    (checkpoint : ProvisioningCheckpoint) :
    (applyGatewayStep checkpoint request).wp (behaviours bookkeepingReturns) (fun
      | .ok none => Stage request [request.username]
      | _ => Ended request) h := by
  have hend : ∀ (_ : Exn) t, Stage request [request.username] t → Ended request t :=
    fun _ _ ht => ⟨_, ht⟩
  refine Keeps.wp_bind (keeps_neutral rfl) hend (fun _ t ht => ?_) hs
  refine Keeps.wp_bind (Keeps.attempt (keeps_renderAndApplyGateway checkpoint)) hend
    (fun applied t ht => ?_) ht
  cases applied with
  | ok _ =>
    refine Keeps.wp_bind (keeps_neutral rfl) hend (fun _ _ hs' => ?_) ht
    exact hs'
  | error exc =>
    refine Keeps.wp_bind (keeps_alert _ _) hend (fun _ t ht => ?_) ht
    simp only [provider, perform, wp_bind, wp_attempt, wp_call_behaviours, wp_ofExcept, bindPost]
    intro x took _
    have hdisabled := Stage.disabled (.inr ht) x took
    cases x with
    | error disableExc =>
      obtain ⟨open', hended⟩ := hdisabled
      refine Keeps.wp_bind (keeps_neutral rfl) (fun _ _ hs' => ?_) (fun _ _ hs' => ?_) hended
      · exact ⟨_, hs'⟩
      · exact ⟨_, hs'⟩
    | ok _ =>
      refine wp_mono _ _ ?_ (failStep_wp hdisabled checkpoint.runId .applyGateway exc)
      rintro (exc' | outcome) t' ht'
      · exact ⟨[], ht'⟩
      · exact ht'.elim

/-- The history is as the rule says exactly when step 8 did no harm. -/
def Judged (request : ProvisionRequest) (h : History port Exn) : Prop :=
  History.Always compensated h ↔ IssueHarmless request h

theorem Ended.judged {h : History port Exn} : Ended request h → Judged request h := by
  rintro ⟨users, hs⟩
  exact iff_of_true hs.settled (.inl hs.issue)

/-- After a failure of step 8 with the user open, FAILED is written unless the
rollback raises. -/
theorem failStep_issue_wp {α : Type} {h : History port Exn} (hsettled : History.Always compensated h)
    (hopen : openUsers h = [request.username]) (hissue : ∃ e ∈ h, issueFails request e)
    (runId : ℕ) (error : Exn) :
    (failStep runId .issueSubscription error : Saga α).wp (behaviours bookkeepingReturns) (fun
      | .ok _ => fun _ => False
      | .error _ => Judged request) h := by
  obtain ⟨bad, hbad, hfails⟩ := hissue
  simp only [failStep, Domain.failed, rollbackDatabase, rollback, session, runs, perform, wp_bind,
    wp_call_behaviours, wp_ofExcept]
  rintro (exc | _) took _
  · exact iff_of_true ⟨trivial, hsettled⟩ (.inr ⟨exc, took, h, rfl⟩)
  · simp only [bindPost, wp_bind, wp_call_behaviours, wp_ofExcept]
    rintro (exc | _) took' hreturned
    · cases hreturned
    · have hjudged : ∀ (y : Except Exn Unit) (took'' : Bool), Judged request
          (⟨.runs (.markStatus runId .failed (some error.message)), y, took''⟩ ::
            ⟨.runs (.recordStep runId .issueSubscription "FAILED"), .ok (), took'⟩ ::
            ⟨.session .rollback, .ok (), took⟩ :: h) := by
        intro y took''
        refine iff_of_false ?_ ?_
        · rintro ⟨⟨_, hnone⟩, _⟩
          simp [openUsers, hopen] at hnone
        · rintro (hnone | ⟨_, _, _, heq⟩)
          · exact hnone bad (by simp [hbad]) hfails
          · simp at heq
      rintro (exc | _) took'' _
      · exact hjudged _ _
      · exact hjudged _ _

theorem issueSubscriptionStep_wp {h : History port Exn} (hs : Stage request [request.username] h)
    (runId : ℕ) :
    (issueSubscriptionStep runId request).wp (behaviours bookkeepingReturns) (fun
      | .ok _ => Stage request [request.username]
      | .error _ => Judged request) h := by
  have hfail : ∀ {e : Event port Exn} {past} (exc : Exn), issueFails request e →
      History.Always compensated (e :: past) → openUsers (e :: past) = [request.username] →
      (failStep runId .issueSubscription exc : Saga String).wp (behaviours bookkeepingReturns) (fun
        | .ok _ => Stage request [request.username]
        | .error _ => Judged request) (e :: past) := by
    intro e past exc hfails hsettled hopen
    refine wp_mono _ _ ?_
      (failStep_issue_wp hsettled hopen ⟨e, List.mem_cons_self .., hfails⟩ runId exc)
    rintro (exc' | a) t' ht'
    · exact ht'
    · exact ht'.elim
  refine Keeps.wp_bind (keeps_neutral rfl) (fun _ _ ht => Ended.judged ⟨_, ht⟩) (fun _ t ht => ?_) hs
  simp only [provider, state, perform, wp_bind, wp_attempt, wp_call_behaviours, wp_ofExcept]
  rintro (exc | rawToken) took _
  · exact hfail exc trivial ⟨trivial, ht.settled⟩ ht.open_eq
  · have htoken : Stage request [request.username]
        (⟨.provider .tokenFactory, .ok rawToken, took⟩ :: t) :=
      ⟨⟨trivial, ht.settled⟩, List.forall_mem_cons.mpr ⟨id, ht.issue⟩, ht.open_eq⟩
    simp only [bindPost, wp_bind, wp_call_behaviours, wp_ofExcept]
    rintro (exc | _) took' _
    · exact hfail exc trivial ⟨trivial, htoken.settled⟩ htoken.open_eq
    · cases hurl : subscriptionUrl request.subscriptionDomain rawToken with
      | error exc => exact hfail exc ⟨exc, hurl⟩ ⟨trivial, htoken.settled⟩ htoken.open_eq
      | ok url =>
        have hstored : Stage request [request.username] (⟨.state (.storeSubscriptionToken
            request.customerId rawToken), .ok (), took'⟩ ::
            ⟨.provider .tokenFactory, .ok rawToken, took⟩ :: t) := by
          refine ⟨⟨trivial, htoken.settled⟩, List.forall_mem_cons.mpr ⟨?_, htoken.issue⟩,
            htoken.open_eq⟩
          rintro ⟨exc, herror⟩
          rw [hurl] at herror
          cases herror
        refine Keeps.wp_bind (keeps_neutral rfl) (fun _ _ hs' => ?_) (fun _ _ hs' => ?_) hstored
        · exact Ended.judged ⟨_, hs'⟩
        · exact hs'

theorem keeps_notifyStep (runId : ℕ) :
    Keeps (behaviours bookkeepingReturns) (Stage request users) (notifyStep runId request) := by
  refine Keeps.bind (keeps_neutral rfl) fun _ => ?_
  refine Keeps.bind (Keeps.tryCatch (keeps_neutral rfl) fun _ => keeps_neutral rfl) fun _ => ?_
  exact keeps_neutral rfl

theorem provisionApplyGateway_wp {h : History port Exn} (hs : Stage request [request.username] h)
    (checkpoint : ProvisioningCheckpoint) :
    (provisionApplyGateway checkpoint request).wp (behaviours bookkeepingReturns) (fun
      | .ok _ => Ended request
      | .error _ => Judged request) h := by
  simp only [provisionApplyGateway, wp_bind]
  refine wp_mono _ _ ?_ (applyGatewayStep_wp hs checkpoint)
  rintro (exc | none | outcome) t ht
  · exact ht.judged
  · simp only [bindPost, wp_bind]
    refine wp_mono _ _ ?_ (issueSubscriptionStep_wp ht checkpoint.runId)
    rintro (exc | url) t' ht'
    · exact ht'
    · refine Keeps.wp_bind (keeps_notifyStep checkpoint.runId) (fun _ _ hs' => ?_)
        (fun _ _ hs' => ?_) ht'
      · exact Ended.judged ⟨_, hs'⟩
      · exact ⟨_, hs'⟩
  · exact ht

theorem keeps_markRun (runId : ℕ) {status : ProvisionStatus} (hstatus : status ≠ .failed)
    (error : Option String) :
    Keeps (behaviours bookkeepingReturns) (Stage request users)
      (runs (.markStatus runId status error)).suppress := by
  refine Keeps.suppress (keeps_neutral ?_)
  cases status with
  | failed => exact absurd rfl hstatus
  | _ => rfl

theorem judged_of_keeps {α : Type} {p : Saga α}
    (hp : Keeps (behaviours bookkeepingReturns) (Stage request users) p) {h : History port Exn}
    (hs : Stage request users h) : p.wp (behaviours bookkeepingReturns) (fun _ => Judged request) h :=
  wp_mono _ _ (fun _ _ hs' => Ended.judged ⟨_, hs'⟩) (hp h hs)

theorem failApplyGatewayLockAcquisition_wp {h : History port Exn}
    (hs : Stage request [request.username] h) (hr : rolledBack h = true)
    (checkpoint : ProvisioningCheckpoint) (error : Exn) :
    (failApplyGatewayLockAcquisition checkpoint request error).wp (behaviours bookkeepingReturns)
      (fun _ => Ended request) h := by
  simp only [failApplyGatewayLockAcquisition, alert, provider, perform, wp_bind, wp_suppress,
    wp_attempt, wp_call_behaviours, wp_ofExcept, bindPost]
  intro x took _ y took' _
  have hnotified := hs.neutral (e := ⟨.provider (.notifySend ⟨"GATEWAY_APPLY_FAILED",
    [("run_id", toString checkpoint.runId), ("user", request.username)]⟩), x, took⟩) rfl
  have hdisabled := Stage.disabled (.inr hnotified) y took'
  cases y with
  | error disableExc =>
    obtain ⟨open', hended⟩ := hdisabled
    refine Keeps.wp_bind (keeps_neutral rfl) (fun _ _ hs' => ?_) (fun _ _ hs' => ?_) hended
    · exact ⟨_, hs'⟩
    · exact ⟨_, hs'⟩
  | ok _ =>
    simp only [wp_bind]
    refine wp_mono _ _ ?_ (failed_wp hdisabled hr checkpoint.runId .applyGateway error)
    rintro (exc | _) t ht
    · exact ⟨[], ht⟩
    · exact ⟨[], ht⟩

end Stages

theorem fromCheckpoint_judged (request : ProvisionRequest)
    (next : ProvisioningCheckpoint → Saga Unit)
    (hnext : ∀ checkpoint h, Stage request [request.username] h →
      (next checkpoint).wp (behaviours bookkeepingReturns) (fun _ => Judged request) h) :
    (fromCheckpoint request next).wp (behaviours bookkeepingReturns) (fun _ => Judged request) [] := by
  simp only [fromCheckpoint, wp_bind]
  refine wp_mono _ _ ?_ (provisionPrepare_wp ⟨trivial, by simp, rfl⟩)
  rintro (exc | checkpoint | outcome) t ht
  · exact ht.judged
  · exact hnext checkpoint t ht
  · exact ht.judged

theorem provision_wp (request : ProvisionRequest) :
    (provision request).wp (behaviours bookkeepingReturns) (fun _ => Judged request) [] := by
  simp only [provision, wp_bind]
  refine wp_mono _ _ ?_ (provisionPrepare_wp ⟨trivial, by simp, rfl⟩)
  rintro (exc | checkpoint | outcome) t ht
  · exact ht.judged
  · simp only [bindPost, wp_bind]
    refine wp_mono _ _ ?_ (provisionApplyGateway_wp ht checkpoint)
    rintro (exc | outcome) t' ht'
    · exact ht'
    · obtain ⟨users, hs⟩ := ht'
      refine judged_of_keeps (Keeps.ite ?_ ?_) hs
      · exact Keeps.bind (keeps_markRun _ (by simp) _) fun _ => Keeps.ret _
      · exact Keeps.bind (keeps_markRun _ (by simp) _) fun _ => Keeps.ret _
  · obtain ⟨users, hs⟩ := ht
    exact judged_of_keeps (Keeps.bind (keeps_markRun _ (by simp) _) fun _ => Keeps.ret _) hs

theorem entry_judged (request : ProvisionRequest) (entry : Entry) :
    (entry.run request).wp (behaviours bookkeepingReturns) (fun _ => Judged request) [] := by
  cases entry with
  | provision =>
    simp only [Entry.run, wp_bind]
    refine wp_mono _ _ ?_ (provision_wp request)
    rintro (exc | outcome) t ht
    · exact ht
    · exact ht
  | prepareThenApplyGateway =>
    refine fromCheckpoint_judged request _ fun checkpoint h hs => ?_
    simp only [wp_bind]
    refine wp_mono _ _ ?_ (provisionApplyGateway_wp hs checkpoint)
    rintro (exc | outcome) t ht
    · exact ht
    · exact ht.judged
  | prepareThenFailBeforeGatewayAuthoritativeCommit error =>
    refine fromCheckpoint_judged request _ fun checkpoint h hs => ?_
    refine Keeps.wp_bind (keeps_neutral rfl) (fun _ _ hs' => Ended.judged ⟨_, hs'⟩)
      (fun _ t ht => ?_) hs
    simp only [wp_bind]
    refine wp_mono _ _ ?_ (compensateCreatedAccountingUser_wp (.inr ht) checkpoint.runId error)
    rintro (exc | outcome) t' hend
    · exact hend.judged
    · exact hend.judged
  | prepareThenFailApplyGatewayLockAcquisition error =>
    refine fromCheckpoint_judged request _ fun checkpoint h hs => ?_
    simp only [rollbackDatabase, rollback, session, perform, wp_bind, wp_call_behaviours, wp_ofExcept]
    intro x took _
    have hs' := hs.neutral (e := ⟨.session .rollback, x, took⟩) rfl
    cases x with
    | error exc => exact Ended.judged ⟨_, hs'⟩
    | ok _ =>
      simp only [bindPost, wp_bind]
      refine wp_mono _ _ ?_ (failApplyGatewayLockAcquisition_wp hs' rfl checkpoint error)
      rintro (exc | outcome) t' hend
      · exact hend.judged
      · exact hend.judged

/-- FAILED means fully compensated, in every execution of every entry, exactly when
the failure handler of ISSUE_SUBSCRIPTION does not come to its FAILED write. -/
theorem failed_run_compensated_iff (request : ProvisionRequest) (entry : Entry)
    (r : Except Exn Unit) (h : History port Exn)
    (hrun : (entry.run request).Exec (behaviours bookkeepingReturns) [] r h) :
    History.Always compensated h ↔ IssueHarmless request h :=
  exec_of_wp (entry_judged request entry) hrun

/-- An answer to each call with which a first purchase goes through. -/
def calmAnswer : (c : Call) → Except Exn c.Answer
  | .provider c => c.calm
  | .runs (.start _) => .ok (7 : ℕ)
  | .runs (.recordStep ..) => .ok ()
  | .runs (.recordExternalId ..) => .ok ()
  | .runs (.markStatus ..) => .ok ()
  | .runs (.markNotificationFailed ..) => .ok ()
  | .state (.rejectCapacity ..) => .ok ()
  | .state (.allocateEndpoint _) => .ok ⟨3, "198.51.100.7", 1080, "socks5", none⟩
  | .state (.saveCredentials ..) => .ok "webshare/subuser/1/egress/3"
  | .state .currentForwarderState => .ok ⟨[]⟩
  | .state (.desiredForwarderState ..) => .ok ⟨[]⟩
  | .state (.desiredRoutingState ..) => .ok ⟨[], []⟩
  | .state (.storeSubscriptionToken ..) => .ok ()
  | .orders _ => .ok ()
  | .session .commit => .ok ()
  | .session .rollback => .ok ()
  | .session .acquireLock => .ok ()
  | .session .releaseLock => .ok ()
  | .session _ => .error ⟨.runtimeError, "not part of the saga"⟩

def firstPurchase : ProvisionRequest := ⟨1, 1, "sub-1", .ofInt 10, 1, none, "sub.example.com"⟩

/-- The token factory raises, and everything else goes well. -/
def tokenFactoryDown (c : Call) (_ : History port Exn) : Except Exn c.Answer × Bool :=
  match c with
  | .provider .tokenFactory => (.error ⟨.other "OSError", "no entropy"⟩, false)
  | c => (calmAnswer c, true)

instance (e : Event port Exn) (past : History port Exn) : Decidable (compensated e past) := by
  unfold compensated
  split <;> infer_instance

instance (e : Event port Exn) (past : History port Exn) : Decidable (bookkeepingReturns e past) := by
  unfold bookkeepingReturns
  split <;> infer_instance

theorem failed_issue_leaves_the_user_open :
    ∃ request entry r h, (Entry.run request entry).Exec (behaviours bookkeepingReturns) [] r h ∧
      ¬ History.Always compensated h := by
  refine ⟨firstPurchase, .provision, _, _, exec_recorder tokenFactoryDown _ ?_, ?_⟩
  · decide
  · decide

/-- The gateway cannot be reached, and the account is disabled again. -/
def gatewayDown (c : Call) (_ : History port Exn) : Except Exn c.Answer × Bool :=
  match c with
  | .provider (.gatewayApply _) => (.error ⟨.other "OSError", "unreachable"⟩, false)
  | c => (calmAnswer c, true)

theorem failed_run_compensated_iff_gateway_down :
    History.Always compensated
        ((recorder port Exn).run gatewayDown (Entry.run firstPurchase .provision) []).2 ↔
      IssueHarmless firstPurchase
        ((recorder port Exn).run gatewayDown (Entry.run firstPurchase .provision) []).2 := by
  refine failed_run_compensated_iff firstPurchase .provision _ _
    (exec_recorder (S := port) gatewayDown _ ?_)
  decide

end Lingsway.Domain
