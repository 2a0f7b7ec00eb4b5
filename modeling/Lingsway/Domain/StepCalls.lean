import Lingsway.Domain.Provisioning

/-!
# What each step of the saga calls

A step records its own progress and calls the collaborators of its own. What a
run leaves alone is read off the steps that are in it.
-/
namespace Lingsway.Domain

open Library Saga Program

/-- Calls that a step of the saga makes, with those of its failure handlers. -/
def belongs (step : ProvisionStep) : Call → Bool
  | .session .rollback => true
  | .provider (.notifySend _) => true
  | .runs (.recordStep _ step' _) => step' = step
  | .runs _ => true
  | .provider .capacity => step = .capacity
  | .state (.rejectCapacity ..) => step = .capacity
  | .state (.allocateEndpoint _) => step = .allocateEndpoint
  | .provider (.createTenant ..) => step = .createTenant
  | .provider (.getCredentials ..) => step = .storeCredentials
  | .state (.saveCredentials ..) => step = .storeCredentials
  | .state .currentForwarderState => step = .applyForwarder
  | .state (.desiredForwarderState ..) => step = .applyForwarder
  | .provider (.forwarderRender _) => step = .applyForwarder
  | .provider (.forwarderApply _) => step = .applyForwarder
  | .provider (.createUser ..) => step = .createAccountingUser
  | .provider (.disableUser _) => step = .createAccountingUser || step = .applyGateway
  | .state (.desiredRoutingState ..) => step = .applyGateway
  | .provider (.gatewayRender _) => step = .applyGateway
  | .provider (.gatewayValidate _) => step = .applyGateway
  | .provider (.gatewayApply _) => step = .applyGateway
  | .provider .tokenFactory => step = .issueSubscription
  | .state (.storeSubscriptionToken ..) => step = .issueSubscription
  | _ => false

abbrev StepCalls {α : Type} (step : ProvisionStep) (p : Saga α) : Prop :=
  p.Calls (S := port) fun c => belongs step c = true

/-- Every step that is in `p` satisfies `q`, and so do all its calls. -/
theorem StepCalls.to {α : Type} {step : ProvisionStep} {p : Saga α} {q : Call → Bool} (hp : StepCalls step p)
    (hq : ∀ c, belongs step c = true → q c = true) : p.Calls (S := port) fun c => q c = true := by
  induction p with
  | ret a => trivial
  | raise e => trivial
  | call c next ih => exact ⟨hq c hp.1, fun x => ih x (hp.2 x)⟩

variable {request : ProvisionRequest} {step : ProvisionStep}

theorem calls_perform {c : Call} (hc : belongs step c = true) : StepCalls step (perform (S := port) c : Saga c.Answer) :=
  Calls.perform hc

theorem calls_record (runId : ℕ) (status : String) : StepCalls step (runs (.recordStep runId step status)) :=
  calls_perform (by simp [belongs])

theorem calls_alert (eventType : String) (payload : List (String × String)) : StepCalls step (alert eventType payload) :=
  (calls_perform rfl).suppress

theorem calls_failed (runId : ℕ) (error : Exn) : StepCalls step (failed runId step error) :=
  Calls.bind (calls_record runId _) fun _ => calls_perform rfl

theorem calls_failStep {α : Type} (runId : ℕ) (error : Exn) : StepCalls step (failStep runId step error : Saga α) :=
  Calls.bind (calls_perform rfl) fun _ => Calls.bind (calls_failed runId error) fun _ => Calls.raise error

theorem calls_capacityStep (runId : ℕ) : StepCalls .capacity (capacityStep runId request) := by
  refine Calls.bind (calls_record runId _) fun _ => ?_
  refine Calls.bind (Calls.bind (calls_perform rfl) fun _ => Calls.ofExcept _).attempt ?_
  rintro (exc | _)
  · refine Calls.ite ?_ (Calls.raise exc)
    refine Calls.bind (calls_perform rfl) fun _ => ?_
    exact Calls.bind (calls_alert _ _) fun _ => calls_failStep _ _
  · exact calls_record runId _

theorem calls_allocateEndpointStep (runId : ℕ) : StepCalls .allocateEndpoint (allocateEndpointStep runId request) := by
  refine Calls.bind (calls_record runId _) fun _ => ?_
  refine Calls.bind (calls_perform rfl).attempt ?_
  rintro (exc | endpoint)
  · exact calls_failStep _ _
  · exact Calls.bind (calls_record runId _) fun _ => Calls.ret endpoint

theorem calls_recordUnconfirmedTenant (runId : ℕ) (exc : Exn) : StepCalls .createTenant (recordUnconfirmedTenant runId exc) := by
  unfold recordUnconfirmedTenant
  split
  · exact calls_perform rfl
  · exact Calls.ret _

theorem calls_createTenantStep (runId : ℕ) : StepCalls .createTenant (createTenantStep runId request) := by
  refine Calls.bind (calls_record runId _) fun _ => ?_
  refine Calls.bind (calls_perform rfl).attempt ?_
  rintro (exc | tenant)
  · refine Calls.bind (calls_recordUnconfirmedTenant runId exc) fun _ => ?_
    exact Calls.bind (calls_record runId _) fun _ => Calls.ret _
  · refine Calls.bind (calls_perform rfl) fun _ => ?_
    exact Calls.bind (calls_record runId _) fun _ => Calls.ret _

theorem calls_storeCredentialsStep (runId : ℕ) (endpoint : EgressEndpointDTO) (tenant : TenantDTO) :
    StepCalls .storeCredentials (storeCredentialsStep runId endpoint tenant) := by
  refine Calls.bind (calls_record runId _) fun _ => ?_
  have hstore : StepCalls .storeCredentials (do
      let credential ← provider (.getCredentials tenant.tenantId endpoint.endpointId)
      state (.saveCredentials tenant endpoint credential) : Saga String) :=
    Calls.bind (calls_perform rfl) fun _ => calls_perform rfl
  refine Calls.bind hstore.attempt ?_
  rintro (exc | secretRef)
  · exact calls_failStep _ _
  · exact Calls.bind (calls_record runId _) fun _ => Calls.ret secretRef

theorem calls_renderAndApplyForwarder (desired : DesiredForwarderState) :
    StepCalls .applyForwarder (renderAndApplyForwarder desired) :=
  Calls.bind (calls_perform rfl) fun _ => Calls.bind (calls_perform rfl) fun _ => Calls.ret _

theorem calls_applyForwarderStep (runId : ℕ) (endpoint : EgressEndpointDTO) (tenant : TenantDTO) (secretRef : String) :
    StepCalls .applyForwarder (applyForwarderStep runId endpoint tenant secretRef) := by
  refine Calls.bind (calls_record runId _) fun _ => ?_
  refine Calls.bind (calls_perform rfl) fun previous => ?_
  have happly : StepCalls .applyForwarder
      (state (.desiredForwarderState endpoint tenant secretRef) >>= renderAndApplyForwarder) :=
    Calls.bind (calls_perform rfl) calls_renderAndApplyForwarder
  refine Calls.bind happly.attempt ?_
  rintro (exc | _)
  · refine Calls.bind (calls_renderAndApplyForwarder previous).attempt ?_
    rintro (restoreExc | _)
    · exact Calls.bind (calls_record runId _) fun _ => Calls.ret _
    · exact calls_failStep _ _
  · exact Calls.bind (calls_record runId _) fun _ => Calls.ret _

theorem calls_createValidatedUser : StepCalls .createAccountingUser (createValidatedUser request) := by
  refine Calls.bind (Calls.ofExcept _) fun quotaBytes => ?_
  refine Calls.bind (calls_perform rfl) fun accountUser => ?_
  exact Calls.ite (Calls.raise _) (Calls.ite (Calls.raise _) (Calls.ret _))

theorem calls_compensateCreatedAccountingUser (runId : ℕ) (exc : Exn) :
    StepCalls .createAccountingUser (compensateCreatedAccountingUser runId request exc) := by
  refine Calls.bind (calls_perform rfl).attempt ?_
  rintro (disableExc | _)
  · exact Calls.bind (calls_record runId _) fun _ => Calls.ret _
  · exact calls_failStep _ _

theorem calls_createAccountingUserStep (runId : ℕ) : StepCalls .createAccountingUser (createAccountingUserStep runId request) := by
  refine Calls.bind (calls_record runId _) fun _ => ?_
  refine Calls.bind calls_createValidatedUser.attempt ?_
  rintro (exc | accountUser)
  · have hcompensate := Calls.bind (@calls_compensateCreatedAccountingUser request runId exc)
      fun outcome => Calls.ret (S := port) (ε := Exn) (Sum.inr (α := AccountUserDTO) outcome)
    dsimp only
    split
    · exact calls_failStep _ _
    · exact Calls.bind (calls_record runId _) fun _ => Calls.ret _
    · exact hcompensate
  · exact Calls.bind (calls_record runId _) fun _ => Calls.ret _

theorem calls_applyGatewayStep (checkpoint : ProvisioningCheckpoint) : StepCalls .applyGateway (applyGatewayStep checkpoint request) := by
  have hrender : StepCalls .applyGateway (renderAndApplyGateway checkpoint request) := by
    refine Calls.bind (calls_perform rfl) fun desired => ?_
    refine Calls.bind (calls_perform rfl) fun candidate => ?_
    refine Calls.bind (calls_perform rfl) fun validation => ?_
    exact Calls.ite (Calls.raise _) (Calls.bind (calls_perform rfl) fun _ => Calls.ret _)
  refine Calls.bind (calls_record _ _) fun _ => ?_
  refine Calls.bind hrender.attempt ?_
  rintro (exc | _)
  · refine Calls.bind (calls_alert _ _) fun _ => ?_
    refine Calls.bind (calls_perform rfl).attempt ?_
    rintro (disableExc | _)
    · exact Calls.bind (calls_record _ _) fun _ => Calls.ret _
    · exact calls_failStep _ _
  · exact Calls.bind (calls_record _ _) fun _ => Calls.ret _

theorem calls_issueSubscriptionStep (runId : ℕ) : StepCalls .issueSubscription (issueSubscriptionStep runId request) := by
  refine Calls.bind (calls_record runId _) fun _ => ?_
  refine Calls.bind (Calls.bind (calls_perform rfl) fun rawToken =>
    Calls.bind (calls_perform rfl) fun _ => Calls.ofExcept _).attempt ?_
  rintro (exc | url)
  · exact calls_failStep _ _
  · exact Calls.bind (calls_record runId _) fun _ => Calls.ret url

theorem calls_notifyStep (runId : ℕ) : StepCalls .notify (notifyStep runId request) := by
  refine Calls.bind (calls_record runId _) fun _ => ?_
  refine Calls.bind (Calls.tryCatch (calls_perform rfl) fun _ => calls_perform rfl) fun _ => ?_
  exact calls_record runId _

end Lingsway.Domain
