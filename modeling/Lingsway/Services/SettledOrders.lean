import Lingsway.Services.Settlement

/-!
# Every end of a paid order

What the transactions and the marks of the workflow add to the steps, on the path
with one business transaction and on the durable one.
-/
namespace Lingsway.Services

open Library Saga Program Domain

section Ends

variable {durable : Bool} {hold : Hold} {ph : Phase} {h : History port Exn} {command : BillingCommand}
variable {request : ProvisionRequest}

theorem orders_ends {c : OrderCall} (hstages : ∀ v, verdict c = some v → Stages durable ph v) (hs : At durable ph h) :
    (orders c).wp anyAnswers (Ends (At durable ph) fun _ => At durable (ph.stage (verdict c))) h := by
  have hcall : ∀ x took, ordered durable ⟨.orders c, x, took⟩ h := by
    intro x took v hv
    rw [hs.phase]
    exact hstages v hv
  exact ends_perform (fun _ _ => ⟨⟨hcall _ _, hs.ordered⟩, congrArg (Phase.stage · (verdict c)) hs.phase⟩)
    (fun _ _ => ⟨⟨hcall _ _, hs.ordered⟩, hs.phase⟩) rfl

theorem rollback_ends (hs : At durable ph h) :
    (session .rollback).wp anyAnswers (Ends (At durable ph.rollback) fun _ t => At durable ph.rollback t ∧ rolledBack t = true) h :=
  ends_perform (fun _ _ => ⟨⟨⟨trivial, hs.ordered⟩, congrArg Phase.rollback hs.phase⟩, rfl⟩)
    (fun _ _ => ⟨⟨trivial, hs.ordered⟩, congrArg Phase.rollback hs.phase⟩) rfl

/-- Rolled back, whether the rollback returned or raised. -/
theorem suppressed_rollback_ends {E : History port Exn → Prop} (hs : At durable ph h) :
    rollback.suppress.wp anyAnswers (Ends E fun _ => At durable ph.rollback) h := by
  rw [wp_suppress]
  refine wp_mono _ _ ?_ (rollback_ends hs)
  rintro (exc | _) t ht
  · exact ht.1
  · exact ht.1

theorem commit_ends (hs : At durable ph h) :
    (session .commit).wp anyAnswers (Ends (At durable ph) fun _ => At durable ph.commit) h :=
  ends_perform (fun _ _ => ⟨⟨trivial, hs.ordered⟩, congrArg Phase.commit hs.phase⟩)
    (fun _ _ => ⟨⟨trivial, hs.ordered⟩, hs.phase⟩) rfl

/-- A transaction commits what its body stages, or leaves nothing staged. -/
theorem transaction_ends {body : Saga Unit} {v : Option Verdict}
    (hbody : body.wp anyAnswers (Ends (At durable ph) fun _ => At durable (ph.stage v)) h) :
    (transaction body).wp anyAnswers (Ends (At durable ph.rollback) fun _ => At durable (ph.stage v).commit) h := by
  rw [transaction, wp_tryCatch]
  have hboth : (do body; commit : Saga Unit).wp anyAnswers
      (Ends (fun t => At durable ph t ∨ At durable (ph.stage v) t) fun _ => At durable (ph.stage v).commit) h :=
    ends_bind (ends_mono hbody (fun _ ht => .inl ht) fun _ _ ht => ht) fun _ t ht _ =>
      ends_mono (commit_ends ht) (fun _ hu => .inr hu) fun _ _ hu => hu
  refine wp_mono _ _ ?_ hboth
  rintro (exc | _) t ht
  · obtain ⟨ht, hb⟩ := ht
    rw [catchPost_error]
    refine ends_bind (J := fun _ => At durable ph.rollback) ?_ fun _ u hu hgrown => ⟨hu, hb.of_suffix hgrown⟩
    obtain ht | ht := ht
    · exact ends_mono (rollback_ends ht) (fun _ hu => hu) fun _ _ hu => hu.1
    · exact ends_mono (rollback_ends ht) (fun _ hu => hu) fun _ _ hu => hu.1
  · exact ht

def Phase.mark (ph : Phase) (status : ProvisionStatus) : Phase := { ph with marked := some status }

theorem mark_ends {status : ProvisionStatus} (hs : At durable ph h) (hmarks : Marks ph (rolledBack h) status)
    (honce : ph.marked = none ∨ ph.marked = some status ∨ disturbed h = true) (runId : ℕ) (error : Option String) :
    (runs (.markStatus runId status error)).wp anyAnswers
      (Ends (At durable (ph.mark status)) fun _ => At durable (ph.mark status)) h := by
  have hcall : ∀ x took, At durable (ph.mark status) (⟨.runs (.markStatus runId status error), x, took⟩ :: h) := by
    intro x took
    refine ⟨⟨?_, hs.ordered⟩, congrArg (Phase.mark · status) hs.phase⟩
    rw [← hs.phase] at hmarks honce
    exact ⟨hmarks, honce⟩
  exact ends_perform (fun _ _ => hcall _ _) (fun _ _ => hcall _ _) rfl

theorem suppressed_mark_ends {E : History port Exn → Prop} {status : ProvisionStatus} (hs : At durable ph h)
    (hmarks : Marks ph (rolledBack h) status)
    (honce : ph.marked = none ∨ ph.marked = some status ∨ disturbed h = true) (runId : ℕ) (error : Option String) :
    (runs (.markStatus runId status error)).suppress.wp anyAnswers (Ends E fun _ => At durable (ph.mark status)) h := by
  rw [wp_suppress]
  refine wp_mono _ _ ?_ (mark_ends hs hmarks honce runId error)
  rintro (exc | _) t ht
  · exact ht.1
  · exact ht

/-- The phase of a purchase whose rows and whose run say that it is pending. -/
def Phase.settle (ph : Phase) (v : Verdict) : Phase := (ph.stage (some v)).commit

theorem pending_ends {E : History port Exn → Prop} (hE : ∀ t, At durable ph.rollback t → E t) (hs : At durable ph h)
    (hstages : Stages durable ph .pending) (message : String) :
    (transaction (orders (.markProvisionPending command message))).wp anyAnswers
      (Ends E fun _ => At durable (ph.settle .pending)) h := by
  refine ends_mono (transaction_ends (v := some .pending) (orders_ends ?_ hs)) hE fun _ _ ht => ht
  rintro v ⟨⟩
  exact hstages

theorem failed_purchase_ends {E : History port Exn → Prop} (hE : ∀ t, At durable ph.rollback t → E t)
    (hs : At durable ph h) (hstages : Stages durable ph .failed) (message : String) :
    (transaction (failPaidPurchase command message)).wp anyAnswers
      (Ends E fun _ => At durable (ph.settle .failed)) h := by
  refine ends_mono (transaction_ends (v := some .failed) (orders_ends ?_ hs)) hE fun _ _ ht => ht
  rintro v ⟨⟩
  exact hstages

theorem mark_pending_ends {E : History port Exn → Prop} (hs : At durable (ph.settle .pending) h)
    (honce : ph.marked = none ∨ ph.marked = some .pendingManual ∨ disturbed h = true) (runId : ℕ) (error : Option String) :
    (markRunPendingManual runId error).wp anyAnswers
      (Ends E fun _ => At durable ((ph.settle .pending).mark .pendingManual)) h := by
  have hmarks : Marks (ph.settle .pending) (rolledBack h) .pendingManual := rfl
  exact suppressed_mark_ends hs hmarks honce runId error

/-- The end of the workflow of a purchase. -/
def Done (durable : Bool) (r : Except Exn ProvisionOutcome) (h : History port Exn) : Prop :=
  History.Always (ordered durable) h ∧ Agrees durable (phase h) (r.map some)

theorem done_bind {α : Type} {E : History port Exn → Prop} {J : α → History port Exn → Prop} {p : Saga α}
    {f : α → Saga ProvisionOutcome} (hp : p.wp anyAnswers (Ends E J) h) (herror : ∀ exc t, E t → Done durable (.error exc) t)
    (hf : ∀ a t, J a t → h <:+ t → (f a).wp anyAnswers (Done durable) t) : (p >>= f).wp anyAnswers (Done durable) h := by
  rw [wp_bind]
  refine wp_mono _ _ ?_ (wp_grown hp)
  rintro (exc | a) t ⟨ht, hgrown⟩
  · exact herror exc t ht.1
  · exact hf a t ht hgrown

theorem At.raised (hs : At durable ph h) (hsettled : ph.settled = none ∨ ph.settled = some .failed ∨ ph.releaseRaised = true)
    (exc : Exn) : Done durable (.error exc) h := by
  refine ⟨hs.ordered, ?_⟩
  rw [hs.phase]
  exact hsettled

theorem Broken.raised (hs : Broken durable hold h) (exc : Exn) : Done durable (.error exc) h := ⟨hs.ordered, .inl hs.settled⟩

/-- What the outer handlers of the locked section find. -/
structure Failing (durable : Bool) (exc : Exn) (ph : Phase) (h : History port Exn) : Prop extends At durable ph h where
  hold : ph.hold = .gone
  unsettled : ph.settled = none ∨ ph.releaseRaised = true
  evidence : ph.stored = true → (.storeCredentials ∈ ph.committed ↔ ph.settled ≠ none)
  marked : ph.marked = none ∨ ph.marked = some .failed ∨ disturbed h = true
  blamed : exc.cls = .gatewayRouteBindingLockError → ph.marked = none ∨ disturbed h = true

theorem At.pendingDone {ph' : Phase} {outcome : ProvisionOutcome} (hs : At durable ((ph'.settle .pending).mark .pendingManual) h)
    (hstatus : outcome.status = .pendingManual) : Done durable (.ok outcome) h := by
  refine ⟨hs.ordered, ?_⟩
  rw [hs.phase, Except.map, Agrees, hstatus]
  exact ⟨rfl, rfl⟩

/-- The locked section delivers the purchase or leaves it pending, with what it has reached. -/
def Delivered (durable : Bool) (outcome : ProvisionOutcome) (h : History port Exn) : Prop :=
  (outcome.status = .succeeded ∧ At durable (((Phase.working everyEffect .held).settle .active).mark .succeeded) h) ∨
    (outcome.status = .pendingManual ∧
      ∃ steps, At durable (((Phase.working steps .held).settle .pending).mark .pendingManual) h)

theorem At.released (hs : At durable ph h) (took : Bool) :
    At durable (ph.release false) (⟨.session .releaseLock, .ok (), took⟩ :: h) :=
  ⟨⟨trivial, hs.ordered⟩, congrArg (Phase.release · false) hs.phase⟩

theorem At.releaseRaised (hs : At durable ph h) (exc : Exn) (took : Bool) :
    At durable (ph.release true) (⟨.session .releaseLock, .error exc, took⟩ :: h) :=
  ⟨⟨trivial, hs.ordered⟩, congrArg (Phase.release · true) hs.phase⟩

theorem disturbed_release (exc : Exn) (took : Bool) : disturbed (⟨.session .releaseLock, .error exc, took⟩ :: h) = true := rfl

theorem Broken.failing (hs : Broken durable .held h) {exc : Exn} (hb : Blamed exc h) (took : Bool) :
    Failing durable exc ((phase h).release false) (⟨.session .releaseLock, .ok (), took⟩ :: h) := by
  have hat : At durable (phase h) h := ⟨hs.ordered, rfl⟩
  refine ⟨hat.released took, rfl, .inl hs.settled, fun _ => ?_, ?_, fun hcls => .inr ((hb.cons _) hcls)⟩
  · simp [Phase.release, hs.committed, hs.settled]
  · exact hs.marked.imp_right .inl

theorem At.failing_release (hs : At durable ph h) (hevidence : ph.stored = true →
      (.storeCredentials ∈ ph.committed ↔ ph.settled ≠ none)) (exc : Exn) (took : Bool) :
    Failing durable exc (ph.release true) (⟨.session .releaseLock, .error exc, took⟩ :: h) :=
  ⟨hs.releaseRaised exc took, rfl, .inr (Bool.or_true _), hevidence, .inr (.inr (disturbed_release exc took)),
    fun _ => .inr (disturbed_release exc took)⟩

theorem Delivered.released {outcome : ProvisionOutcome} (hs : Delivered false outcome h) (took : Bool) :
    Done false (.ok outcome) (⟨.session .releaseLock, .ok (), took⟩ :: h) := by
  obtain ⟨hstatus, hs⟩ | ⟨hstatus, steps, hs⟩ := hs
  · refine ⟨(hs.released took).ordered, ?_⟩
    rw [(hs.released took).phase, Except.map, Agrees, hstatus]
    exact .inr ⟨rfl, rfl⟩
  · refine ⟨(hs.released took).ordered, ?_⟩
    rw [(hs.released took).phase, Except.map, Agrees, hstatus]
    exact ⟨rfl, rfl⟩

theorem Delivered.failing {outcome : ProvisionOutcome} (hs : Delivered durable outcome h) (exc : Exn) (took : Bool) :
    ∃ ph, Failing durable exc ph (⟨.session .releaseLock, .error exc, took⟩ :: h) := by
  obtain ⟨-, hs⟩ | ⟨-, steps, hs⟩ := hs
  · exact ⟨_, hs.failing_release (fun _ => iff_of_true (by decide) nofun) exc took⟩
  · exact ⟨_, hs.failing_release (fun hstored => iff_of_true (of_decide_eq_true hstored) nofun) exc took⟩

/-- The program raises, and leaves `E`. -/
def Raises {α : Type} (E : History port Exn → Prop) : Except Exn α → History port Exn → Prop
  | .ok _, _ => False
  | .error _, h => E h

theorem failStep_raises {α : Type} (hs : Broken durable hold h) (runId : ℕ) (step : ProvisionStep) (error : Exn) :
    (failStep runId step error : Saga α).wp anyAnswers (Raises (Broken durable hold)) h := by
  rw [failStep, wp_bind, rollbackDatabase, rollback, session, perform, wp_call_behaviours]
  intro x took _
  rw [wp_ofExcept]
  cases x with
  | error exc => exact hs.rollback _ _
  | ok _ =>
    rw [bindPost_ok, wp_bind]
    refine wp_mono _ _ ?_ (failed_ends (hs.rollback _ _) rfl runId step error)
    rintro (exc | _) t ht
    · exact ht.1
    · exact ht

/-- The user is disabled, or the purchase becomes pending without what has been rolled back. -/
theorem handlePreGatewayFailure_done (hs : At true ph h) (hph : ph.Unsettled hold) (hhold : hold ≠ .untried)
    (hreached : ph.reached = []) (checkpoint : ProvisioningCheckpoint) (error : Exn) :
    (handlePreGatewayFailure command checkpoint request error).wp anyAnswers (Done true) h := by
  have hstages : Stages true ph .pending := by
    refine ⟨.inl hph.settled, fun _ => ?_⟩
    simp [hreached, hph.hold, hhold, hph.settled]
  have hfailed : ∀ exc t, Broken true hold t → (do
      transaction (failPaidPurchase command error.typeName)
      .raise exc : Saga ProvisionOutcome).wp anyAnswers (Done true) t := by
    intro exc t ht
    refine done_bind (failed_purchase_ends (fun _ hu => hu) ⟨ht.ordered, rfl⟩ (.inl ht.settled) _)
      (fun _ _ hu => hu.raised (.inl ht.settled) _) fun _ u hu _ => hu.raised (.inr (.inl rfl)) _
  rw [handlePreGatewayFailure, wp_bind, wp_attempt, failBeforeGatewayAuthoritativeCommit,
    compensateCreatedAccountingUser, wp_bind, wp_attempt]
  refine wp_mono _ _ ?_ (disableUser_ends hs (.inl hph.settled) request.username)
  rintro (disableExc | _) t ht
  · rw [bindPost_ok, wp_bind]
    refine wp_mono _ _ ?_ (ends_record (E := Broken true hold) (fun _ hu => hu.broken_of hph) ht.1 _ _ _)
    rintro (exc | _) u hu
    · exact hfailed exc u hu.1
    · rw [bindPost_ok, wp_pure, bindPost_ok]
      refine done_bind (pending_ends (fun _ hv => hv) hu hstages _) (fun _ _ hv => hv.raised (.inl hph.settled) _) ?_
      intro _ v hv _
      refine done_bind (E := At true ph) (mark_pending_ends hv (.inl hph.marked) _ _)
        (fun _ _ hw => hw.raised (.inl hph.settled) _) fun _ w hw _ => ?_
      exact hw.pendingDone rfl
  · rw [bindPost_ok]
    refine wp_mono _ _ ?_ (failStep_raises (ht.broken_of hph) _ _ _)
    rintro (exc | outcome) u hu
    · exact hfailed exc u hu
    · exact hu.elim

/-- Nothing is staged, settled or marked, and there is no step in progress. -/
structure Resting (durable : Bool) (h : History port Exn) : Prop where
  ordered : History.Always (ordered durable) h
  staged : (phase h).staged = none
  settled : (phase h).settled = none
  marked : (phase h).marked = none

/-- Calls without a verdict, a mark or a compensation. -/
def silent : Call → Bool
  | .provider (.disableUser _) => false
  | .runs (.markStatus ..) => false
  | .orders c => verdict c = none
  | _ => true

abbrev Silent {α : Type} (p : Saga α) : Prop := p.Calls (S := port) fun c => silent c = true

theorem after_silent {e : Event port Exn} (he : silent e.call = true) (hstaged : ph.staged = none) :
    (ph.after e).staged = none ∧ (ph.after e).settled = ph.settled ∧ (ph.after e).marked = ph.marked := by
  obtain ⟨c, x, took⟩ := e
  rcases c with c | c | c | c | c
  · cases c <;> cases x <;> exact ⟨hstaged, rfl, rfl⟩
  · cases c <;> first | (cases x <;> exact ⟨hstaged, rfl, rfl⟩) | cases he
  · cases c <;> cases x <;> exact ⟨hstaged, rfl, rfl⟩
  · have hplain : plain (Call.orders c) = true := he
    rw [after_plain (e := ⟨.orders c, x, took⟩) hplain]
    exact ⟨hstaged, rfl, rfl⟩
  · cases c with
    | commit =>
      cases x with
      | error exc => exact ⟨hstaged, rfl, rfl⟩
      | ok _ => exact ⟨rfl, by simp only [Phase.after, Phase.commit, hstaged]; rfl, rfl⟩
    | rollback => exact ⟨rfl, rfl, rfl⟩
    | _ => cases x <;> exact ⟨hstaged, rfl, rfl⟩

theorem ordered_silent {e : Event port Exn} (he : silent e.call = true) (past : History port Exn) :
    ordered durable e past := by
  obtain ⟨c, x, took⟩ := e
  rcases c with c | c | c | c | c
  · cases c <;> trivial
  · cases c <;> trivial
  · trivial
  · have hplain : plain (Call.orders c) = true := he
    exact ordered_plain (e := ⟨.orders c, x, took⟩) hplain past
  · trivial

theorem Resting.silent (hs : Resting durable h) {e : Event port Exn} (he : silent e.call = true) :
    Resting durable (e :: h) := by
  obtain ⟨hstaged, hsettled, hmarked⟩ := after_silent he hs.staged
  exact ⟨⟨ordered_silent he h, hs.ordered⟩, hstaged, hsettled.trans hs.settled, hmarked.trans hs.marked⟩

theorem Resting.raised (hs : Resting durable h) (exc : Exn) : Done durable (.error exc) h := ⟨hs.ordered, .inl hs.settled⟩

theorem Resting.running (hs : Resting true h) (checkpoint : ProvisioningCheckpoint) :
    Done true (.ok (running checkpoint)) h := ⟨hs.ordered, rfl, hs.settled, hs.marked⟩

open Infra

theorem silent_session (c : SessionCall) : Silent (session c) := Calls.perform rfl

theorem silent_commit : Silent commit := Calls.perform rfl

theorem silent_when (b : Bool) {p : Saga Unit} (hp : Silent p) : Silent (when b p) := by
  unfold when
  exact Calls.ite hp (Calls.ret _)

theorem silent_payloadSubscription (payload : GatewayPayload) : Silent (payloadSubscription payload) := by
  unfold payloadSubscription
  split
  · exact Calls.bind (silent_session _) fun _ => Calls.ret _
  · exact Calls.ret _

theorem silent_updatePayloadRun (payload : GatewayPayload) (change : Job → Job) : Silent (updatePayloadRun payload change) := by
  unfold updatePayloadRun
  split
  · exact Calls.bind (silent_session _) fun _ => silent_when _ (silent_session _)
  · exact Calls.ret _

theorem silent_auditSubscription (action : String) (id : ℕ) (result detail : String) :
    Silent (auditSubscription action id result detail) := silent_session _

theorem silent_writeFailure (jobId : ℕ) (job : Job) (payload : GatewayPayload) (subscription : Option ℕ)
    (reasonCode : String) (now : Timestamp) : Silent (writeFailure jobId job payload subscription reasonCode now) := by
  refine Calls.bind (silent_session _) fun _ => ?_
  refine Calls.bind (silent_when _ (silent_updatePayloadRun _ _)) fun _ => ?_
  split
  · exact Calls.bind (silent_session _) fun _ => silent_auditSubscription _ _ _ _
  · exact Calls.ret _

theorem silent_recordFailure (jobId : ℕ) (error : Exn) (now : Timestamp) : Silent (recordFailure jobId error now) := by
  refine Calls.bind (silent_session _) fun _ => ?_
  refine Calls.bind (silent_session _) ?_
  rintro (_ | job)
  · exact Calls.raise _
  · refine Calls.bind (Calls.ofExcept _) fun payload => ?_
    refine Calls.bind (silent_payloadSubscription payload) fun _ => ?_
    refine Calls.bind (silent_writeFailure _ _ _ _ _ _) fun _ => ?_
    exact Calls.bind silent_commit fun _ => Calls.ret _

theorem silent_finalize (jobId : ℕ) (payload : GatewayPayload) : Silent (finalize jobId payload) := by
  have horNow : ∀ t, Silent (orNow t) := by
    rintro (_ | t)
    · exact Calls.perform rfl
    · exact Calls.ret _
  have hpurchase : ∀ id, Silent (finalizePurchase id payload) := by
    intro id
    unfold finalizePurchase
    split
    · refine Calls.bind (silent_session _) ?_
      rintro (_ | order)
      · exact Calls.raise _
      · refine Calls.bind (horNow _) fun _ => ?_
        exact Calls.bind (silent_session _) fun _ => silent_session _
    · exact Calls.raise _
  unfold finalize
  split
  · refine Calls.bind (silent_session _) ?_
    rintro (_ | subscription)
    · exact Calls.raise _
    · refine Calls.bind (silent_when _ (hpurchase _)) fun _ => ?_
      refine Calls.bind (silent_session _) fun _ => ?_
      exact Calls.bind (silent_auditSubscription _ _ _ _) fun _ => silent_updatePayloadRun _ _
  · exact Calls.raise _

theorem silent_applyProjection : Silent applyProjection := by
  refine Calls.bind (silent_session _) fun desired => ?_
  refine Calls.bind (Calls.perform rfl) fun candidate => ?_
  refine Calls.bind (Calls.perform rfl) fun validation => ?_
  refine Calls.ite (Calls.raise _) ?_
  exact Calls.bind (Calls.perform rfl) fun _ => Calls.ite (Calls.raise _) (Calls.ret _)

theorem silent_classifyFinalizationOutcome (jobId subscriptionId : ℕ) (orderId runId : Option ℕ) (kind : Option OperationKind) :
    Silent (classifyFinalizationOutcome jobId subscriptionId orderId runId kind) := by
  refine Calls.tryCatch (Calls.bind (silent_session _) fun job => Calls.ite ?_ (Calls.ret _)) fun _ => Calls.raise _
  refine Calls.bind (silent_session _) fun subscription => ?_
  cases orderId with
  | none => exact Calls.ret _
  | some orderId =>
    refine Calls.bind (silent_session _) fun order => Calls.bind ?_ fun _ => Calls.ret _
    cases runId with
    | none => exact Calls.ret _
    | some runId => exact silent_session _

theorem silent_markFinalizationUnknown (jobId : ℕ) (payload : GatewayPayload) (now : Timestamp) :
    Silent (markFinalizationUnknown jobId payload now) := by
  refine Calls.bind (silent_session _) fun _ => Calls.bind (Calls.tryCatch ?_ fun _ => ?_) fun _ => Calls.ret _
  · refine Calls.bind (silent_session _) ?_
    rintro (_ | job)
    · exact Calls.raise _
    · refine Calls.bind (silent_session _) fun _ => Calls.bind (silent_payloadSubscription payload) ?_
      rintro (_ | subscription)
      · exact Calls.bind (Calls.ret _) fun _ => silent_commit
      · exact Calls.bind (Calls.bind (silent_session _) fun _ => silent_auditSubscription _ _ _ _) fun _ => silent_commit
  · exact Calls.bind (silent_session _).suppress fun _ => Calls.raise _

theorem silent_commitFinalization (jobId : ℕ) (payload : GatewayPayload) : Silent (commitFinalization jobId payload) := by
  refine Calls.bind (silent_finalize jobId payload) fun _ => Calls.bind (Calls.ofExcept _) fun subscriptionId => ?_
  refine Calls.bind silent_commit.attempt ?_
  rintro (commitError | _)
  · refine Calls.bind (silent_session _).suppress fun _ => ?_
    refine Calls.bind (silent_classifyFinalizationOutcome _ _ _ _ _) ?_
    rintro (_ | _ | _)
    · exact Calls.bind (silent_session _).suppress fun _ => Calls.ret _
    · exact Calls.bind (Calls.perform rfl) fun now => silent_recordFailure _ _ _
    · exact Calls.bind (Calls.perform rfl) fun now => silent_markFinalizationUnknown _ _ _
  · exact Calls.ret _

/-- The projection that follows the first commit settles nothing through the order's state. -/
theorem silent_reconcileGatewayJobInSession (jobId : ℕ) : Silent (reconcileGatewayJobInSession jobId) := by
  refine Calls.bind (silent_session _) ?_
  rintro (_ | job)
  · exact Calls.raise _
  · refine Calls.bind (Calls.perform rfl) fun now => ?_
    have hclaim : Silent (writeClaim jobId job now) :=
      Calls.bind (silent_session _) fun _ => Calls.bind silent_commit fun _ => Calls.ret _
    refine Calls.bind hclaim fun row => Calls.bind (Calls.ofExcept _) fun payload => ?_
    refine Calls.tryCatch (Calls.bind silent_applyProjection fun _ => silent_commitFinalization _ _) fun exc => ?_
    exact Calls.ite (Calls.raise _) (Calls.bind (Calls.perform rfl) fun now => silent_recordFailure _ _ _)

/-- Plain calls, and calls that bring a step to its effect. -/
def mild (c : Call) : Bool := plain c || (effectOf c).isSome

abbrev Mild {α : Type} (p : Saga α) : Prop := p.Calls (S := port) fun c => mild c = true

theorem mild_writeGatewayIntent (checkpoint : ProvisioningCheckpoint) (subscriptionId : ℕ) :
    Mild (writeGatewayIntent command request checkpoint subscriptionId) := by
  have henqueue : Mild (enqueueGatewayReconciliation .purchase subscriptionId (some command.orderId)
      (some checkpoint.runId) (.order command.orderId)) := by
    refine Calls.bind (Calls.perform rfl) ?_
    rintro (_ | existing)
    · exact Calls.bind (Calls.perform rfl) fun now => Calls.perform rfl
    · exact Calls.ret _
  have hassert : Mild assertNoUnresolvedGatewayMutation :=
    Calls.bind (Calls.perform rfl) fun unresolved => Calls.ite (Calls.raise _) (Calls.ret _)
  refine Calls.bind hassert fun _ => Calls.bind (Calls.perform rfl) fun _ => Calls.bind (Calls.perform rfl) fun token => ?_
  refine Calls.bind (Calls.perform rfl) fun _ => Calls.bind (Calls.perform rfl) fun _ => ?_
  exact Calls.bind henqueue fun jobId => Calls.bind (Calls.perform rfl) fun _ => Calls.ret _

/-- Rolled back behind the lock, with nothing left of the steps in the session. -/
structure Emptied (ph : Phase) (h : History port Exn) : Prop extends At true ph h, ph.Unsettled .held where
  reached : ph.reached = []

theorem Emptied.again (hs : Emptied ph h) (x : Except Exn Unit) (took : Bool) :
    Emptied ph.rollback (⟨.session .rollback, x, took⟩ :: h) :=
  ⟨⟨⟨trivial, hs.ordered⟩, congrArg Phase.rollback hs.phase⟩, hs.toUnsettled.rollback, hs.committed⟩

theorem Emptied.raised (hs : Emptied ph h) (exc : Exn) : Done true (.error exc) h := hs.toAt.raised (.inl hs.settled) exc

theorem Emptied.handle (hs : Emptied ph h) (checkpoint : ProvisioningCheckpoint) (error : Exn) :
    (handlePreGatewayFailure command checkpoint request error).wp anyAnswers (Done true) h :=
  handlePreGatewayFailure_done hs.toAt hs.toUnsettled (by decide) hs.reached checkpoint error

/-- The end of the locked section: an outcome to return, or an attempt that settled nothing here. -/
def SectionDone : Except Exn DurableStep → History port Exn → Prop
  | .ok (.inl outcome), h => Done true (.ok outcome) h
  | .ok (.inr _), h => Resting true h
  | .error exc, h => Done true (.error exc) h

/-- Leaving the lock does not change what was settled and marked. -/
theorem SectionDone.released {r : Except Exn DurableStep} (hs : SectionDone r h) (took : Bool) :
    SectionDone r (⟨.session .releaseLock, .ok (), took⟩ :: h) := by
  have hrelease : phase (⟨.session .releaseLock, .ok (), took⟩ :: h) = (phase h).release false := rfl
  obtain exc | outcome | result := r
  · refine ⟨⟨trivial, hs.1⟩, ?_⟩
    rw [hrelease]
    exact hs.2.imp_right (.imp_right fun hraised => by simp [Phase.release, hraised])
  · refine ⟨⟨trivial, hs.1⟩, ?_⟩
    have hagrees := hs.2
    simp only [hrelease, Except.map, Agrees] at hagrees ⊢
    exact hagrees
  · exact hs.silent rfl

theorem SectionDone.ordered {r : Except Exn DurableStep} (hs : SectionDone r h) : History.Always (Services.ordered true) h := by
  obtain exc | outcome | result := r
  · exact hs.1
  · exact hs.1
  · exact Resting.ordered hs

/-- How steps 1-6 and the handler of their failures end. -/
def Prepared (durable : Bool) : Except Exn (ProvisioningCheckpoint ⊕ ProvisionOutcome) → History port Exn → Prop
  | .ok prepared, h => PreparedTo durable .untried preparedEffects prepared h
  | .error exc, h => Done durable (.error exc) h

/-- The history is ordered and agrees with the outcome. -/
def Settled (durable : Bool) (r : Except Exn (Option ProvisionOutcome)) (h : History port Exn) : Prop :=
  History.Always (ordered durable) h ∧ Agrees durable (phase h) r

theorem At.unsettled (hs : Working durable .untried [] h) (exc : Exn) : Settled durable (.error exc) h := by
  refine ⟨hs.ordered, ?_⟩
  rw [hs.phase]
  exact .inl rfl

end Ends

end Lingsway.Services
