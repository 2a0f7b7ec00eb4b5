import Lingsway.Domain.Compensation
import Lingsway.Domain.StepCalls
import Lingsway.Services

/-!
# How a paid order is settled

The business rows and the run are written through different sessions. A monitor
reads off a history what the open transaction says, what has been committed, how
far the steps have come since the last rollback and how the named lock stands.
-/
namespace Lingsway.Services

open Library Saga Program Domain

/-- What the business rows of a purchase say in the end. -/
inductive Verdict where
  | active
  | pending
  | failed
  deriving Repr, DecidableEq

def verdict : OrderCall → Option Verdict
  | .activateSubscription _ => some .active
  | .markProvisionPending .. => some .pending
  | .markProvisionFailed .. => some .failed
  | _ => none

/-- The step that has its effect when this call returns. -/
def effectOf : Call → Option ProvisionStep
  | .state (.allocateEndpoint _) => some .allocateEndpoint
  | .provider (.createTenant ..) => some .createTenant
  | .state (.saveCredentials ..) => some .storeCredentials
  | .provider (.forwarderApply _) => some .applyForwarder
  | .provider (.createUser ..) => some .createAccountingUser
  | .provider (.gatewayApply _) => some .applyGateway
  | .state (.storeSubscriptionToken ..) => some .issueSubscription
  | _ => none

/-- The effects of steps 2-6, the last one first. -/
def preparedEffects : List ProvisionStep :=
  [.createAccountingUser, .applyForwarder, .storeCredentials, .createTenant, .allocateEndpoint]

/-- The effects of steps 2-8, the last one first. -/
def everyEffect : List ProvisionStep := .issueSubscription :: .applyGateway :: preparedEffects

inductive Hold where
  | untried
  | held
  | gone
  deriving Repr, DecidableEq

/-- `reached` are the effects that no rollback has taken back, `committed` those that none can. -/
structure Phase where
  reached : List ProvisionStep
  committed : List ProvisionStep
  stored : Bool
  staged : Option Verdict
  settled : Option Verdict
  hold : Hold
  releaseRaised : Bool
  marked : Option ProvisionStatus
  deriving Repr, DecidableEq

namespace Phase

def start : Phase := ⟨[], [], false, none, none, .untried, false, none⟩

def reach (ph : Phase) : Option ProvisionStep → Phase
  | none => ph
  | some step => { ph with reached := step :: ph.reached, stored := ph.stored || step = .storeCredentials }

def commit (ph : Phase) : Phase :=
  { ph with committed := ph.reached, settled := ph.staged <|> ph.settled, staged := none }

def rollback (ph : Phase) : Phase := { ph with reached := ph.committed, staged := none }

def stage (ph : Phase) (v : Option Verdict) : Phase := { ph with staged := v <|> ph.staged }

def release (ph : Phase) (raised : Bool) : Phase :=
  { ph with hold := .gone, releaseRaised := ph.releaseRaised || raised }

/-- A commit that raised counts as one that did not land. -/
def after (ph : Phase) : Event port Exn → Phase
  | ⟨.session .commit, .ok _, _⟩ => ph.commit
  | ⟨.session .commit, .error _, _⟩ => ph
  | ⟨.session .rollback, _, _⟩ => ph.rollback
  | ⟨.session .acquireLock, .ok _, _⟩ => { ph with hold := .held }
  | ⟨.session .acquireLock, .error _, _⟩ => { ph with hold := .gone }
  | ⟨.session .releaseLock, .ok _, _⟩ => ph.release false
  | ⟨.session .releaseLock, .error _, _⟩ => ph.release true
  | ⟨.orders c, .ok _, _⟩ => ph.stage (verdict c)
  | ⟨.runs (.markStatus _ status _), _, _⟩ => { ph with marked := some status }
  | ⟨c, .ok _, _⟩ => ph.reach (effectOf c)
  | _ => ph

end Phase

def phase : History port Exn → Phase
  | [] => .start
  | e :: past => (phase past).after e

/-- The exception of the handler for a lock that was not acquired, from another call, or any
exception of the release. -/
def disturbs : Event port Exn → Bool
  | ⟨.session .acquireLock, _, _⟩ => false
  | ⟨.session .releaseLock, .error _, _⟩ => true
  | ⟨_, .error exc, _⟩ => exc.cls = .gatewayRouteBindingLockError
  | _ => false

def disturbed (h : History port Exn) : Bool := h.any disturbs

/-- Where a verdict may be staged. A pending purchase keeps its credentials unless it goes on
behind a lock that is not held, or on the durable path, which has rolled back by then. -/
def Stages (durable : Bool) (ph : Phase) : Verdict → Prop
  | .active => ph.settled = none ∧ ph.reached = everyEffect
  | .pending => (ph.settled = none ∨ ph.releaseRaised = true) ∧
      (ph.stored = true → (.storeCredentials ∈ ph.reached ↔
        ph.hold = .untried ∨ (durable = false ∧ ph.hold = .held) ∨ ph.settled ≠ none))
  | .failed => ph.settled = none ∨ ph.releaseRaised = true

/-- What has been committed, or rolled back, when the run is marked. -/
def Marks (ph : Phase) (rolledBack : Bool) : ProvisionStatus → Prop
  | .succeeded => ph.settled = some .active
  | .pendingManual => ph.settled = some .pending
  | .failed => ph.settled = some .failed ∨ rolledBack = true
  | .running => False

/-- Verdicts are final, runs are marked after the rows they report on, once for each run, and
nobody is disabled after a verdict, as long as the release of the lock does not raise. -/
def ordered (durable : Bool) (e : Event port Exn) (past : History port Exn) : Prop :=
  match e.call with
  | .orders c => ∀ v, verdict c = some v → Stages durable (phase past) v
  | .runs (.markStatus _ status _) => Marks (phase past) (rolledBack past) status ∧
      ((phase past).marked = none ∨ (phase past).marked = some status ∨ disturbed past = true)
  | .provider (.disableUser _) => (phase past).settled = none ∨ (phase past).releaseRaised = true
  | _ => True

/-- How the outcome of the whole call agrees with what was committed and marked. -/
def Agrees (durable : Bool) (ph : Phase) : Except Exn (Option ProvisionOutcome) → Prop
  | .ok none => ph.settled = none ∧ ph.marked = none
  | .ok (some outcome) =>
    match outcome.status with
    | .succeeded => durable = true ∨ (ph.settled = some .active ∧ ph.marked = some .succeeded)
    | .pendingManual => ph.settled = some .pending ∧ ph.marked = some .pendingManual
    | .running => durable = true ∧ ph.settled = none ∧ ph.marked = none
    | .failed => False
  | .error _ => ph.settled = none ∨ ph.settled = some .failed ∨ ph.releaseRaised = true

section Stages

variable {durable : Bool} {request : ProvisionRequest} {ph : Phase} {h : History port Exn}

/-- The history of any answers. -/
abbrev anyAnswers : Handler port Exn (History port Exn) := behaviours fun _ _ => True

structure At (durable : Bool) (ph : Phase) (h : History port Exn) : Prop where
  ordered : History.Always (ordered durable) h
  phase : phase h = ph

/-- An exception of the lock's class was raised by a call that is not the acquisition. -/
def Blamed (exc : Exn) (h : History port Exn) : Prop :=
  exc.cls = .gatewayRouteBindingLockError → disturbed h = true

/-- Calls that the monitor does not look at. -/
def plain : Call → Bool
  | .provider (.disableUser _) => false
  | .runs (.markStatus ..) => false
  | .orders c => verdict c = none
  | .session .commit => false
  | .session .rollback => false
  | .session .acquireLock => false
  | .session .releaseLock => false
  | c => effectOf c = none

theorem after_plain {e : Event port Exn} (he : plain e.call = true) (ph : Phase) : ph.after e = ph := by
  obtain ⟨c, x, took⟩ := e
  rcases c with c | c | c | c | c
  · cases c <;> first | (cases x <;> rfl) | cases he
  · cases c <;> first | (cases x <;> rfl) | cases he
  · cases c <;> first | (cases x <;> rfl) | cases he
  · have hnone : verdict c = none := by simpa [plain] using he
    cases x with
    | error exc => rfl
    | ok _ =>
      simp only [Phase.after, hnone, Phase.stage]
      rfl
  · cases c <;> first | (cases x <;> rfl) | cases he

theorem ordered_plain {e : Event port Exn} (he : plain e.call = true) (past : History port Exn) :
    ordered durable e past := by
  obtain ⟨c, x, took⟩ := e
  rcases c with c | c | c | c | c
  · cases c <;> trivial
  · cases c <;> trivial
  · trivial
  · have hnone : verdict c = none := by simpa [plain] using he
    intro v hv
    rw [hnone] at hv
    cases hv
  · trivial

theorem At.plain (hs : At durable ph h) {e : Event port Exn} (he : plain e.call = true) :
    At durable ph (e :: h) :=
  ⟨⟨ordered_plain he h, hs.ordered⟩, by rw [Services.phase, hs.phase, after_plain he]⟩

theorem Blamed.cons {exc : Exn} (hb : Blamed exc h) (e : Event port Exn) : Blamed exc (e :: h) := by
  intro hcls
  rw [disturbed, List.any_cons, Bool.or_eq_true]
  exact .inr (hb hcls)

def acquires : Call → Bool
  | .session .acquireLock => true
  | _ => false

/-- What a call raises is to be blamed on this call. -/
theorem blamed_call {c : Call} (hc : acquires c = false) (exc : Exn) (took : Bool) :
    Blamed exc (⟨c, .error exc, took⟩ :: h) := by
  intro hcls
  have hdisturbs : disturbs ⟨c, .error exc, took⟩ = true := by
    rcases c with c | c | c | c | c
    · exact decide_eq_true hcls
    · exact decide_eq_true hcls
    · exact decide_eq_true hcls
    · exact decide_eq_true hcls
    · cases c <;> first | exact decide_eq_true hcls | rfl | cases hc
  rw [disturbed, List.any_cons, hdisturbs, Bool.true_or]

theorem acquires_plain {c : Call} (hc : plain c = true) : acquires c = false := by
  rcases c with c | c | c | c | c
  · rfl
  · rfl
  · rfl
  · rfl
  · cases c <;> first | rfl | cases hc

theorem after_effect {c : Call} {step : ProvisionStep} (hc : effectOf c = some step) (a : c.Answer) (took : Bool)
    (ph : Phase) : ph.after ⟨c, .ok a, took⟩ = ph.reach (some step) := by
  rcases c with c | c | c | c | c
  · cases c <;> first | (cases hc; rfl) | cases hc
  · cases hc
  · cases c <;> first | (cases hc; rfl) | cases hc
  · cases hc
  · cases hc

theorem ordered_effect {c : Call} {step : ProvisionStep} (hc : effectOf c = some step) (x : Except Exn c.Answer)
    (took : Bool) (past : History port Exn) : ordered durable ⟨c, x, took⟩ past := by
  rcases c with c | c | c | c | c
  · cases c <;> trivial
  · cases hc
  · trivial
  · cases hc
  · trivial

/-- Steps in progress: nothing has been staged for the order or marked on the run. -/
def Phase.working (steps : List ProvisionStep) (hold : Hold) : Phase :=
  ⟨steps, [], decide (.storeCredentials ∈ steps), none, none, hold, false, none⟩

theorem Phase.reach_working (steps : List ProvisionStep) (hold : Hold) (step : ProvisionStep) :
    (Phase.working steps hold).reach (some step) = .working (step :: steps) hold := by
  simp only [Phase.reach, Phase.working, List.mem_cons, Phase.mk.injEq, true_and]
  by_cases hstep : step = .storeCredentials <;> simp [hstep, eq_comm]

abbrev Working (durable : Bool) (hold : Hold) (steps : List ProvisionStep) (h : History port Exn) : Prop :=
  At durable (.working steps hold) h

def Open (durable : Bool) (hold : Hold) (h : History port Exn) : Prop := ∃ steps, Working durable hold steps h

/-- A failure is being dealt with: nothing is staged, committed or settled. -/
structure Broken (durable : Bool) (hold : Hold) (h : History port Exn) : Prop where
  ordered : History.Always (Services.ordered durable) h
  committed : (phase h).committed = []
  staged : (phase h).staged = none
  settled : (phase h).settled = none
  marked : (phase h).marked = none ∨ (phase h).marked = some .failed
  hold : (phase h).hold = hold
  release : (phase h).releaseRaised = false

variable {hold : Hold} {steps : List ProvisionStep} {α β : Type}

/-- Nothing is committed, staged, settled or marked. -/
structure Phase.Unsettled (ph : Phase) (hold : Hold) : Prop where
  committed : ph.committed = []
  staged : ph.staged = none
  settled : ph.settled = none
  marked : ph.marked = none
  hold : ph.hold = hold
  release : ph.releaseRaised = false

theorem Phase.Unsettled.rollback (hph : ph.Unsettled hold) : ph.rollback.Unsettled hold :=
  ⟨hph.committed, rfl, hph.settled, hph.marked, hph.hold, hph.release⟩

theorem At.broken_of (hs : At durable ph h) (hph : ph.Unsettled hold) : Broken durable hold h := by
  constructor
  · exact hs.ordered
  all_goals rw [hs.phase]
  · exact hph.committed
  · exact hph.staged
  · exact hph.settled
  · exact .inl hph.marked
  · exact hph.hold
  · exact hph.release

/-- The value goes with `J`, and what is raised is to be blamed on a call and leaves `E`. -/
def Ends (E : History port Exn → Prop) (J : α → History port Exn → Prop) : Except Exn α → History port Exn → Prop
  | .ok a, h => J a h
  | .error exc, h => E h ∧ Blamed exc h

section Ends

variable {E : History port Exn → Prop} {J : α → History port Exn → Prop} {K : β → History port Exn → Prop}

/-- What is known of an end goes with the history that has grown. -/
theorem wp_grown {p : Saga α} {Q : Except Exn α → History port Exn → Prop} (hp : p.wp anyAnswers Q h) :
    p.wp anyAnswers (fun r t => Q r t ∧ h <:+ t) h :=
  wp_of_exec (fun _ _ _ _ _ => trivial) fun _ _ he => ⟨exec_of_wp hp he, suffix_of_exec he⟩

theorem ends_bind {p : Saga α} {f : α → Saga β} (hp : p.wp anyAnswers (Ends E J) h)
    (hf : ∀ a t, J a t → h <:+ t → (f a).wp anyAnswers (Ends E K) t) : (p >>= f).wp anyAnswers (Ends E K) h := by
  rw [wp_bind]
  refine wp_mono _ _ ?_ (wp_grown hp)
  rintro (exc | a) t ⟨ht, hsuffix⟩
  · exact ht
  · exact hf a t ht hsuffix

theorem ends_mono {E' : History port Exn → Prop} {J' : α → History port Exn → Prop} {p : Saga α}
    (hp : p.wp anyAnswers (Ends E J) h) (hE : ∀ t, E t → E' t) (hJ : ∀ a t, J a t → J' a t) :
    p.wp anyAnswers (Ends E' J') h := by
  refine wp_mono _ _ ?_ hp
  rintro (exc | a) t ht
  · exact ⟨hE t ht.1, ht.2⟩
  · exact hJ a t ht

theorem ends_perform {c : Call} {J : c.Answer → History port Exn → Prop} (hok : ∀ a took, J a (⟨c, .ok a, took⟩ :: h))
    (herror : ∀ exc took, E (⟨c, .error exc, took⟩ :: h)) (hc : acquires c = false) :
    (perform (S := port) c : Saga c.Answer).wp anyAnswers (Ends E J) h := by
  rw [perform, wp_call_behaviours]
  intro x took _
  rw [wp_ofExcept]
  cases x with
  | error exc => exact ⟨herror exc took, blamed_call hc exc took⟩
  | ok a => exact hok a took

theorem ends_plain {c : Call} (hc : plain c = true) (hE : ∀ t, At durable ph t → E t) (hs : At durable ph h) :
    (perform (S := port) c : Saga c.Answer).wp anyAnswers (Ends E fun _ => At durable ph) h :=
  ends_perform (fun _ _ => hs.plain hc) (fun _ _ => hE _ (hs.plain hc)) (acquires_plain hc)

theorem At.effect (hs : Working durable hold steps h) {c : Call} {step : ProvisionStep} (hc : effectOf c = some step)
    (a : c.Answer) (took : Bool) : Working durable hold (step :: steps) (⟨c, .ok a, took⟩ :: h) :=
  ⟨⟨ordered_effect hc _ _ h, hs.ordered⟩, by rw [Services.phase, hs.phase, after_effect hc, Phase.reach_working]⟩

end Ends

/-! ### The steps -/

theorem Broken.plain (hs : Broken durable hold h) {e : Event port Exn} (he : plain e.call = true) :
    Broken durable hold (e :: h) := by
  have hphase : phase (e :: h) = phase h := after_plain he _
  constructor
  · exact ⟨ordered_plain he h, hs.ordered⟩
  · rw [hphase, hs.committed]
  · rw [hphase, hs.staged]
  · rw [hphase, hs.settled]
  · rw [hphase]
    exact hs.marked
  · rw [hphase, hs.hold]
  · rw [hphase, hs.release]

theorem Broken.rollback (hs : Broken durable hold h) (x : Except Exn Unit) (took : Bool) :
    Broken durable hold (⟨.session .rollback, x, took⟩ :: h) :=
  ⟨⟨trivial, hs.ordered⟩, hs.committed, rfl, hs.settled, hs.marked, hs.hold, hs.release⟩

theorem Broken.failed (hs : Broken durable hold h) (hr : rolledBack h = true) (runId : ℕ) (error : Option String)
    (x : Except Exn Unit) (took : Bool) : Broken durable hold (⟨.runs (.markStatus runId .failed error), x, took⟩ :: h) := by
  have hmark : Services.ordered durable ⟨.runs (.markStatus runId .failed error), x, took⟩ h :=
    ⟨.inr hr, hs.marked.imp_right .inl⟩
  exact ⟨⟨hmark, hs.ordered⟩, hs.committed, hs.staged, hs.settled, .inr rfl, hs.hold, hs.release⟩

theorem Blamed.of_suffix {exc : Exn} {t : History port Exn} (hb : Blamed exc h) (hs : h <:+ t) : Blamed exc t := by
  obtain ⟨newer, rfl⟩ := hs
  intro hcls
  rw [disturbed, List.any_append, Bool.or_eq_true]
  exact .inr (hb hcls)

theorem failed_ends (hs : Broken durable hold h) (hr : rolledBack h = true) (runId : ℕ) (step : ProvisionStep)
    (error : Exn) : (failed runId step error).wp anyAnswers (Ends (Broken durable hold) fun _ => Broken durable hold) h := by
  refine ends_bind (J := fun _ t => Broken durable hold t ∧ rolledBack t = true) ?_ ?_
  · exact ends_perform (fun _ _ => ⟨hs.plain rfl, hr⟩) (fun _ _ => hs.plain rfl) rfl
  · rintro _ t ⟨ht, hrt⟩ -
    exact ends_perform (fun _ _ => ht.failed hrt _ _ _ _) (fun _ _ => ht.failed hrt _ _ _ _) rfl

theorem ends_record {E : History port Exn → Prop} (hE : ∀ t, At durable ph t → E t) (hs : At durable ph h)
    (runId : ℕ) (step : ProvisionStep) (status : String) :
    (runs (.recordStep runId step status)).wp anyAnswers (Ends E fun _ => At durable ph) h :=
  ends_plain rfl hE hs

/-- A pending outcome may have come further than the step before it. -/
def PreparedTo (durable : Bool) (hold : Hold) (steps : List ProvisionStep) : α ⊕ ProvisionOutcome → History port Exn → Prop
  | .inl _, h => Working durable hold steps h
  | .inr outcome, h => outcome.status = .pendingManual ∧ Open durable hold h

theorem disableUser_ends (hs : At durable ph h) (hsettled : ph.settled = none ∨ ph.releaseRaised = true)
    (username : String) : (provider (.disableUser username)).wp anyAnswers
      (Ends (At durable ph) fun _ => At durable ph) h := by
  have hdisable : ∀ x took, At durable ph (⟨.provider (.disableUser username), x, took⟩ :: h) := by
    intro x took
    refine ⟨⟨?_, hs.ordered⟩, ?_⟩
    · rw [← hs.phase] at hsettled
      exact hsettled
    · cases x <;> exact hs.phase
  exact ends_perform (fun _ _ => hdisable _ _) (fun _ _ => hdisable _ _) rfl

end Stages
end Lingsway.Services
