import Lingsway.Domain.Compensation
import Lingsway.Domain.StepCalls
import Lingsway.Providers.Accounting.CreateOutcome

/-!
# Compensation behind the Marzban adapter

Steps 1-6 with `create_user` of the adapter, every other collaborator answering
as it likes. A user is disabled blindly when the request to create it was never
sent: the handler of CREATE_ACCOUNTING_USER takes every untyped failure for one
that may have created the user, and the quota is converted inside its `try`.
-/
namespace Lingsway.Domain

open Library Saga Program Marzban

/-- What happens in a run: a call of a collaborator, or a `create_user` with its exchanges. -/
inductive Happening where
  | called (e : Event port Exn)
  | created (username : String) (expireAt : Option DateTime) (outcome : Except Exn AccountUserDTO)
      (exchanges : History clientPort Exn)

/-- The saga with the adapter. The session hands an instant over as a `datetime` of some kind. -/
def withMarzban (config : Config) (datetime : Timestamp → DateTime) : Handler port Exn (List Happening) where
  step
    | .provider (.createUser username quotaBytes expireAt), h, x, h' => ∃ exchanges,
      (createUser config username quotaBytes (expireAt.map datetime)).Exec (behaviours exchange) [] x exchanges ∧
        h' = .created username (expireAt.map datetime) x exchanges :: h
    | c, h, x, h' => ∃ took, h' = .called ⟨c, x, took⟩ :: h
  check _ _ _ _ := True

/-- A request to create this user was sent. -/
def DispatchedFor (username : String) (past : List Happening) : Prop :=
  ∃ expireAt outcome exchanges, .created username expireAt outcome exchanges ∈ past ∧ Dispatched exchanges

/-- A failed creation is classified soundly, and only a user whose request was sent is disabled. -/
def soundAndSeeing (e : Happening) (past : List Happening) : Prop :=
  match e with
  | .created _ _ outcome exchanges => SoundOutcome outcome exchanges
  | .called ⟨.provider (.disableUser username), _, _⟩ => DispatchedFor username past
  | .called _ => True

/-- The quota converts when CREATE_ACCOUNTING_USER has started, and `create_user` has a handler for
everything that is raised in it. -/
def convertedAndHandled (request : ProvisionRequest) (e : Happening) (_ : List Happening) : Prop :=
  match e with
  | .created username expireAt _ exchanges => AllHandled username expireAt exchanges
  | .called ⟨.runs (.recordStep _ step status), .ok _, _⟩ =>
    step = .createAccountingUser ∧ status = "STARTED" → ∃ quotaBytes, quotaGbToBytes request.quotaGb = .ok quotaBytes
  | .called _ => True

section Stages

variable {config : Config} {datetime : Timestamp → DateTime} {request : ProvisionRequest}

/-- Everything is as it should be so far. -/
structure Fine (request : ProvisionRequest) (h : List Happening) : Prop where
  sound : History.Always soundAndSeeing h
  handled : History.Always (convertedAndHandled request) h

/-- Nothing was requested yet. -/
def Untouched (h : List Happening) : Prop := ∀ username, ¬ DispatchedFor username h

structure Fresh (request : ProvisionRequest) (h : List Happening) : Prop extends Fine request h where
  untouched : Untouched h

/-- Something went wrong, and it was raised where there is no handler. -/
structure Spoiled (request : ProvisionRequest) (h : List Happening) : Prop where
  sound : ¬ History.Always soundAndSeeing h
  handled : ¬ History.Always (convertedAndHandled request) h

def Weighed (request : ProvisionRequest) (h : List Happening) : Prop :=
  History.Always soundAndSeeing h ↔ History.Always (convertedAndHandled request) h

theorem Fine.weighed {h : List Happening} (hs : Fine request h) : Weighed request h :=
  iff_of_true hs.sound hs.handled

theorem Spoiled.weighed {h : List Happening} (hs : Spoiled request h) : Weighed request h :=
  iff_of_false hs.sound hs.handled

theorem Spoiled.cons {h : List Happening} (hs : Spoiled request h) (e : Happening) : Spoiled request (e :: h) :=
  ⟨fun hall => hs.sound hall.2, fun hall => hs.handled hall.2⟩

/-- Calls that the rules do not look at. -/
def quiet : Call → Bool
  | .provider (.createUser ..) => false
  | .provider (.disableUser _) => false
  | .runs (.recordStep _ step status) => !decide (step = .createAccountingUser ∧ status = "STARTED")
  | _ => true

abbrev Quiet {α : Type} (p : Saga α) : Prop := p.Calls (S := port) fun c => quiet c = true

theorem quiet_step {c : Call} (hc : quiet c = true) {h h' : List Happening} {x : Except Exn c.Answer}
    (hstep : (withMarzban config datetime).step c h x h') : ∃ took, h' = .called ⟨c, x, took⟩ :: h := by
  rcases c with c | c | c | c | c
  · cases c <;> first | exact hstep | cases hc
  · exact hstep
  · exact hstep
  · exact hstep
  · exact hstep

theorem Fine.quiet {h : List Happening} (hs : Fine request h) {e : Event port Exn} (he : quiet e.call = true) :
    Fine request (.called e :: h) := by
  obtain ⟨c, x, took⟩ := e
  refine ⟨⟨?_, hs.sound⟩, ?_, hs.handled⟩
  · rcases c with c | c | c | c | c
    · cases c <;> trivial
    · trivial
    · trivial
    · trivial
    · trivial
  · rcases c with c | c | c | c | c
    · trivial
    · cases c with
      | recordStep runId step status =>
        have hother : ¬(step = .createAccountingUser ∧ status = "STARTED") := by
          simpa only [Domain.quiet, Bool.not_eq_true', decide_eq_false_iff_not] using he
        cases x with
        | ok _ => exact fun hstarted => absurd hstarted hother
        | error exc => trivial
      | _ => trivial
    · trivial
    · trivial
    · trivial

theorem Untouched.called {h : List Happening} (hs : Untouched h) (e : Event port Exn) : Untouched (.called e :: h) := by
  rintro username ⟨expireAt, outcome, exchanges, hmem, hdispatched⟩
  obtain heq | hmem := List.mem_cons.mp hmem
  · cases heq
  · exact hs username ⟨expireAt, outcome, exchanges, hmem, hdispatched⟩

theorem DispatchedFor.cons {username : String} {h : List Happening} (hs : DispatchedFor username h) (e : Happening) :
    DispatchedFor username (e :: h) := by
  obtain ⟨expireAt, outcome, exchanges, hmem, hdispatched⟩ := hs
  exact ⟨expireAt, outcome, exchanges, List.mem_cons_of_mem _ hmem, hdispatched⟩

theorem keeps_fresh {α : Type} {p : Saga α} (hp : Quiet p) : Keeps (withMarzban config datetime) (Fresh request) p := by
  refine hp.keeps ?_
  intro c h x h' hc hs hstep
  obtain ⟨took, rfl⟩ := quiet_step hc hstep
  exact ⟨trivial, hs.toFine.quiet hc, hs.untouched.called _⟩

theorem keeps_fine {α : Type} {p : Saga α} (hp : Quiet p) : Keeps (withMarzban config datetime) (Fine request) p := by
  refine hp.keeps ?_
  intro c h x h' hc hs hstep
  obtain ⟨took, rfl⟩ := quiet_step hc hstep
  exact ⟨trivial, hs.quiet hc⟩

/-- Every step of a run adds what has happened. -/
theorem step_cons {c : Call} {h h' : List Happening} {x : Except Exn c.Answer}
    (hstep : (withMarzban config datetime).step c h x h') : ∃ e, h' = e :: h := by
  by_cases hc : quiet c = true
  · obtain ⟨took, rfl⟩ := quiet_step hc hstep
    exact ⟨_, rfl⟩
  rcases c with c | c | c | c | c
  · cases c with
    | createUser username quotaBytes expireAt =>
      obtain ⟨exchanges, -, rfl⟩ := hstep
      exact ⟨_, rfl⟩
    | disableUser username =>
      obtain ⟨took, rfl⟩ := hstep
      exact ⟨_, rfl⟩
    | _ => exact absurd rfl hc
  · obtain ⟨took, rfl⟩ := hstep
    exact ⟨_, rfl⟩
  · exact absurd rfl hc
  · exact absurd rfl hc
  · exact absurd rfl hc

theorem keeps_spoiled {α : Type} (p : Saga α) : Keeps (withMarzban config datetime) (Spoiled request) p := by
  have hall : p.Calls (S := port) fun _ => True := by
    induction p with
    | ret a => trivial
    | raise e => trivial
    | call c next ih => exact ⟨trivial, ih⟩
  refine hall.keeps ?_
  intro c h x h' _ hs hstep
  obtain ⟨e, rfl⟩ := step_cons hstep
  exact ⟨trivial, hs.cons e⟩

theorem fine_wp {α : Type} {p : Saga α} (hp : Quiet p) {h : List Happening} (hs : Fine request h) :
    p.wp (withMarzban config datetime) (fun _ => Weighed request) h :=
  wp_mono _ _ (fun _ _ ht => ht.weighed) (keeps_fine hp h hs)

theorem spoiled_wp {α : Type} (p : Saga α) {h : List Happening} (hs : Spoiled request h) :
    p.wp (withMarzban config datetime) (fun _ => Weighed request) h :=
  wp_mono _ _ (fun _ _ ht => ht.weighed) (keeps_spoiled p h hs)

theorem quiet_record (runId : ℕ) {step : ProvisionStep} {status : String}
    (hstatus : step ≠ .createAccountingUser ∨ status ≠ "STARTED") : Quiet (runs (.recordStep runId step status)) := by
  refine Calls.perform ?_
  obtain hstep | hstatus := hstatus
  · simp [quiet, hstep]
  · simp [quiet, hstatus]

theorem quiet_failStep {α : Type} (runId : ℕ) (step : ProvisionStep) (error : Exn) :
    Quiet (failStep runId step error : Saga α) := by
  have hfailed : Quiet (failed runId step error) :=
    Calls.bind (quiet_record runId (.inr (by simp))) fun _ => Calls.perform rfl
  exact Calls.bind (Calls.perform rfl) fun _ => Calls.bind hfailed fun _ => Calls.raise error

/-- What the compensation finds: a sent request, or a failure that was raised before. -/
def Compensating (request : ProvisionRequest) (h : List Happening) : Prop :=
  (Fine request h ∧ DispatchedFor request.username h) ∨ Spoiled request h ∨
    (Untouched h ∧ ¬ History.Always (convertedAndHandled request) h)

/-- Disabling the user decides. -/
theorem Compensating.disabled {h : List Happening} (hs : Compensating request h) (x : Except Exn Unit) (took : Bool) :
    Fine request (.called ⟨.provider (.disableUser request.username), x, took⟩ :: h) ∨
      Spoiled request (.called ⟨.provider (.disableUser request.username), x, took⟩ :: h) := by
  obtain ⟨hfine, hdispatched⟩ | hspoiled | ⟨huntouched, hnot⟩ := hs
  · exact .inl ⟨⟨hdispatched, hfine.sound⟩, trivial, hfine.handled⟩
  · exact .inr (hspoiled.cons _)
  · exact .inr ⟨fun hall => huntouched _ hall.1, fun hall => hnot hall.2⟩

theorem compensateCreatedAccountingUser_weighed {h : List Happening} (hs : Compensating request h) (runId : ℕ) (exc : Exn) :
    (compensateCreatedAccountingUser runId request exc).wp (withMarzban config datetime) (fun _ => Weighed request) h := by
  rw [compensateCreatedAccountingUser, wp_bind, wp_attempt]
  rintro x t ⟨took, rfl⟩
  refine ⟨trivial, ?_⟩
  rw [wp_ofExcept, bindPost_ok]
  have hrecord : Quiet (runs (.recordStep runId .createAccountingUser "PENDING_MANUAL")) :=
    quiet_record runId (.inr (by simp))
  obtain hfine | hspoiled := hs.disabled x took
  · cases x with
    | error disableExc => exact fine_wp (Calls.bind hrecord fun _ => Calls.ret _) hfine
    | ok _ => exact fine_wp (quiet_failStep runId _ exc) hfine
  · exact spoiled_wp _ hspoiled

/-- The event of a creation keeps the rules or breaks both of them. -/
theorem created_cases {h : List Happening} (hs : Fine request h) {username : String} {expireAt : Option DateTime}
    {outcome : Except Exn AccountUserDTO} {exchanges : History clientPort Exn}
    (hjudged : SoundOutcome outcome exchanges ↔ AllHandled username expireAt exchanges) :
    (SoundOutcome outcome exchanges ∧ Fine request (.created username expireAt outcome exchanges :: h)) ∨
      Spoiled request (.created username expireAt outcome exchanges :: h) := by
  by_cases hsound : SoundOutcome outcome exchanges
  · exact .inl ⟨hsound, ⟨hsound, hs.sound⟩, hjudged.mp hsound, hs.handled⟩
  · exact .inr ⟨fun hall => hsound hall.1, fun hall => hsound (hjudged.mpr hall.1)⟩

/-- How the guarded part of CREATE_ACCOUNTING_USER ends, as its handlers need it. -/
def Guarded (request : ProvisionRequest) (r : Except Exn AccountUserDTO) (h : List Happening) : Prop :=
  match r with
  | .ok _ => Fine request h ∨ Spoiled request h
  | .error exc =>
    match exc.cls with
    | .accountingCreateUserError .noSideEffect => Fine request h ∨ Spoiled request h
    | .accountingCreateUserError .ambiguous => Fine request h ∨ Spoiled request h
    | _ => Compensating request h

theorem Guarded.of_spoiled {r : Except Exn AccountUserDTO} {h : List Happening} (hs : Spoiled request h) :
    Guarded request r h := by
  unfold Guarded
  split
  · exact .inr hs
  · split
    · exact .inr hs
    · exact .inr hs
    · exact .inr (.inl hs)

theorem Guarded.of_compensating {exc : Exn} {h : List Happening} (hs : Compensating request h)
    (hnone : exc.cls ≠ .accountingCreateUserError .noSideEffect) (hambiguous : exc.cls ≠ .accountingCreateUserError .ambiguous) :
    Guarded request (.error exc) h := by
  unfold Guarded
  dsimp only
  split
  · exact absurd ‹_› hnone
  · exact absurd ‹_› hambiguous
  · exact hs

theorem createValidatedUser_guarded {h : List Happening} (hs : Fine request h) {quotaBytes : ℤ}
    (hquota : quotaGbToBytes request.quotaGb = .ok quotaBytes) :
    (createValidatedUser request).wp (withMarzban config datetime) (Guarded request) h := by
  simp only [createValidatedUser, hquota, wp_bind, wp_ofExcept, bindPost_ok, provider]
  rintro x t ⟨exchanges, hexec, rfl⟩
  refine ⟨trivial, ?_⟩
  rw [wp_ofExcept]
  obtain ⟨hjudged, hrequested⟩ := exec_of_wp (createUser_wp config request.username quotaBytes _) hexec
  obtain ⟨hsound, hfine⟩ | hspoiled := created_cases hs hjudged
  · have hcompensating : Dispatched exchanges → Compensating request
        (.created request.username (request.expireAt.map datetime) x exchanges :: h) :=
      fun hdispatched => .inl ⟨hfine, _, _, _, List.mem_cons_self .., hdispatched⟩
    cases x with
    | error exc =>
      obtain ⟨hcls, -, hcreated⟩ := hsound exc rfl
      rw [bindPost_error, Guarded]
      cases hverdict : verdict exchanges <;> rw [hverdict] at hcls <;> simp only [hcls]
      · exact .inl hfine
      · exact hcompensating (hcreated hverdict).dispatched
      · exact .inl hfine
    | ok accountUser =>
      rw [bindPost_ok]
      have hdispatched := hcompensating (hrequested accountUser rfl)
      simp only [wp_ite, wp_raise, wp_pure]
      refine ⟨fun _ => ?_, fun _ => ⟨fun _ => ?_, fun _ => .inl hfine⟩⟩
      · exact Guarded.of_compensating hdispatched (by simp) (by simp)
      · exact Guarded.of_compensating hdispatched (by simp) (by simp)
  · cases x with
    | error exc =>
      rw [bindPost_error]
      exact Guarded.of_spoiled hspoiled
    | ok accountUser =>
      exact wp_mono _ _ (fun _ _ ht => Guarded.of_spoiled ht) (keeps_spoiled _ _ hspoiled)

theorem quotaGbToBytes_error {quotaGb : Decimal} {exc : Exn} (h : quotaGbToBytes quotaGb = .error exc) :
    exc.cls = .valueError := by
  rw [quotaGbToBytes] at h
  dsimp only at h
  split_ifs at h
  · cases h
    rfl
  · cases h
    rfl

theorem weighed_wp {α : Type} {p : Saga α} (hp : Quiet p) {h : List Happening}
    (hs : Fine request h ∨ Spoiled request h) :
    p.wp (withMarzban config datetime) (fun _ => Weighed request) h := by
  obtain hfine | hspoiled := hs
  · exact fine_wp hp hfine
  · exact spoiled_wp p hspoiled

theorem createAccountingUserStep_weighed {h : List Happening} (hs : Fresh request h) (runId : ℕ) :
    (createAccountingUserStep runId request).wp (withMarzban config datetime) (fun _ => Weighed request) h := by
  rw [createAccountingUserStep, wp_bind]
  rintro x t ⟨took, rfl⟩
  refine ⟨trivial, ?_⟩
  rw [wp_ofExcept]
  cases x with
  | error exc => exact Fine.weighed ⟨⟨trivial, hs.sound⟩, trivial, hs.handled⟩
  | ok _ =>
    rw [bindPost_ok, wp_bind, wp_attempt]
    refine wp_mono _ _ (Q := Guarded request) ?_ ?_
    · rintro (exc | accountUser) u hu
      · rw [bindPost_ok]
        unfold Guarded at hu
        dsimp only at hu ⊢
        split
        · simp only [*] at hu
          exact weighed_wp (quiet_failStep runId _ exc) hu
        · simp only [*] at hu
          exact weighed_wp (Calls.bind (quiet_record runId (.inr (by simp))) fun _ => Calls.ret _) hu
        · split at hu
          · contradiction
          · contradiction
          · rw [wp_bind]
            refine wp_mono _ _ ?_ (compensateCreatedAccountingUser_weighed hu runId exc)
            rintro (exc' | outcome) v hv
            · exact hv
            · exact hv
      · rw [bindPost_ok]
        exact weighed_wp (Calls.bind (quiet_record runId (.inr (by simp))) fun _ => Calls.ret _) hu
    · by_cases hquota : ∃ quotaBytes, quotaGbToBytes request.quotaGb = .ok quotaBytes
      · obtain ⟨quotaBytes, hconverted⟩ := hquota
        exact createValidatedUser_guarded ⟨⟨trivial, hs.sound⟩, fun _ => ⟨quotaBytes, hconverted⟩, hs.handled⟩ hconverted
      · cases hconverted : quotaGbToBytes request.quotaGb with
        | ok quotaBytes => exact absurd ⟨quotaBytes, hconverted⟩ hquota
        | error exc =>
          have hcls := quotaGbToBytes_error hconverted
          simp only [createValidatedUser, hconverted, wp_bind, wp_ofExcept, bindPost_error]
          refine Guarded.of_compensating (.inr (.inr ⟨hs.untouched.called _, fun hall => ?_⟩)) (by simp [hcls]) (by simp [hcls])
          exact hquota (hall.1 ⟨rfl, rfl⟩)

theorem quiet_of_belongs {step : ProvisionStep} (hcreate : step ≠ .createAccountingUser) (hgateway : step ≠ .applyGateway)
    (c : Call) (hc : belongs step c = true) : quiet c = true := by
  rcases c with c | c | c | c | c <;> cases c <;> simp_all [belongs, quiet]

/-- Steps 1-5 neither create a user nor disable one. -/
theorem StepCalls.fresh {α : Type} {step : ProvisionStep} {p : Saga α} (hp : StepCalls step p)
    (hcreate : step ≠ .createAccountingUser) (hgateway : step ≠ .applyGateway) :
    Keeps (withMarzban config datetime) (Fresh request) p :=
  keeps_fresh (hp.to (quiet_of_belongs hcreate hgateway))

theorem provisionPrepare_weighed :
    (provisionPrepare request).wp (withMarzban config datetime) (fun _ => Weighed request) [] := by
  have hend : ∀ (_ : Exn) t, Fresh request t → Weighed request t := fun _ t ht => ht.toFine.weighed
  have hfresh : Fresh request [] := by
    refine ⟨⟨trivial, trivial⟩, ?_⟩
    rintro username ⟨expireAt, outcome, exchanges, hmem, -⟩
    cases hmem
  have hstart : Quiet (runs (.start request)) := Calls.perform rfl
  refine Keeps.wp_bind (keeps_fresh hstart) hend (fun runId t ht => ?_) hfresh
  refine Keeps.wp_bind ((calls_capacityStep runId).fresh (by simp) (by simp)) hend (fun _ t ht => ?_) ht
  refine Keeps.wp_bind ((calls_allocateEndpointStep runId).fresh (by simp) (by simp)) hend (fun endpoint t ht => ?_) ht
  refine Keeps.wp_bind ((calls_createTenantStep runId).fresh (by simp) (by simp)) hend ?_ ht
  rintro (tenant | outcome) t ht
  · refine Keeps.wp_bind ((calls_storeCredentialsStep runId endpoint tenant).fresh (by simp) (by simp)) hend (fun secretRef t ht => ?_) ht
    refine Keeps.wp_bind ((calls_applyForwarderStep runId endpoint tenant secretRef).fresh (by simp) (by simp)) hend ?_ ht
    rintro (_ | outcome) t ht
    · rw [wp_bind]
      refine wp_mono _ _ ?_ (createAccountingUserStep_weighed ht runId)
      rintro (exc | accountUser | outcome) t ht
      · exact ht
      · exact ht
      · exact ht
    · exact ht.toFine.weighed
  · exact ht.toFine.weighed

end Stages

/-- Creation is classified soundly and compensation is not blind, exactly when the quota converts and
`create_user` has a handler for everything that is raised in it. -/
theorem compensation_not_blind_iff (config : Config) (datetime : Timestamp → DateTime) (request : ProvisionRequest)
    (r : Except Exn (ProvisioningCheckpoint ⊕ ProvisionOutcome)) (h : List Happening)
    (hrun : (provisionPrepare request).Exec (withMarzban config datetime) [] r h) :
    History.Always soundAndSeeing h ↔ History.Always (convertedAndHandled request) h := by
  have hweighed := exec_of_wp provisionPrepare_weighed hrun
  exact hweighed

section Scripted

variable (config : Config) (datetime : Timestamp → DateTime) (saga : (c : Call) → Except Exn c.Answer)
variable (script : (c : ClientCall) → Except Exn c.Answer × Bool)

def happen : (c : Call) → Except Exn c.Answer × Happening
  | .provider (.createUser username quotaBytes expireAt) =>
    let run := (recorder clientPort Exn).run (fun c _ => script c)
      (createUser config username quotaBytes (expireAt.map datetime)) []
    (run.1, .created username (expireAt.map datetime) run.1 run.2)
  | c => (saga c, .called ⟨c, saga c, true⟩)

/-- A run in which every collaborator follows its script. -/
def scripted {α : Type} : Saga α → List Happening → Except Exn α × List Happening
  | .ret a, h => (.ok a, h)
  | .raise e, h => (.error e, h)
  | .call c next, h => scripted (next (happen config datetime saga script c).1) ((happen config datetime saga script c).2 :: h)

variable {script}

theorem always_exchange (hscript : ∀ c past, exchange ⟨c, (script c).1, (script c).2⟩ past) {α : Type} (p : Client α)
    {h : History clientPort Exn} (hh : History.Always exchange h) :
    History.Always exchange ((recorder clientPort Exn).run (fun c _ => script c) p h).2 := by
  induction p generalizing h with
  | ret a => exact hh
  | raise e => exact hh
  | call c next ih => exact ih _ ⟨hscript c h, hh⟩

theorem exec_scripted (hscript : ∀ c past, exchange ⟨c, (script c).1, (script c).2⟩ past) {α : Type} (p : Saga α)
    (h : List Happening) :
    p.Exec (withMarzban config datetime) h (scripted config datetime saga script p h).1
      (scripted config datetime saga script p h).2 := by
  induction p generalizing h with
  | ret a => exact ⟨rfl, rfl⟩
  | raise e => exact ⟨rfl, rfl⟩
  | call c next ih =>
    refine ⟨(happen config datetime saga script c).1, _, ?_, ih _ _⟩
    rcases c with c | c | c | c | c
    · cases c with
      | createUser username quotaBytes expireAt =>
        have hexec := exec_recorder (S := clientPort) (fun c _ => script c)
          (createUser config username quotaBytes (expireAt.map datetime)) (always_exchange hscript _ trivial)
        exact ⟨_, hexec, rfl⟩
      | _ => exact ⟨true, rfl⟩
    · exact ⟨true, rfl⟩
    · exact ⟨true, rfl⟩
    · exact ⟨true, rfl⟩
    · exact ⟨true, rfl⟩

end Scripted

def marzban : Config := ⟨"https://marzban:8000", "admin", "secret", "vless", ["VLESS"], true, "/app/data/marzban/internal.crt"⟩

/-- The session hands instants over as aware `datetime` values; the first purchase has none. -/
def epoch (_ : Timestamp) : DateTime := ⟨0, some 0, by decide⟩

/-- A proxy answers in place of the server, with a page of its own for the token route. -/
def proxyPage (token : Option String) (c : ClientCall) : Except Exn c.Answer × Bool :=
  match c with
  | .closed => (.ok false, false)
  | .hasClient => (.ok true, false)
  | .createDefaultContext _ => (.ok (), false)
  | .newClient => (.ok (), false)
  | .token => (.ok token, false)
  | .setToken _ => (.ok (), false)
  | .post .. => (.ok ⟨200, .error ⟨.other "JSONDecodeError", "Expecting value"⟩⟩, false)
  | .request .. => (.ok ⟨503, .error ⟨.other "JSONDecodeError", "Expecting value"⟩⟩, false)

theorem exchange_proxyPage (token : Option String) (c : ClientCall) (past : History clientPort Exn) :
    exchange ⟨c, (proxyPage token c).1, (proxyPage token c).2⟩ past := by
  cases c <;> simp [proxyPage, exchange, Foreign, ownErrors, PinnedAnswer]

theorem blind_compensation :
    ∃ config datetime request r h, (provisionPrepare request).Exec (withMarzban config datetime) [] r h ∧
      ¬ History.Always soundAndSeeing h := by
  refine ⟨marzban, epoch, firstPurchase, _, _,
    exec_scripted marzban epoch calmAnswer (exchange_proxyPage none) _ _, fun hall => ?_⟩
  -- no token is cached; the last four happenings are the compensation
  have hcreated : ∃ past exchanges,
      (scripted marzban epoch calmAnswer (proxyPage none) (provisionPrepare firstPurchase) []).2.drop 4 =
        .created "sub-1" none (.error (contractError "Marzban authenticate response was not valid JSON")) exchanges :: past :=
    ⟨_, _, rfl⟩
  obtain ⟨past, exchanges, hcreated⟩ := hcreated
  have hbefore := hall.of_suffix (List.drop_suffix 4 _)
  rw [hcreated] at hbefore
  have hsound : SoundOutcome _ exchanges := hbefore.1
  exact untyped_contractError _ _ (hsound _ rfl).1

theorem compensation_not_blind_iff_unavailable :
    History.Always soundAndSeeing
        (scripted marzban epoch calmAnswer (proxyPage (some "token")) (provisionPrepare firstPurchase) []).2 ↔
      History.Always (convertedAndHandled firstPurchase)
        (scripted marzban epoch calmAnswer (proxyPage (some "token")) (provisionPrepare firstPurchase) []).2 :=
  compensation_not_blind_iff marzban epoch firstPurchase _ _
    (exec_scripted marzban epoch calmAnswer (exchange_proxyPage (some "token")) _ _)

end Lingsway.Domain
