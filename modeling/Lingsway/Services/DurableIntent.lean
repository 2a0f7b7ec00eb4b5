import Lingsway.Services.SettledOrders
import Lingsway.System

/-!
# A durable intent is not compensated

The first commit of the durable path makes the routes and their gateway job
permanent. Its truth may be unknown to the process, and the compensation may
only follow where it is known that nothing was committed.
-/
namespace Lingsway.Services

open Library Saga Program Domain Infra

/-- The key of the job that carries the intent of a purchase. -/
def intentKey (orderId : ℕ) : DedupeKey := .gatewayReconcile .purchase (.order orderId)

/-- The intent of the purchase is committed. -/
def Intent (orderId : ℕ) (db : Database) : Prop :=
  ∃ id row, db.jobs.get id = some row ∧ row.dedupeKey = intentKey orderId

/-- Other processes do what they like, except that only this call creates this intent. -/
def Beside (orderId : ℕ) (w w' : World) : Prop :=
  w'.session = w.session ∧ (Intent orderId w'.shared.database → Intent orderId w.shared.database)

def disables : Call → Bool
  | .provider (.disableUser _) => true
  | _ => false

/-- The parts of a compensation: the account is disabled, and the purchase and its run fail. -/
def compensates : Call → Bool
  | .orders (.markProvisionFailed ..) => true
  | .runs (.markStatus _ .failed _) => true
  | c => disables c

abbrev Moments := List (Moment port Exn World)

def Compensated (tr : Moments) : Prop := ∃ m ∈ tr, compensates m.call = true

/-- How often an account was disabled, or an attempt made. -/
def disabled (tr : Moments) : ℕ := tr.countP fun m => disables m.call

/-- Where there is a compensation there is no intent, and nobody is disabled twice. -/
def excludes (orderId : ℕ) (m : Moment port Exn World) (past : Moments) : Prop :=
  (Compensated (m :: past) → ¬ Intent orderId m.after.shared.database) ∧ disabled (m :: past) ≤ 1

abbrev watched (orderId : ℕ) : Handler port Exn (World × Moments) :=
  assured worlds (Beside orderId) (fun _ _ => True) (excludes orderId)

section Writes

variable {orderId : ℕ} {db : Database} {w : World}

/-- Writes that do not create the intent. -/
def Foreign (orderId : ℕ) : Write → Prop
  | .insertJob _ row => row.dedupeKey ≠ intentKey orderId
  | .updateJob _ change => ∀ job, (change job).dedupeKey = job.dedupeKey
  | _ => True

theorem not_intent_apply (h : ¬ Intent orderId db) {c : Write} (hc : Foreign orderId c) : ¬ Intent orderId (c.apply db) := by
  rintro ⟨id, row, hget, hkey⟩
  cases c with
  | insertJob own new =>
    simp only [Write.apply, Table.get_insert] at hget
    split_ifs at hget with hid
    · cases hget
      exact hc hkey
    · exact h ⟨id, row, hget, hkey⟩
  | updateJob own change =>
    simp only [Write.apply, Table.get_modify] at hget
    split_ifs at hget with hid
    · obtain ⟨old, hold, rfl⟩ := Option.map_eq_some_iff.mp hget
      exact h ⟨id, old, hold, (hc old).symm.trans hkey⟩
    · exact h ⟨id, row, hget, hkey⟩
  | _ => exact h ⟨id, row, hget, hkey⟩

def AllForeign (orderId : ℕ) (ws : List Write) : Prop := ∀ c ∈ ws, Foreign orderId c

theorem allForeign_nil : AllForeign orderId [] := by simp [AllForeign]

theorem not_intent_applyAll (h : ¬ Intent orderId db) {ws : List Write} (hws : AllForeign orderId ws) :
    ¬ Intent orderId (Write.applyAll ws db) := by
  induction ws generalizing db with
  | nil => exact h
  | cons c ws ih =>
    rw [AllForeign, List.forall_mem_cons] at hws
    exact ih (not_intent_apply h hws.1) hws.2

theorem not_intent_same {db' : Database} (h : ¬ Intent orderId db) (hsame : Database.SameRows db db') :
    ¬ Intent orderId db' := by
  rintro ⟨id, row, hget, hkey⟩
  exact h ⟨id, row, (hsame.jobs id).symm.trans hget, hkey⟩

theorem dedupeKey_changePayload (change : ProvisionPayload → ProvisionPayload) (job : Job) :
    (Api.changePayload change job).dedupeKey = job.dedupeKey := by
  unfold Api.changePayload
  split <;> rfl

theorem foreign_startRun (db : Database) (now : Timestamp) (order : ℕ) : Foreign orderId (Api.startRun db now order).2 := by
  unfold Api.startRun
  split
  · exact nofun
  · exact fun _ => rfl

theorem not_intent_bookkeep (h : ¬ Intent orderId w.shared.database) {c : Write} (hc : Foreign orderId c) (fate : Fate) :
    ¬ Intent orderId (w.bookkeep c fate).2.shared.database := by
  simp only [World.bookkeep]
  split_ifs
  · exact not_intent_apply h hc
  · exact h

theorem not_intent_runs (h : ¬ Intent orderId w.shared.database) (fate : Fate) (c : RunCall) :
    ¬ Intent orderId (w.runs fate c).2.shared.database := by
  cases c with
  | start request =>
    simp only [World.runs]
    split
    · exact not_intent_apply h (foreign_startRun _ _ _)
    · split_ifs
      · exact not_intent_apply h (foreign_startRun _ _ _)
      · exact h
  | recordStep runId step status =>
    exact not_intent_bookkeep h (c := Api.stepWrite runId step status) (dedupeKey_changePayload _) fate
  | recordExternalId runId kind externalId =>
    exact not_intent_bookkeep h (c := Api.externalIdWrite runId kind externalId) (dedupeKey_changePayload _) fate
  | markNotificationFailed runId error =>
    exact not_intent_bookkeep h (c := Api.notificationWrite runId error) (dedupeKey_changePayload _) fate
  | markStatus runId status error =>
    have hwrite : ¬ Intent orderId (w.writeThrough (Api.statusWrite runId status error)).shared.database :=
      not_intent_apply h fun _ => rfl
    simp only [World.runs]
    split
    · split_ifs
      · exact h
      · exact hwrite
    · split_ifs
      · exact hwrite
      · exact h

theorem not_intent_perform {α : Type} (h : ¬ Intent orderId w.shared.database) (effect : Effect α) (fate : Fate) :
    ¬ Intent orderId (w.perform effect fate).2.shared.database := by
  unfold World.perform
  split
  · exact not_intent_same h (w.sameRows_stage _)
  · exact not_intent_same h (w.sameRows_stage _)

def commits : Call → Bool
  | .session .commit => true
  | _ => false

/-- Without a commit of the session there is no intent. -/
theorem not_intent_act (h : ¬ Intent orderId w.shared.database) {c : Call} (hc : commits c = false) (choice : c.Choice) :
    ¬ Intent orderId (World.act c choice w).2.shared.database := by
  cases c with
  | provider c => exact (World.act_quiet (c := .provider c) rfl choice w).1 ▸ h
  | runs c => exact not_intent_runs h choice c
  | state c => exact not_intent_perform h _ choice
  | orders c => exact not_intent_perform h _ choice
  | session c =>
    by_cases hquiet : (Call.session c).quiet = true
    · exact (World.act_quiet hquiet choice w).1 ▸ h
    · cases c with
      | commit => cases hc
      | rollback => exact h
      | write change => exact not_intent_same h (w.sameRows_stage _)
      | insertJob row => exact not_intent_perform h _ choice
      | _ => exact absurd rfl hquiet

end Writes

section Runs

variable {orderId : ℕ} {s : World × Moments} {α : Type} {command : BillingCommand} {request : ProvisionRequest}

/-- Nothing was compensated, and the intent is not committed. -/
structure Early (orderId : ℕ) (s : World × Moments) : Prop where
  intent : ¬ Intent orderId s.1.shared.database
  uncompensated : ¬ Compensated s.2

/-- The intent is not committed and will not be: what is pending does not contain it. -/
structure Sealed (orderId : ℕ) (w : World) : Prop where
  intent : ¬ Intent orderId w.shared.database
  pending : AllForeign orderId w.session.pending

/-- The purchase is being closed. -/
structure Late (orderId : ℕ) (s : World × Moments) : Prop where
  closed : Sealed orderId s.1
  once : disabled s.2 ≤ 1

/-- Nobody was disabled yet. -/
def Spared (tr : Moments) : Prop := ∀ m ∈ tr, disables m.call = false

theorem not_compensated_nil : ¬ Compensated [] := by
  rintro ⟨m, hm, -⟩
  cases hm

theorem not_compensated_cons {tr : Moments} (h : ¬ Compensated tr) {m : Moment port Exn World} (hm : compensates m.call = false) :
    ¬ Compensated (m :: tr) := by
  rintro ⟨m', hmem, hm'⟩
  obtain rfl | hmem := List.mem_cons.mp hmem
  · rw [hm] at hm'
    cases hm'
  · exact h ⟨m', hmem, hm'⟩

theorem compensates_of_disables {c : Call} (hc : compensates c = false) : disables c = false := by
  rcases c with c | c | c | c | c
  · exact hc
  · rfl
  · rfl
  · rfl
  · rfl

theorem spared_of_uncompensated {tr : Moments} (h : ¬ Compensated tr) : Spared tr := by
  intro m hm
  refine compensates_of_disables ?_
  rw [← Bool.not_eq_true]
  exact fun hcompensates => h ⟨m, hm, hcompensates⟩

theorem disabled_of_spared {tr : Moments} (h : Spared tr) : disabled tr = 0 := by
  rw [disabled, List.countP_eq_zero]
  intro m hm
  rw [h m hm]
  exact Bool.false_ne_true

theorem disabled_of_uncompensated {tr : Moments} (h : ¬ Compensated tr) : disabled tr ≤ 1 :=
  (disabled_of_spared (spared_of_uncompensated h)).trans_le (Nat.zero_le 1)

theorem disabled_cons {tr : Moments} {m : Moment port Exn World} (hm : disables m.call = false) :
    disabled (m :: tr) = disabled tr := List.countP_cons_of_neg (by rw [hm]; exact Bool.false_ne_true)

theorem keeps_uncompensated {p : Saga α} (hp : p.Calls (S := port) fun c => compensates c = false) :
    Keeps (watched orderId) (fun s => ¬ Compensated s.2) p := by
  induction p with
  | ret a => exact fun _ hs => hs
  | raise e => exact fun _ hs => hs
  | call c next ih =>
    intro s hs
    rw [wp_call_assured]
    intro t _ choice _
    have hnone := not_compensated_cons hs (m := ⟨c, (World.act c choice t).1, t, (World.act c choice t).2⟩) hp.1
    exact ⟨⟨fun hcompensated => absurd hcompensated hnone, disabled_of_uncompensated hnone⟩, ih _ (hp.2 _) _ hnone⟩

/-- Before the first commit. -/
theorem keeps_early {p : Saga α} (hp : p.Calls (S := port) fun c => compensates c = false ∧ commits c = false) :
    Keeps (watched orderId) (Early orderId) p := by
  induction p with
  | ret a => exact fun _ hs => hs
  | raise e => exact fun _ hs => hs
  | call c next ih =>
    intro s hs
    rw [wp_call_assured]
    intro t hbeside choice _
    have hnone := not_compensated_cons hs.uncompensated
      (m := ⟨c, (World.act c choice t).1, t, (World.act c choice t).2⟩) hp.1.1
    have hintent := not_intent_act (fun hintent => hs.intent (hbeside.2 hintent)) hp.1.2 choice
    exact ⟨⟨fun _ => hintent, disabled_of_uncompensated hnone⟩, ih _ (hp.2 _) _ ⟨hintent, hnone⟩⟩

/-- The calls of a compensation, with the transaction around them. -/
def closing : Call → Bool
  | .provider (.disableUser _) => true
  | .runs _ => true
  | .orders (.markProvisionPending ..) => true
  | .orders (.markProvisionFailed ..) => true
  | .session .commit => true
  | .session .rollback => true
  | .session .releaseLock => true
  | _ => false

theorem session_runs (w : World) (fate : Fate) (c : RunCall) : (w.runs fate c).2.session = w.session := by
  have hbookkeep : ∀ change, (w.bookkeep change fate).2.session = w.session := by
    intro change
    simp only [World.bookkeep]
    split_ifs <;> rfl
  cases c with
  | start request =>
    simp only [World.runs]
    split
    · rfl
    · split_ifs <;> rfl
  | recordStep runId step status => exact hbookkeep _
  | recordExternalId runId kind externalId => exact hbookkeep _
  | markNotificationFailed runId error => exact hbookkeep _
  | markStatus runId status error =>
    simp only [World.runs]
    split
    · split_ifs <;> rfl
    · split_ifs <;> rfl

theorem allForeign_markProvision (view : Database) (command : BillingCommand) (change : Subscription → Subscription) :
    AllForeign orderId (Api.markProvision view command change).changes := by
  unfold Api.markProvision
  split
  · exact allForeign_nil
  · dsimp only
    split <;> simp [AllForeign, Foreign]

theorem sealed_perform {w : World} (hs : Sealed orderId w) {β : Type} {effect : Effect β}
    (hchanges : AllForeign orderId effect.changes) (fate : Fate) : Sealed orderId (w.perform effect fate).2 := by
  refine ⟨not_intent_perform hs.intent effect fate, ?_⟩
  unfold World.perform
  split
  · exact List.forall_mem_append.mpr ⟨hs.pending, hchanges⟩
  · exact List.forall_mem_append.mpr ⟨hs.pending, fun c hc => hchanges c (List.mem_of_mem_take hc)⟩

theorem sealed_commit {w : World} (hs : Sealed orderId w) (fate : Fate) : Sealed orderId (w.commit fate).2 := by
  obtain hland | ⟨hsame, -⟩ := w.commit_cases fate
  · rw [hland]
    exact ⟨not_intent_applyAll hs.intent hs.pending, allForeign_nil⟩
  · rw [hsame]
    exact hs

theorem Sealed.act {w : World} (hs : Sealed orderId w) {c : Call} (hc : closing c = true) (choice : c.Choice) :
    Sealed orderId (World.act c choice w).2 := by
  have hquiet : c.quiet = true → Sealed orderId (World.act c choice w).2 := by
    intro hquiet
    obtain ⟨hdatabase, hpending⟩ := World.act_quiet hquiet choice w
    refine ⟨?_, ?_⟩
    · rw [hdatabase]
      exact hs.intent
    · rw [hpending]
      exact hs.pending
  rcases c with c | c | c | c | c
  · exact hquiet rfl
  · refine ⟨not_intent_runs hs.intent choice c, ?_⟩
    change AllForeign orderId (w.runs choice c).2.session.pending
    rw [session_runs]
    exact hs.pending
  · cases hc
  · cases c with
    | markProvisionPending command error => exact sealed_perform hs (allForeign_markProvision _ _ _) choice
    | markProvisionFailed command error => exact sealed_perform hs (allForeign_markProvision _ _ _) choice
    | _ => cases hc
  · cases c with
    | commit => exact sealed_commit hs choice
    | rollback => exact ⟨hs.intent, allForeign_nil⟩
    | releaseLock => exact hquiet rfl
    | _ => cases hc

theorem Sealed.beside {w w' : World} (hs : Sealed orderId w) (h : Beside orderId w w') : Sealed orderId w' :=
  ⟨fun hintent => hs.intent (h.2 hintent), by rw [h.1]; exact hs.pending⟩

/-- After the account was disabled, or with nobody to be disabled. -/
theorem keeps_late {p : Saga α} (hp : p.Calls (S := port) fun c => closing c = true ∧ disables c = false) :
    Keeps (watched orderId) (Late orderId) p := by
  induction p with
  | ret a => exact fun _ hs => hs
  | raise e => exact fun _ hs => hs
  | call c next ih =>
    rintro s hs
    rw [wp_call_assured]
    intro t hbeside choice _
    have hsealed := (hs.closed.beside hbeside).act hp.1.1 choice
    have honce : disabled (⟨c, (World.act c choice t).1, t, (World.act c choice t).2⟩ :: s.2) ≤ 1 :=
      (disabled_cons hp.1.2).trans_le hs.once
    exact ⟨⟨fun _ => hsealed.intent, honce⟩, ih _ (hp.2 _) _ ⟨hsealed, honce⟩⟩

theorem disableUser_watched (hs : Sealed orderId s.1) (hspared : Spared s.2) (username : String) :
    (provider (.disableUser username)).wp (watched orderId) (fun _ => Late orderId) s := by
  rw [provider, perform, wp_call_assured]
  intro t hbeside choice _
  rw [wp_ofExcept]
  have hsealed := (hs.beside hbeside).act (c := .provider (.disableUser username)) rfl choice
  have honce : ∀ m : Moment port Exn World, disabled (m :: s.2) ≤ 1 := by
    intro m
    rw [disabled, List.countP_cons, ← disabled, disabled_of_spared hspared, Nat.zero_add]
    split_ifs
    · exact le_rfl
    · exact Nat.zero_le 1
  exact ⟨⟨fun _ => hsealed.intent, honce _⟩, hsealed, honce _⟩

abbrev Closing {α : Type} (p : Saga α) : Prop := p.Calls (S := port) fun c => closing c = true ∧ disables c = false

theorem closing_runs (c : RunCall) : Closing (runs c) := Calls.perform ⟨rfl, rfl⟩

theorem closing_failStep (runId : ℕ) (step : ProvisionStep) (error : Exn) : Closing (failStep runId step error : Saga α) := by
  have hfailed : Closing (failed runId step error) := Calls.bind (closing_runs _) fun _ => closing_runs _
  exact Calls.bind (Calls.perform ⟨rfl, rfl⟩) fun _ => Calls.bind hfailed fun _ => Calls.raise error

theorem closing_transaction {body : Saga Unit} (hbody : Closing body) : Closing (transaction body) := by
  refine Calls.tryCatch (Calls.bind hbody fun _ => Calls.perform ⟨rfl, rfl⟩) fun _ => ?_
  exact Calls.bind (Calls.perform ⟨rfl, rfl⟩) fun _ => Calls.raise _

/-- The account is disabled once, and what follows only closes the purchase. -/
theorem handlePreGatewayFailure_watched (hs : Sealed orderId s.1) (hspared : Spared s.2) (checkpoint : ProvisioningCheckpoint)
    (error : Exn) : (handlePreGatewayFailure command checkpoint request error).wp (watched orderId)
      (fun _ => Late orderId) s := by
  rw [handlePreGatewayFailure, wp_bind, wp_attempt, failBeforeGatewayAuthoritativeCommit,
    compensateCreatedAccountingUser, wp_bind, wp_attempt]
  refine wp_mono _ _ ?_ (disableUser_watched hs hspared request.username)
  intro disabled t ht
  rw [bindPost_ok]
  refine wp_mono _ _ (fun r u hu => ?_) (keeps_late ?_ t ht)
  · rw [bindPost_ok]
    refine keeps_late ?_ u hu
    obtain exc | pending := r
    · exact Calls.bind (closing_transaction (Calls.perform ⟨rfl, rfl⟩)) fun _ => Calls.raise exc
    · dsimp only
      split
      · exact Calls.raise _
      · refine Calls.bind (closing_transaction (Calls.perform ⟨rfl, rfl⟩)) fun _ => ?_
        exact Calls.bind (closing_runs _).suppress fun _ => Calls.ret _
  · obtain disableExc | _ := disabled
    · exact Calls.bind (closing_runs _) fun _ => Calls.ret _
    · exact closing_failStep _ _ _

/-- Rolled back, the intent is not pending any more. -/
theorem rollback_watched (hs : Early orderId s) :
    (session .rollback).wp (watched orderId) (fun _ t => Sealed orderId t.1 ∧ Spared t.2) s := by
  rw [session, perform, wp_call_assured]
  intro t hbeside choice _
  have hintent : ¬ Intent orderId t.shared.database := fun hintent => hs.intent (hbeside.2 hintent)
  have hnone := not_compensated_cons hs.uncompensated
    (m := ⟨.session .rollback, (World.act (.session .rollback) choice t).1, t, (World.act (.session .rollback) choice t).2⟩) rfl
  rw [wp_ofExcept]
  exact ⟨⟨fun _ => hintent, disabled_of_uncompensated hnone⟩, ⟨hintent, allForeign_nil⟩, spared_of_uncompensated hnone⟩

theorem suppressed_rollback_late (hs : Early orderId s) {f : Unit → Saga α} {Q : Except Exn α → World × Moments → Prop}
    (hf : ∀ t, Sealed orderId t.1 → Spared t.2 → (f ()).wp (watched orderId) Q t) :
    (rollback.suppress >>= f).wp (watched orderId) Q s := by
  rw [wp_bind, wp_suppress]
  refine wp_mono _ _ ?_ (rollback_watched hs)
  rintro r t ⟨ht, hspared⟩
  exact hf t ht hspared

/-- The end of the locked section. -/
def Closed (orderId : ℕ) : Except Exn DurableStep → World × Moments → Prop
  | .ok (.inr _), s => ¬ Compensated s.2
  | _, s => ¬ Compensated s.2 ∨ Late orderId s

theorem closed_outcome {p : Saga ProvisionOutcome}
    (hp : p.wp (watched orderId) (fun _ t => ¬ Compensated t.2 ∨ Late orderId t) s) : (do
      let outcome ← p
      pure (.inl outcome) : Saga DurableStep).wp (watched orderId) (Closed orderId) s := by
  rw [wp_bind]
  refine wp_mono _ _ ?_ hp
  rintro (exc | outcome) t ht
  · exact ht
  · exact ht

theorem handled_ends (hs : Sealed orderId s.1) (hspared : Spared s.2) (checkpoint : ProvisioningCheckpoint) (error : Exn) :
    (handlePreGatewayFailure command checkpoint request error).wp (watched orderId)
      (fun _ t => ¬ Compensated t.2 ∨ Late orderId t) s :=
  wp_mono _ _ (fun _ _ ht => .inr ht) (handlePreGatewayFailure_watched hs hspared checkpoint error)

abbrev Uncompensating {α : Type} (p : Saga α) : Prop := p.Calls (S := port) fun c => compensates c = false

theorem uncompensating_rollback : Uncompensating rollback := Calls.perform rfl

theorem uncompensating_markFirstCommitUnknown (checkpoint : ProvisioningCheckpoint) :
    Uncompensating (markFirstCommitUnknown command checkpoint) := by
  have htransaction : ∀ message, Uncompensating (transaction (orders (.markProvisionPending command message))) := by
    intro message
    refine Calls.tryCatch (Calls.bind (Calls.perform rfl) fun _ => Calls.perform rfl) fun _ => ?_
    exact Calls.bind (Calls.perform rfl) fun _ => Calls.raise _
  have hmark : Uncompensating (runs (.markStatus checkpoint.runId .pendingManual (some firstCommitUnknown))) :=
    Calls.perform rfl
  refine Calls.bind (Calls.tryCatch (htransaction _) fun _ => Calls.raise _) fun _ => ?_
  exact Calls.bind hmark.suppress fun _ => Calls.ret _

/-- The probe of the job answers for the committed database. -/
theorem probe_absent {w : World} {fate : Fate}
    (h : (w.sessionCall fate (.probeJobId (intentKey orderId))).1 = .ok none) : ¬ Intent orderId w.shared.database := by
  have hnone := w.query_ok h
  rw [eq_comm, Option.map_eq_none_iff, Table.find_eq_none] at hnone
  rintro ⟨id, row, hget, hkey⟩
  have hfalse := hnone id row hget
  rw [hkey, decide_eq_false_iff_not] at hfalse
  exact hfalse rfl

/-- What the probes of the classification leave: no compensation, and no intent where there was none. -/
theorem keeps_probed (c : SessionCall) (hc : compensates (.session c) = false) (hcommit : commits (.session c) = false)
    {f : c.Answer → Saga α} {Q : Except Exn α → World × Moments → Prop} (hs : ¬ Compensated s.2)
    (herror : ∀ exc t, ¬ Compensated t.2 → Q (.error exc) t)
    (hok : ∀ a t u, ¬ Compensated u.2 → (¬ Intent orderId s.1.shared.database → ¬ Intent orderId u.1.shared.database) →
      (∃ choice, (World.act (.session c) choice t).1 = .ok a ∧ (World.act (.session c) choice t).2 = u.1) →
      (f a).wp (watched orderId) Q u) :
    (session c >>= f).wp (watched orderId) Q s := by
  rw [wp_bind, session, perform, wp_call_assured]
  intro t hbeside choice _
  have hnone := not_compensated_cons hs
    (m := ⟨.session c, (worlds.act (.session c) choice t).1, t, (worlds.act (.session c) choice t).2⟩) hc
  have hkept : ¬ Intent orderId s.1.shared.database → ¬ Intent orderId (worlds.act (.session c) choice t).2.shared.database :=
    fun hintent => not_intent_act (fun h => hintent (hbeside.2 h)) hcommit choice
  refine ⟨⟨fun hcompensated => absurd hcompensated hnone, disabled_of_uncompensated hnone⟩, ?_⟩
  rw [wp_ofExcept]
  generalize hact : worlds.act (.session c) choice t = result at hnone hkept ⊢
  obtain ⟨exc | a, u⟩ := result
  · exact herror exc (u, _) hnone
  · exact hok a t (u, _) hnone hkept ⟨choice, congrArg Prod.fst hact, congrArg Prod.snd hact⟩

/-- ABSENT is only said where the intent is not committed. -/
theorem classify_watched (hs : ¬ Compensated s.2) (subscriptionId : ℕ) : (do
    session (.refreshSubscription subscriptionId)
    classifyFirstCommitOutcome (intentKey orderId) subscriptionId : Saga FirstCommitOutcome).wp (watched orderId)
      (fun r t => ¬ Compensated t.2 ∧ (r = .ok .absent → ¬ Intent orderId t.1.shared.database)) s := by
  refine keeps_probed _ rfl rfl hs (fun exc t ht => ⟨ht, nofun⟩) fun _ _ t ht _ _ => ?_
  rw [classifyFirstCommitOutcome, wp_tryCatch]
  refine keeps_probed _ rfl rfl ht (fun exc u hu => ⟨hu, nofun⟩) ?_
  rintro jobId w u hu - ⟨choice, hanswer, hstate⟩
  refine keeps_probed _ rfl rfl hu (fun exc v hv => ⟨hv, nofun⟩) fun routeId _ v hv hkept _ => ⟨hv, fun habsent => ?_⟩
  cases jobId with
  | some id => cases routeId <;> cases habsent
  | none =>
    have hintent := probe_absent hanswer
    rw [show (World.act (.session (.probeJobId (intentKey orderId))) choice w).2 = w from
      w.sessionCall_reads choice rfl] at hstate
    exact hkept (hstate ▸ hintent)

/-- With nothing compensated and no compensation to come. -/
theorem uncompensating_ends {p : Saga α} (hp : Uncompensating p) (hs : ¬ Compensated s.2) :
    p.wp (watched orderId) (fun _ t => ¬ Compensated t.2 ∨ Late orderId t) s :=
  wp_mono _ _ (fun _ _ ht => .inl ht) (keeps_uncompensated hp _ hs)

theorem settleFirstCommit_ends (hs : ¬ Compensated s.2) (checkpoint : ProvisioningCheckpoint) (subscriptionId : ℕ)
    (commitError : Exn) (horder : command.orderId = orderId) :
    (settleFirstCommit command request checkpoint subscriptionId commitError).wp (watched orderId)
      (fun _ t => ¬ Compensated t.2 ∨ Late orderId t) s := by
  have hunknown : Uncompensating (do
      rollback.suppress
      markFirstCommitUnknown command checkpoint : Saga ProvisionOutcome) :=
    Calls.bind uncompensating_rollback.suppress fun _ => uncompensating_markFirstCommitUnknown checkpoint
  refine Keeps.wp_bind (keeps_uncompensated uncompensating_rollback.suppress) (fun _ _ ht => .inl ht) (fun _ t ht => ?_) hs
  rw [wp_bind, wp_attempt, ← intentKey, horder]
  refine wp_mono _ _ ?_ (classify_watched ht subscriptionId)
  rintro (exc | outcome) u ⟨hu, habsent⟩
  · rw [bindPost_ok]
    dsimp only
    rw [wp_ite]
    exact ⟨fun _ => uncompensating_ends hunknown hu, fun _ => .inl hu⟩
  · rw [bindPost_ok]
    cases outcome with
    | landed => exact uncompensating_ends (Calls.bind uncompensating_rollback.suppress fun _ => Calls.ret _) hu
    | unknown => exact uncompensating_ends hunknown hu
    | absent =>
      have hearly : Early orderId u := ⟨habsent rfl, hu⟩
      rw [wp_bind]
      refine wp_mono _ _ ?_ (rollback_watched hearly)
      rintro (exc | _) v ⟨hv, hspared⟩
      · exact .inr ⟨hv, (disabled_of_spared hspared).trans_le (Nat.zero_le 1)⟩
      · exact handled_ends hv hspared checkpoint commitError

theorem compensates_of_silent {c : Call} (hc : silent c = true) : compensates c = false := by
  rcases c with c | c | c | c | c
  · cases c <;> first | rfl | cases hc
  · cases c <;> first | rfl | cases hc
  · rfl
  · cases c <;> first | rfl | cases hc
  · rfl

theorem Calls.uncompensating {p : Saga α} (hp : Silent p) : Uncompensating p := by
  induction p with
  | ret a => trivial
  | raise e => trivial
  | call c next ih => exact ⟨compensates_of_silent hp.1, fun x => ih x (hp.2 x)⟩

theorem firstCommit_closed (hs : Early orderId s) (horder : command.orderId = orderId)
    (checkpoint : ProvisioningCheckpoint) (subscriptionId jobId : ℕ) :
    (firstCommit command request checkpoint subscriptionId jobId).wp (watched orderId) (Closed orderId) s := by
  have hcommit : Uncompensating commit := Calls.perform rfl
  rw [firstCommit, wp_bind, wp_attempt]
  refine wp_mono _ _ ?_ (keeps_uncompensated hcommit s hs.uncompensated)
  rintro (commitError | _) t ht
  · exact closed_outcome (settleFirstCommit_ends ht checkpoint subscriptionId commitError horder)
  · rw [bindPost_ok]
    dsimp only
    rw [wp_bind]
    refine wp_mono _ _ ?_ (keeps_uncompensated
      (Calls.uncompensating (silent_reconcileGatewayJobInSession jobId)) t ht)
    rintro (exc | result) u hu
    · exact .inl hu
    · exact hu

theorem early_of_mild {c : Call} (hc : mild c = true) : compensates c = false ∧ commits c = false := by
  rcases c with c | c | c | c | c
  · cases c <;> first | exact ⟨rfl, rfl⟩ | cases hc
  · cases c <;> first | exact ⟨rfl, rfl⟩ | cases hc
  · exact ⟨rfl, rfl⟩
  · cases c <;> first | exact ⟨rfl, rfl⟩ | cases hc
  · cases c <;> first | exact ⟨rfl, rfl⟩ | cases hc

theorem keeps_early_mild {p : Saga α} (hp : Mild p) : Keeps (watched orderId) (Early orderId) p := by
  refine keeps_early ?_
  induction p with
  | ret a => trivial
  | raise e => trivial
  | call c next ih => exact ⟨early_of_mild hp.1, fun x => ih x (hp.2 x)⟩

theorem durableLocked_closed (hs : Early orderId s) (horder : command.orderId = orderId)
    (checkpoint : ProvisioningCheckpoint) (subscriptionId : ℕ) :
    (durableLocked command request checkpoint subscriptionId).wp (watched orderId) (Closed orderId) s := by
  rw [durableLocked, wp_bind, wp_attempt]
  refine wp_mono _ _ ?_ (keeps_early_mild (mild_writeGatewayIntent checkpoint subscriptionId) s hs)
  rintro (error | jobId) t ht
  · rw [bindPost_ok]
    exact suppressed_rollback_late ht fun u hu hspared => closed_outcome (handled_ends hu hspared checkpoint error)
  · exact firstCommit_closed ht horder checkpoint subscriptionId jobId

theorem durableSection_closed (hs : Early orderId s) (horder : command.orderId = orderId)
    (checkpoint : ProvisioningCheckpoint) (subscriptionId : ℕ) :
    (durableSection command request checkpoint subscriptionId).wp (watched orderId) (Closed orderId) s := by
  have hacquire : (session .acquireLock).Calls (S := port) fun c => compensates c = false ∧ commits c = false :=
    Calls.perform ⟨rfl, rfl⟩
  have hrelease : Uncompensating (session .releaseLock) := Calls.perform rfl
  have hclose : Closing (session .releaseLock) := Calls.perform ⟨rfl, rfl⟩
  rw [durableSection, wp_bind, wp_attempt]
  refine wp_mono _ _ ?_ (keeps_early hacquire s hs)
  rintro (error | _) t ht
  · rw [bindPost_ok]
    exact suppressed_rollback_late ht fun u hu hspared => closed_outcome (handled_ends hu hspared checkpoint error)
  · rw [bindPost_ok]
    dsimp only
    rw [wp_tryFinally]
    refine wp_mono _ _ ?_ (durableLocked_closed ht horder checkpoint subscriptionId)
    have hends : ∀ u, ¬ Compensated u.2 ∨ Late orderId u →
        (session .releaseLock).wp (watched orderId) (fun _ v => ¬ Compensated v.2 ∨ Late orderId v) u := by
      rintro u (hu | hu)
      · exact uncompensating_ends hrelease hu
      · exact wp_mono _ _ (fun _ _ hv => .inr hv) (keeps_late hclose u hu)
    rintro (exc | outcome | result) u hu
    · refine wp_mono _ _ ?_ (hends u hu)
      rintro (exc' | _) v hv
      · exact hv
      · exact hv
    · refine wp_mono _ _ ?_ (hends u hu)
      rintro (exc' | _) v hv
      · exact hv
      · exact hv
    · refine wp_mono _ _ ?_ (keeps_uncompensated hrelease u hu)
      rintro (exc' | _) v hv
      · exact .inl hv
      · exact hv

theorem silent_reportSucceeded (checkpoint : ProvisioningCheckpoint) (subscriptionId : ℕ) :
    Silent (reportSucceeded request checkpoint subscriptionId) := by
  refine Calls.bind (Calls.tryCatch (Calls.perform rfl) fun _ => Calls.perform rfl) fun _ => ?_
  exact Calls.bind (silent_session _) fun _ => Calls.bind (silent_session _) fun _ => Calls.ret _

theorem confirmPaidPurchaseDurable_watched (hs : Early command.orderId s) (checkpoint : ProvisioningCheckpoint) :
    (confirmPaidPurchaseDurable command request checkpoint).wp (watched command.orderId) (fun _ _ => True) s := by
  have hread : (session (.subscriptionOfOrder command.orderId)).Calls (S := port)
      fun c => compensates c = false ∧ commits c = false := Calls.perform ⟨rfl, rfl⟩
  refine Keeps.wp_bind (keeps_early hread) (fun _ _ _ => trivial) ?_ hs
  rintro (_ | subscription) t ht
  · trivial
  · dsimp only
    rw [wp_bind]
    refine wp_mono _ _ ?_ (durableSection_closed ht rfl checkpoint subscription.id)
    rintro (exc | outcome | result) u hu
    · trivial
    · trivial
    · rw [bindPost_ok]
      dsimp only
      rw [wp_ite]
      refine ⟨fun _ => ?_, fun _ => trivial⟩
      exact wp_mono _ _ (fun _ _ _ => trivial)
        (keeps_uncompensated (Calls.uncompensating (silent_reportSucceeded checkpoint subscription.id)) u hu)

end Runs

theorem always_moments (tr : Moments) : History.Always (fun _ _ => True) tr := by
  induction tr with
  | nil => trivial
  | cons m past ih => exact ⟨trivial, ih⟩

/-- What every step of a run has passed holds wherever the run is interrupted. -/
theorem excluded_of_wp {orderId : ℕ} {α : Type} {p : Saga α} {w : World}
    (hp : p.wp (watched orderId) (fun _ _ => True) (w, [])) {s : World × Moments}
    (hr : p.Reaches (traced worlds (Beside orderId) fun _ _ => True) (w, []) s) :
    (Compensated s.2 → ¬ Intent orderId s.1.shared.database) ∧ disabled s.2 ≤ 1 := by
  have hwatched := reaches_of_always (Q := fun _ _ => True) (G := excludes orderId) hr (always_moments s.2)
  obtain rfl | ⟨c, t, x, hstep, hcheck⟩ := reaches_of_wp hp hwatched
  · exact ⟨fun hcompensated => absurd hcompensated not_compensated_nil, Nat.zero_le 1⟩
  · obtain ⟨u, -, choice, hact, htrace, -⟩ := hstep
    obtain ⟨hexcludes, honce⟩ := hcheck _ _ htrace
    rw [htrace]
    exact ⟨hexcludes, honce⟩

/-- Wherever the call is interrupted, there is not both an intent that is committed and a compensation, and at most one
attempt to disable the account. -/
theorem compensation_excludes_intent (command : BillingCommand) (request : ProvisionRequest)
    (checkpoint : ProvisioningCheckpoint) {w : World} (hnew : ¬ Intent command.orderId w.shared.database)
    {s : World × Moments} (hr : (confirmPaidPurchaseDurable command request checkpoint).Reaches
      (traced worlds (Beside command.orderId) fun _ _ => True) (w, []) s) :
    (Compensated s.2 → ¬ Intent command.orderId s.1.shared.database) ∧ disabled s.2 ≤ 1 :=
  excluded_of_wp (confirmPaidPurchaseDurable_watched ⟨hnew, not_compensated_nil⟩ checkpoint) hr

/-- A run that has come to its end has come there. -/
theorem reaches_of_exec {H : Handler port Exn (World × Moments)} {α : Type} {p : Saga α} {s s' : World × Moments}
    {r : Except Exn α} (he : p.Exec H s r s') : p.Reaches H s s' := by
  induction p generalizing s with
  | ret a => exact he.2
  | raise e => exact he.2
  | call c next ih =>
    obtain ⟨x, t, hstep, hrest⟩ := he
    exact .inr ⟨x, t, hstep, ih x hrest⟩

theorem beside_refl (orderId : ℕ) (w : World) : Beside orderId w w := ⟨rfl, fun hintent => hintent⟩

/-- A purchase after steps 1-6, while another process holds the lock. -/
def lockedDatabase : Database :=
  { Database.empty with
    subscriptions := Table.empty.insert 0 ⟨1, 1, 0, .provisioning, "US", (100 : ℤ), none, .pending,
      some "sub-1", none, none, none, none⟩
    orders := Table.empty.insert 0 ⟨1, 1, some 0, .paid, .paid, none, none, none, none⟩ }

def lockedWorld : World := ⟨⟨lockedDatabase, ⟨[], []⟩, true⟩, ⟨0, "sub.example.com", false, []⟩⟩

def preparedCheckpoint : ProvisioningCheckpoint :=
  ⟨7, ⟨3, "198.51.100.7", 1080, "socks5", none⟩, ⟨"tenant-1", "sub-1", .ofInt 10, 1⟩,
    ⟨"sub-1", 10737418240, none, "1.sub-1", true⟩⟩

/-- The lock times out, the account is disabled, and there is no intent. -/
theorem compensation_excludes_intent_timeout : ∃ s : World × Moments, Compensated s.2 ∧
    ¬ Intent 0 s.1.shared.database ∧ disabled s.2 ≤ 1 := by
  have hnew : ¬ Intent 0 lockedWorld.shared.database := by
    rintro ⟨id, row, hget, -⟩
    cases hget
  have hexec := exec_tracer (S := port) (M := worlds) (I := Beside 0) (fun c _ => (id, c.calm)) (fun _ _ => beside_refl 0 _)
    (confirmPaidPurchaseDurable ⟨0, none, .purchase⟩ firstPurchase preparedCheckpoint) (lockedWorld, [])
  obtain ⟨hexcludes, honce⟩ := compensation_excludes_intent ⟨0, none, .purchase⟩ firstPurchase preparedCheckpoint hnew
    (reaches_of_exec hexec)
  have hcompensated : Compensated ((tracer worlds).run (fun c _ => (id, c.calm))
      (confirmPaidPurchaseDurable ⟨0, none, .purchase⟩ firstPurchase preparedCheckpoint) (lockedWorld, [])).2.2 := by
    unfold Compensated
    decide
  exact ⟨_, hcompensated, hexcludes hcompensated, honce⟩

end Lingsway.Services
