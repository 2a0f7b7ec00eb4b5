import Lingsway.Api.Admin
import Lingsway.Services
import Lingsway.Workers.AccountingSync

/-!
# The system behind the ports

The shared part is the committed database, the projection the gateway last
applied and the named lock; a session has its pending changes. Every call may
fail. A query that fails changes nothing, a change that fails leaves a prefix of
its changes pending, a commit that fails may have landed, and a rollback that
fails has discarded the changes all the same.
-/
namespace Lingsway

open Library

structure Shared where
  database : Database
  runtime : DesiredRoutingState
  locked : Bool

/-- `orderId` is the order the state adapter was built for, `configuredDomain` the
subscription domain of the settings. -/
structure Session where
  orderId : ℕ
  configuredDomain : String
  holdsLock : Bool
  pending : List Write

structure World where
  shared : Shared
  session : Session

/-- What befalls a call on the database: an exception, if it raises one, and how
many of its changes happen in that case. -/
structure Fate where
  now : Timestamp
  fault : Option Exn
  took : ℕ

namespace Write

/-- Identifiers are handed out at the flush, also when the row is rolled back. -/
def reserve (db : Database) : Write → Database
  | insertJob _ _ => { db with jobs := db.jobs.reserve }
  | insertSubscription _ _ => { db with subscriptions := db.subscriptions.reserve }
  | insertUsagePeriod _ _ => { db with usagePeriods := db.usagePeriods.reserve }
  | insertEgressBinding _ _ => { db with egressBindings := db.egressBindings.reserve }
  | insertRouteBinding _ _ => { db with routeBindings := db.routeBindings.reserve }
  | _ => db

end Write

namespace Database

def distinct {α : Type} [DecidableEq α] : List α → Bool
  | [] => true
  | a :: rest => !rest.contains a && distinct rest

/-- The unique keys of the tables the session writes to. -/
def keysUnique (db : Database) : Bool :=
  distinct (db.jobs.entities.map (fun e => e.row.dedupeKey)) &&
  distinct (db.subscriptions.entities.map (fun e => e.row.orderId)) &&
  distinct (db.subscriptions.entities.filterMap (fun e => e.row.accountingUserId)) &&
  distinct (db.subscriptions.entities.filterMap (fun e => e.row.tokenHash)) &&
  distinct (db.usagePeriods.entities.map (fun e => e.row.orderId)) &&
  distinct ((db.egressBindings.entities.filter (fun e => e.row.active)).map
    (fun e => e.row.subscriptionId)) &&
  distinct ((db.egressBindings.entities.filter (fun e => e.row.active)).map
    (fun e => e.row.egressId)) &&
  distinct (db.routeBindings.entities.map (fun e => e.row.outboundTag)) &&
  distinct ((db.routeBindings.entities.filter (fun e => e.row.active)).map
    (fun e => e.row.subscriptionId)) &&
  distinct ((db.routeBindings.entities.filter (fun e => e.row.active)).map
    (fun e => e.row.egressId)) &&
  distinct ((db.routeBindings.entities.filter (fun e => e.row.active)).map
    (fun e => e.row.gatewayPrincipal))

/-- `GATEWAY_RECONCILE` and not `SUCCEEDED`. -/
def unresolved (job : Job) : Bool := job.jobType = .gatewayReconcile && job.status ≠ .succeeded

/-- What a claim selects. -/
def claimable (now : Timestamp) (job : Job) : Bool :=
  job.jobType = .gatewayReconcile &&
    (job.status = .pending || job.status = .failed ||
      (job.status = .running && job.lockedAt.any (fun at' => at' < now - Infra.staleAfter))) &&
    job.availableAt ≤ now && job.attempts < job.maxAttempts

end Database

namespace World

/-- What the session sees: the committed rows with its own changes. -/
def view (w : World) : Database := Write.applyAll w.session.pending w.shared.database

def setDatabase (w : World) (db : Database) : World := { w with shared := { w.shared with database := db } }

def setPending (w : World) (ws : List Write) : World :=
  { w with session := { w.session with pending := ws } }

/-- Flush changes into the session's transaction. -/
def stage (w : World) (ws : List Write) : World :=
  { shared := { w.shared with database := ws.foldl Write.reserve w.shared.database }
    session := { w.session with pending := w.session.pending ++ ws } }

/-- The session's changes become durable. -/
def land (w : World) : World := (w.setDatabase w.view).setPending []

/-- A change committed by another session. -/
def writeThrough (w : World) (c : Write) : World := w.setDatabase (c.apply w.shared.database)

/-- Run a piece of session code under its fate. -/
def perform {α : Type} (w : World) (effect : Effect α) (fate : Fate) : Except Exn α × World :=
  match fate.fault with
  | none => (effect.result, w.stage effect.changes)
  | some e => (.error e, w.stage (effect.changes.take fate.took))

def query {α : Type} (w : World) (result : Except Exn α) (fate : Fate) : Except Exn α × World :=
  (match fate.fault with
    | none => result
    | some e => .error e, w)

def integrityError : Exn := ⟨.integrityError, "duplicate key"⟩

def commit (w : World) (fate : Fate) : Except Exn Unit × World :=
  match fate.fault with
  | none => if w.view.keysUnique then (.ok (), w.land) else (.error integrityError, w)
  | some e => (.error e, if fate.took ≠ 0 ∧ w.view.keysUnique then w.land else w)

def rollback (w : World) (fate : Fate) : Except Exn Unit × World :=
  (match fate.fault with
    | none => .ok ()
    | some e => .error e, w.setPending [])

def setLock (w : World) (held : Bool) : World :=
  { shared := { w.shared with locked := held }, session := { w.session with holdsLock := held } }

def lockTimeout : Exn := ⟨.gatewayRouteBindingLockError, "GET_LOCK returned 0 (0=timeout, NULL=error)"⟩

/-- The lock is not held after an acquisition that raised, and not any more after a
release, whether that returned or discarded the connection. -/
def acquireLock (w : World) (fate : Fate) : Except Exn Unit × World :=
  match fate.fault with
  | some e => (.error e, w)
  | none => if w.shared.locked then (.error lockTimeout, w) else (.ok (), w.setLock true)

def releaseLock (w : World) (fate : Fate) : Except Exn Unit × World :=
  (match fate.fault with
    | none => .ok ()
    | some e => .error e, w.setLock false)

/-- The run store's own session: best-effort writes end normally, written or not. -/
def bookkeep (w : World) (c : Write) (fate : Fate) : Except Exn Unit × World :=
  (match fate.fault with
    | none => .ok ()
    | some e => .error e, if fate.took ≠ 0 then w.writeThrough c else w)

def runs (w : World) (fate : Fate) : (c : RunCall) → Except Exn c.Answer × World
  | .start request =>
    let started := Api.startRun w.shared.database fate.now request.orderId
    match fate.fault with
    | none => (.ok started.1, w.writeThrough started.2)
    | some e => (.error e, if fate.took ≠ 0 then w.writeThrough started.2 else w)
  | .recordStep runId step status => w.bookkeep (Api.stepWrite runId step status) fate
  | .recordExternalId runId kind externalId => w.bookkeep (Api.externalIdWrite runId kind externalId) fate
  | .markNotificationFailed runId error => w.bookkeep (Api.notificationWrite runId error) fate
  | .markStatus runId status error =>
    match fate.fault with
    | none =>
      if (w.shared.database.jobs.get runId).isNone then (.error Api.runNotFound, w)
      else (.ok (), w.writeThrough (Api.statusWrite runId status error))
    | some e => (.error e,
        if fate.took ≠ 0 then w.writeThrough (Api.statusWrite runId status error) else w)

/-- `_delegate()`: the adapter of the order's subscription. -/
def delegate {α : Type} (w : World) (f : ℕ → Effect α) : Effect α :=
  match Api.subscriptionOfOrder w.view w.session.orderId with
  | none => .fail ⟨.valueError, "Provisioning subscription was not created"⟩
  | some subscription => f subscription.id

def stateEffect (w : World) (now : Timestamp) : (c : StateCall) → Effect c.Answer
  | .rejectCapacity _ _ => .done [] ()
  | .allocateEndpoint customerId => w.delegate (fun s => Infra.allocateEndpoint w.view s customerId)
  | .saveCredentials _ endpoint credential =>
    w.delegate (fun s => Infra.saveCredentials w.view s endpoint credential)
  | .currentForwarderState => w.delegate (fun _ => .done [] (Infra.currentForwarderState w.view))
  | .desiredForwarderState endpoint tenant secretRef =>
    w.delegate (fun _ => .done [] (Infra.desiredForwarderState w.view endpoint tenant secretRef))
  | .desiredRoutingState _ endpoint _ routingPrincipal =>
    w.delegate (fun s => Infra.desiredRoutingState w.view w.session.holdsLock s endpoint routingPrincipal)
  | .storeSubscriptionToken customerId rawToken =>
    w.delegate (fun s => Infra.storeSubscriptionToken w.view now s customerId rawToken)

def sessionCall (w : World) (fate : Fate) : (c : SessionCall) → Except Exn c.Answer × World
  | .commit => w.commit fate
  | .rollback => w.rollback fate
  | .acquireLock => w.acquireLock fate
  | .releaseLock => w.releaseLock fate
  | .write change => (.ok (), w.stage [change])
  | .insertJob row =>
    w.perform (.done [.insertJob w.view.jobs.next row] w.view.jobs.next) fate
  | .unresolvedGatewayJob =>
    w.query (.ok ((w.view.jobs.find Database.unresolved).map (fun e => e.id))) fate
  | .claimableJob now => w.query (.ok (w.view.jobs.find (Database.claimable now))) fate
  | .jobOfKey key => w.query (.ok (w.view.jobs.find (fun j => j.dedupeKey = key))) fate
  | .getJob jobId => w.query (.ok (w.view.jobs.get jobId)) fate
  | .getSubscription subscriptionId => w.query (.ok (w.view.subscriptions.get subscriptionId)) fate
  | .subscriptionOfOrder orderId => w.query (.ok (Api.subscriptionOfOrder w.view orderId)) fate
  | .refreshSubscription _ => w.query (.ok ()) fate
  | .getOrder orderId => w.query (.ok (w.view.orders.get orderId)) fate
  | .activeEgressBinding subscriptionId =>
    w.query (.ok (Infra.activeBinding w.view subscriptionId)) fate
  | .getEndpoint endpointId => w.query (.ok (w.view.endpoints.get endpointId)) fate
  | .unreleasedRoute subscriptionId => w.query (.ok (Infra.unreleasedRoute w.view subscriptionId)) fate
  | .routingSnapshot => w.query (Infra.fullDesiredRoutingSnapshot w.view) fate
  | .subscriptionUrl subscriptionId domain =>
    w.query (Infra.currentSubscriptionUrl w.view w.session.configuredDomain subscriptionId domain) fate
  | .probeJobId key =>
    w.query (.ok ((w.shared.database.jobs.find (fun j => j.dedupeKey = key)).map (fun e => e.id))) fate
  | .probeActiveRouteId subscriptionId =>
    w.query (.ok ((w.shared.database.routeBindings.find
      (fun r => r.subscriptionId = subscriptionId && r.active)).map (fun e => e.id))) fate
  | .probeJobStatus jobId =>
    w.query (.ok ((w.shared.database.jobs.get jobId).map (fun j => j.status))) fate
  | .probeSubscriptionStatus subscriptionId =>
    w.query (.ok ((w.shared.database.subscriptions.get subscriptionId).map (fun s => s.status))) fate
  | .probeOrderStatus orderId =>
    w.query (.ok ((w.shared.database.orders.get orderId).map (fun o => o.status))) fate

/-- A provider answers as it likes, except that a rendered candidate is one of the
desired state it was rendered from and that the clock always answers. -/
def providerAnswer : (c : ProviderCall) → Except Exn c.Answer → Except Exn c.Answer
  | .now, .error _ => .ok (0 : ℤ)
  | .gatewayRender desired, .ok candidate => .ok { candidate with rendered := desired }
  | .forwarderRender desired, .ok candidate => .ok { candidate with rendered := desired }
  | _, answer => answer

/-- The gateway has the candidate's projection after it reported `applied`, and
possibly when it raised. -/
def applied (w : World) (candidate : CandidateConfig DesiredRoutingState)
    (answer : Except Exn ApplyResult) (took : Bool) : World :=
  let reached := match answer with
    | .ok result => result.applied
    | .error _ => took
  if reached then { w with shared := { w.shared with runtime := candidate.rendered } } else w

def providerWorld (w : World) : (c : ProviderCall) → Except Exn c.Answer → Bool → World
  | .gatewayApply candidate, answer, took => w.applied candidate answer took
  | _, _, _ => w

end World

/-- What the outside decides about a call. -/
@[reducible] def Call.Choice : Call → Type
  | .provider c => Except Exn c.Answer × Bool
  | _ => Fate

namespace World

def act : (c : Call) → c.Choice → World → Except Exn c.Answer × World
  | .provider c, choice, w => (providerAnswer c choice.1, w.providerWorld c choice.1 choice.2)
  | .runs c, fate, w => w.runs fate c
  | .state c, fate, w => w.perform (w.stateEffect fate.now c) fate
  | .orders c, fate, w => w.perform (Api.orderEffect w.view fate.now c) fate
  | .session c, fate, w => w.sessionCall fate c

end World

/-- Nothing befalls a call. -/
def Fate.calm : Fate := ⟨(0 : ℤ), none, 0⟩

def Call.calm : (c : Call) → c.Choice
  | .provider c => (c.calm, true)
  | .runs _ => Fate.calm
  | .state _ => Fate.calm
  | .orders _ => Fate.calm
  | .session _ => Fate.calm

/-- One process and the shared state. -/
def worlds : Machine port Exn World where
  Choice := Call.Choice
  act := World.act

/-- The same rows, whatever identifiers were handed out in between. -/
structure Database.SameRows (db db' : Database) : Prop where
  jobs : ∀ id, db'.jobs.get id = db.jobs.get id
  subscriptions : ∀ id, db'.subscriptions.get id = db.subscriptions.get id
  usagePeriods : ∀ id, db'.usagePeriods.get id = db.usagePeriods.get id
  plans : ∀ id, db'.plans.get id = db.plans.get id
  orders : ∀ id, db'.orders.get id = db.orders.get id
  endpoints : ∀ id, db'.endpoints.get id = db.endpoints.get id
  egressBindings : ∀ id, db'.egressBindings.get id = db.egressBindings.get id
  routeBindings : ∀ id, db'.routeBindings.get id = db.routeBindings.get id
  secrets : db'.secrets = db.secrets

namespace Database.SameRows

theorem rfl' (db : Database) : SameRows db db := by constructor <;> intros <;> rfl

theorem reserve (db : Database) (c : Write) : SameRows db (c.reserve db) := by
  cases c <;> constructor <;> intros <;> rfl

theorem trans {a b c : Database} (hab : SameRows a b) (hbc : SameRows b c) : SameRows a c where
  jobs id := (hbc.jobs id).trans (hab.jobs id)
  subscriptions id := (hbc.subscriptions id).trans (hab.subscriptions id)
  usagePeriods id := (hbc.usagePeriods id).trans (hab.usagePeriods id)
  plans id := (hbc.plans id).trans (hab.plans id)
  orders id := (hbc.orders id).trans (hab.orders id)
  endpoints id := (hbc.endpoints id).trans (hab.endpoints id)
  egressBindings id := (hbc.egressBindings id).trans (hab.egressBindings id)
  routeBindings id := (hbc.routeBindings id).trans (hab.routeBindings id)
  secrets := hbc.secrets.trans hab.secrets

theorem reserveAll (db : Database) (ws : List Write) : SameRows db (ws.foldl Write.reserve db) := by
  induction ws generalizing db with
  | nil => exact rfl' db
  | cons c ws ih => exact (reserve db c).trans (ih _)

/-- The same changes to the same rows give the same rows. -/
theorem apply {db db' : Database} (h : SameRows db db') (c : Write) :
    SameRows (c.apply db) (c.apply db') := by
  cases c <;> constructor <;> intros <;>
    simp only [Write.apply, Table.get_insert, Table.get_modify, h.jobs, h.subscriptions,
      h.usagePeriods, h.plans, h.orders, h.endpoints, h.egressBindings, h.routeBindings, h.secrets]

theorem applyAll {db db' : Database} (h : SameRows db db') (ws : List Write) :
    SameRows (Write.applyAll ws db) (Write.applyAll ws db') := by
  induction ws generalizing db db' with
  | nil => exact h
  | cons c ws ih => exact ih (h.apply c)

end Database.SameRows

namespace World

variable (w : World)

@[simp] theorem pending_setPending (ws : List Write) : (w.setPending ws).session.pending = ws := rfl

@[simp] theorem shared_setPending (ws : List Write) : (w.setPending ws).shared = w.shared := rfl

@[simp] theorem database_setDatabase (db : Database) : (w.setDatabase db).shared.database = db := rfl

@[simp] theorem session_setDatabase (db : Database) : (w.setDatabase db).session = w.session := rfl

@[simp] theorem pending_stage (ws : List Write) :
    (w.stage ws).session.pending = w.session.pending ++ ws := rfl

@[simp] theorem pending_land : w.land.session.pending = [] := rfl

@[simp] theorem database_land : w.land.shared.database = w.view := rfl

theorem sameRows_stage (ws : List Write) :
    Database.SameRows w.shared.database (w.stage ws).shared.database :=
  Database.SameRows.reserveAll _ ws

/-- Staged changes are seen by their own session. -/
theorem view_stage (ws : List Write) :
    Database.SameRows (Write.applyAll ws w.view) (w.stage ws).view := by
  simp only [view, pending_stage, Write.applyAll_append]
  exact ((w.sameRows_stage ws).applyAll _).applyAll _

/-- A query gives the truth, or raises. -/
theorem query_ok {α : Type} {value : α} {fate : Fate} {a : α}
    (h : (w.query (.ok value) fate).1 = .ok a) : a = value := by
  unfold query at h
  split at h
  · exact (Except.ok.inj h).symm
  · cases h

/-- A commit lands, which needs unique keys, or changes nothing. -/
theorem commit_cases (fate : Fate) :
    (w.commit fate).2 = w.land ∨
      ((w.commit fate).2 = w ∧ ∃ e, (w.commit fate).1 = .error e) := by
  unfold commit
  split
  · split_ifs
    · exact .inl rfl
    · exact .inr ⟨rfl, _, rfl⟩
  · split_ifs
    · exact .inl rfl
    · exact .inr ⟨rfl, _, rfl⟩

end World

/-- Session calls that only read, from the session or from an independent one. -/
def SessionCall.reads : SessionCall → Bool
  | commit | rollback | acquireLock | releaseLock | write _ | insertJob _ => false
  | _ => true

theorem World.sessionCall_reads (w : World) (fate : Fate) {c : SessionCall} (hc : c.reads = true) :
    (w.sessionCall fate c).2 = w := by
  cases c <;> first | rfl | cases hc

/-- Calls that change neither rows nor pending changes. -/
def Call.quiet : Call → Bool
  | .session .acquireLock | .session .releaseLock => true
  | .session c => c.reads
  | .provider _ => true
  | _ => false

theorem World.act_quiet {c : Call} (hc : c.quiet = true) (choice : c.Choice) (w : World) :
    (act c choice w).2.shared.database = w.shared.database ∧
      (act c choice w).2.session.pending = w.session.pending := by
  cases c with
  | session c =>
    by_cases hreads : c.reads = true
    · rw [show (act (.session c) choice w).2 = w from w.sessionCall_reads choice hreads]
      exact ⟨rfl, rfl⟩
    · cases c with
      | acquireLock =>
        simp only [act, sessionCall, acquireLock]
        split
        · exact ⟨rfl, rfl⟩
        · split_ifs <;> exact ⟨rfl, rfl⟩
      | releaseLock => exact ⟨rfl, rfl⟩
      | _ => exact absurd hc hreads
  | provider c =>
    cases c with
    | gatewayApply candidate =>
      simp only [act, providerWorld, applied]
      split_ifs <;> exact ⟨rfl, rfl⟩
    | _ => exact ⟨rfl, rfl⟩
  | _ => cases hc

end Lingsway
