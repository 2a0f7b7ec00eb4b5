import Lingsway.Library.Concurrent
import Lingsway.Library.History
import Lingsway.Workers.UsageSync

/-!
# The workers of a subscription

Any number of processes synchronise the usage of one subscription, reconcile the
accounting provider and enqueue paid renewals. A plain read sees a state of the
past, a locking read the latest commit, and a row that a session has loaded keeps
its loaded values.
-/
namespace Lingsway.PaidPeriods

open Library Program Workers

inductive Task where
  | usageSync (now : Timestamp)
  | pendingReconcile
  | renewal (command : BillingCommand) (now : Timestamp)

/-- What a committed usage transaction leaves its session with. -/
structure SyncOutcome where
  row : Subscription
  needsReconcile : Bool
  rolledPeriod : Bool

inductive Call where
  | task
  | getSubscription
  | getUsage (username : String)
  | syncTransaction (loaded : Subscription) (usedBytes : ℤ) (now : Timestamp)
  | getPeriod (periodId : ℕ)
  | markPending (loaded : Subscription)
  | setQuota (username : String) (quotaBytes : ℤ)
  | setExpire (username : String) (expireAt : Timestamp)
  | markMissing (detail : String)
  | markFailed (state : ReconcileState) (error : Option String)
  | markSynced
  | rollback
  | applyRenewal (command : BillingCommand) (now : Timestamp)
  | commitOrder

@[reducible] def Call.Answer : Call → Type
  | task => Task
  | getSubscription => Option Subscription
  | getUsage _ => ℤ
  | syncTransaction .. => SyncOutcome
  | getPeriod _ => Option UsagePeriod
  | _ => Unit

abbrev calls : Signature := ⟨Call, Call.Answer⟩

abbrev Work := Program calls Exn

def work (c : Call) : Work c.Answer := Program.perform (S := calls) c

/-- The calls to the provider. A user that cannot be read is reported before. -/
def overwriteProvider (username : String) (quotaBytes : ℤ) (expireAt : Timestamp) : Work Unit := do
  match ← (work (.getUsage username)).attempt with
  | .error exc => do
    work (.markMissing ("external accounting identity check failed: " ++ exc.typeName))
    .raise exc
  | .ok _ => do
    work (.setQuota username quotaBytes)
    work (.setExpire username expireAt)

/-- `reconcile_subscription`, on the row as the session has it. -/
def reconcileSubscription (row : Subscription) (pendingManualOnFailure : Bool) : Work Unit := do
  match row.accountingUserId, row.currentPeriodId with
  | some username, some periodId =>
    if username = "" then .raise ⟨.valueError, "Subscription is not ready for reconcile"⟩
    else do
      match ← work (.getPeriod periodId) with
      | none => .raise periodNotFound
      | some period => do
        work (.markPending row)
        match ← (overwriteProvider username period.quotaBytes row.serviceExpireAt).attempt with
        | .error exc => do
          if pendingManualOnFailure then work (.markFailed .pendingManual (some exc.message))
          else work (.markFailed .pending none)
          .raise exc
        | .ok _ => work .markSynced
  | _, _ => .raise ⟨.valueError, "Subscription is not ready for reconcile"⟩

/-- `sync_subscription_usage`. The release of an expired subscription is another transaction. -/
def syncUsage (now : Timestamp) : Work Unit := do
  match ← work .getSubscription with
  | none => .raise Api.subscriptionNotFound
  | some subscription =>
    let username := subscription.accountingUserId.getD ""
    if username = "" then .raise ⟨.valueError, "Subscription has no accounting identity"⟩
    else do
      let usedBytes ← work (.getUsage username)
      let outcome ← work (.syncTransaction subscription usedBytes now)
      if outcome.needsReconcile then
        (reconcileSubscription outcome.row outcome.rolledPeriod).tryCatch fun _ => work .rollback
      else pure ()

/-- `run_pending_reconcile`, for one of the selected rows. -/
def runPendingReconcile : Work Unit := do
  match ← work .getSubscription with
  | none => pure ()
  | some subscription =>
    if subscription.reconcileState = .pending then
      (reconcileSubscription subscription false).tryCatch fun _ => pure ()
    else pure ()

def worker : Work Unit := do
  match ← work .task with
  | .usageSync now => syncUsage now
  | .pendingReconcile => runPendingReconcile
  | .renewal command now => do
    work (.applyRenewal command now)
    work .commitOrder

/-- What the provider holds of a user. -/
structure ProviderUser where
  quotaBytes : ℤ
  expireAt : Timestamp
  deriving Repr, DecidableEq

inductive CommitKind where
  | synced
  | ordered
  | reconciled
  deriving Repr, DecidableEq

structure PeriodCommit where
  kind : CommitKind
  before : UsageStore
  after : UsageStore

/-- The changes of a renewal that are flushed and not committed. The inserted row holds a
shared lock on its subscription, by its foreign key. -/
structure PendingInsert where
  process : ℕ
  subscriptionId : ℕ
  periodId : ℕ
  writes : List Write

/-- The committed rows with the commits so far, newest first, and the users of the provider. -/
structure Accounts where
  store : UsageStore
  users : String → ProviderUser
  pendingInserts : List PendingInsert
  commits : List PeriodCommit

namespace Accounts

/-- The committed states, newest first. -/
def states (w : Accounts) : List UsageStore := w.store :: w.commits.map fun c => c.before

def commit (w : Accounts) (kind : CommitKind) (store : UsageStore) : Accounts :=
  { w with store := store, commits := ⟨kind, w.store, store⟩ :: w.commits }

/-- The state that a transaction has begun in, which may be an older one. -/
def stale (w : Accounts) (k : ℕ) : UsageStore := w.states.getD k w.store

def setUser (w : Accounts) (username : String) (change : ProviderUser → ProviderUser) : Accounts :=
  { w with users := fun u => if u = username then change (w.users u) else w.users u }

/-- The end of a session: what is not committed is undone. -/
def abort (w : Accounts) (i : ℕ) : Accounts :=
  { w with pendingInserts := w.pendingInserts.filter fun e => e.process ≠ i }

@[simp] theorem store_commit (w : Accounts) (kind : CommitKind) (store : UsageStore) :
    (w.commit kind store).store = store := rfl

@[simp] theorem states_commit (w : Accounts) (kind : CommitKind) (store : UsageStore) :
    (w.commit kind store).states = store :: w.states := rfl

@[simp] theorem store_setUser (w : Accounts) (username : String) (change : ProviderUser → ProviderUser) :
    (w.setUser username change).store = w.store := rfl

@[simp] theorem commits_setUser (w : Accounts) (username : String) (change : ProviderUser → ProviderUser) :
    (w.setUser username change).commits = w.commits := rfl

@[simp] theorem states_abort (w : Accounts) (i : ℕ) : (w.abort i).states = w.states := rfl

theorem stale_mem (w : Accounts) (k : ℕ) : w.stale k ∈ w.states := by
  rw [stale, List.getD_eq_getElem?_getD]
  cases h : w.states[k]? with
  | none => exact List.mem_cons_self
  | some s => exact List.mem_of_getElem? h

end Accounts

/-- The row of the subscription as a session has loaded it, and how many commits there were
when it last sent a quota. -/
structure Session where
  row : Option Subscription
  sent : ℕ
  deriving Repr, DecidableEq

abbrev State := Accounts × Session

/-- The unique keys of `usage_periods`: the subscription of an ACTIVE row, and the order. -/
def KeysHold (s : UsageStore) : Prop :=
  ((s.database.usagePeriods.entities.filter fun e => e.row.status = .active).map
    fun e => e.row.subscriptionId).Nodup ∧
  (s.database.usagePeriods.entities.map fun e => e.row.orderId).Nodup

instance (s : UsageStore) : Decidable (KeysHold s) := by
  unfold KeysHold
  infer_instance

theorem KeysHold.active {s : UsageStore} (h : KeysHold s) :
    Table.UniqueKey s.database.usagePeriods.get (fun p => p.status = .active) fun p => p.subscriptionId :=
  Table.nodup_keys.mp h.1

theorem KeysHold.order {s : UsageStore} (h : KeysHold s) :
    Table.UniqueKey s.database.usagePeriods.get (fun _ => true) fun p => p.orderId :=
  Table.nodup_key.mp h.2

def integrityError : Exn := ⟨.integrityError, "Duplicate entry for key usage_periods"⟩

/-- How a commit or an external write ends. One that raises may have taken effect. -/
structure Ending where
  raises : Option Exn
  takes : Bool

def Ending.effective (e : Ending) : Bool := e.raises.isNone || e.takes

def Ending.answer (e : Ending) : Except Exn Unit :=
  match e.raises with
  | none => .ok ()
  | some exc => .error exc

theorem Ending.answer_of_not_effective (e : Ending) (h : ¬ e.effective = true) : ∃ exc, e.answer = .error exc := by
  obtain ⟨raises, takes⟩ := e
  cases raises with
  | none => simp [effective] at h
  | some exc => exact ⟨exc, rfl⟩

@[reducible] def Call.Choice : Call → Type
  | task => Task
  | getSubscription => Except Exn ℕ
  | getUsage _ => Except Exn ℤ
  | getPeriod _ => Except Exn Unit
  | markMissing _ => ℕ × Ending
  | markFailed .. => ℕ × Ending
  | rollback => Except Exn Unit
  | applyRenewal .. => Except Exn Unit
  | _ => Ending

/-- The policy of a usage transaction, behind the counting. -/
def syncPolicy (s : UsageStore) (subscription : Entity Subscription) (usedBytes : ℤ) (now : Timestamp)
    (gracePeriodHours : ℕ) : List Write × Bool :=
  match subscription.row.currentPeriodId with
  | none => ([], false)
  | some periodId =>
    match s.database.usagePeriods.get periodId with
    | none => ([], false)
    | some period =>
      let deltaBytes := (newDelta (s.samplesOf subscription.id) subscription.id periodId
        s.samples.next usedBytes).deltaBytes
      applyExpiryPolicy (countUsage s subscription.id ⟨periodId, period⟩ usedBytes now) subscription
        ⟨periodId, { period with usedBytes := period.usedBytes + deltaBytes }⟩ now gracePeriodHours

/-- The row of the session behind its own changes. -/
def sessionRow (subscriptionId : ℕ) (loaded : Subscription) (writes : List Write) : Subscription :=
  writes.foldl (fun row w => match w with
    | .updateSubscription id change => if id = subscriptionId then change row else row
    | _ => row) loaded

section System

variable (subscriptionId gracePeriodHours : ℕ)

def row (s : UsageStore) : Option Subscription := s.database.subscriptions.get subscriptionId

def update (s : UsageStore) (change : Subscription → Subscription) : UsageStore :=
  s.applyAll [.updateSubscription subscriptionId change]

def period (s : UsageStore) (periodId : ℕ) : Option UsagePeriod := s.database.usagePeriods.get periodId

@[simp] theorem row_update (s : UsageStore) (change : Subscription → Subscription) :
    row subscriptionId (update subscriptionId s change) = (row subscriptionId s).map change := by
  simp [row, update, UsageStore.applyAll, Write.apply]

@[simp] theorem period_update (s : UsageStore) (change : Subscription → Subscription) (periodId : ℕ) :
    period (update subscriptionId s change) periodId = period s periodId := rfl

/-- A commit that changes the row, unless it fails. -/
def write (w : Accounts) (ending : Ending) (change : Subscription → Subscription) : Except Exn Unit × Accounts :=
  (ending.answer,
    if ending.effective then w.commit .reconciled (update subscriptionId w.store change) else w)

/-- A change of the reconcile state by a transaction that has begun in an older state. -/
def writeState (w : Accounts) (loaded : UsageStore) (state : ReconcileState)
    (change : Subscription → Subscription) (ending : Ending) : Except Exn Unit × Accounts :=
  write subscriptionId w ending fun current => change
    { current with
      reconcileState := match row subscriptionId loaded with
        | none => current.reconcileState
        | some old => assign old.reconcileState state current.reconcileState }

/-- The usage transaction. A violated key rolls it back. -/
def sync (w : Accounts) (loaded : Subscription) (usedBytes : ℤ) (now : Timestamp) (ending : Ending) :
    Except Exn SyncOutcome × Accounts :=
  match syncSubscriptionUsage w.store ⟨subscriptionId, loaded⟩ usedBytes now gracePeriodHours with
  | .error exc => (.error exc, w)
  | .ok result =>
    if KeysHold result.store then
      let policy := syncPolicy w.store ⟨subscriptionId, loaded⟩ usedBytes now gracePeriodHours
      let row := sessionRow subscriptionId loaded policy.1
      (ending.answer.map fun _ => ⟨row, policy.2, decide (row.currentPeriodId ≠ loaded.currentPeriodId)⟩,
        if ending.effective then w.commit .synced result.store else w)
    else (.error integrityError, w)

/-- `apply_renewal` with the flush of its insert, which is given an identifier. -/
def applyRenewal (i : ℕ) (w : Accounts) (command : BillingCommand) (now : Timestamp) : Except Exn Unit × Accounts :=
  let effect := Api.enqueueSubscription w.store.database now command
  match effect.result, Api.commandSubscription w.store.database command with
  | .ok _, some enqueued =>
    (.ok (), { w with
      store := { w.store with database := { w.store.database with
        usagePeriods := w.store.database.usagePeriods.reserve } }
      pendingInserts := ⟨i, enqueued, w.store.database.usagePeriods.next, effect.changes⟩ :: w.pendingInserts })
  | .error exc, _ => (.error exc, w)
  | .ok _, none => (.error Api.subscriptionNotFound, w)

/-- The commit of the renewal. A violated key rolls it back. -/
def commitOrder (i : ℕ) (w : Accounts) (ending : Ending) : Except Exn Unit × Accounts :=
  match w.pendingInserts.find? fun e => e.process = i with
  | none => (ending.answer, w)
  | some pending =>
    let store := w.store.applyAll pending.writes
    if KeysHold store then
      (ending.answer, if ending.effective then (w.commit .ordered store).abort i else w.abort i)
    else (.error integrityError, w.abort i)

def act (i : ℕ) : (c : Call) → c.Choice → State → Except Exn c.Answer × State
  | .task, task, w => (.ok task, w)
  | .getSubscription, .ok k, w =>
    (.ok (row subscriptionId (w.1.stale k)), (w.1, { w.2 with row := row subscriptionId (w.1.stale k) }))
  | .getSubscription, .error exc, w => (.error exc, w)
  | .getUsage _, answer, w => (answer, w)
  | .syncTransaction loaded usedBytes now, ending, w =>
    let r := sync subscriptionId gracePeriodHours w.1 loaded usedBytes now ending
    (r.1, (r.2, match r.1 with
      | .ok outcome => { w.2 with row := some outcome.row }
      | .error _ => w.2))
  | .getPeriod periodId, .ok _, w => (.ok (w.1.store.database.usagePeriods.get periodId), w)
  | .getPeriod _, .error exc, w => (.error exc, w)
  | .markPending loaded, ending, w =>
    let r := write subscriptionId w.1 ending fun current =>
      { current with reconcileState := assign loaded.reconcileState .pending current.reconcileState }
    (r.1, (r.2, w.2))
  | .setQuota username quotaBytes, ending, w =>
    (ending.answer,
      (if ending.effective then w.1.setUser username fun u => { u with quotaBytes := quotaBytes } else w.1,
        { w.2 with sent := w.1.commits.length }))
  | .setExpire username expireAt, ending, w =>
    (ending.answer,
      (if ending.effective then w.1.setUser username fun u => { u with expireAt := expireAt } else w.1, w.2))
  | .markMissing _, choice, w =>
    let r := writeState subscriptionId w.1 (w.1.stale choice.1) .pending id choice.2
    (r.1, (r.2, w.2))
  | .markFailed state error, choice, w =>
    let r := writeState subscriptionId w.1 (w.1.stale choice.1) state
      (fun current => match error with
        | none => current
        | some text => { current with provisionError := some text }) choice.2
    (r.1, (r.2, w.2))
  | .markSynced, ending, w =>
    let r := write subscriptionId w.1 ending fun current => { current with reconcileState := .synced }
    (r.1, (r.2, w.2))
  | .rollback, answer, w => (answer, w)
  | .applyRenewal command now, .ok _, w =>
    let r := applyRenewal i w.1 command now
    (r.1, (r.2, w.2))
  | .applyRenewal _ _, .error exc, w => (.error exc, w)
  | .commitOrder, ending, w =>
    let r := commitOrder i w.1 ending
    (r.1, (r.2, w.2))

def agents : Agents calls Exn Accounts Session where
  Choice := Call.Choice
  act := act subscriptionId gracePeriodHours
  leave := fun i w => w.abort i

def fresh : Session := ⟨none, 0⟩

/-- A locking read of the row waits for the inserts that have locked it. A worker that
synchronises has none of its own. -/
def waits (c : Call) (w : Accounts) : Prop :=
  match c with
  | .syncTransaction .. => ∃ e ∈ w.pendingInserts, e.subscriptionId = subscriptionId
  | _ => False

/-- Any call and any crash, at any time. -/
def anyTime : Conduct calls Exn Accounts Session where
  call := fun _ c w _ _ => ¬ waits subscriptionId c w.1
  crash := fun _ _ => True

end System

end Lingsway.PaidPeriods
