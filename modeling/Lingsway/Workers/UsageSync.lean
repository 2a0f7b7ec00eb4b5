import Lingsway.Api.Admin

/-!
# Usage synchronisation

A synchronisation reads the provider's counter, takes the row lock of the
subscription and commits a sample, the difference to the previous sample and the
cached total of the period. The columns of the subscription are those that were
loaded before the lock was taken: the locking read does not refresh them.
-/
namespace Lingsway.Workers

open Library

inductive UsageDeltaReason where
  | bootstrap
  | normal
  | counterReset
  deriving Repr, DecidableEq

structure UsageSample where
  subscriptionId : ℕ
  sourceCounter : ℤ
  sampledAt : Timestamp
  deriving Repr, DecidableEq

structure UsageDelta where
  subscriptionId : ℕ
  periodId : ℕ
  fromSampleId : Option ℕ
  toSampleId : ℕ
  deltaBytes : ℤ
  reason : UsageDeltaReason
  deriving Repr, DecidableEq

structure UsageAlert where
  subscriptionId : ℕ
  periodId : ℕ
  threshold : ℤ
  deriving Repr, DecidableEq

/-- The committed rows that usage is accounted in. -/
structure UsageStore where
  database : Database
  samples : Table UsageSample
  deltas : Table UsageDelta
  alerts : List UsageAlert

namespace UsageStore

def applyAll (s : UsageStore) (ws : List Write) : UsageStore :=
  { s with database := Write.applyAll ws s.database }

def samplesOf (s : UsageStore) (subscriptionId : ℕ) : List (Entity UsageSample) :=
  s.samples.entities.filter fun e => e.row.subscriptionId = subscriptionId

def deltasOf (s : UsageStore) (subscriptionId : ℕ) : List (Entity UsageDelta) :=
  s.deltas.entities.filter fun e => e.row.subscriptionId = subscriptionId

end UsageStore

/-- The newer of two samples, the later one of two equally old ones. -/
def newer (best : Option (Entity UsageSample)) (e : Entity UsageSample) : Option (Entity UsageSample) :=
  match best with
  | none => some e
  | some b => if b.row.sampledAt ≤ e.row.sampledAt then some e else some b

/-- `ORDER BY sampled_at DESC, id DESC LIMIT 1`, of samples in the order of their ids. -/
def latest (samples : List (Entity UsageSample)) : Option (Entity UsageSample) :=
  samples.foldl newer none

/-- An attribute of a mapped row is only written when its value differs from the loaded one. -/
def assign {α : Type} [DecidableEq α] (loaded value current : α) : α :=
  if value = loaded then current else value

def alertThresholds : List ℤ := [70, 90, 100]

/-- `record_usage_alerts`. -/
def recordUsageAlerts (alerts : List UsageAlert) (subscriptionId periodId : ℕ) (period : UsagePeriod) :
    List UsageAlert :=
  if period.quotaBytes ≤ 0 then alerts
  else alertThresholds.foldl (fun alerts threshold =>
    if period.usedBytes * 100 / period.quotaBytes < threshold ∨
        alerts.any (fun a => a.periodId = periodId && a.threshold = threshold) then alerts
    else alerts ++ [⟨subscriptionId, periodId, threshold⟩]) alerts

def hours (n : ℕ) : ℤ := n * 60 * 60 * 1000000

/-- The first queued period becomes the current one. -/
def rollOver (subscription : Entity Subscription) (periodId : ℕ) (next : Entity UsagePeriod)
    (now : Timestamp) : List Write :=
  let loaded := subscription.row
  [.updateUsagePeriod periodId (fun p => { p with status := .closed }),
    .updateUsagePeriod next.id (fun p =>
      { p with status := .active, periodStart := now, periodEnd := now + days 30 }),
    .updateSubscription subscription.id (fun row =>
      { row with
        currentPeriodId := some next.id
        planId := assign loaded.planId next.row.planId row.planId
        serviceExpireAt := assign loaded.serviceExpireAt (now + days 30) row.serviceExpireAt
        reconcileState := assign loaded.reconcileState .pending row.reconcileState })]

/-- `apply_expiry_policy`: the changes, and whether the provider has to be reconciled. -/
def applyExpiryPolicy (s : UsageStore) (subscription : Entity Subscription) (period : Entity UsagePeriod)
    (now : Timestamp) (gracePeriodHours : ℕ) : List Write × Bool :=
  let loaded := subscription.row
  let grace (expireAt : Timestamp) : Write := .updateSubscription subscription.id fun row =>
    { row with
      status := .grace
      serviceExpireAt := assign loaded.serviceExpireAt expireAt row.serviceExpireAt
      reconcileState := assign loaded.reconcileState .pending row.reconcileState }
  if loaded.status = .active ∧
      (period.row.quotaBytes ≤ period.row.usedBytes ∨ period.row.periodEnd ≤ now) then
    match s.database.usagePeriods.find (fun p =>
        p.subscriptionId = subscription.id && p.status = .queued) with
    | some next => (rollOver subscription period.id next now, true)
    | none =>
      ([.updateUsagePeriod period.id (fun p => { p with status := .closed }),
        grace (now + hours gracePeriodHours)], true)
  else if loaded.status = .active ∧ loaded.serviceExpireAt ≤ now then
    ([grace (loaded.serviceExpireAt + hours gracePeriodHours)], true)
  else if loaded.status = .grace ∧ loaded.serviceExpireAt ≤ now then
    ([.updateSubscription subscription.id (fun row => { row with status := .expired })], false)
  else ([], false)

/-- `delta_bytes` and `reason`. -/
def usageDifference (previous : Option (Entity UsageSample)) (current : ℤ) : ℤ × UsageDeltaReason :=
  match previous with
  | none => (current, .bootstrap)
  | some p =>
    if p.row.sourceCounter ≤ current then (current - p.row.sourceCounter, .normal)
    else (current, .counterReset)

def newSample (subscriptionId : ℕ) (usedBytes : ℤ) (now : Timestamp) : UsageSample :=
  ⟨subscriptionId, max 0 usedBytes, now⟩

/-- The difference to the newest sample, between that sample and the one with `sampleId`. -/
def newDelta (samples : List (Entity UsageSample)) (subscriptionId periodId sampleId : ℕ)
    (usedBytes : ℤ) : UsageDelta :=
  let previous := latest samples
  let difference := usageDifference previous (max 0 usedBytes)
  ⟨subscriptionId, periodId, previous.map (fun p => p.id), sampleId, difference.1, difference.2⟩

/-- The sample, the delta, the cached total and the alerts. -/
def countUsage (s : UsageStore) (subscriptionId : ℕ) (period : Entity UsagePeriod) (usedBytes : ℤ)
    (now : Timestamp) : UsageStore :=
  let delta := newDelta (s.samplesOf subscriptionId) subscriptionId period.id s.samples.next usedBytes
  { database := Write.apply s.database (.updateUsagePeriod period.id fun p =>
      { p with usedBytes := p.usedBytes + delta.deltaBytes })
    samples := s.samples.insert s.samples.next (newSample subscriptionId usedBytes now)
    deltas := s.deltas.insert s.deltas.next delta
    alerts := recordUsageAlerts s.alerts subscriptionId period.id
      { period.row with usedBytes := period.row.usedBytes + delta.deltaBytes } }

structure SyncResult where
  store : UsageStore
  deltaBytes : ℤ
  needsReconcile : Bool

def noActivePeriod : Exn := ⟨.valueError, "Subscription has no active usage period"⟩

def periodNotFound : Exn := ⟨.valueError, "Current usage period not found"⟩

/-- The transaction of `sync_subscription_usage`, from the row lock to the commit.
`subscription` is the row as it was loaded before, `usedBytes` the counter as it was read. -/
def syncSubscriptionUsage (s : UsageStore) (subscription : Entity Subscription) (usedBytes : ℤ)
    (now : Timestamp) (gracePeriodHours : ℕ) : Except Exn SyncResult :=
  match s.database.subscriptions.get subscription.id, subscription.row.currentPeriodId with
  | some _, some periodId =>
    match s.database.usagePeriods.get periodId with
    | none => .error periodNotFound
    | some period =>
      let deltaBytes := (newDelta (s.samplesOf subscription.id) subscription.id periodId
        s.samples.next usedBytes).deltaBytes
      let counted := countUsage s subscription.id ⟨periodId, period⟩ usedBytes now
      let period := { period with usedBytes := period.usedBytes + deltaBytes }
      let policy := applyExpiryPolicy counted subscription ⟨periodId, period⟩ now gracePeriodHours
      .ok ⟨counted.applyAll policy.1, deltaBytes, policy.2⟩
  | _, _ => .error noActivePeriod

section Synchronisation

variable {s : UsageStore} {subscriptionId : ℕ} {period : Entity UsagePeriod} {usedBytes : ℤ}
variable {now : Timestamp}

@[simp] theorem samplesOf_applyAll (ws : List Write) :
    (s.applyAll ws).samplesOf subscriptionId = s.samplesOf subscriptionId := rfl

@[simp] theorem deltasOf_applyAll (ws : List Write) :
    (s.applyAll ws).deltasOf subscriptionId = s.deltasOf subscriptionId := rfl

@[simp] theorem samplesOf_countUsage :
    (countUsage s subscriptionId period usedBytes now).samplesOf subscriptionId =
      s.samplesOf subscriptionId ++ [⟨s.samples.next, newSample subscriptionId usedBytes now⟩] := by
  simp [countUsage, UsageStore.samplesOf, Table.entities_insert_next, newSample]

@[simp] theorem deltasOf_countUsage :
    (countUsage s subscriptionId period usedBytes now).deltasOf subscriptionId =
      s.deltasOf subscriptionId ++ [⟨s.deltas.next, newDelta (s.samplesOf subscriptionId)
        subscriptionId period.id s.samples.next usedBytes⟩] := by
  simp [countUsage, UsageStore.deltasOf, Table.entities_insert_next, newDelta]

/-- A synchronisation that commits has counted the usage and applied the expiry policy. -/
theorem syncSubscriptionUsage_ok {subscription : Entity Subscription} {gracePeriodHours : ℕ}
    {r : SyncResult} (h : syncSubscriptionUsage s subscription usedBytes now gracePeriodHours = .ok r) :
    ∃ (period : Entity UsagePeriod) (ws : List Write),
      s.database.usagePeriods.get period.id = some period.row ∧
      ws = (applyExpiryPolicy (countUsage s subscription.id period usedBytes now) subscription
        ⟨period.id, { period.row with usedBytes := period.row.usedBytes +
          (newDelta (s.samplesOf subscription.id) subscription.id period.id s.samples.next
            usedBytes).deltaBytes }⟩ now gracePeriodHours).1 ∧
      r.store = (countUsage s subscription.id period usedBytes now).applyAll ws := by
  unfold syncSubscriptionUsage at h
  split at h
  · split at h
    · cases h
    · next periodId _ _ _ period hperiod =>
      cases h
      exact ⟨⟨periodId, period⟩, _, hperiod, rfl, rfl⟩
  · cases h

end Synchronisation

end Lingsway.Workers
