import Lingsway.Workers.UsageConservation

/-!
# The cached total of a usage period

The synchronisations, the repair job, the renewals and the administrator's
overwrite are transactions of sessions of their own. A plain read sees the rows
of the first read of its transaction, a locking read the latest commit, and row
locks are held until the commit.
-/
namespace Lingsway.Workers

open Library

/-- The sum of the deltas of a period. -/
def periodTotal (s : UsageStore) (periodId : ℕ) : ℤ :=
  totalBytes (s.deltas.entities.filter fun e => e.row.periodId = periodId)

structure CacheRepair where
  periodId : ℕ
  cached : ℤ
  authoritative : ℤ
  deriving Repr, DecidableEq

def CacheRepair.writes (r : CacheRepair) : List Write :=
  [.updateUsagePeriod r.periodId (fun p => { p with usedBytes := r.authoritative }),
    .addAuditLog ⟨"USAGE_CACHE_REPAIRED", "USAGE_PERIOD", toString r.periodId, "SUCCESS",
      "cached=" ++ toString r.cached ++ ",authoritative=" ++ toString r.authoritative⟩]

/-- One turn of the loop of `reconcile_usage_period_cache`: the period is read with its
lock, the sum of its deltas without. -/
def repairPeriod (snapshot s : UsageStore) (periodId : ℕ) : List CacheRepair :=
  match s.database.usagePeriods.get periodId with
  | none => []
  | some period =>
    let authoritative := periodTotal snapshot periodId
    if period.usedBytes = authoritative then [] else [⟨periodId, period.usedBytes, authoritative⟩]

structure HttpError where
  status : ℕ
  detail : String
  deriving Repr, DecidableEq

def accountingSyncFailed : HttpError := ⟨502, "Accounting sync failed"⟩

/-- The period that `admin_sync_usage` overwrites. -/
def overwrittenPeriod (snapshot : UsageStore) (subscriptionId : ℕ) :
    Except HttpError (Entity UsagePeriod) :=
  match snapshot.database.subscriptions.get subscriptionId with
  | none => .error ⟨404, "Subscription not found"⟩
  | some subscription =>
    if (subscription.accountingUserId.getD "") = "" then
      .error ⟨409, "Subscription has no accounting identity"⟩
    else match subscription.currentPeriodId with
      | none => .error accountingSyncFailed
      | some periodId =>
        match snapshot.database.usagePeriods.get periodId with
        | none => .error accountingSyncFailed
        | some period => .ok ⟨periodId, period⟩

/-- The commit of `admin_sync_usage`. -/
def overwrite (s : UsageStore) (period : Entity UsagePeriod) (usedBytes : ℤ) : UsageStore :=
  s.applyAll [.updateUsagePeriod period.id fun p =>
    { p with usedBytes := assign period.row.usedBytes usedBytes p.usedBytes }]

inductive RowLock where
  | subscription (id : ℕ)
  | period (id : ℕ)
  deriving Repr, DecidableEq

/-- A transaction in flight. The repair job keeps the periods it still has to visit, those
whose locks it holds, and its unflushed repairs. -/
inductive CacheSession where
  | syncing (poll : Poll)
  | repairing (snapshot : UsageStore) (remaining held : List ℕ) (repairs : List CacheRepair)
  | overwriting (period : Entity UsagePeriod)
  | ordering (writes : List Write)

def CacheSession.locks : CacheSession → List RowLock
  | syncing (.locked subscription _ _) =>
    .subscription subscription.id :: (subscription.row.currentPeriodId.toList.map .period)
  | repairing _ _ held _ => held.map .period
  | _ => []

/-- No session holds the lock. -/
def Free (sessions : List CacheSession) (lock : RowLock) : Prop := ∀ p ∈ sessions, lock ∉ p.locks

instance (sessions : List CacheSession) (lock : RowLock) : Decidable (Free sessions lock) :=
  inferInstanceAs (Decidable (∀ p ∈ sessions, lock ∉ p.locks))

structure Cache where
  store : UsageStore
  sessions : List CacheSession

inductive CacheChange where
  | synced
  | repaired (snapshot : UsageStore)
  | overwritten (period : Entity UsagePeriod) (usedBytes : ℤ)
  | ordered

structure CacheCommit where
  before : UsageStore
  change : CacheChange

/-- The runs of the writers of the cached totals, with their commits, newest first. -/
inductive CacheRuns (gracePeriodHours : ℕ) (c₀ : Cache) : List CacheCommit → Cache → Prop where
  | start : CacheRuns gracePeriodHours c₀ [] c₀
  | load {h : List CacheCommit} {c : Cache} {row : Subscription} (subscriptionId : ℕ) (now : Timestamp)
      (hruns : CacheRuns gracePeriodHours c₀ h c)
      (hrow : c.store.database.subscriptions.get subscriptionId = some row) :
      CacheRuns gracePeriodHours c₀ h
        { c with sessions := .syncing (.loaded ⟨subscriptionId, row⟩ now) :: c.sessions }
  | measure {h : List CacheCommit} {c : Cache} {ps qs : List CacheSession}
      {subscription : Entity Subscription} {now : Timestamp} (usedBytes : ℤ)
      (hruns : CacheRuns gracePeriodHours c₀ h c)
      (hsession : c.sessions = ps ++ .syncing (.loaded subscription now) :: qs) :
      CacheRuns gracePeriodHours c₀ h
        { c with sessions := ps ++ .syncing (.measured subscription now usedBytes) :: qs }
  | lock {h : List CacheCommit} {c : Cache} {ps qs : List CacheSession}
      {subscription : Entity Subscription} {now : Timestamp} {usedBytes : ℤ}
      (hruns : CacheRuns gracePeriodHours c₀ h c)
      (hsession : c.sessions = ps ++ .syncing (.measured subscription now usedBytes) :: qs)
      (hfree : ∀ lock ∈ (CacheSession.syncing (.locked subscription now usedBytes)).locks,
        Free c.sessions lock) :
      CacheRuns gracePeriodHours c₀ h
        { c with sessions := ps ++ .syncing (.locked subscription now usedBytes) :: qs }
  | sync {h : List CacheCommit} {c : Cache} {ps qs : List CacheSession}
      {subscription : Entity Subscription} {now : Timestamp} {usedBytes : ℤ} {r : SyncResult}
      (hruns : CacheRuns gracePeriodHours c₀ h c)
      (hsession : c.sessions = ps ++ .syncing (.locked subscription now usedBytes) :: qs)
      (hsync : syncSubscriptionUsage c.store subscription usedBytes now gracePeriodHours = .ok r) :
      CacheRuns gracePeriodHours c₀ (⟨c.store, .synced⟩ :: h) ⟨r.store, ps ++ qs⟩
  | snapshot {h : List CacheCommit} {c : Cache} (hruns : CacheRuns gracePeriodHours c₀ h c) :
      CacheRuns gracePeriodHours c₀ h
        { c with
          sessions := .repairing c.store (c.store.database.usagePeriods.entities.map fun e => e.id)
            [] [] :: c.sessions }
  | visit {h : List CacheCommit} {c : Cache} {ps qs : List CacheSession} {snapshot : UsageStore}
      {periodId : ℕ} {remaining held : List ℕ} {repairs : List CacheRepair}
      (hruns : CacheRuns gracePeriodHours c₀ h c)
      (hsession : c.sessions = ps ++ .repairing snapshot (periodId :: remaining) held repairs :: qs)
      (hfree : Free (ps ++ qs) (.period periodId)) :
      CacheRuns gracePeriodHours c₀ h
        { c with
          sessions := ps ++ .repairing snapshot remaining (periodId :: held)
            (repairs ++ repairPeriod snapshot c.store periodId) :: qs }
  | repair {h : List CacheCommit} {c : Cache} {ps qs : List CacheSession} {snapshot : UsageStore}
      {held : List ℕ} {repairs : List CacheRepair} (hruns : CacheRuns gracePeriodHours c₀ h c)
      (hsession : c.sessions = ps ++ .repairing snapshot [] held repairs :: qs) :
      CacheRuns gracePeriodHours c₀ (⟨c.store, .repaired snapshot⟩ :: h)
        ⟨c.store.applyAll (repairs.flatMap CacheRepair.writes), ps ++ qs⟩
  | choose {h : List CacheCommit} {c : Cache} {period : Entity UsagePeriod} (subscriptionId : ℕ)
      (hruns : CacheRuns gracePeriodHours c₀ h c)
      (hperiod : overwrittenPeriod c.store subscriptionId = .ok period) :
      CacheRuns gracePeriodHours c₀ h { c with sessions := .overwriting period :: c.sessions }
  | overwrite {h : List CacheCommit} {c : Cache} {ps qs : List CacheSession}
      {period : Entity UsagePeriod} (usedBytes : ℤ) (hruns : CacheRuns gracePeriodHours c₀ h c)
      (hsession : c.sessions = ps ++ .overwriting period :: qs)
      (hfree : Free (ps ++ qs) (.period period.id)) :
      CacheRuns gracePeriodHours c₀ (⟨c.store, .overwritten period usedBytes⟩ :: h)
        ⟨overwrite c.store period usedBytes, ps ++ qs⟩
  | begin {h : List CacheCommit} {c : Cache} (hruns : CacheRuns gracePeriodHours c₀ h c) :
      CacheRuns gracePeriodHours c₀ h { c with sessions := .ordering [] :: c.sessions }
  | flush {h : List CacheCommit} {c : Cache} {ps qs : List CacheSession} {writes : List Write}
      (view : Database) (now : Timestamp) (call : OrderCall)
      (hruns : CacheRuns gracePeriodHours c₀ h c)
      (hsession : c.sessions = ps ++ .ordering writes :: qs)
      (hview : view.usagePeriods.next = c.store.database.usagePeriods.next) :
      CacheRuns gracePeriodHours c₀ h
        { store := { c.store with database :=
            { c.store.database with usagePeriods := c.store.database.usagePeriods.reserve } }
          sessions := ps ++ .ordering (writes ++ (Api.orderEffect view now call).changes) :: qs }
  | order {h : List CacheCommit} {c : Cache} {ps qs : List CacheSession} {writes : List Write}
      (hruns : CacheRuns gracePeriodHours c₀ h c)
      (hsession : c.sessions = ps ++ .ordering writes :: qs) :
      CacheRuns gracePeriodHours c₀ (⟨c.store, .ordered⟩ :: h) ⟨c.store.applyAll writes, ps ++ qs⟩
  | abandon {h : List CacheCommit} {c : Cache} {ps qs : List CacheSession} {p : CacheSession}
      (hruns : CacheRuns gracePeriodHours c₀ h c) (hsession : c.sessions = ps ++ p :: qs) :
      CacheRuns gracePeriodHours c₀ h { c with sessions := ps ++ qs }
  | elsewhere {h : List CacheCommit} {c : Cache} {s : UsageStore}
      (hruns : CacheRuns gracePeriodHours c₀ h c)
      (hperiods : s.database.usagePeriods = c.store.database.usagePeriods)
      (hdeltas : s.deltas = c.store.deltas) :
      CacheRuns gracePeriodHours c₀ h { c with store := s }

/-- Every cached total is the sum of the deltas of its period. -/
def Ledger (s : UsageStore) : Prop :=
  ∀ id row, s.database.usagePeriods.get id = some row → row.usedBytes = periodTotal s id

/-- A repair job has seen the sums that are committed when it commits, and the administrator
leaves the loaded total or writes the sum of the deltas. -/
def Faithful (c : CacheCommit) (_ : List CacheCommit) : Prop :=
  match c.change with
  | .repaired snapshot => ∀ id row, snapshot.database.usagePeriods.get id = some row →
      periodTotal snapshot id = periodTotal c.before id
  | .overwritten period usedBytes =>
    usedBytes = period.row.usedBytes ∨ usedBytes = periodTotal c.before period.id
  | _ => True

section Totals

variable {db : Database} {s : UsageStore} {periodId : ℕ}

def cachedTotal (db : Database) (periodId : ℕ) : Option ℤ :=
  (db.usagePeriods.get periodId).map fun p => p.usedBytes

theorem ledger_iff :
    Ledger s ↔ ∀ id total, cachedTotal s.database id = some total → total = periodTotal s id := by
  simp only [Ledger, cachedTotal, Option.map_eq_some_iff]
  constructor
  · rintro h id total ⟨row, hrow, rfl⟩
    exact h id row hrow
  · intro h id row hrow
    exact h id row.usedBytes ⟨row, hrow, rfl⟩

/-- The write leaves every cached total alone. -/
def KeepsTotals : Write → Prop
  | .insertUsagePeriod _ _ => False
  | .updateUsagePeriod _ change => ∀ p, (change p).usedBytes = p.usedBytes
  | _ => True

theorem cachedTotal_modify (id : ℕ) (change : UsagePeriod → UsagePeriod) (f : ℤ → ℤ)
    (hchange : ∀ p, (change p).usedBytes = f p.usedBytes) :
    cachedTotal (Write.apply db (.updateUsagePeriod id change)) periodId =
      if periodId = id then (cachedTotal db periodId).map f else cachedTotal db periodId := by
  simp only [cachedTotal, Write.apply, Table.get_modify]
  split_ifs
  · cases db.usagePeriods.get periodId with
    | none => rfl
    | some row => simp [hchange]
  · rfl

theorem cachedTotal_insert (id : ℕ) (row : UsagePeriod) :
    cachedTotal (Write.apply db (.insertUsagePeriod id row)) periodId =
      if periodId = id then some row.usedBytes else cachedTotal db periodId := by
  simp only [cachedTotal, Write.apply, Table.get_insert]
  split_ifs <;> rfl

theorem cachedTotal_of_keeps {w : Write} (h : KeepsTotals w) :
    cachedTotal (Write.apply db w) periodId = cachedTotal db periodId := by
  cases w with
  | insertUsagePeriod id row => cases h
  | updateUsagePeriod id change =>
    rw [cachedTotal_modify id change (fun n => n) h]
    simp
  | _ => rfl

theorem cachedTotal_applyAll {ws : List Write} (h : ∀ w ∈ ws, KeepsTotals w) :
    cachedTotal (Write.applyAll ws db) periodId = cachedTotal db periodId := by
  induction ws generalizing db with
  | nil => rfl
  | cons w ws ih =>
    rw [List.forall_mem_cons] at h
    rw [Write.applyAll_cons, ih h.2, cachedTotal_of_keeps h.1]

/-- The rollover and the grace period leave the totals alone. -/
theorem keepsTotals_applyExpiryPolicy (subscription : Entity Subscription) (period : Entity UsagePeriod)
    (now : Timestamp) (gracePeriodHours : ℕ) :
    ∀ w ∈ (applyExpiryPolicy s subscription period now gracePeriodHours).1, KeepsTotals w := by
  unfold applyExpiryPolicy
  simp only
  split_ifs
  · cases s.database.usagePeriods.find _ with
    | none => simp [KeepsTotals]
    | some next => simp [rollOver, KeepsTotals]
  · simp [KeepsTotals]
  · simp [KeepsTotals]
  · simp

theorem periodTotal_applyAll (ws : List Write) : periodTotal (s.applyAll ws) periodId = periodTotal s periodId :=
  rfl

end Totals

section Steps

variable {s : UsageStore} {subscription : Entity Subscription} {usedBytes : ℤ} {now : Timestamp}
variable {gracePeriodHours : ℕ} {r : SyncResult}

/-- A synchronisation adds one number to the total and to the deltas of one period. -/
theorem totals_of_sync
    (h : syncSubscriptionUsage s subscription usedBytes now gracePeriodHours = .ok r) :
    ∃ (periodId : ℕ) (delta : Entity UsageDelta), (cachedTotal s.database periodId).isSome ∧
      delta.row.periodId = periodId ∧
      r.store.deltas.entities = s.deltas.entities ++ [delta] ∧
      (∀ id, cachedTotal r.store.database id =
        if id = periodId then (cachedTotal s.database id).map (fun n => n + delta.row.deltaBytes)
        else cachedTotal s.database id) ∧
      ∀ id, periodTotal r.store id =
        periodTotal s id + if id = periodId then delta.row.deltaBytes else 0 := by
  obtain ⟨period, ws, hperiod, rfl, hstore⟩ := syncSubscriptionUsage_ok h
  have hdeltas : r.store.deltas.entities = s.deltas.entities ++ [⟨s.deltas.next,
      newDelta (s.samplesOf subscription.id) subscription.id period.id s.samples.next usedBytes⟩] := by
    rw [hstore]
    exact Table.entities_insert_next ..
  refine ⟨period.id, _, ?_, rfl, hdeltas, ?_, ?_⟩
  · rw [cachedTotal, hperiod]
    rfl
  · intro id
    rw [hstore, UsageStore.applyAll, cachedTotal_applyAll (keepsTotals_applyExpiryPolicy _ _ _ _)]
    exact cachedTotal_modify period.id _ (fun n => n + _) fun p => rfl
  · intro id
    rw [periodTotal, hdeltas, List.filter_append, periodTotal]
    by_cases hid : id = period.id
    · simp [hid, newDelta]
    · have hne : period.id ≠ id := fun heq => hid heq.symm
      simp [hid, hne, newDelta]

theorem ledger_sync (h : syncSubscriptionUsage s subscription usedBytes now gracePeriodHours = .ok r)
    (hledger : Ledger s) : Ledger r.store := by
  obtain ⟨periodId, delta, -, -, -, hcached, htotal⟩ := totals_of_sync h
  rw [ledger_iff] at hledger ⊢
  intro id total hid
  rw [hcached] at hid
  rw [htotal]
  split_ifs at hid ⊢ with hperiod
  · obtain ⟨old, hold, rfl⟩ := Option.map_eq_some_iff.mp hid
    rw [hledger id old hold]
  · rw [hledger id total hid, add_zero]

theorem ledger_overwrite {period : Entity UsagePeriod}
    (hfaithful : usedBytes = period.row.usedBytes ∨ usedBytes = periodTotal s period.id)
    (hledger : Ledger s) : Ledger (overwrite s period usedBytes) := by
  rw [ledger_iff] at hledger ⊢
  intro id total hid
  rw [overwrite, UsageStore.applyAll, Write.applyAll_cons, Write.applyAll_nil, cachedTotal_modify period.id _
    (assign period.row.usedBytes usedBytes) fun p => rfl] at hid
  rw [overwrite, periodTotal_applyAll]
  split_ifs at hid with hperiod
  · obtain ⟨old, hold, rfl⟩ := Option.map_eq_some_iff.mp hid
    simp only [assign]
    split_ifs with hsame
    · exact hledger id old hold
    · obtain hloaded | hsum := hfaithful
      · exact absurd hloaded hsame
      · rw [hsum, hperiod]
  · exact hledger id total hid

theorem ledger_repair {repairs : List CacheRepair}
    (hfaithful : ∀ r ∈ repairs, r.authoritative = periodTotal s r.periodId) (hledger : Ledger s) :
    Ledger (s.applyAll (repairs.flatMap CacheRepair.writes)) := by
  induction repairs generalizing s with
  | nil => exact hledger
  | cons r repairs ih =>
    rw [List.forall_mem_cons] at hfaithful
    have hstep : Ledger (s.applyAll r.writes) := by
      rw [ledger_iff] at hledger ⊢
      intro id total hid
      rw [UsageStore.applyAll, CacheRepair.writes, Write.applyAll_cons, Write.applyAll_cons,
        Write.applyAll_nil, cachedTotal_of_keeps (by simp [KeepsTotals]), cachedTotal_modify r.periodId _
          (fun _ => r.authoritative) fun p => rfl] at hid
      rw [periodTotal_applyAll]
      split_ifs at hid with hperiod
      · obtain ⟨old, hold, rfl⟩ := Option.map_eq_some_iff.mp hid
        rw [hfaithful.1, hperiod]
      · exact hledger id total hid
    have hrest := ih (s := s.applyAll r.writes) hfaithful.2 hstep
    rw [List.flatMap_cons, UsageStore.applyAll, Write.applyAll_append]
    exact hrest

end Steps

section Insertions

def insertedPeriod : Write → Option ℕ
  | .insertUsagePeriod id _ => some id
  | _ => none

def insertedPeriods (ws : List Write) : List ℕ := ws.filterMap insertedPeriod

/-- Periods are only added, those in `new`. -/
structure Grows (new : List ℕ) (db db' : Database) : Prop where
  next : db.usagePeriods.next ≤ db'.usagePeriods.next
  kept : ∀ id, db'.usagePeriods.get id = none → db.usagePeriods.get id = none
  added : ∀ id, id ∉ new → db.usagePeriods.get id = none → db'.usagePeriods.get id = none

theorem grows_of_eq {db db' : Database} (h : db'.usagePeriods = db.usagePeriods) : Grows [] db db' := by
  constructor
  · rw [h]
  · intro id hid
    rwa [h] at hid
  · intro id _ hid
    rwa [h]

theorem Grows.trans {new more : List ℕ} {db db' db'' : Database} (h : Grows new db db')
    (h' : Grows more db' db'') : Grows (new ++ more) db db'' := by
  constructor
  · exact h.next.trans h'.next
  · exact fun id hid => h.kept id (h'.kept id hid)
  · intro id hnew hid
    rw [List.mem_append, not_or] at hnew
    exact h'.added id hnew.2 (h.added id hnew.1 hid)

theorem grows_apply (db : Database) (w : Write) : Grows (insertedPeriods [w]) db (Write.apply db w) := by
  cases w with
  | insertUsagePeriod id row =>
    constructor
    · simp [Write.apply]
    · intro j hj
      simp only [Write.apply, Table.get_insert] at hj
      split_ifs at hj
      exact hj
    · intro j hnew hj
      have hne : j ≠ id := by simpa [insertedPeriods, insertedPeriod] using hnew
      simp only [Write.apply, Table.get_insert, if_neg hne]
      exact hj
  | updateUsagePeriod id change =>
    constructor
    · simp [Write.apply]
    · intro j hj
      simp only [Write.apply, Table.get_modify] at hj
      split_ifs at hj
      · exact Option.map_eq_none_iff.mp hj
      · exact hj
    · intro j _ hj
      simp only [Write.apply, Table.get_modify, hj]
      simp
  | _ => exact grows_of_eq rfl

theorem grows_applyAll (db : Database) (ws : List Write) :
    Grows (insertedPeriods ws) db (Write.applyAll ws db) := by
  induction ws generalizing db with
  | nil => exact grows_of_eq rfl
  | cons w ws ih =>
    have hfirst := (grows_apply db w).trans (ih (Write.apply db w))
    have hnew : insertedPeriods (w :: ws) = insertedPeriods [w] ++ insertedPeriods ws := by
      rw [insertedPeriods, insertedPeriods, insertedPeriods, ← List.filterMap_append]
      rfl
    rw [hnew]
    exact hfirst

/-- A write of an order: a new period starts with nothing used. -/
def Unused (db : Database) (w : Write) : Prop :=
  KeepsTotals w ∨ ∃ id row, w = .insertUsagePeriod id row ∧ row.usedBytes = 0 ∧
    id < db.usagePeriods.next ∧ db.usagePeriods.get id = none

/-- A call of the order state inserts one period at most, under the next identifier. -/
structure OrderWrites (view : Database) (ws : List Write) : Prop where
  unused : ∀ w ∈ ws, KeepsTotals w ∨
    ∃ row, w = .insertUsagePeriod view.usagePeriods.next row ∧ row.usedBytes = 0
  inserted : insertedPeriods ws = [] ∨ insertedPeriods ws = [view.usagePeriods.next]

theorem insertedPeriods_of_keeps {ws : List Write} (h : ∀ w ∈ ws, KeepsTotals w) :
    insertedPeriods ws = [] := by
  rw [insertedPeriods, List.filterMap_eq_nil_iff]
  intro w hw
  have hkeeps := h w hw
  cases w with
  | insertUsagePeriod id row => cases hkeeps
  | _ => rfl

theorem orderWrites_of_keeps {view : Database} {ws : List Write} (h : ∀ w ∈ ws, KeepsTotals w) :
    OrderWrites view ws := by
  constructor
  · exact fun w hw => .inl (h w hw)
  · exact .inl (insertedPeriods_of_keeps h)

theorem orderWrites_markProvision (view : Database) (command : BillingCommand)
    (change : Subscription → Subscription) :
    OrderWrites view (Api.markProvision view command change).changes := by
  unfold Api.markProvision
  apply orderWrites_of_keeps
  split
  · simp [Effect.fail]
  · dsimp only
    split
    · simp [KeepsTotals]
    · simp [Effect.done, KeepsTotals]

theorem orderWrites_preparePurchase (view : Database) (now : Timestamp) (command : BillingCommand) :
    OrderWrites view (Api.preparePurchase view now command).changes := by
  unfold Api.preparePurchase
  split
  · exact orderWrites_of_keeps (by simp [Effect.fail])
  · split
    · exact orderWrites_of_keeps (by simp [Effect.fail])
    · split
      · exact orderWrites_of_keeps (by simp [Effect.done])
      · constructor
        · simp [Effect.done, KeepsTotals, Api.newPeriod]
        · right
          rfl

theorem orderWrites_enqueueSubscription (view : Database) (now : Timestamp) (command : BillingCommand) :
    OrderWrites view (Api.enqueueSubscription view now command).changes := by
  unfold Api.enqueueSubscription
  split
  · exact orderWrites_of_keeps (by simp [Effect.fail])
  · split
    · exact orderWrites_of_keeps (by simp [Effect.fail])
    · split
      · exact orderWrites_of_keeps (by simp [Effect.fail])
      · split
        · exact orderWrites_of_keeps (by simp [Effect.fail])
        · constructor
          · simp [Effect.done, KeepsTotals, Api.newPeriod]
          · right
            rfl

theorem orderWrites_orderEffect (view : Database) (now : Timestamp) (call : OrderCall) :
    OrderWrites view (Api.orderEffect view now call).changes := by
  cases call with
  | recordPayment orderId receipt =>
    apply orderWrites_of_keeps
    simp only [Api.orderEffect, Api.recordPayment]
    split <;> simp [Effect.fail, Effect.done, KeepsTotals]
  | rejectCapacity orderId reason =>
    apply orderWrites_of_keeps
    simp only [Api.orderEffect, Api.rejectCapacity]
    split <;> simp [Effect.fail, Effect.done, KeepsTotals]
  | preparePurchase command => exact orderWrites_preparePurchase view now command
  | applyRenewal command => exact orderWrites_enqueueSubscription view now command
  | activateSubscription command =>
    apply orderWrites_of_keeps
    simp only [Api.orderEffect, Api.activateSubscription]
    split
    · simp [Effect.fail]
    · split
      · simp [KeepsTotals]
      · simp [Effect.done, KeepsTotals]
  | markProvisionPending command error => exact orderWrites_markProvision view command _
  | markProvisionFailed command error => exact orderWrites_markProvision view command _

/-- An order keeps the ledger when no delta refers to the periods that it inserts. -/
theorem ledger_order {s : UsageStore} {ws : List Write}
    (hunused : ∀ w ∈ ws, KeepsTotals w ∨ ∃ id row, w = .insertUsagePeriod id row ∧ row.usedBytes = 0 ∧
      ∀ e ∈ s.deltas.entities, e.row.periodId ≠ id)
    (hledger : Ledger s) : Ledger (s.applyAll ws) := by
  induction ws generalizing s with
  | nil => exact hledger
  | cons w ws ih =>
    rw [List.forall_mem_cons] at hunused
    have hstep : Ledger (s.applyAll [w]) := by
      rw [ledger_iff] at hledger ⊢
      intro id total hid
      rw [UsageStore.applyAll, Write.applyAll_cons, Write.applyAll_nil] at hid
      rw [periodTotal_applyAll]
      obtain hkeeps | ⟨j, row, rfl, hzero, hnone⟩ := hunused.1
      · rw [cachedTotal_of_keeps hkeeps] at hid
        exact hledger id total hid
      · rw [cachedTotal_insert] at hid
        split_ifs at hid with hj
        · have hempty : s.deltas.entities.filter (fun e => e.row.periodId = id) = [] := by
            rw [List.filter_eq_nil_iff]
            intro e he
            simpa [hj] using hnone e he
          rw [periodTotal, hempty, ← Option.some.inj hid, hzero]
          rfl
        · exact hledger id total hid
    exact ih (s := s.applyAll [w]) hunused.2 hstep

end Insertions

section Runs

variable {gracePeriodHours : ℕ} {c₀ c : Cache} {h : List CacheCommit}

def CacheSession.pendingPeriods : CacheSession → List ℕ
  | ordering writes => insertedPeriods writes
  | _ => []

/-- What a session has read, or is going to write, fits the store. -/
def Coherent (db : Database) : CacheSession → Prop
  | .repairing snapshot remaining _ repairs =>
    (∀ id ∈ remaining, (snapshot.database.usagePeriods.get id).isSome) ∧
      ∀ r ∈ repairs, r.authoritative = periodTotal snapshot r.periodId ∧
        (snapshot.database.usagePeriods.get r.periodId).isSome
  | .ordering writes => ∀ w ∈ writes, Unused db w
  | _ => True

/-- Every delta belongs to a stored period, and the periods to be inserted are unknown to
the store and to each other. -/
structure Accounted (c : Cache) : Prop where
  ledger : Ledger c.store
  stored : ∀ e ∈ c.store.deltas.entities, c.store.database.usagePeriods.get e.row.periodId ≠ none
  coherent : ∀ p ∈ c.sessions, Coherent c.store.database p
  distinct : (c.sessions.flatMap CacheSession.pendingPeriods).Nodup

theorem mem_insertedPeriods {ws : List Write} {id : ℕ} {row : UsagePeriod}
    (h : .insertUsagePeriod id row ∈ ws) : id ∈ insertedPeriods ws :=
  List.mem_filterMap.mpr ⟨_, h, rfl⟩

/-- A session stays coherent when others insert periods that are not its own. -/
theorem Coherent.grows {db db' : Database} {new : List ℕ} {p : CacheSession} (h : Coherent db p)
    (hgrows : Grows new db db') (hnew : ∀ id ∈ p.pendingPeriods, id ∉ new) : Coherent db' p := by
  cases p with
  | ordering writes =>
    intro w hw
    obtain hkeeps | ⟨id, row, rfl, hzero, hlt, hnone⟩ := h w hw
    · exact .inl hkeeps
    · exact .inr ⟨id, row, rfl, hzero, hlt.trans_le hgrows.next,
        hgrows.added id (hnew id (mem_insertedPeriods hw)) hnone⟩
  | _ => exact h

section Sessions

variable {ps qs : List CacheSession} {p q : CacheSession} {s : UsageStore}

theorem pending_remove
    (h : ((ps ++ p :: qs).flatMap CacheSession.pendingPeriods).Nodup) :
    ((ps ++ qs).flatMap CacheSession.pendingPeriods).Nodup := by
  rw [List.flatMap_append, List.flatMap_cons] at h
  rw [List.flatMap_append]
  exact h.sublist ((List.sublist_append_right _ _).append_left _)

/-- The periods of one session are not those of the others. -/
theorem pending_disjoint (h : ((ps ++ p :: qs).flatMap CacheSession.pendingPeriods).Nodup)
    (hq : q ∈ ps ++ qs) : ∀ id ∈ q.pendingPeriods, id ∉ p.pendingPeriods := by
  intro id hid hp
  have hperm : (ps ++ p :: qs).Perm (p :: (ps ++ qs)) := List.perm_middle
  have hnodup := (hperm.flatMap_right CacheSession.pendingPeriods).nodup_iff.mp h
  rw [List.flatMap_cons, List.nodup_append] at hnodup
  exact hnodup.2.2 id hp id (List.mem_flatMap.mpr ⟨q, hq, hid⟩) rfl

theorem coherent_remove {db : Database} (h : ∀ q ∈ ps ++ p :: qs, Coherent db q) :
    ∀ q ∈ ps ++ qs, Coherent db q := by
  intro q hq
  apply h
  rw [List.mem_append] at hq
  rw [List.mem_append, List.mem_cons]
  obtain hq | hq := hq
  · exact .inl hq
  · exact .inr (.inr hq)

theorem accounted_replace {t : UsageStore} (h : Accounted ⟨t, ps ++ p :: qs⟩)
    (hq : Coherent t.database q) (hpending : q.pendingPeriods = p.pendingPeriods) :
    Accounted ⟨t, ps ++ q :: qs⟩ := by
  constructor
  · exact h.ledger
  · exact h.stored
  · intro x hx
    rw [List.mem_append, List.mem_cons] at hx
    obtain hx | rfl | hx := hx
    · exact coherent_remove h.coherent x (List.mem_append_left _ hx)
    · exact hq
    · exact coherent_remove h.coherent x (List.mem_append_right _ hx)
  · have hdistinct := h.distinct
    simp only [List.flatMap_append, List.flatMap_cons, hpending] at hdistinct ⊢
    exact hdistinct

theorem accounted_begin (h : Accounted c) (hq : Coherent c.store.database q)
    (hpending : q.pendingPeriods = []) : Accounted { c with sessions := q :: c.sessions } := by
  constructor
  · exact h.ledger
  · exact h.stored
  · exact List.forall_mem_cons.mpr ⟨hq, h.coherent⟩
  · rw [List.flatMap_cons, hpending]
    exact h.distinct

/-- Others change the store without inserting a period. -/
theorem accounted_elsewhere (h : Accounted c) (hledger : Ledger s)
    (hstored : ∀ e ∈ s.deltas.entities, s.database.usagePeriods.get e.row.periodId ≠ none)
    (hgrows : Grows [] c.store.database s.database) : Accounted { c with store := s } := by
  constructor
  · exact hledger
  · exact hstored
  · intro q hq
    exact (h.coherent q hq).grows hgrows (by simp)
  · exact h.distinct

/-- The end of a transaction that may insert the periods its session had pending. -/
theorem accounted_commit {t : UsageStore} (h : Accounted ⟨t, ps ++ p :: qs⟩) (hledger : Ledger s)
    (hstored : ∀ e ∈ s.deltas.entities, s.database.usagePeriods.get e.row.periodId ≠ none)
    (hgrows : Grows p.pendingPeriods t.database s.database) : Accounted ⟨s, ps ++ qs⟩ := by
  constructor
  · exact hledger
  · exact hstored
  · intro q hq
    exact (coherent_remove h.coherent q hq).grows hgrows (pending_disjoint h.distinct hq)
  · exact pending_remove h.distinct

theorem stored_of_grows {t : UsageStore} {new : List ℕ}
    (h : ∀ e ∈ t.deltas.entities, t.database.usagePeriods.get e.row.periodId ≠ none)
    (hgrows : Grows new t.database s.database) (hdeltas : s.deltas = t.deltas) :
    ∀ e ∈ s.deltas.entities, s.database.usagePeriods.get e.row.periodId ≠ none := by
  intro e he hnone
  rw [hdeltas] at he
  exact h e he (hgrows.kept _ hnone)

end Sessions

theorem grows_sync {s : UsageStore} {subscription : Entity Subscription} {usedBytes : ℤ}
    {now : Timestamp} {r : SyncResult}
    (hsync : syncSubscriptionUsage s subscription usedBytes now gracePeriodHours = .ok r) :
    Grows [] s.database r.store.database := by
  obtain ⟨period, ws, -, rfl, hstore⟩ := syncSubscriptionUsage_ok hsync
  have hcount : Grows [] s.database (countUsage s subscription.id period usedBytes now).database :=
    grows_apply _ (.updateUsagePeriod period.id _)
  have hpolicy := grows_applyAll (countUsage s subscription.id period usedBytes now).database
    (applyExpiryPolicy (countUsage s subscription.id period usedBytes now) subscription
      ⟨period.id, { period.row with usedBytes := period.row.usedBytes +
        (newDelta (s.samplesOf subscription.id) subscription.id period.id s.samples.next
          usedBytes).deltaBytes }⟩ now gracePeriodHours).1
  rw [insertedPeriods_of_keeps (keepsTotals_applyExpiryPolicy _ _ _ _)] at hpolicy
  rw [hstore]
  exact hcount.trans hpolicy

theorem insertedPeriods_repairs (repairs : List CacheRepair) :
    insertedPeriods (repairs.flatMap CacheRepair.writes) = [] := by
  rw [insertedPeriods, List.filterMap_eq_nil_iff]
  intro w hw
  obtain ⟨r, -, hw⟩ := List.mem_flatMap.mp hw
  simp only [CacheRepair.writes, List.mem_cons, List.not_mem_nil, or_false] at hw
  obtain rfl | rfl := hw <;> rfl

theorem accounted_sync {ps qs : List CacheSession} {s : UsageStore} {subscription : Entity Subscription}
    {usedBytes : ℤ} {now : Timestamp} {r : SyncResult}
    (h : Accounted ⟨s, ps ++ .syncing (.locked subscription now usedBytes) :: qs⟩)
    (hsync : syncSubscriptionUsage s subscription usedBytes now gracePeriodHours = .ok r) :
    Accounted ⟨r.store, ps ++ qs⟩ := by
  have hgrows := grows_sync hsync
  refine accounted_commit h (ledger_sync hsync h.ledger) ?_ hgrows
  obtain ⟨periodId, delta, hperiod, hid, hdeltas, -⟩ := totals_of_sync hsync
  intro e he hnone
  rw [hdeltas, List.mem_append, List.mem_singleton] at he
  have hbefore := hgrows.kept _ hnone
  obtain he | rfl := he
  · exact h.stored e he hbefore
  · rw [hid] at hbefore
    simp [cachedTotal, hbefore] at hperiod

theorem accounted_repair {ps qs : List CacheSession} {s snapshot : UsageStore} {held : List ℕ}
    {repairs : List CacheRepair} (h : Accounted ⟨s, ps ++ .repairing snapshot [] held repairs :: qs⟩)
    (hfaithful : ∀ id row, snapshot.database.usagePeriods.get id = some row →
      periodTotal snapshot id = periodTotal s id) :
    Accounted ⟨s.applyAll (repairs.flatMap CacheRepair.writes), ps ++ qs⟩ := by
  have hsession := h.coherent _ (List.mem_append_right _ (List.mem_cons_self ..))
  have hrepairs : ∀ r ∈ repairs, r.authoritative = periodTotal s r.periodId := by
    intro r hr
    obtain ⟨hsum, hstored⟩ := hsession.2 r hr
    obtain ⟨row, hrow⟩ := Option.isSome_iff_exists.mp hstored
    rw [hsum, hfaithful r.periodId row hrow]
  have hgrows := grows_applyAll s.database (repairs.flatMap CacheRepair.writes)
  rw [insertedPeriods_repairs] at hgrows
  exact accounted_commit h (ledger_repair hrepairs h.ledger)
    (stored_of_grows h.stored hgrows rfl) hgrows

theorem accounted_visit {ps qs : List CacheSession} {s snapshot : UsageStore} {periodId : ℕ}
    {remaining held : List ℕ} {repairs : List CacheRepair}
    (h : Accounted ⟨s, ps ++ .repairing snapshot (periodId :: remaining) held repairs :: qs⟩) :
    Accounted ⟨s, ps ++ .repairing snapshot remaining (periodId :: held)
      (repairs ++ repairPeriod snapshot s periodId) :: qs⟩ := by
  have hsession := h.coherent _ (List.mem_append_right _ (List.mem_cons_self ..))
  simp only [Coherent, List.forall_mem_cons] at hsession
  obtain ⟨⟨hperiod, hremaining⟩, hrepairs⟩ := hsession
  refine accounted_replace h ⟨hremaining, fun r hr => ?_⟩ rfl
  rw [List.mem_append] at hr
  obtain hr | hr := hr
  · exact hrepairs r hr
  · unfold repairPeriod at hr
    split at hr
    · cases hr
    · dsimp only at hr
      split_ifs at hr
      · cases hr
      · rw [List.mem_singleton] at hr
        subst hr
        exact ⟨rfl, hperiod⟩

theorem accounted_overwrite {ps qs : List CacheSession} {s : UsageStore} {period : Entity UsagePeriod}
    {usedBytes : ℤ} (h : Accounted ⟨s, ps ++ .overwriting period :: qs⟩)
    (hfaithful : usedBytes = period.row.usedBytes ∨ usedBytes = periodTotal s period.id) :
    Accounted ⟨overwrite s period usedBytes, ps ++ qs⟩ := by
  have hgrows : Grows [] s.database (overwrite s period usedBytes).database :=
    grows_apply _ (.updateUsagePeriod period.id _)
  exact accounted_commit h (ledger_overwrite hfaithful h.ledger) (stored_of_grows h.stored hgrows rfl)
    hgrows

theorem accounted_order {ps qs : List CacheSession} {s : UsageStore} {writes : List Write}
    (h : Accounted ⟨s, ps ++ .ordering writes :: qs⟩) : Accounted ⟨s.applyAll writes, ps ++ qs⟩ := by
  have hsession := h.coherent _ (List.mem_append_right _ (List.mem_cons_self ..))
  have hgrows := grows_applyAll s.database writes
  refine accounted_commit h (ledger_order ?_ h.ledger) (stored_of_grows h.stored hgrows rfl) hgrows
  intro w hw
  obtain hkeeps | ⟨id, row, rfl, hzero, -, hnone⟩ := hsession w hw
  · exact .inl hkeeps
  · refine .inr ⟨id, row, rfl, hzero, fun e he heq => ?_⟩
    exact h.stored e he (heq ▸ hnone)

/-- The periods that sessions are going to insert have identifiers that were handed out. -/
theorem pending_lt {db : Database} {p : CacheSession} (h : Coherent db p) :
    ∀ id ∈ p.pendingPeriods, id < db.usagePeriods.next := by
  intro id hid
  cases p with
  | ordering writes =>
    obtain ⟨w, hw, hinserted⟩ := List.mem_filterMap.mp hid
    obtain hkeeps | ⟨j, row, rfl, -, hlt, -⟩ := h w hw
    · have hnone := insertedPeriods_of_keeps (List.forall_mem_singleton.mpr hkeeps)
      rw [insertedPeriods, List.filterMap_cons_some hinserted] at hnone
      cases hnone
    · cases hinserted
      exact hlt
  | _ => cases hid

/-- A flushed call takes the next identifier, which no other session has taken. -/
theorem accounted_flush {ps qs : List CacheSession} {s : UsageStore} {writes : List Write}
    {view : Database} (now : Timestamp) (call : OrderCall)
    (h : Accounted ⟨s, ps ++ .ordering writes :: qs⟩)
    (hview : view.usagePeriods.next = s.database.usagePeriods.next) :
    Accounted
      ⟨{ s with database := { s.database with usagePeriods := s.database.usagePeriods.reserve } },
        ps ++ .ordering (writes ++ (Api.orderEffect view now call).changes) :: qs⟩ := by
  have heffect := orderWrites_orderEffect view now call
  have hreserved : Accounted
      ⟨{ s with database := { s.database with usagePeriods := s.database.usagePeriods.reserve } },
        ps ++ .ordering writes :: qs⟩ := by
    refine accounted_elsewhere h h.ledger h.stored ⟨?_, fun id hid => hid, fun id _ hid => hid⟩
    exact Nat.le_succ _
  have hnext : ∀ id ∈ (ps ++ .ordering writes :: qs).flatMap CacheSession.pendingPeriods,
      id < s.database.usagePeriods.next := by
    intro id hid
    obtain ⟨p, hp, hid⟩ := List.mem_flatMap.mp hid
    exact pending_lt (h.coherent p hp) id hid
  constructor
  · exact h.ledger
  · exact h.stored
  · intro q hq
    rw [List.mem_append, List.mem_cons] at hq
    obtain hq | rfl | hq := hq
    · exact coherent_remove hreserved.coherent q (List.mem_append_left _ hq)
    · intro w hw
      rw [List.mem_append] at hw
      obtain hw | hw := hw
      · exact hreserved.coherent _ (List.mem_append_right _ (List.mem_cons_self ..)) w hw
      · obtain hkeeps | ⟨row, rfl, hzero⟩ := heffect.unused w hw
        · exact .inl hkeeps
        · refine .inr ⟨_, row, rfl, hzero, ?_, ?_⟩
          · rw [hview]
            exact Nat.lt_succ_self _
          · rw [hview]
            exact s.database.usagePeriods.unused _ le_rfl
    · exact coherent_remove hreserved.coherent q (List.mem_append_right _ hq)
  · have hperm : ∀ p : CacheSession, ((ps ++ p :: qs).flatMap CacheSession.pendingPeriods).Perm
        (p.pendingPeriods ++ (ps ++ qs).flatMap CacheSession.pendingPeriods) := by
      intro p
      have hmiddle : (ps ++ p :: qs).Perm (p :: (ps ++ qs)) := List.perm_middle
      rw [← List.flatMap_cons]
      exact hmiddle.flatMap_right _
    have hold := (hperm (.ordering writes)).nodup_iff.mp h.distinct
    rw [(hperm _).nodup_iff]
    simp only [CacheSession.pendingPeriods, insertedPeriods, List.filterMap_append] at hold ⊢
    obtain hnone | hone := heffect.inserted
    · rw [insertedPeriods] at hnone
      rw [hnone, List.append_nil]
      exact hold
    · rw [insertedPeriods] at hone
      rw [hone, List.append_assoc, List.singleton_append, List.nodup_middle, List.nodup_cons]
      refine ⟨fun hmem => ?_, hold⟩
      have hlt := hnext _ ((hperm (.ordering writes)).mem_iff.mpr hmem)
      rw [hview] at hlt
      exact absurd hlt (lt_irrefl _)

theorem Accounted.of_sessions {sessions : List CacheSession} (h : Accounted c)
    (hsessions : c.sessions = sessions) : Accounted ⟨c.store, sessions⟩ := by
  subst hsessions
  exact h

theorem accounted (h₀ : Accounted c₀) (hruns : CacheRuns gracePeriodHours c₀ h c)
    (hfaithful : History.Always Faithful h) : Accounted c := by
  induction hruns with
  | start => exact h₀
  | load _ _ _ _ ih => exact accounted_begin (ih hfaithful) trivial rfl
  | @measure _ c _ _ _ _ _ _ hsession ih =>
    have hc := (ih hfaithful).of_sessions hsession
    exact accounted_replace hc trivial rfl
  | @lock _ c _ _ _ _ _ _ hsession _ ih =>
    have hc := (ih hfaithful).of_sessions hsession
    exact accounted_replace hc trivial rfl
  | @sync _ c _ _ _ _ _ _ _ hsession hsync ih =>
    have hc := (ih hfaithful.2).of_sessions hsession
    exact accounted_sync hc hsync
  | @snapshot _ c _ ih =>
    refine accounted_begin (ih hfaithful) ⟨fun id hid => ?_, fun r hr => by cases hr⟩ rfl
    obtain ⟨e, he, rfl⟩ := List.mem_map.mp hid
    rw [Table.mem_entities.mp he]
    rfl
  | @visit _ c _ _ _ _ _ _ _ _ hsession _ ih =>
    have hc := (ih hfaithful).of_sessions hsession
    exact accounted_visit hc
  | @repair _ c _ _ _ _ _ _ hsession ih =>
    have hc := (ih hfaithful.2).of_sessions hsession
    exact accounted_repair hc hfaithful.1
  | choose _ _ _ ih => exact accounted_begin (ih hfaithful) trivial rfl
  | @overwrite _ c _ _ _ _ _ hsession _ ih =>
    have hc := (ih hfaithful.2).of_sessions hsession
    exact accounted_overwrite hc hfaithful.1
  | begin _ ih => exact accounted_begin (ih hfaithful) (by simp [Coherent]) rfl
  | @flush _ c _ _ _ view now call _ hsession hview ih =>
    have hc := (ih hfaithful).of_sessions hsession
    exact accounted_flush now call hc hview
  | @order _ c _ _ _ _ hsession ih =>
    have hc := (ih hfaithful.2).of_sessions hsession
    exact accounted_order hc
  | @abandon _ c _ _ _ _ hsession ih =>
    have hc := (ih hfaithful).of_sessions hsession
    exact ⟨hc.ledger, hc.stored, coherent_remove hc.coherent, pending_remove hc.distinct⟩
  | @elsewhere _ c s _ hperiods hdeltas ih =>
    have hc := ih hfaithful
    have hgrows : Grows [] c.store.database s.database := grows_of_eq hperiods
    refine accounted_elsewhere hc (fun id row hrow => ?_) (stored_of_grows hc.stored hgrows hdeltas) hgrows
    rw [hperiods] at hrow
    rw [hc.ledger id row hrow, periodTotal, periodTotal, hdeltas]

/-- Every cached total equals the sum of its deltas, in every state of a run whose repairs
have seen the committed sums and whose overwrites write them. -/
theorem usage_cache_equals_ledger (hledger : Ledger c₀.store)
    (hstored : ∀ e ∈ c₀.store.deltas.entities, c₀.store.database.usagePeriods.get e.row.periodId ≠ none)
    (hidle : c₀.sessions = []) (hruns : CacheRuns gracePeriodHours c₀ h c)
    (hfaithful : History.Always Faithful h) : Ledger c.store := by
  have h₀ : Accounted c₀ := by
    constructor
    · exact hledger
    · exact hstored
    · simp [hidle]
    · simp [hidle]
  exact (accounted h₀ hruns hfaithful).ledger

end Runs

section Instances

theorem ledger_unusedStore : Ledger unusedStore := by
  intro id row hrow
  simp only [unusedStore, Table.get_insert, Table.get_empty] at hrow
  split_ifs at hrow with hid
  cases hrow
  subst hid
  decide

/-- A synchronisation, and then a repair job that has nothing to repair. -/
theorem usage_cache_equals_ledger_after_repair :
    ∃ h c, CacheRuns 24 ⟨unusedStore, []⟩ h c ∧ h.length = 2 ∧ Ledger c.store := by
  have hload : CacheRuns 24 ⟨unusedStore, []⟩ [] _ := .load 0 1 .start rfl
  have hmeasure := CacheRuns.measure 100 hload (List.nil_append _).symm
  have hlock := CacheRuns.lock hmeasure (List.nil_append _).symm (by decide)
  have hsync := CacheRuns.sync hlock (List.nil_append _).symm rfl
  have hsnapshot := CacheRuns.snapshot hsync
  have hvisit := CacheRuns.visit hsnapshot (List.nil_append _).symm (by decide)
  have hrepair := CacheRuns.repair hvisit (List.nil_append _).symm
  refine ⟨_, _, hrepair, rfl, usage_cache_equals_ledger ledger_unusedStore ?_ rfl hrepair ?_⟩
  · simp [unusedStore, Table.entities, Table.empty]
  · exact ⟨fun _ _ _ => rfl, trivial, trivial⟩

/-- A repair job that began before a synchronisation replaces the total by the outdated sum,
and the administrator's overwrite writes a total without a delta. -/
theorem repair_and_overwrite_break_ledger :
    (∃ h c, CacheRuns 24 ⟨unusedStore, []⟩ h c ∧
      (∀ e ∈ h, (∃ snapshot, e.change = .repaired snapshot) ∨ e.change = .synced) ∧ ¬ Ledger c.store) ∧
    ∃ h c, CacheRuns 24 ⟨unusedStore, []⟩ h c ∧
      (∀ e ∈ h, ∃ period usedBytes, e.change = .overwritten period usedBytes) ∧ ¬ Ledger c.store := by
  constructor
  · have hsnapshot : CacheRuns 24 ⟨unusedStore, []⟩ [] _ := .snapshot .start
    have hload := CacheRuns.load 0 1 hsnapshot rfl
    have hmeasure := CacheRuns.measure 100 hload (List.nil_append _).symm
    have hlock := CacheRuns.lock hmeasure (List.nil_append _).symm (by decide)
    have hsync := CacheRuns.sync hlock (List.nil_append _).symm rfl
    have hvisit := CacheRuns.visit hsync (List.nil_append _).symm (by decide)
    have hrepair := CacheRuns.repair hvisit (List.nil_append _).symm
    refine ⟨_, _, hrepair, ?_, fun hledger => ?_⟩
    · simp
    · exact absurd (hledger 0 _ rfl) (by decide)
  · have hchoose : CacheRuns 24 ⟨unusedStore, []⟩ [] _ := .choose 0 .start rfl
    have hoverwrite := CacheRuns.overwrite 100 hchoose (List.nil_append _).symm (by decide)
    refine ⟨_, _, hoverwrite, ?_, fun hledger => ?_⟩
    · simp
    · exact absurd (hledger 0 _ rfl) (by decide)

end Instances

end Lingsway.Workers
