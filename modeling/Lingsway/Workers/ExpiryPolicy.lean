import Lingsway.Workers.PaidPeriods

/-!
# What a usage transaction does

The branches of the expiry policy, and the row and the periods that a committed
transaction leaves.
-/
namespace Lingsway.PaidPeriods

open Library Program Workers

/-- The row of a subscription that enters its grace period. -/
def graced (loaded : Subscription) (expireAt : Timestamp) (row : Subscription) : Subscription :=
  { row with
    status := .grace
    serviceExpireAt := assign loaded.serviceExpireAt expireAt row.serviceExpireAt
    reconcileState := assign loaded.reconcileState .pending row.reconcileState }

/-- The row of a subscription that has taken up its next period. -/
def advanced (loaded : Subscription) (next : Entity UsagePeriod) (now : Timestamp) (row : Subscription) :
    Subscription :=
  { row with
    currentPeriodId := some next.id
    planId := assign loaded.planId next.row.planId row.planId
    serviceExpireAt := assign loaded.serviceExpireAt (now + days 30) row.serviceExpireAt
    reconcileState := assign loaded.reconcileState .pending row.reconcileState }

section Policy

variable {s : UsageStore} {subscription : Entity Subscription} {current : Entity UsagePeriod} {now : Timestamp}
variable {gracePeriodHours : ℕ}

/-- The period is used up or past its end. -/
def Finished (p : UsagePeriod) (now : Timestamp) : Prop := p.quotaBytes ≤ p.usedBytes ∨ p.periodEnd ≤ now

def close (periodId : ℕ) : Write := .updateUsagePeriod periodId fun p => { p with status := .closed }

def enterGrace (subscription : Entity Subscription) (expireAt : Timestamp) : Write :=
  .updateSubscription subscription.id (graced subscription.row expireAt)

def expire (subscription : Entity Subscription) : Write :=
  .updateSubscription subscription.id fun row => { row with status := .expired }

def queued (s : UsageStore) (subscriptionId : ℕ) : Option (Entity UsagePeriod) :=
  s.database.usagePeriods.find fun p => p.subscriptionId = subscriptionId && p.status = .queued

/-- The branches of `apply_expiry_policy`. -/
inductive Policy (s : UsageStore) (subscription : Entity Subscription) (current : Entity UsagePeriod)
    (now : Timestamp) (gracePeriodHours : ℕ) : List Write → Prop
  | rolled (next : Entity UsagePeriod) (hstatus : subscription.row.status = .active)
      (hfinished : Finished current.row now) (hnext : queued s subscription.id = some next) :
      Policy s subscription current now gracePeriodHours (rollOver subscription current.id next now)
  | closed (hstatus : subscription.row.status = .active) (hfinished : Finished current.row now)
      (hnone : queued s subscription.id = none) :
      Policy s subscription current now gracePeriodHours
        [close current.id, enterGrace subscription (now + hours gracePeriodHours)]
  | lapsed (hstatus : subscription.row.status = .active) (hfinished : ¬ Finished current.row now)
      (hexpired : subscription.row.serviceExpireAt ≤ now) :
      Policy s subscription current now gracePeriodHours
        [enterGrace subscription (subscription.row.serviceExpireAt + hours gracePeriodHours)]
  | expired (hstatus : subscription.row.status = .grace) (hexpired : subscription.row.serviceExpireAt ≤ now) :
      Policy s subscription current now gracePeriodHours [expire subscription]
  | nothing (hfinished : subscription.row.status = .active → ¬ Finished current.row now) :
      Policy s subscription current now gracePeriodHours []

theorem policy_cases : Policy s subscription current now gracePeriodHours
    (applyExpiryPolicy s subscription current now gracePeriodHours).1 := by
  unfold applyExpiryPolicy
  by_cases hover : subscription.row.status = .active ∧
      (current.row.quotaBytes ≤ current.row.usedBytes ∨ current.row.periodEnd ≤ now)
  · rw [if_pos hover]
    cases hqueued : queued s subscription.id with
    | none =>
      have hfind : s.database.usagePeriods.find
          (fun p => p.subscriptionId = subscription.id && p.status = .queued) = none := hqueued
      rw [hfind]
      exact .closed hover.1 hover.2 hqueued
    | some next =>
      have hfind : s.database.usagePeriods.find
          (fun p => p.subscriptionId = subscription.id && p.status = .queued) = some next := hqueued
      rw [hfind]
      exact .rolled next hover.1 hover.2 hqueued
  · rw [if_neg hover]
    have hopen : subscription.row.status = .active → ¬ Finished current.row now :=
      fun hstatus hfinished => hover ⟨hstatus, hfinished⟩
    by_cases hlapsed : subscription.row.status = .active ∧ subscription.row.serviceExpireAt ≤ now
    · rw [if_pos hlapsed]
      exact .lapsed hlapsed.1 (hopen hlapsed.1) hlapsed.2
    · rw [if_neg hlapsed]
      by_cases hexpired : subscription.row.status = .grace ∧ subscription.row.serviceExpireAt ≤ now
      · rw [if_pos hexpired]
        exact .expired hexpired.1 hexpired.2
      · rw [if_neg hexpired]
        exact .nothing hopen

end Policy

section Effects

variable {s : UsageStore} {subscriptionId : ℕ}

/-- The period behind the counting. -/
def counted (s : UsageStore) (subscriptionId periodId : ℕ) (usedBytes : ℤ) (p : UsagePeriod) : UsagePeriod :=
  { p with usedBytes := p.usedBytes +
      (newDelta (s.samplesOf subscriptionId) subscriptionId periodId s.samples.next usedBytes).deltaBytes }

theorem period_countUsage (current : Entity UsagePeriod) (usedBytes : ℤ) (now : Timestamp) (j : ℕ) :
    period (countUsage s subscriptionId current usedBytes now) j =
      if j = current.id then (period s j).map (counted s subscriptionId current.id usedBytes) else period s j := rfl

@[simp] theorem row_countUsage (current : Entity UsagePeriod) (usedBytes : ℤ) (now : Timestamp) :
    row subscriptionId (countUsage s subscriptionId current usedBytes now) = row subscriptionId s := rfl

@[simp] theorem applyAll_nil : s.applyAll [] = s := rfl

theorem applyAll_cons (change : Write) (changes : List Write) :
    s.applyAll (change :: changes) = (s.applyAll [change]).applyAll changes := rfl

@[simp] theorem row_close (periodId : ℕ) : row subscriptionId (s.applyAll [close periodId]) = row subscriptionId s := rfl

@[simp] theorem period_close (periodId j : ℕ) : period (s.applyAll [close periodId]) j =
    if j = periodId then (period s j).map (fun p => { p with status := .closed }) else period s j := rfl

@[simp] theorem period_enterGrace (subscription : Entity Subscription) (expireAt : Timestamp) (j : ℕ) :
    period (s.applyAll [enterGrace subscription expireAt]) j = period s j := rfl

@[simp] theorem period_expire (subscription : Entity Subscription) (j : ℕ) :
    period (s.applyAll [expire subscription]) j = period s j := rfl

@[simp] theorem row_enterGrace (loaded : Subscription) (expireAt : Timestamp) :
    row subscriptionId (s.applyAll [enterGrace ⟨subscriptionId, loaded⟩ expireAt]) =
      (row subscriptionId s).map (graced loaded expireAt) := by
  simp [row, enterGrace, UsageStore.applyAll, Write.apply]

@[simp] theorem row_expire (loaded : Subscription) :
    row subscriptionId (s.applyAll [expire ⟨subscriptionId, loaded⟩]) =
      (row subscriptionId s).map (fun row => { row with status := .expired }) := by
  simp [row, expire, UsageStore.applyAll, Write.apply]

theorem row_rollOver (loaded : Subscription) (periodId : ℕ) (next : Entity UsagePeriod) (now : Timestamp) :
    row subscriptionId (s.applyAll (rollOver ⟨subscriptionId, loaded⟩ periodId next now)) =
      (row subscriptionId s).map (advanced loaded next now) := by
  have hchange : advanced loaded next now = fun row => advanced loaded next now row := rfl
  simp only [advanced] at hchange
  simp [row, rollOver, UsageStore.applyAll, Write.apply, hchange]

theorem period_rollOver (subscription : Entity Subscription) (periodId : ℕ) (next : Entity UsagePeriod)
    (now : Timestamp) (hne : next.id ≠ periodId) (j : ℕ) :
    period (s.applyAll (rollOver subscription periodId next now)) j =
      (period s j).map fun p =>
        if j = next.id then { p with status := .active, periodStart := now, periodEnd := now + days 30 }
        else if j = periodId then { p with status := .closed } else p := by
  simp only [period, rollOver, UsageStore.applyAll, Write.applyAll_cons, Write.applyAll_nil, Write.apply,
    Table.get_modify]
  by_cases hnext : j = next.id
  · have hother : j ≠ periodId := by omega
    simp [hnext, hne]
  · by_cases hcurrent : j = periodId
    · have hother : periodId ≠ next.id := hne.symm
      simp [hcurrent, hother]
    · simp [hnext, hcurrent]

end Effects

/-- A usage transaction over the rows of `s` that leaves `t`. -/
structure Syncs (subscriptionId gracePeriodHours : ℕ) (s : UsageStore) (loaded : Subscription) (usedBytes : ℤ)
    (now : Timestamp) (periodId : ℕ) (before : UsagePeriod) (changes : List Write) (t : UsageStore) : Prop where
  exists_row : ∃ current, row subscriptionId s = some current
  current : loaded.currentPeriodId = some periodId
  found : period s periodId = some before
  policy : Policy (countUsage s subscriptionId ⟨periodId, before⟩ usedBytes now) ⟨subscriptionId, loaded⟩
    ⟨periodId, counted s subscriptionId periodId usedBytes before⟩ now gracePeriodHours changes
  after : t = (countUsage s subscriptionId ⟨periodId, before⟩ usedBytes now).applyAll changes
  keys : KeysHold t

section Syncs

variable {subscriptionId gracePeriodHours : ℕ} {w w' : Accounts} {loaded : Subscription} {usedBytes : ℤ}
variable {now : Timestamp} {ending : Ending} {x : Except Exn SyncOutcome}

/-- A usage transaction commits what it has done, or nothing. -/
theorem sync_cases (h : sync subscriptionId gracePeriodHours w loaded usedBytes now ending = (x, w')) :
    (w' = w ∧ ∃ exc, x = .error exc) ∨
      ∃ periodId before changes t,
        Syncs subscriptionId gracePeriodHours w.store loaded usedBytes now periodId before changes t ∧
        w' = w.commit .synced t ∧
        ∀ outcome, x = .ok outcome → outcome.row = sessionRow subscriptionId loaded changes := by
  unfold sync syncSubscriptionUsage at h
  cases hrow : w.store.database.subscriptions.get subscriptionId with
  | none =>
    simp only [hrow, Prod.mk.injEq] at h
    exact .inl ⟨h.2.symm, _, h.1.symm⟩
  | some current =>
    cases hloaded : loaded.currentPeriodId with
    | none =>
      simp only [hrow, hloaded, Prod.mk.injEq] at h
      exact .inl ⟨h.2.symm, _, h.1.symm⟩
    | some periodId =>
      cases hbefore : w.store.database.usagePeriods.get periodId with
      | none =>
        simp only [hrow, hloaded, hbefore, Prod.mk.injEq] at h
        exact .inl ⟨h.2.symm, _, h.1.symm⟩
      | some before =>
        simp only [hrow, hloaded, hbefore] at h
        split at h
        · rename_i hkeys
          simp only [Prod.mk.injEq] at h
          obtain ⟨hx, hw⟩ := h
          by_cases htakes : ending.effective = true
          · rw [if_pos htakes] at hw
            refine .inr ⟨periodId, before, _, _, ⟨⟨current, hrow⟩, hloaded, hbefore, policy_cases, rfl, hkeys⟩,
              hw.symm, ?_⟩
            intro outcome houtcome
            rw [← hx] at houtcome
            cases hanswer : ending.answer with
            | error exc =>
              rw [hanswer] at houtcome
              cases houtcome
            | ok _ =>
              rw [hanswer] at houtcome
              cases houtcome
              simp only [syncPolicy, hloaded, hbefore]
              rfl
          · rw [if_neg htakes] at hw
            obtain ⟨exc, hexc⟩ := ending.answer_of_not_effective htakes
            rw [hexc] at hx
            exact .inl ⟨hw.symm, exc, hx.symm⟩
        · simp only [Prod.mk.injEq] at h
          exact .inl ⟨h.2.symm, _, h.1.symm⟩

end Syncs

end Lingsway.PaidPeriods
