import Lingsway.Library.History
import Lingsway.Workers.UsageSync

/-!
# Conservation of usage

Any number of workers poll the counter of one subscription and commit what they
have read, each at a moment of its own. Nothing is counted twice and nothing is
lost exactly when every commit builds on the highest counter recorded so far.
-/
namespace Lingsway.Workers

open Library

/-- A call in flight: its subscription is loaded, the counter is read, and the row lock is
held until the commit. -/
inductive Poll where
  | loaded (subscription : Entity Subscription) (now : Timestamp)
  | measured (subscription : Entity Subscription) (now : Timestamp) (usedBytes : ℤ)
  | locked (subscription : Entity Subscription) (now : Timestamp) (usedBytes : ℤ)

namespace Poll

def subscription : Poll → Entity Subscription
  | loaded subscription _ => subscription
  | measured subscription _ _ => subscription
  | locked subscription _ _ => subscription

def holdsLock : Poll → Bool
  | locked _ _ _ => true
  | _ => false

end Poll

structure Metering where
  store : UsageStore
  counter : ℤ
  polls : List Poll

/-- A committed synchronisation. -/
structure UsageCommit where
  before : UsageStore
  now : Timestamp
  usedBytes : ℤ
  after : UsageStore

def totalBytes (deltas : List (Entity UsageDelta)) : ℤ := (deltas.map fun e => e.row.deltaBytes).sum

def highestCounter (samples : List (Entity UsageSample)) : ℤ :=
  samples.foldr (fun e m => max e.row.sourceCounter m) 0

/-- The deltas of the subscription add up to the highest recorded counter, without a reset. -/
structure Conserved (subscriptionId : ℕ) (s : UsageStore) : Prop where
  total : totalBytes (s.deltasOf subscriptionId) = highestCounter (s.samplesOf subscriptionId)
  noReset : ∀ e ∈ s.deltasOf subscriptionId, e.row.reason ≠ .counterReset

theorem conserved_iff {subscriptionId : ℕ} {s : UsageStore} : Conserved subscriptionId s ↔
    totalBytes (s.deltasOf subscriptionId) = highestCounter (s.samplesOf subscriptionId) ∧
      ∀ e ∈ s.deltasOf subscriptionId, e.row.reason ≠ .counterReset :=
  ⟨fun h => ⟨h.total, h.noReset⟩, fun h => ⟨h.1, h.2⟩⟩

/-- The newest sample carries the highest counter recorded, or the very counter that was
read, and the reading is not below it. -/
def InOrder (subscriptionId : ℕ) (c : UsageCommit) (_ : List UsageCommit) : Prop :=
  ∀ p, latest (c.before.samplesOf subscriptionId) = some p →
    p.row.sourceCounter ≤ max 0 c.usedBytes ∧
      (p.row.sourceCounter = highestCounter (c.before.samplesOf subscriptionId) ∨
        max 0 c.usedBytes = p.row.sourceCounter)

/-- The runs of the workers of a subscription, with their commits, newest first. -/
inductive Meters (subscriptionId gracePeriodHours : ℕ) (m₀ : Metering) :
    List UsageCommit → Metering → Prop where
  | start : Meters subscriptionId gracePeriodHours m₀ [] m₀
  | traffic {h : List UsageCommit} {m : Metering} {n : ℤ}
      (hruns : Meters subscriptionId gracePeriodHours m₀ h m) (hmore : m.counter ≤ n) :
      Meters subscriptionId gracePeriodHours m₀ h { m with counter := n }
  | load {h : List UsageCommit} {m : Metering} {row : Subscription} (now : Timestamp)
      (hruns : Meters subscriptionId gracePeriodHours m₀ h m)
      (hrow : m.store.database.subscriptions.get subscriptionId = some row) :
      Meters subscriptionId gracePeriodHours m₀ h
        { m with polls := .loaded ⟨subscriptionId, row⟩ now :: m.polls }
  | measure {h : List UsageCommit} {m : Metering} {ps qs : List Poll}
      {subscription : Entity Subscription} {now : Timestamp}
      (hruns : Meters subscriptionId gracePeriodHours m₀ h m)
      (hpoll : m.polls = ps ++ .loaded subscription now :: qs) :
      Meters subscriptionId gracePeriodHours m₀ h
        { m with polls := ps ++ .measured subscription now m.counter :: qs }
  | lock {h : List UsageCommit} {m : Metering} {ps qs : List Poll}
      {subscription : Entity Subscription} {now : Timestamp} {usedBytes : ℤ}
      (hruns : Meters subscriptionId gracePeriodHours m₀ h m)
      (hpoll : m.polls = ps ++ .measured subscription now usedBytes :: qs)
      (hfree : ∀ p ∈ m.polls, p.holdsLock = false) :
      Meters subscriptionId gracePeriodHours m₀ h
        { m with polls := ps ++ .locked subscription now usedBytes :: qs }
  | commit {h : List UsageCommit} {m : Metering} {ps qs : List Poll}
      {subscription : Entity Subscription} {now : Timestamp} {usedBytes : ℤ} {r : SyncResult}
      (hruns : Meters subscriptionId gracePeriodHours m₀ h m)
      (hpoll : m.polls = ps ++ .locked subscription now usedBytes :: qs)
      (hsync : syncSubscriptionUsage m.store subscription usedBytes now gracePeriodHours = .ok r) :
      Meters subscriptionId gracePeriodHours m₀ (⟨m.store, now, usedBytes, r.store⟩ :: h)
        { m with store := r.store, polls := ps ++ qs }
  | abandon {h : List UsageCommit} {m : Metering} {ps qs : List Poll} {p : Poll}
      (hruns : Meters subscriptionId gracePeriodHours m₀ h m) (hpoll : m.polls = ps ++ p :: qs) :
      Meters subscriptionId gracePeriodHours m₀ h { m with polls := ps ++ qs }
  | elsewhere {h : List UsageCommit} {m : Metering} {s : UsageStore}
      (hruns : Meters subscriptionId gracePeriodHours m₀ h m)
      (hsamples : s.samplesOf subscriptionId = m.store.samplesOf subscriptionId)
      (hdeltas : s.deltasOf subscriptionId = m.store.deltasOf subscriptionId) :
      Meters subscriptionId gracePeriodHours m₀ h { m with store := s }

section Sums

variable {samples : List (Entity UsageSample)} {deltas : List (Entity UsageDelta)}

@[simp] theorem totalBytes_append (e : Entity UsageDelta) :
    totalBytes (deltas ++ [e]) = totalBytes deltas + e.row.deltaBytes := by
  simp [totalBytes]

theorem highestCounter_nonneg : 0 ≤ highestCounter samples := by
  induction samples with
  | nil => exact le_rfl
  | cons e samples ih => exact ih.trans (le_max_right _ _)

theorem highestCounter_append (e : Entity UsageSample) :
    highestCounter (samples ++ [e]) = max (highestCounter samples) e.row.sourceCounter := by
  induction samples with
  | nil => simp [highestCounter, max_comm]
  | cons f samples ih =>
    simp only [highestCounter, List.cons_append, List.foldr_cons] at ih ⊢
    rw [ih, max_assoc]

theorem le_highestCounter {e : Entity UsageSample} (he : e ∈ samples) :
    e.row.sourceCounter ≤ highestCounter samples := by
  induction samples with
  | nil => cases he
  | cons f samples ih =>
    cases he with
    | head => exact le_max_left _ _
    | tail _ he => exact (ih he).trans (le_max_right _ _)

theorem newer_eq_some {best : Option (Entity UsageSample)} {e p : Entity UsageSample}
    (h : newer best e = some p) : best = some p ∨ p = e := by
  cases best with
  | none => exact .inr (Option.some.inj h).symm
  | some b =>
    simp only [newer] at h
    split_ifs at h with hold
    · exact .inr (Option.some.inj h).symm
    · exact .inl h

theorem newer_ne_none (best : Option (Entity UsageSample)) (e : Entity UsageSample) :
    newer best e ≠ none := by
  cases best with
  | none => simp [newer]
  | some b =>
    simp only [newer]
    split_ifs <;> simp

theorem foldl_newer_eq_some {best : Option (Entity UsageSample)} {p : Entity UsageSample}
    (h : samples.foldl newer best = some p) : best = some p ∨ p ∈ samples := by
  induction samples generalizing best with
  | nil => exact .inl h
  | cons e samples ih =>
    obtain hbest | hp := ih h
    · obtain hbest | rfl := newer_eq_some hbest
      · exact .inl hbest
      · exact .inr (List.mem_cons_self ..)
    · exact .inr (List.mem_cons_of_mem _ hp)

theorem mem_of_latest {p : Entity UsageSample} (h : latest samples = some p) : p ∈ samples := by
  obtain hnone | hp := foldl_newer_eq_some h
  · cases hnone
  · exact hp

theorem latest_eq_none (h : latest samples = none) : samples = [] := by
  have hsome : ∀ (xs : List (Entity UsageSample)) best, best ≠ none → xs.foldl newer best ≠ none := by
    intro xs
    induction xs with
    | nil => exact fun best hbest => hbest
    | cons e xs ih => exact fun best _ => ih _ (newer_ne_none best e)
  cases samples with
  | nil => rfl
  | cons e samples => exact absurd h (hsome samples _ (newer_ne_none none e))

end Sums

section Commits

variable {s : UsageStore} {subscription : Entity Subscription} {usedBytes : ℤ} {now : Timestamp}
variable {gracePeriodHours : ℕ} {r : SyncResult}

theorem samples_of_sync
    (h : syncSubscriptionUsage s subscription usedBytes now gracePeriodHours = .ok r) :
    r.store.samplesOf subscription.id =
      s.samplesOf subscription.id ++ [⟨s.samples.next, newSample subscription.id usedBytes now⟩] := by
  obtain ⟨period, ws, -, -, hstore⟩ := syncSubscriptionUsage_ok h
  rw [hstore, samplesOf_applyAll, samplesOf_countUsage]

theorem deltas_of_sync
    (h : syncSubscriptionUsage s subscription usedBytes now gracePeriodHours = .ok r) :
    ∃ delta, r.store.deltasOf subscription.id = s.deltasOf subscription.id ++ [delta] ∧
      delta.row.deltaBytes = (usageDifference (latest (s.samplesOf subscription.id)) (max 0 usedBytes)).1 ∧
      delta.row.reason = (usageDifference (latest (s.samplesOf subscription.id)) (max 0 usedBytes)).2 := by
  obtain ⟨period, ws, -, -, hstore⟩ := syncSubscriptionUsage_ok h
  rw [hstore, deltasOf_applyAll, deltasOf_countUsage]
  exact ⟨_, rfl, rfl, rfl⟩

/-- What the conservation is after a commit, in terms of the store before. -/
theorem conserved_after
    (h : syncSubscriptionUsage s subscription usedBytes now gracePeriodHours = .ok r) :
    Conserved subscription.id r.store ↔
      totalBytes (s.deltasOf subscription.id) +
          (usageDifference (latest (s.samplesOf subscription.id)) (max 0 usedBytes)).1 =
        max (highestCounter (s.samplesOf subscription.id)) (max 0 usedBytes) ∧
      (usageDifference (latest (s.samplesOf subscription.id)) (max 0 usedBytes)).2 ≠ .counterReset ∧
      ∀ e ∈ s.deltasOf subscription.id, e.row.reason ≠ .counterReset := by
  obtain ⟨delta, hdeltas, hbytes, hreason⟩ := deltas_of_sync h
  have hreasons : (∀ e ∈ s.deltasOf subscription.id ++ [delta], e.row.reason ≠ .counterReset) ↔
      delta.row.reason ≠ .counterReset ∧
        ∀ e ∈ s.deltasOf subscription.id, e.row.reason ≠ .counterReset := by
    rw [List.forall_mem_append, List.forall_mem_singleton, and_comm]
  rw [conserved_iff, ← hbytes, ← hreason, samples_of_sync h, hdeltas, totalBytes_append,
    highestCounter_append, hreasons, newSample]

/-- The deltas never fall short of the highest counter. -/
theorem highest_le_total_after
    (h : syncSubscriptionUsage s subscription usedBytes now gracePeriodHours = .ok r)
    (hle : highestCounter (s.samplesOf subscription.id) ≤ totalBytes (s.deltasOf subscription.id)) :
    highestCounter (r.store.samplesOf subscription.id) ≤
      totalBytes (r.store.deltasOf subscription.id) := by
  obtain ⟨delta, hdeltas, hbytes, -⟩ := deltas_of_sync h
  have hnonneg : 0 ≤ highestCounter (s.samplesOf subscription.id) := highestCounter_nonneg
  rw [samples_of_sync h, hdeltas, totalBytes_append, highestCounter_append, hbytes]
  simp only [newSample]
  cases hlatest : latest (s.samplesOf subscription.id) with
  | none =>
    simp only [usageDifference]
    omega
  | some p =>
    have hp := le_highestCounter (mem_of_latest hlatest)
    simp only [usageDifference]
    split_ifs with hascending
    · simp only
      omega
    · simp only
      omega

/-- A commit keeps the conservation exactly when it is in order. -/
theorem conserved_step (c : UsageCommit) (past : List UsageCommit)
    (hsync : syncSubscriptionUsage c.before subscription c.usedBytes c.now gracePeriodHours = .ok r)
    (hafter : c.after = r.store)
    (hle : highestCounter (c.before.samplesOf subscription.id) ≤
      totalBytes (c.before.deltasOf subscription.id)) :
    Conserved subscription.id c.after ↔
      InOrder subscription.id c past ∧ Conserved subscription.id c.before := by
  rw [hafter, conserved_after hsync]
  cases hlatest : latest (c.before.samplesOf subscription.id) with
  | none =>
    have hzero : highestCounter (c.before.samplesOf subscription.id) = 0 := by
      rw [latest_eq_none hlatest]
      rfl
    have hinOrder : InOrder subscription.id c past := by simp [InOrder, hlatest]
    simp only [usageDifference, hzero]
    constructor
    · rintro ⟨htotal, -, hold⟩
      exact ⟨hinOrder, by omega, hold⟩
    · rintro ⟨-, htotal, hold⟩
      exact ⟨by omega, by simp, hold⟩
  | some p =>
    have hp := le_highestCounter (mem_of_latest hlatest)
    have hinOrder : InOrder subscription.id c past ↔ p.row.sourceCounter ≤ max 0 c.usedBytes ∧
        (p.row.sourceCounter = highestCounter (c.before.samplesOf subscription.id) ∨
          max 0 c.usedBytes = p.row.sourceCounter) := by
      simp only [InOrder, hlatest, Option.some.injEq, forall_eq']
    simp only [usageDifference]
    rw [hinOrder]
    split_ifs with hascending
    · simp only
      constructor
      · rintro ⟨htotal, -, hold⟩
        exact ⟨⟨hascending, by omega⟩, by omega, hold⟩
      · rintro ⟨⟨-, hhighest⟩, htotal, hold⟩
        exact ⟨by omega, by simp, hold⟩
    · constructor
      · rintro ⟨-, hreset, -⟩
        exact absurd rfl hreset
      · rintro ⟨⟨hle', -⟩, -⟩
        exact absurd hle' hascending

end Commits

section Runs

variable {subscriptionId gracePeriodHours : ℕ} {m₀ m : Metering} {h : List UsageCommit}

/-- Every call in flight is about the subscription, and the deltas do not fall short. -/
structure Metered (subscriptionId : ℕ) (m : Metering) : Prop where
  polls : ∀ p ∈ m.polls, p.subscription.id = subscriptionId
  highest_le_total : highestCounter (m.store.samplesOf subscriptionId) ≤
    totalBytes (m.store.deltasOf subscriptionId)

theorem polls_remove {ps qs : List Poll} {a : Poll}
    (h : ∀ p ∈ ps ++ a :: qs, p.subscription.id = subscriptionId) :
    ∀ p ∈ ps ++ qs, p.subscription.id = subscriptionId := by
  intro p hp
  apply h
  rw [List.mem_append] at hp
  rw [List.mem_append, List.mem_cons]
  obtain hp | hp := hp
  · exact .inl hp
  · exact .inr (.inr hp)

theorem polls_replace {ps qs : List Poll} {a b : Poll}
    (h : ∀ p ∈ ps ++ a :: qs, p.subscription.id = subscriptionId) (hab : b.subscription = a.subscription) :
    ∀ p ∈ ps ++ b :: qs, p.subscription.id = subscriptionId := by
  intro p hp
  rw [List.mem_append, List.mem_cons] at hp
  obtain hp | rfl | hp := hp
  · exact polls_remove h p (List.mem_append_left _ hp)
  · rw [hab]
    exact h a (List.mem_append_right _ (List.mem_cons_self ..))
  · exact polls_remove h p (List.mem_append_right _ hp)

theorem metered (hmetered : Metered subscriptionId m₀)
    (hruns : Meters subscriptionId gracePeriodHours m₀ h m) : Metered subscriptionId m := by
  induction hruns with
  | start => exact hmetered
  | traffic _ _ ih => exact ⟨ih.polls, ih.highest_le_total⟩
  | load now _ _ ih => exact ⟨List.forall_mem_cons.mpr ⟨rfl, ih.polls⟩, ih.highest_le_total⟩
  | measure _ hpoll ih =>
    have hpolls := hpoll ▸ ih.polls
    exact ⟨polls_replace hpolls rfl, ih.highest_le_total⟩
  | lock _ hpoll _ ih =>
    have hpolls := hpoll ▸ ih.polls
    exact ⟨polls_replace hpolls rfl, ih.highest_le_total⟩
  | commit _ hpoll hsync ih =>
    have hpolls := hpoll ▸ ih.polls
    have hid := hpolls _ (List.mem_append_right _ (List.mem_cons_self ..))
    simp only [Poll.subscription] at hid
    subst hid
    exact ⟨polls_remove hpolls, highest_le_total_after hsync ih.highest_le_total⟩
  | abandon _ hpoll ih => exact ⟨polls_remove (hpoll ▸ ih.polls), ih.highest_le_total⟩
  | elsewhere _ hsamples hdeltas ih =>
    refine ⟨ih.polls, ?_⟩
    simp only [hsamples, hdeltas]
    exact ih.highest_le_total

/-- Usage is conserved exactly in the runs whose commits are all in order. -/
theorem usage_conserved_iff_in_order (hsamples : m₀.store.samplesOf subscriptionId = [])
    (hdeltas : m₀.store.deltasOf subscriptionId = []) (hpolls : m₀.polls = [])
    (hruns : Meters subscriptionId gracePeriodHours m₀ h m) :
    Conserved subscriptionId m.store ↔ History.Always (InOrder subscriptionId) h := by
  have hmetered : Metered subscriptionId m₀ := by
    constructor
    · simp [hpolls]
    · simp [hsamples, hdeltas, highestCounter, totalBytes]
  induction hruns with
  | start =>
    constructor
    · exact fun _ => trivial
    · intro _
      constructor
      · simp [hsamples, hdeltas, highestCounter, totalBytes]
      · simp [hdeltas]
  | traffic _ _ ih => exact ih
  | load now _ _ ih => exact ih
  | measure _ _ ih => exact ih
  | lock _ _ _ ih => exact ih
  | @commit past m ps qs _ now usedBytes r hruns hpoll hsync ih =>
    have hbefore := metered hmetered hruns
    have hid := hbefore.polls _ (hpoll ▸ List.mem_append_right _ (List.mem_cons_self ..))
    simp only [Poll.subscription] at hid
    subst hid
    have hstep := conserved_step ⟨m.store, now, usedBytes, r.store⟩ past hsync rfl
      hbefore.highest_le_total
    exact hstep.trans (and_congr Iff.rfl ih)
  | abandon _ _ ih => exact ih
  | elsewhere _ hs hd ih =>
    refine Iff.trans ?_ ih
    simp only [conserved_iff, hs, hd]

end Runs

section Instances

def meteredSubscription : Subscription where
  customerId := 0
  planId := 0
  orderId := 0
  status := .active
  routeGroupCode := "default"
  serviceExpireAt := days 30
  currentPeriodId := some 0
  reconcileState := .synced
  accountingUserId := some "user_0"
  tokenHash := none
  tokenCreatedAt := none
  tokenRevokedAt := none
  provisionError := none

def meteredPeriod : UsagePeriod := ⟨0, 0, 0, 0, days 30, 0, 1000000, .active⟩

/-- An active subscription without any usage yet. -/
def unusedStore : UsageStore where
  database :=
    { Database.empty with
      subscriptions := Table.empty.insert 0 meteredSubscription
      usagePeriods := Table.empty.insert 0 meteredPeriod }
  samples := .empty
  deltas := .empty
  alerts := []

/-- One synchronisation of 100 bytes. -/
theorem usage_conserved_iff_in_order_once :
    ∃ m h, Meters 0 24 ⟨unusedStore, 0, []⟩ h m ∧ h.length = 1 ∧
      (Conserved 0 m.store ↔ History.Always (InOrder 0) h) := by
  have hload : Meters 0 24 ⟨unusedStore, 0, []⟩ [] _ := .load 1 .start rfl
  have htraffic := Meters.traffic (n := 100) hload (by decide)
  have hmeasure := Meters.measure htraffic (List.nil_append _).symm
  have hlock := Meters.lock hmeasure (List.nil_append _).symm (by decide)
  have hcommit := Meters.commit hlock (List.nil_append _).symm rfl
  exact ⟨_, _, hcommit, rfl, usage_conserved_iff_in_order rfl rfl rfl hcommit⟩

/-- The worker that has read 100 bytes commits after the one that has read 150 bytes. -/
theorem usage_counted_twice :
    ∃ m h, Meters 0 24 ⟨unusedStore, 0, []⟩ h m ∧ ¬ Conserved 0 m.store := by
  have hload : Meters 0 24 ⟨unusedStore, 0, []⟩ [] _ := .load 1 .start rfl
  have hload' := Meters.load 2 hload rfl
  have htraffic := Meters.traffic (n := 100) hload' (by decide)
  have hmeasure := Meters.measure htraffic (List.nil_append _).symm
  have htraffic' := Meters.traffic (n := 150) hmeasure (by decide)
  have hmeasure' := Meters.measure htraffic' (show _ = [_] ++ _ :: _ from rfl)
  have hlock := Meters.lock hmeasure' (show _ = [_] ++ _ :: _ from rfl) (by decide)
  have hcommit := Meters.commit hlock (show _ = [_] ++ _ :: _ from rfl) rfl
  have hlock' := Meters.lock hcommit (List.nil_append _).symm (by decide)
  have hcommit' := Meters.commit hlock' (List.nil_append _).symm rfl
  exact ⟨_, _, hcommit', fun h => absurd h.total (by decide)⟩

end Instances

end Lingsway.Workers
