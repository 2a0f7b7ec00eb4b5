import Lingsway.Workers.SyncedTruth

/-!
# The queue of paid periods

The periods of a subscription are taken up one at a time, in the order of their
identifiers and each only once, whatever the workers do. That a subscription
does not run out while a paid period waits is another matter: only a transaction
that finds the row active looks at the queue.
-/
namespace Lingsway.PaidPeriods.Queue

open Library Program Workers

/-- In the grace period or past it. -/
def Over (status : SubscriptionStatus) : Prop := status = .grace ∨ status = .expired

section Law

variable (subscriptionId : ℕ)

def Own (s : UsageStore) (j : ℕ) (p : UsagePeriod) : Prop := period s j = some p ∧ p.subscriptionId = subscriptionId

/-- What holds of the committed rows: the period that is active is the current one, and the queued
ones, of which nothing is used, come behind all the others. -/
structure Law (s : UsageStore) : Prop where
  single : ∀ j k p q, Own subscriptionId s j p → Own subscriptionId s k q → p.status = .active → q.status = .active → j = k
  orders : ∀ j k p q, period s j = some p → period s k = some q → p.orderId = q.orderId → j = k
  current : ∀ j p, Own subscriptionId s j p → p.status = .active →
    ∃ r, row subscriptionId s = some r ∧ r.currentPeriodId = some j
  begun : ∀ r j, row subscriptionId s = some r → r.currentPeriodId = some j → ∃ p, period s j = some p ∧ p.status ≠ .queued
  behind : ∀ j k p q, Own subscriptionId s j p → Own subscriptionId s k q → p.status = .queued → q.status ≠ .queued → k < j
  untouched : ∀ j p, Own subscriptionId s j p → p.status = .queued → p.usedBytes = 0

/-- What a committed state keeps of an earlier one. -/
structure Follows (u s : UsageStore) : Prop where
  begun : ∀ j p, period u j = some p → p.status ≠ .queued →
    ∃ q, period s j = some q ∧ q.subscriptionId = p.subscriptionId ∧ q.status ≠ .queued
  lapsed : ∀ r, row subscriptionId u = some r → Over r.status → ∃ r', row subscriptionId s = some r' ∧ Over r'.status

/-- A period that a usage transaction counts in, and may close, has begun. -/
def Touched (p p' : UsagePeriod) : Prop :=
  p'.subscriptionId = p.subscriptionId ∧ p'.orderId = p.orderId ∧ p'.quotaBytes = p.quotaBytes ∧
    (p' = p ∨ p.status ≠ .queued ∧ p.usedBytes ≤ p'.usedBytes ∧ (p'.status = p.status ∨ p'.status = .closed))

def takenUp (now : Timestamp) (p : UsagePeriod) : UsagePeriod :=
  { p with status := .active, periodStart := now, periodEnd := now + days 30 }

/-- What a commit does to the queue. -/
inductive Move (s t : UsageStore) : Prop
  | stays (change : Subscription → Subscription)
      (hchange : ∀ r, (change r).currentPeriodId = r.currentPeriodId ∧ (Over r.status → Over (change r).status))
      (hrow : row subscriptionId t = (row subscriptionId s).map change)
      (hperiod : ∀ j, Option.Rel Touched (period s j) (period t j))
  | takes (j : ℕ) (p : UsagePeriod) (now : Timestamp) (change : Subscription → Subscription) (hkeys : KeysHold t)
      (hchange : ∀ r, (change r).currentPeriodId = some j ∧ (change r).status = r.status)
      (hexists : ∃ r, row subscriptionId s = some r)
      (hrow : row subscriptionId t = (row subscriptionId s).map change)
      (hown : Own subscriptionId s j p) (hqueued : p.status = .queued)
      (hleast : ∀ k q, Own subscriptionId s k q → q.status = .queued → j ≤ k)
      (htaken : period t j = some (takenUp now p))
      (hperiod : ∀ k, k ≠ j → Option.Rel Touched (period s k) (period t k))
  | joins (j : ℕ) (p : UsagePeriod) (hkeys : KeysHold t) (habsent : period s j = none)
      (hqueued : p.status = .queued) (hunused : p.usedBytes = 0)
      (hbehind : p.subscriptionId = subscriptionId → ∀ k q, Own subscriptionId s k q → q.status ≠ .queued → k < j)
      (hrow : row subscriptionId t = row subscriptionId s)
      (hperiod : ∀ k, period t k = if k = j then some p else period s k)

end Law

section Moves

variable {subscriptionId : ℕ} {s t u : UsageStore} {p p' : UsagePeriod} {j k : ℕ}

theorem Touched.refl (p : UsagePeriod) : Touched p p := ⟨rfl, rfl, rfl, .inl rfl⟩

theorem Touched.begun (h : Touched p p') (hp : p.status ≠ .queued) : p'.status ≠ .queued := by
  obtain ⟨-, -, -, rfl | ⟨-, -, hstatus | hstatus⟩⟩ := h
  · exact hp
  · rwa [hstatus]
  · rw [hstatus]
    exact UsagePeriodStatus.noConfusion

theorem Touched.active (h : Touched p p') (hp : p'.status = .active) : p.status = .active := by
  obtain ⟨-, -, -, rfl | ⟨-, -, hstatus | hstatus⟩⟩ := h
  · exact hp
  · rwa [← hstatus]
  · rw [hstatus] at hp
    cases hp

theorem Touched.queued (h : Touched p p') (hp : p'.status = .queued) : p' = p := by
  obtain ⟨-, -, -, rfl | ⟨hbegun, -, hstatus | hstatus⟩⟩ := h
  · rfl
  · exact absurd (hstatus.symm.trans hp) hbegun
  · rw [hstatus] at hp
    cases hp

theorem Touched.begun_before (h : Touched p p') (hp : p'.status ≠ .queued) : p.status ≠ .queued := by
  obtain ⟨-, -, -, rfl | ⟨hbegun, -⟩⟩ := h
  · exact hp
  · exact hbegun

theorem Touched.exhausted (h : Touched p p') (hp : p.quotaBytes ≤ p.usedBytes) : p'.quotaBytes ≤ p'.usedBytes := by
  obtain ⟨-, -, hquota, rfl | ⟨-, hused, -⟩⟩ := h
  · exact hp
  · rw [hquota]
    exact hp.trans hused

theorem rel_some_left (h : Option.Rel Touched (some p) (period t j)) : ∃ p', period t j = some p' ∧ Touched p p' := by
  cases hafter : period t j with
  | none =>
    rw [hafter] at h
    cases h
  | some p' =>
    rw [hafter] at h
    cases h with
    | some h => exact ⟨p', rfl, h⟩

theorem rel_some_right (h : Option.Rel Touched (period s j) (some p')) : ∃ p, period s j = some p ∧ Touched p p' := by
  cases hbefore : period s j with
  | none =>
    rw [hbefore] at h
    cases h
  | some p =>
    rw [hbefore] at h
    cases h with
    | some h => exact ⟨p, rfl, h⟩

theorem rel_refl (h : period t j = period s j) : Option.Rel Touched (period s j) (period t j) := by
  rw [h]
  cases period s j with
  | none => exact .none
  | some p => exact .some (.refl p)

/-- The period that another one was before it was touched. -/
theorem own_touched (h : Option.Rel Touched (period s j) (period t j)) (hown : Own subscriptionId t j p') :
    ∃ p, Own subscriptionId s j p ∧ Touched p p' := by
  rw [hown.1] at h
  obtain ⟨p, hp, htouched⟩ := rel_some_right h
  exact ⟨p, ⟨hp, htouched.1.symm.trans hown.2⟩, htouched⟩

theorem KeysHold.single (h : KeysHold t) {q : UsagePeriod} (hj : Own subscriptionId t j p) (hk : Own subscriptionId t k q)
    (hp : p.status = .active) (hq : q.status = .active) : j = k :=
  h.active j k p q hj.1 hk.1 (decide_eq_true hp) (decide_eq_true hq) (hj.2.trans hk.2.symm)

theorem KeysHold.orders (h : KeysHold t) {q : UsagePeriod} (hj : period t j = some p) (hk : period t k = some q)
    (hkey : p.orderId = q.orderId) : j = k := h.order j k p q hj hk rfl rfl hkey

/-- What every commit keeps. -/
theorem Move.law (h : Move subscriptionId s t) (hlaw : Law subscriptionId s) : Law subscriptionId t := by
  cases h with
  | stays change hchange hrow hperiod =>
    refine ⟨?_, ?_, ?_, ?_, ?_, ?_⟩
    · intro j k p q hj hk hp hq
      obtain ⟨p₀, hj, hp₀⟩ := own_touched (hperiod j) hj
      obtain ⟨q₀, hk, hq₀⟩ := own_touched (hperiod k) hk
      exact hlaw.single j k p₀ q₀ hj hk (hp₀.active hp) (hq₀.active hq)
    · intro j k p q hj hk hkey
      obtain ⟨p₀, hj, hp₀⟩ := rel_some_right (hj ▸ hperiod j)
      obtain ⟨q₀, hk, hq₀⟩ := rel_some_right (hk ▸ hperiod k)
      exact hlaw.orders j k p₀ q₀ hj hk (hp₀.2.1.symm.trans (hkey.trans hq₀.2.1))
    · intro j p hj hp
      obtain ⟨p₀, hj, hp₀⟩ := own_touched (hperiod j) hj
      obtain ⟨r, hr, hcurrent⟩ := hlaw.current j p₀ hj (hp₀.active hp)
      refine ⟨change r, ?_, (hchange r).1.trans hcurrent⟩
      rw [hrow, hr, Option.map_some]
    · intro r j hr hcurrent
      rw [hrow] at hr
      obtain ⟨r₀, hr₀, rfl⟩ := Option.map_eq_some_iff.mp hr
      obtain ⟨p, hp, hbegun⟩ := hlaw.begun r₀ j hr₀ ((hchange r₀).1.symm.trans hcurrent)
      obtain ⟨p', hp', htouched⟩ := rel_some_left (hp ▸ hperiod j)
      exact ⟨p', hp', htouched.begun hbegun⟩
    · intro j k p q hj hk hp hq
      obtain ⟨p₀, hj, hp₀⟩ := own_touched (hperiod j) hj
      obtain ⟨q₀, hk, hq₀⟩ := own_touched (hperiod k) hk
      have hqueued : p₀.status = .queued := (hp₀.queued hp) ▸ hp
      exact hlaw.behind j k p₀ q₀ hj hk hqueued (hq₀.begun_before hq)
    · intro j p hj hp
      obtain ⟨p₀, hj, hp₀⟩ := own_touched (hperiod j) hj
      have hsame := hp₀.queued hp
      subst hsame
      exact hlaw.untouched j p hj hp
  | takes j p now change hkeys hchange hexists hrow hown hqueued hleast htaken hperiod =>
    have hactive : Own subscriptionId t j (takenUp now p) := ⟨htaken, hown.2⟩
    refine ⟨fun _ _ _ _ => KeysHold.single hkeys, fun _ _ _ _ => KeysHold.orders hkeys, ?_, ?_, ?_, ?_⟩
    · intro k q hk hq
      have hsame : k = j := KeysHold.single hkeys hk hactive hq rfl
      obtain ⟨r, hr⟩ := hexists
      refine ⟨change r, ?_, hsame ▸ (hchange r).1⟩
      rw [hrow, hr, Option.map_some]
    · intro r k hr hcurrent
      rw [hrow] at hr
      obtain ⟨r₀, -, rfl⟩ := Option.map_eq_some_iff.mp hr
      rw [(hchange r₀).1] at hcurrent
      cases hcurrent
      exact ⟨_, htaken, UsagePeriodStatus.noConfusion⟩
    · intro k l q q' hk hl hq hq'
      have hne : k ≠ j := by
        rintro rfl
        rw [hk.1] at htaken
        cases htaken
        cases hq
      obtain ⟨q₀, hk, hq₀⟩ := own_touched (hperiod k hne) hk
      have hqueued₀ : q₀.status = .queued := (hq₀.queued hq) ▸ hq
      by_cases hl' : l = j
      · subst hl'
        exact lt_of_le_of_ne (hleast k q₀ hk hqueued₀) hne.symm
      · obtain ⟨q₁, hl, hq₁⟩ := own_touched (hperiod l hl') hl
        exact hlaw.behind k l q₀ q₁ hk hl hqueued₀ (hq₁.begun_before hq')
    · intro k q hk hq
      have hne : k ≠ j := by
        rintro rfl
        rw [hk.1] at htaken
        cases htaken
        cases hq
      obtain ⟨q₀, hk, hq₀⟩ := own_touched (hperiod k hne) hk
      have hsame := hq₀.queued hq
      subst hsame
      exact hlaw.untouched k q hk hq
  | joins j p hkeys habsent hqueued hunused hbehind hrow hperiod =>
    have hold : ∀ k q, Own subscriptionId t k q → (k = j ∧ q = p) ∨ Own subscriptionId s k q := by
      intro k q hk
      have hafter := hk.1
      rw [hperiod] at hafter
      split_ifs at hafter with hkj
      · exact .inl ⟨hkj, (Option.some.inj hafter).symm⟩
      · exact .inr ⟨hafter, hk.2⟩
    refine ⟨fun _ _ _ _ => KeysHold.single hkeys, fun _ _ _ _ => KeysHold.orders hkeys, ?_, ?_, ?_, ?_⟩
    · intro k q hk hq
      rw [hrow]
      obtain ⟨-, rfl⟩ | hk := hold k q hk
      · rw [hqueued] at hq
        cases hq
      · exact hlaw.current k q hk hq
    · intro r k hr hcurrent
      rw [hrow] at hr
      obtain ⟨q, hq, hbegun⟩ := hlaw.begun r k hr hcurrent
      refine ⟨q, ?_, hbegun⟩
      rw [hperiod, if_neg, hq]
      rintro rfl
      rw [habsent] at hq
      cases hq
    · intro k l q q' hk hl hq hq'
      obtain ⟨-, rfl⟩ | hl := hold l q' hl
      · exact absurd hqueued hq'
      · obtain ⟨rfl, rfl⟩ | hk := hold k q hk
        · exact hbehind hk.2 l q' hl hq'
        · exact hlaw.behind k l q q' hk hl hq hq'
    · intro k q hk hq
      obtain ⟨-, rfl⟩ | hk := hold k q hk
      · exact hunused
      · exact hlaw.untouched k q hk hq

theorem Follows.refl (s : UsageStore) : Follows subscriptionId s s :=
  ⟨fun _ p hp hbegun => ⟨p, hp, rfl, hbegun⟩, fun r hr hlapsed => ⟨r, hr, hlapsed⟩⟩

theorem Follows.trans (h : Follows subscriptionId u s) (h' : Follows subscriptionId s t) : Follows subscriptionId u t := by
  refine ⟨fun j p hp hbegun => ?_, fun r hr hlapsed => ?_⟩
  · obtain ⟨q, hq, hsame, hbegun⟩ := h.begun j p hp hbegun
    obtain ⟨q', hq', hsame', hbegun⟩ := h'.begun j q hq hbegun
    exact ⟨q', hq', hsame'.trans hsame, hbegun⟩
  · obtain ⟨r', hr', hlapsed⟩ := h.lapsed r hr hlapsed
    exact h'.lapsed r' hr' hlapsed

/-- A period that has begun is not queued again, and a row that is over stays so. -/
theorem Move.follows (h : Move subscriptionId s t) : Follows subscriptionId s t := by
  cases h with
  | stays change hchange hrow hperiod =>
    refine ⟨fun j p hp hbegun => ?_, fun r hr hlapsed => ?_⟩
    · obtain ⟨p', hp', htouched⟩ := rel_some_left (hp ▸ hperiod j)
      exact ⟨p', hp', htouched.1, htouched.begun hbegun⟩
    · refine ⟨change r, ?_, (hchange r).2 hlapsed⟩
      rw [hrow, hr, Option.map_some]
  | takes j p now change hkeys hchange hexists hrow hown hqueued hleast htaken hperiod =>
    refine ⟨fun k q hq hbegun => ?_, fun r hr hlapsed => ?_⟩
    · have hne : k ≠ j := by
        rintro rfl
        rw [hown.1] at hq
        cases hq
        exact hbegun hqueued
      obtain ⟨q', hq', htouched⟩ := rel_some_left (hq ▸ hperiod k hne)
      exact ⟨q', hq', htouched.1, htouched.begun hbegun⟩
    · refine ⟨change r, ?_, ?_⟩
      · rw [hrow, hr, Option.map_some]
      · rwa [(hchange r).2]
  | joins j p hkeys habsent hqueued hunused hbehind hrow hperiod =>
    refine ⟨fun k q hq hbegun => ⟨q, ?_, rfl, hbegun⟩, fun r hr hlapsed => ⟨r, hrow ▸ hr, hlapsed⟩⟩
    rw [hperiod, if_neg, hq]
    rintro rfl
    rw [habsent] at hq
    cases hq

end Moves

section History

variable (subscriptionId : ℕ)

/-- The commit makes the period the active one. -/
def TakenUp (c : PeriodCommit) (j : ℕ) : Prop :=
  ∃ p, Own subscriptionId c.after j p ∧ p.status = .active ∧ ∀ q, period c.before j = some q → q.status ≠ .active

/-- A period is taken up out of the queue, unused and for its own time. -/
def Whole (c : PeriodCommit) : Prop :=
  ∀ j, TakenUp subscriptionId c j → ∃ p now, Own subscriptionId c.before j p ∧ p.status = .queued ∧ p.usedBytes = 0 ∧
    period c.after j = some (takenUp now p)

/-- What a commit takes up comes behind what an earlier one has taken up, and it was queued
before that one if it was there. -/
structure Behind (later earlier : PeriodCommit) : Prop where
  order : ∀ j k, TakenUp subscriptionId later j → TakenUp subscriptionId earlier k → k < j
  queued : ∀ j p, TakenUp subscriptionId later j → period earlier.before j = some p → p.status = .queued

end History

section History

variable {subscriptionId : ℕ} {s t u : UsageStore} {j k : ℕ} {kind : CommitKind}

/-- A commit takes up the first period of the queue, if any. -/
theorem Move.takenUp (h : Move subscriptionId s t) (htaken : TakenUp subscriptionId ⟨kind, s, t⟩ j) :
    ∃ p now, Own subscriptionId s j p ∧ p.status = .queued ∧ period t j = some (takenUp now p) := by
  obtain ⟨p', hown', hactive, hbefore⟩ := htaken
  cases h with
  | stays change hchange hrow hperiod =>
    obtain ⟨p, hown, htouched⟩ := own_touched (hperiod j) hown'
    exact absurd (htouched.active hactive) (hbefore p hown.1)
  | takes i p now change hkeys hchange hexists hrow hown hqueued hleast htaken hperiod =>
    by_cases hji : j = i
    · subst hji
      exact ⟨p, now, hown, hqueued, htaken⟩
    · obtain ⟨q, hq, htouched⟩ := own_touched (hperiod j hji) hown'
      exact absurd (htouched.active hactive) (hbefore q hq.1)
  | joins i p hkeys habsent hqueued hunused hbehind hrow hperiod =>
    have hafter := hown'.1
    dsimp only at hafter
    rw [hperiod] at hafter
    split_ifs at hafter with hji
    · cases hafter
      rw [hqueued] at hactive
      cases hactive
    · exact absurd hactive (hbefore p' hafter)

theorem Move.whole (h : Move subscriptionId s t) (hlaw : Law subscriptionId s) :
    Whole subscriptionId ⟨kind, s, t⟩ := by
  intro j htaken
  obtain ⟨p, now, hown, hqueued, hafter⟩ := h.takenUp htaken
  exact ⟨p, now, hown, hqueued, hlaw.untouched j p hown hqueued, hafter⟩

end History

section Transactions

variable {subscriptionId gracePeriodHours : ℕ} {s t : UsageStore} {loaded : Subscription} {usedBytes : ℤ}
variable {now : Timestamp} {periodId j : ℕ} {before p : UsagePeriod} {changes : List Write}

theorem usageDifference_nonneg {previous : Option (Entity UsageSample)} {current : ℤ} (h : 0 ≤ current) :
    0 ≤ (usageDifference previous current).1 := by
  unfold usageDifference
  split
  · exact h
  · split_ifs with hle
    · exact sub_nonneg.mpr hle
    · exact h

theorem touched_counted (h : p.status ≠ .queued) : Touched p (counted s subscriptionId periodId usedBytes p) := by
  refine ⟨rfl, rfl, rfl, .inr ⟨h, ?_, .inl rfl⟩⟩
  have hdelta := @usageDifference_nonneg (latest (s.samplesOf subscriptionId)) (max 0 usedBytes) (le_max_left _ _)
  exact le_add_of_nonneg_right hdelta

/-- The period behind the counting and the close. -/
def finished (s : UsageStore) (subscriptionId periodId : ℕ) (usedBytes : ℤ) (p : UsagePeriod) : UsagePeriod :=
  { counted s subscriptionId periodId usedBytes p with status := .closed }

theorem touched_finished (h : p.status ≠ .queued) : Touched p (finished s subscriptionId periodId usedBytes p) := by
  have hcounted : Touched p (counted s subscriptionId periodId usedBytes p) := touched_counted h
  obtain ⟨hsubscription, horder, hquota, hsame | ⟨-, hused, -⟩⟩ := hcounted
  · refine ⟨hsubscription, horder, hquota, .inr ⟨h, ?_, .inr rfl⟩⟩
    exact (congrArg UsagePeriod.usedBytes hsame).ge
  · exact ⟨hsubscription, horder, hquota, .inr ⟨h, hused, .inr rfl⟩⟩

/-- Only the period that is counted in is touched. -/
theorem rel_current (change : UsagePeriod → UsagePeriod) (hbefore : period s periodId = some before)
    (hchange : Touched before (change before))
    (h : period t j = if j = periodId then (period s j).map change else period s j) :
    Option.Rel Touched (period s j) (period t j) := by
  split_ifs at h with hj
  · subst hj
    rw [h, hbefore]
    exact .some hchange
  · exact rel_refl h

/-- A usage transaction moves the queue on or leaves it as it is. -/
theorem Syncs.move (h : Syncs subscriptionId gracePeriodHours s loaded usedBytes now periodId before changes t)
    (hbegun : before.status ≠ .queued) : Move subscriptionId s t := by
  have hafter := h.after
  have hkeys := h.keys
  cases h.policy with
  | rolled next hstatus hfinished hnext =>
    obtain ⟨hget, hmatch⟩ := Table.find_some hnext
    simp only [Bool.and_eq_true, decide_eq_true_eq] at hmatch
    obtain ⟨hown, hqueued⟩ := hmatch
    have hfound : period (countUsage s subscriptionId ⟨periodId, before⟩ usedBytes now) next.id = some next.row := hget
    have hne : next.id ≠ periodId := by
      intro heq
      rw [period_countUsage, if_pos heq, heq, h.found, Option.map_some] at hfound
      rw [← Option.some.inj hfound] at hqueued
      exact hbegun hqueued
    have hbefore : period s next.id = some next.row := by
      rwa [period_countUsage, if_neg hne] at hfound
    have hperiod := fun k => hafter ▸ period_rollOver (s := countUsage s subscriptionId ⟨periodId, before⟩ usedBytes now)
      ⟨subscriptionId, loaded⟩ periodId next now hne k
    refine .takes next.id next.row now (advanced loaded next now) hkeys (fun _ => ⟨rfl, rfl⟩) h.exists_row ?_ ⟨hbefore, hown⟩
      hqueued ?_ ?_ ?_
    · rw [hafter, row_rollOver, row_countUsage]
    · intro k q hk hq
      have hother : k ≠ periodId := by
        rintro rfl
        have hsame := h.found.symm.trans hk.1
        cases hsame
        exact hbegun hq
      have hget : period (countUsage s subscriptionId ⟨periodId, before⟩ usedBytes now) k = some q := by
        rw [period_countUsage, if_neg hother]
        exact hk.1
      exact Table.find_least hnext hget (by simp [hk.2, hq])
    · rw [hperiod, hfound, Option.map_some, if_pos rfl]
      rfl
    · intro k hk
      refine rel_current (finished s subscriptionId periodId usedBytes) h.found (touched_finished hbegun) ?_
      rw [hperiod, period_countUsage]
      by_cases hcurrent : k = periodId
      · rw [if_pos hcurrent, if_pos hcurrent, Option.map_map]
        simp only [Function.comp_def, if_neg hk, if_pos hcurrent]
        rfl
      · rw [if_neg hcurrent, if_neg hcurrent]
        simp only [if_neg hk, if_neg hcurrent, Option.map_id']
  | closed hstatus hfinished hnone =>
    refine .stays (graced loaded (now + hours gracePeriodHours)) (fun _ => ⟨rfl, fun _ => .inl rfl⟩) ?_ fun j => ?_
    · rw [hafter, applyAll_cons, row_enterGrace, row_close, row_countUsage]
    · refine rel_current (finished s subscriptionId periodId usedBytes) h.found (touched_finished hbegun) ?_
      rw [hafter, applyAll_cons, period_enterGrace, period_close, period_countUsage]
      split_ifs
      · rw [Option.map_map]
        rfl
      · rfl
  | lapsed hstatus hfinished hexpired =>
    refine .stays (graced loaded (loaded.serviceExpireAt + hours gracePeriodHours)) (fun _ => ⟨rfl, fun _ => .inl rfl⟩)
      ?_ fun j => ?_
    · rw [hafter, row_enterGrace, row_countUsage]
    · refine rel_current (counted s subscriptionId periodId usedBytes) h.found (touched_counted hbegun) ?_
      rw [hafter, period_enterGrace, period_countUsage]
  | expired hstatus hexpired =>
    refine .stays (fun r => { r with status := .expired }) (fun _ => ⟨rfl, fun _ => .inr rfl⟩) ?_ fun j => ?_
    · rw [hafter, row_expire, row_countUsage]
    · refine rel_current (counted s subscriptionId periodId usedBytes) h.found (touched_counted hbegun) ?_
      rw [hafter, period_expire, period_countUsage]
  | nothing hfinished =>
    refine .stays id (fun _ => ⟨rfl, id⟩) ?_ fun j => ?_
    · rw [hafter, applyAll_nil, row_countUsage, Option.map_id_fun, id]
    · refine rel_current (counted s subscriptionId periodId usedBytes) h.found (touched_counted hbegun) ?_
      rw [hafter, applyAll_nil, period_countUsage]

end Transactions

section Grace

variable (subscriptionId : ℕ)

/-- A row that is over has no active period with something left. -/
def Exhausted (s : UsageStore) : Prop :=
  ∀ r, row subscriptionId s = some r → Over r.status → ∀ j p, Own subscriptionId s j p → p.status = .active →
    p.quotaBytes ≤ p.usedBytes

/-- A row that is over has no active period with something left and none that is queued. -/
def Graceful (s : UsageStore) : Prop :=
  ∀ r, row subscriptionId s = some r → Over r.status → ∀ j p, Own subscriptionId s j p →
    p.status ≠ .queued ∧ (p.status = .active → p.quotaBytes ≤ p.usedBytes)

/-- Nothing is queued for a row that is over. A row that does not end with its current period is not
moved out of `ACTIVE`: neither for the end of another period nor for an end of its own. -/
def Timely (loaded : Subscription) (usedBytes : ℤ) (now : Timestamp) (s : UsageStore) : Prop :=
  ∀ r, row subscriptionId s = some r →
    (Over r.status → ∀ j p, Own subscriptionId s j p → p.status ≠ .queued) ∧
    (¬Over r.status → loaded.status = .active →
      ∀ periodId p, loaded.currentPeriodId = some periodId → period s periodId = some p →
        (Finished (counted s subscriptionId periodId usedBytes p) now →
          (∀ j q, Own subscriptionId s j q → q.status ≠ .queued) → r.currentPeriodId = some periodId) ∧
        (¬Finished (counted s subscriptionId periodId usedBytes p) now → now < loaded.serviceExpireAt))

end Grace

section Grace

variable {subscriptionId gracePeriodHours : ℕ} {s t : UsageStore} {loaded : Subscription} {usedBytes : ℤ}
variable {now : Timestamp} {periodId : ℕ} {before : UsagePeriod} {changes : List Write}

theorem Graceful.exhausted (h : Graceful subscriptionId s) : Exhausted subscriptionId s :=
  fun r hr hover j p hown => (h r hr hover j p hown).2

theorem no_queued (hbegun : before.status ≠ .queued) (hfound : period s periodId = some before)
    (h : queued (countUsage s subscriptionId ⟨periodId, before⟩ usedBytes now) subscriptionId = none) :
    ∀ j p, Own subscriptionId s j p → p.status ≠ .queued := by
  intro j p hown hqueued
  have hne : j ≠ periodId := by
    rintro rfl
    have hsame := hfound.symm.trans hown.1
    cases hsame
    exact hbegun hqueued
  have hget : period (countUsage s subscriptionId ⟨periodId, before⟩ usedBytes now) j = some p := by
    rw [period_countUsage, if_neg hne]
    exact hown.1
  have hmiss := Table.find_eq_none.mp h j p hget
  simp [hown.2, hqueued] at hmiss

/-- A row that is over stays without a period to go on with. -/
theorem Syncs.graceful_of_over (h : Syncs subscriptionId gracePeriodHours s loaded usedBytes now periodId before changes t)
    (hbegun : before.status ≠ .queued) (hactive : ∀ j p, Own subscriptionId s j p → p.status = .active → p.quotaBytes ≤ p.usedBytes)
    (hqueued : ∀ j p, Own subscriptionId s j p → p.status ≠ .queued) : Graceful subscriptionId t := by
  intro r hr hover j p hown
  cases Syncs.move h hbegun with
  | stays change hchange hrow hperiod =>
    obtain ⟨q, hq, htouched⟩ := own_touched (hperiod j) hown
    exact ⟨htouched.begun (hqueued j q hq), fun hp => htouched.exhausted (hactive j q hq (htouched.active hp))⟩
  | takes i q _ _ _ _ _ _ hown' hqueued' _ _ _ => exact absurd hqueued' (hqueued i q hown')
  | joins i q _ habsent _ _ _ _ hperiod =>
    have hquota := h.quotaOf i
    rw [quotaOf, quotaOf, hperiod, if_pos rfl, habsent] at hquota
    cases hquota

/-- A row goes over only behind its last period. -/
theorem Syncs.graceful (h : Syncs subscriptionId gracePeriodHours s loaded usedBytes now periodId before changes t)
    (hlaw : Law subscriptionId s) (hbegun : before.status ≠ .queued) (hexhausted : Exhausted subscriptionId s)
    (hloaded : Over loaded.status → ∃ r, row subscriptionId s = some r ∧ Over r.status)
    (htimely : Timely subscriptionId loaded usedBytes now s) : Graceful subscriptionId t := by
  obtain ⟨r, hr⟩ := h.exists_row
  obtain ⟨hnone, hends⟩ := htimely r hr
  by_cases hover : Over r.status
  · exact Syncs.graceful_of_over h hbegun (hexhausted r hr hover) (hnone hover)
  · intro r' hr' hover'
    rw [h.after] at hr'
    cases h.policy with
    | rolled next hstatus hfinished hnext =>
      rw [row_rollOver, row_countUsage, hr, Option.map_some] at hr'
      cases hr'
      exact absurd hover' hover
    | closed hstatus hfinished hempty =>
      have hqueued := no_queued hbegun h.found hempty
      have hcurrent := (hends hover hstatus periodId before h.current h.found).1 hfinished hqueued
      intro j p hown
      have hafter := hown.1
      rw [h.after, applyAll_cons, period_enterGrace, period_close, period_countUsage] at hafter
      dsimp only at hafter
      split_ifs at hafter with hj
      · rw [Option.map_map] at hafter
        obtain ⟨q, -, rfl⟩ := Option.map_eq_some_iff.mp hafter
        exact ⟨UsagePeriodStatus.noConfusion, UsagePeriodStatus.noConfusion⟩
      · refine ⟨hqueued j p ⟨hafter, hown.2⟩, fun hp => ?_⟩
        obtain ⟨r₀, hr₀, hj'⟩ := hlaw.current j p ⟨hafter, hown.2⟩ hp
        rw [hr] at hr₀
        cases hr₀
        exact absurd (Option.some.inj (hj'.symm.trans hcurrent)) hj
    | lapsed hstatus hopen hexpired =>
      have hbefore := (hends hover hstatus periodId before h.current h.found).2 hopen
      exact absurd hexpired (not_le.mpr hbefore)
    | expired hstatus hexpired =>
      obtain ⟨r₀, hr₀, hover₀⟩ := hloaded (.inl hstatus)
      rw [hr] at hr₀
      cases hr₀
      exact absurd hover₀ hover
    | nothing hopen =>
      rw [applyAll_nil, row_countUsage, hr] at hr'
      cases hr'
      exact absurd hover' hover

end Grace

section Contract

variable {fair : Prop} {subscriptionId gracePeriodHours i : ℕ} {s t : Accounts} {l l' : Session} {w w' : State}

/-- A renewal that is not committed comes behind all the periods that have begun. -/
def Joining (subscriptionId : ℕ) (s : UsageStore) (e : PendingInsert) : Prop :=
  ∃ p orderId change, e.writes = [.insertUsagePeriod e.periodId p, .updateOrder orderId change] ∧
    p.subscriptionId = e.subscriptionId ∧ p.status = .queued ∧ p.usedBytes = 0 ∧
    (e.subscriptionId = subscriptionId → ∀ k q, Own subscriptionId s k q → q.status ≠ .queued → k < e.periodId)

/-- What holds of the committed states and of the commits. When the workers are `fair`, no usage transaction
leaves a row over with a period to go on with. -/
structure Invariant (fair : Prop) (subscriptionId : ℕ) (w : Accounts) : Prop where
  law : ∀ u ∈ w.states, Law subscriptionId u
  follows : ∀ u ∈ w.states, Follows subscriptionId u w.store
  whole : ∀ c ∈ w.commits, Whole subscriptionId c
  begun : ∀ c ∈ w.commits, ∀ j, TakenUp subscriptionId c j → ∃ q, Own subscriptionId w.store j q ∧ q.status ≠ .queued
  order : w.commits.Pairwise (Behind subscriptionId)
  reserved : Reserved w
  joining : ∀ e ∈ w.pendingInserts, Joining subscriptionId w.store e
  exhausted : fair → Exhausted subscriptionId w.store
  graceful : fair → ∀ c ∈ w.commits, c.kind = .synced → Graceful subscriptionId c.after

theorem Invariant.store (h : Invariant fair subscriptionId s) : Law subscriptionId s.store :=
  h.law s.store List.mem_cons_self

/-- A period that is taken up now has been queued in all the committed states. -/
theorem Invariant.behind (h : Invariant fair subscriptionId s) {kind : CommitKind} {store : UsageStore} {c : PeriodCommit}
    (hmove : Move subscriptionId s.store store) (hc : c ∈ s.commits) : Behind subscriptionId ⟨kind, s.store, store⟩ c := by
  refine ⟨fun j k hj hk => ?_, fun j p hj hp => ?_⟩
  · obtain ⟨p, _, hown, hqueued, -⟩ := hmove.takenUp hj
    obtain ⟨q, hq, hbegun⟩ := h.begun c hc k hk
    exact h.store.behind j k p q hown hq hqueued hbegun
  · obtain ⟨q, _, hown, hqueued, -⟩ := hmove.takenUp hj
    by_contra hbegun
    have hmem : c.before ∈ s.states := List.mem_cons_of_mem _ (List.mem_map_of_mem hc)
    obtain ⟨q', hq', -, hbegun'⟩ := (h.follows c.before hmem).begun j p hp hbegun
    rw [hown.1] at hq'
    cases hq'
    exact hbegun' hqueued

/-- A commit that moves the queue keeps the invariant. -/
theorem Invariant.commit (h : Invariant fair subscriptionId s) {kind : CommitKind}
    (hmove : Move subscriptionId s.store t.store) (hcommits : t.commits = ⟨kind, s.store, t.store⟩ :: s.commits)
    (hreserved : Reserved t) (hjoining : ∀ e ∈ t.pendingInserts, Joining subscriptionId t.store e)
    (hexhausted : fair → Exhausted subscriptionId t.store)
    (hgraceful : fair → kind = .synced → Graceful subscriptionId t.store) : Invariant fair subscriptionId t := by
  have hstates : t.states = t.store :: s.states := by
    rw [Accounts.states, hcommits]
    rfl
  refine ⟨?_, ?_, ?_, ?_, ?_, hreserved, hjoining, hexhausted, ?_⟩
  · rw [hstates]
    exact List.forall_mem_cons.mpr ⟨hmove.law h.store, h.law⟩
  · rw [hstates]
    exact List.forall_mem_cons.mpr ⟨.refl _, fun u hu => (h.follows u hu).trans hmove.follows⟩
  · rw [hcommits]
    exact List.forall_mem_cons.mpr ⟨hmove.whole h.store, h.whole⟩
  · rw [hcommits]
    refine List.forall_mem_cons.mpr ⟨fun j hj => ?_, fun c hc j hj => ?_⟩
    · obtain ⟨p, now, hown, -, hafter⟩ := hmove.takenUp hj
      exact ⟨_, ⟨hafter, hown.2⟩, UsagePeriodStatus.noConfusion⟩
    · obtain ⟨q, hq, hbegun⟩ := h.begun c hc j hj
      obtain ⟨q', hq', hsame, hbegun'⟩ := hmove.follows.begun j q hq.1 hbegun
      exact ⟨q', ⟨hq', hsame.trans hq.2⟩, hbegun'⟩
  · rw [hcommits]
    exact List.pairwise_cons.mpr ⟨fun c hc => h.behind hmove hc, h.order⟩
  · rw [hcommits]
    intro hfair
    exact List.forall_mem_cons.mpr ⟨hgraceful hfair, h.graceful hfair⟩

theorem Joining.of_begun {u v : UsageStore} {e : PendingInsert} (h : Joining subscriptionId u e)
    (hbegun : ∀ k q, Own subscriptionId v k q → q.status ≠ .queued → ∃ q', Own subscriptionId u k q' ∧ q'.status ≠ .queued) :
    Joining subscriptionId v e := by
  obtain ⟨p, orderId, change, hwrites, hown, hqueued, hunused, hbehind⟩ := h
  refine ⟨p, orderId, change, hwrites, hown, hqueued, hunused, fun he k q hk hq => ?_⟩
  obtain ⟨q', hk', hq'⟩ := hbegun k q hk hq
  exact hbehind he k q' hk' hq'

theorem Joining.of_other {u v : UsageStore} {e : PendingInsert} (h : Joining subscriptionId u e)
    (hother : e.subscriptionId ≠ subscriptionId) : Joining subscriptionId v e := by
  obtain ⟨p, orderId, change, hwrites, hown, hqueued, hunused, -⟩ := h
  exact ⟨p, orderId, change, hwrites, hown, hqueued, hunused, fun he => absurd he hother⟩

theorem Invariant.abort (h : Invariant fair subscriptionId s) : Invariant fair subscriptionId (s.abort i) :=
  ⟨h.law, h.follows, h.whole, h.begun, h.order, h.reserved.abort, fun e he => h.joining e (List.mem_of_mem_filter he),
    h.exhausted, h.graceful⟩

def contract (fair : Prop) (subscriptionId : ℕ) : Contract calls Exn Accounts Session where
  guarantee _ s t := Follows subscriptionId s.store t.store
  invariant := Invariant fair subscriptionId
  absent _ _ := True
  kept _ _ := True
  safe _ _ _ _ _ := True

theorem fine_same {c : Call} {x : Except Exn c.Answer} (h : Invariant fair subscriptionId s) :
    (contract fair subscriptionId).Fine i c (s, l) x (s, l') := ⟨.refl _, h, trivial, trivial⟩

theorem fine_abort {c : Call} {x : Except Exn c.Answer} (h : Invariant fair subscriptionId s) :
    (contract fair subscriptionId).Fine i c (s, l) x (s.abort i, l') := ⟨.refl _, h.abort, trivial, trivial⟩

/-- A commit that changes nothing the queue rests on. -/
theorem fine_write {c : Call} {x : Except Exn c.Answer} {ending : Ending} {change : Subscription → Subscription}
    (hchange : ∀ r, (change r).currentPeriodId = r.currentPeriodId ∧ (change r).status = r.status)
    (h : Invariant fair subscriptionId s) :
    (contract fair subscriptionId).Fine i c (s, l) x ((write subscriptionId s ending change).2, l') := by
  unfold write
  split_ifs
  · have hmove : Move subscriptionId s.store (update subscriptionId s.store change) :=
      .stays change (fun r => ⟨(hchange r).1, fun hover => (hchange r).2.symm ▸ hover⟩) (row_update _ _ _)
        fun j => rel_refl rfl
    refine ⟨hmove.follows, h.commit hmove rfl ?_ ?_ ?_ ?_, trivial, trivial⟩
    · exact h.reserved.of_periods rfl (fun _ hnone => hnone) rfl
    · exact fun e he => (h.joining e he).of_begun fun k q hk hq => ⟨q, hk, hq⟩
    · intro hfair r hr hover j p hown hp
      rw [Accounts.store_commit, row_update] at hr
      obtain ⟨r₀, hr₀, rfl⟩ := Option.map_eq_some_iff.mp hr
      exact h.exhausted hfair r₀ hr₀ ((hchange r₀).2 ▸ hover) j p hown hp
    · intro _ hkind
      cases hkind
  · exact fine_same h

/-- What a renewal is to insert is queued and unused. -/
theorem enqueue_changes {view : Database} {now : Timestamp} {command : BillingCommand} {enqueued : ℕ}
    (h : (Api.enqueueSubscription view now command).result = .ok ())
    (hcommand : Api.commandSubscription view command = some enqueued) :
    ∃ p orderId change, (Api.enqueueSubscription view now command).changes =
      [.insertUsagePeriod view.usagePeriods.next p, .updateOrder orderId change] ∧
      p.subscriptionId = enqueued ∧ p.status = .queued ∧ p.usedBytes = 0 := by
  unfold Api.enqueueSubscription at h ⊢
  rw [hcommand] at h ⊢
  dsimp only at h ⊢
  split at h
  · cases h
  · split at h
    · cases h
    · split_ifs at h ⊢
      · cases h
      · exact ⟨_, _, _, rfl, rfl, rfl, rfl⟩

theorem fine_applyRenewal {c : Call} {x : Except Exn c.Answer} {command : BillingCommand} {now : Timestamp}
    (h : Invariant fair subscriptionId s) :
    (contract fair subscriptionId).Fine i c (s, l) x ((applyRenewal i s command now).2, l') := by
  unfold applyRenewal
  dsimp only
  split
  · rename_i enqueued hresult hcommand
    obtain ⟨p, orderId, change, hwrites, hown, hqueued, hunused⟩ := enqueue_changes hresult hcommand
    have hmove : Move subscriptionId s.store { s.store with database := { s.store.database with
        usagePeriods := s.store.database.usagePeriods.reserve } } :=
      .stays id (fun _ => ⟨rfl, id⟩) (Option.map_id_fun ▸ rfl) fun j => rel_refl rfl
    refine ⟨hmove.follows, ⟨?_, ?_, h.whole, h.begun, h.order, ?_, ?_, h.exhausted, h.graceful⟩, trivial, trivial⟩
    · exact List.forall_mem_cons.mpr ⟨hmove.law h.store, fun u hu => h.law u (List.mem_cons_of_mem _ hu)⟩
    · refine List.forall_mem_cons.mpr ⟨.refl _, fun u hu => ?_⟩
      exact (h.follows u (List.mem_cons_of_mem _ hu)).trans hmove.follows
    · exact h.reserved.joined rfl ⟨p, orderId, change, hwrites⟩
    · refine List.forall_mem_cons.mpr ⟨⟨p, orderId, change, hwrites, hown, hqueued, hunused, fun _ k q hk _ => ?_⟩,
        fun e he => (h.joining e he).of_begun fun k q hk hq => ⟨q, hk, hq⟩⟩
      exact Table.lt_next_of_get hk.1
  · exact fine_same h
  · exact fine_same h

/-- A renewal that is committed joins the queue at its end. -/
theorem fine_commitOrder {c : Call} {x : Except Exn c.Answer} {ending : Ending} (h : Invariant fair subscriptionId s) :
    (contract fair subscriptionId).Fine i c (s, l) x ((commitOrder i s ending).2, l') := by
  unfold commitOrder
  cases hfind : s.pendingInserts.find? fun e => e.process = i with
  | none => exact fine_same h
  | some pending =>
    dsimp only
    split_ifs with hkeys htakes
    · have hmem := List.mem_of_find?_eq_some hfind
      have habsent := h.reserved.absent pending hmem
      have hreserved := h.reserved.ordered hfind
      obtain ⟨p, orderId, change, hwrites, hown, hqueued, hunused, hbehind⟩ := h.joining pending hmem
      rw [hwrites] at hkeys hreserved ⊢
      have hmove : Move subscriptionId s.store
          (s.store.applyAll [.insertUsagePeriod pending.periodId p, .updateOrder orderId change]) :=
        .joins pending.periodId p hkeys habsent hqueued hunused (fun hp => hbehind (hown.symm.trans hp)) rfl fun k => rfl
      have hold : ∀ k q, Own subscriptionId
          (s.store.applyAll [.insertUsagePeriod pending.periodId p, .updateOrder orderId change]) k q →
          q.status ≠ .queued → Own subscriptionId s.store k q := by
        intro k q hk hq
        have hafter : (if k = pending.periodId then some p else period s.store k) = some q := hk.1
        split_ifs at hafter
        · cases hafter
          exact absurd hqueued hq
        · exact ⟨hafter, hk.2⟩
      refine ⟨hmove.follows, h.commit hmove rfl hreserved ?_ ?_ ?_, trivial, trivial⟩
      · intro e he
        refine (h.joining e (List.mem_of_mem_filter he)).of_begun fun k q hk hq => ?_
        exact ⟨q, hold k q hk hq, hq⟩
      · intro hfair r hr hover k q hk hq
        have hbegun : q.status ≠ .queued := by
          rw [hq]
          exact UsagePeriodStatus.noConfusion
        exact h.exhausted hfair r hr hover k q (hold k q hk hbegun) hq
      · intro _ hkind
        cases hkind
    · exact fine_abort h
    · exact fine_abort h

/-- What a session has of a row that it has loaded. -/
structure Loaded (subscriptionId : ℕ) (loaded : Subscription) (s : UsageStore) : Prop where
  begun : ∀ j, loaded.currentPeriodId = some j → ∃ p, period s j = some p ∧ p.status ≠ .queued
  lapsed : Over loaded.status → ∃ r, row subscriptionId s = some r ∧ Over r.status

theorem Loaded.follows {loaded : Subscription} {u v : UsageStore} (h : Loaded subscriptionId loaded u)
    (hfollows : Follows subscriptionId u v) : Loaded subscriptionId loaded v := by
  refine ⟨fun j hj => ?_, fun hover => ?_⟩
  · obtain ⟨p, hp, hbegun⟩ := h.begun j hj
    obtain ⟨q, hq, -, hbegun'⟩ := hfollows.begun j p hp hbegun
    exact ⟨q, hq, hbegun'⟩
  · obtain ⟨r, hr, hover'⟩ := h.lapsed hover
    exact hfollows.lapsed r hr hover'

/-- A row of any of the committed states. -/
theorem Invariant.loaded (h : Invariant fair subscriptionId s) {u : UsageStore} (hu : u ∈ s.states) {r : Subscription}
    (hr : row subscriptionId u = some r) : Loaded subscriptionId r s.store := by
  have hown : Loaded subscriptionId r u := ⟨fun j => (h.law u hu).begun r j hr, fun hover => ⟨r, hr, hover⟩⟩
  exact hown.follows (h.follows u hu)

theorem loaded_stable {loaded : Subscription} :
    (contract fair subscriptionId).Stable i fun w => Loaded subscriptionId loaded w.1.store :=
  fun _ _ _ _ _ hfollows _ h => h.follows hfollows

/-- A usage transaction that no renewal is in the way of. -/
theorem fine_sync {c : Call} {x : Except Exn c.Answer} {loaded : Subscription} {usedBytes : ℤ} {now : Timestamp}
    {ending : Ending} (h : Invariant fair subscriptionId s) (hloaded : Loaded subscriptionId loaded s.store)
    (hlock : ¬∃ e ∈ s.pendingInserts, e.subscriptionId = subscriptionId)
    (htimely : fair → Timely subscriptionId loaded usedBytes now s.store) :
    (contract fair subscriptionId).Fine i c (s, l) x
      ((sync subscriptionId gracePeriodHours s loaded usedBytes now ending).2, l') := by
  obtain ⟨hsame, -⟩ | ⟨periodId, before, changes, t, hsyncs, hcommit, -⟩ := sync_cases
    (Prod.mk.eta (p := sync subscriptionId gracePeriodHours s loaded usedBytes now ending)).symm
  · rw [hsame]
    exact fine_same h
  · rw [hcommit]
    obtain ⟨p, hp, hbegun⟩ := hloaded.begun periodId hsyncs.current
    rw [hsyncs.found] at hp
    cases hp
    have hmove := Syncs.move hsyncs hbegun
    have hgraceful : fair → Graceful subscriptionId t := fun hfair =>
      Syncs.graceful hsyncs h.store hbegun (h.exhausted hfair) hloaded.lapsed (htimely hfair)
    refine ⟨hmove.follows, h.commit hmove rfl ?_ ?_ (fun hfair => (hgraceful hfair).exhausted) (fun hfair _ => hgraceful hfair),
      trivial, trivial⟩
    · refine h.reserved.of_periods rfl (fun j hnone => ?_) hsyncs.next
      have hquota := hsyncs.quotaOf j
      rw [quotaOf, quotaOf, hnone, Option.map_none, Option.map_eq_none_iff] at hquota
      exact hquota
    · exact fun e he => (h.joining e he).of_other fun hown => hlock ⟨e, he, hown⟩

end Contract

section Programs

variable {fair : Prop} {subscriptionId gracePeriodHours i : ℕ} {K : Conduct calls Exn Accounts Session} {w w' : State}

/-- The calls of `K` wait for the locks, and are timely if the workers are `fair`. -/
structure Allows (fair : Prop) (subscriptionId : ℕ) (K : Conduct calls Exn Accounts Session) : Prop where
  lock : ∀ {i c w x w'}, K.call i c w x w' → ¬waits subscriptionId c w.1
  timely : fair → ∀ {i loaded usedBytes now w x w'}, K.call i (.syncTransaction loaded usedBytes now) w x w' →
    Timely subscriptionId loaded usedBytes now w.1.store

/-- Every call but the usage transaction, which rests on the row that its session has loaded. -/
def Steady : Call → Prop
  | .syncTransaction .. => False
  | _ => True

abbrev among (fair : Prop) (K : Conduct calls Exn Accounts Session) (subscriptionId gracePeriodHours i : ℕ) :
    Handler calls Exn State :=
  (contract fair subscriptionId).handler (agents subscriptionId gracePeriodHours) K i

theorem fine_writeState {s : Accounts} {l l' : Session} {c : Call} {x : Except Exn c.Answer} {loaded : UsageStore}
    {state : ReconcileState} {change : Subscription → Subscription} {ending : Ending}
    (hchange : ∀ r, (change r).currentPeriodId = r.currentPeriodId ∧ (change r).status = r.status)
    (h : Invariant fair subscriptionId s) :
    (contract fair subscriptionId).Fine i c (s, l) x ((writeState subscriptionId s loaded state change ending).2, l') :=
  fine_write (fun _ => hchange _) h

theorem fine_steady {c : Call} {choice : c.Choice} {x : Except Exn c.Answer} (hsteady : Steady c)
    (h : Invariant fair subscriptionId w.1) (hact : (agents subscriptionId gracePeriodHours).act i c choice w = (x, w')) :
    (contract fair subscriptionId).Fine i c w x w' := by
  obtain ⟨s, l⟩ := w
  have hw' : (act subscriptionId gracePeriodHours i c choice (s, l)).2 = w' := congrArg Prod.snd hact
  subst hw'
  cases c with
  | syncTransaction loaded usedBytes now => cases hsteady
  | task => exact fine_same h
  | getUsage username => exact fine_same h
  | rollback => exact fine_same h
  | getSubscription =>
    cases choice with
    | ok k => exact fine_same h
    | error e => exact fine_same h
  | getPeriod periodId =>
    cases choice with
    | ok k => exact fine_same h
    | error e => exact fine_same h
  | markPending loaded => exact fine_write (fun r => ⟨rfl, rfl⟩) h
  | setQuota username quotaBytes =>
    refine ⟨?_, ?_, trivial, trivial⟩ <;> simp only [act] <;> split_ifs
    · exact .refl _
    · exact .refl _
    · exact ⟨h.law, h.follows, h.whole, h.begun, h.order, ⟨h.reserved.absent, h.reserved.below, h.reserved.distinct,
        h.reserved.writes⟩, h.joining, h.exhausted, h.graceful⟩
    · exact h
  | setExpire username expireAt =>
    refine ⟨?_, ?_, trivial, trivial⟩ <;> simp only [act] <;> split_ifs
    · exact .refl _
    · exact .refl _
    · exact ⟨h.law, h.follows, h.whole, h.begun, h.order, ⟨h.reserved.absent, h.reserved.below, h.reserved.distinct,
        h.reserved.writes⟩, h.joining, h.exhausted, h.graceful⟩
    · exact h
  | markMissing detail => exact fine_writeState (fun r => ⟨rfl, rfl⟩) h
  | markFailed state error => exact fine_writeState (fun r => by cases error <;> exact ⟨rfl, rfl⟩) h
  | markSynced => exact fine_write (fun r => ⟨rfl, rfl⟩) h
  | applyRenewal command now =>
    cases choice with
    | ok k => exact fine_applyRenewal h
    | error e => exact fine_same h
  | commitOrder => exact fine_commitOrder h

theorem keeps_steady {α : Type} {p : Work α} (hp : p.Calls Steady) :
    Keeps (among fair K subscriptionId gracePeriodHours i) (fun _ => True) p := by
  refine Contract.keeps_of_fine hp fun c w choice x w' hsteady hinvariant _ hact _ => ?_
  exact fine_steady hsteady hinvariant hact

theorem calls_overwriteProvider (username : String) (quotaBytes : ℤ) (expireAt : Timestamp) :
    (overwriteProvider username quotaBytes expireAt).Calls Steady := by
  refine .bind (Calls.attempt (p := work _) (.perform trivial)) fun r => ?_
  cases r with
  | error exc => exact .bind (.perform trivial) fun _ => .raise exc
  | ok _ => exact .bind (.perform trivial) fun _ => .perform trivial

theorem calls_reconcileSubscription (row : Subscription) (pendingManualOnFailure : Bool) :
    (reconcileSubscription row pendingManualOnFailure).Calls Steady := by
  unfold reconcileSubscription
  split
  · refine .ite (.raise _) (.bind (.perform trivial) fun found => ?_)
    cases found with
    | none => exact .raise _
    | some period =>
      refine .bind (.perform trivial) fun _ => .bind (.attempt (calls_overwriteProvider _ _ _)) fun r => ?_
      cases r with
      | error exc =>
        cases pendingManualOnFailure with
        | true => exact .bind (p := work _) (.perform trivial) fun _ => .raise exc
        | false => exact .bind (p := work _) (.perform trivial) fun _ => .raise exc
      | ok _ => exact .perform trivial
  · exact .raise _

/-- The row that a session has loaded still tells what it is to tell when the transaction begins. -/
theorem wp_syncLoaded (hK : Allows fair subscriptionId K) {loaded : Subscription} {username : String} (now : Timestamp)
    (hloaded : Loaded subscriptionId loaded w.1.store) :
    (do
      let usedBytes ← work (.getUsage username)
      let outcome ← work (.syncTransaction loaded usedBytes now)
      if outcome.needsReconcile then
        (reconcileSubscription outcome.row outcome.rolledPeriod).tryCatch fun _ => work .rollback
      else pure () : Work Unit).wp (among fair K subscriptionId gracePeriodHours i) (fun _ _ => True) w := by
  refine (iff_of_eq (wp_bind _ _ _ _ _)).mpr ?_
  refine Contract.perform_wp loaded_stable ?_ hloaded
  rintro s l choice x w' hinvariant - hloaded hact -
  refine ⟨fine_steady trivial hinvariant hact, ?_⟩
  obtain ⟨rfl, rfl⟩ := Prod.mk.inj hact
  cases choice with
  | error exc => trivial
  | ok usedBytes =>
    refine (iff_of_eq (wp_bind _ _ _ _ _)).mpr ?_
    refine Contract.perform_wp loaded_stable ?_ hloaded
    rintro s l ending x w' hinvariant - hloaded hact hallowed
    have hw' : (act subscriptionId gracePeriodHours i (.syncTransaction loaded usedBytes now) ending (s, l)).2 = w' :=
      congrArg Prod.snd hact
    subst hw'
    refine ⟨fine_sync hinvariant hloaded (hK.lock hallowed) fun hfair => hK.timely hfair hallowed, ?_⟩
    cases x with
    | error exc => trivial
    | ok outcome =>
      refine Keeps.ite ?_ (.ret ()) _ trivial
      exact (keeps_steady (calls_reconcileSubscription _ _)).tryCatch fun _ => keeps_steady (p := work .rollback) (.perform trivial)

theorem keeps_syncUsage (hK : Allows fair subscriptionId K) (now : Timestamp) :
    Keeps (among fair K subscriptionId gracePeriodHours i) (fun _ => True) (syncUsage now) := by
  intro w _
  unfold syncUsage
  refine (iff_of_eq (wp_bind _ _ _ _ _)).mpr ?_
  refine Contract.perform_wp (P := fun _ => True) (fun _ _ _ _ _ _ _ h => h) ?_ trivial
  rintro s l choice x w' hinvariant - - hact -
  refine ⟨fine_steady trivial hinvariant hact, ?_⟩
  cases choice with
  | error exc =>
    obtain ⟨rfl, -⟩ := Prod.mk.inj hact
    trivial
  | ok k =>
    obtain ⟨rfl, rfl⟩ := Prod.mk.inj hact
    cases hfound : row subscriptionId (s.stale k) with
    | none => trivial
    | some loaded =>
      have hloaded := hinvariant.loaded (s.stale_mem k) hfound
      exact (wp_ite _ _ _ _ _ _).mpr ⟨fun _ => trivial, fun _ => wp_syncLoaded hK now hloaded⟩

theorem keeps_worker (hK : Allows fair subscriptionId K) :
    Keeps (among fair K subscriptionId gracePeriodHours i) (fun _ => True) worker := by
  refine .bind (keeps_steady (p := work .task) (.perform trivial)) fun task => ?_
  cases task with
  | usageSync now => exact keeps_syncUsage hK now
  | pendingReconcile =>
    refine .bind (keeps_steady (p := work .getSubscription) (.perform trivial)) fun found => ?_
    cases found with
    | none => exact .ret ()
    | some subscription =>
      exact .ite ((keeps_steady (calls_reconcileSubscription _ _)).tryCatch fun _ => .ret ()) (.ret ())
  | renewal command now =>
    exact .bind (keeps_steady (p := work _) (.perform trivial)) fun _ => keeps_steady (p := work _) (.perform trivial)

end Programs

section Runs

variable {subscriptionId gracePeriodHours : ℕ}

/-- Nothing is in progress, and the committed rows are in order. -/
structure Start (subscriptionId : ℕ) (w : Accounts) : Prop where
  pending : w.pendingInserts = []
  commits : w.commits = []
  law : Law subscriptionId w.store
  exhausted : Exhausted subscriptionId w.store

abbrev ReachableBy (K : Conduct calls Exn Accounts Session) (subscriptionId gracePeriodHours : ℕ) (g : Workers) : Prop :=
  Agents.Reachable (agents subscriptionId gracePeriodHours) K worker fresh (Start subscriptionId) g

/-- The workers wait for the locks, and their usage transactions are timely. -/
def timely (subscriptionId : ℕ) : Conduct calls Exn Accounts Session where
  call := fun _ c w _ _ => ¬waits subscriptionId c w.1 ∧
    match c with
    | .syncTransaction loaded usedBytes now => Timely subscriptionId loaded usedBytes now w.1.store
    | _ => True
  crash := fun _ _ => True

theorem allows_anyTime : Allows False subscriptionId (anyTime subscriptionId) :=
  ⟨fun h => h, fun hfair => hfair.elim⟩

theorem allows_timely : Allows True subscriptionId (timely subscriptionId) := ⟨fun h => h.1, fun _ _ _ _ _ _ _ _ h => h.2⟩

theorem sound {fair : Prop} {K : Conduct calls Exn Accounts Session} (hK : Allows fair subscriptionId K) :
    (contract fair subscriptionId).Sound (agents subscriptionId gracePeriodHours) K worker fresh fun _ _ _ => True where
  kept_stable _ _ _ _ _ _ _ _ _ := trivial
  ended_stable _ _ _ _ _ _ _ _ _ _ := trivial
  absent_stable _ _ _ _ _ _ _ _ := trivial
  begin_kept _ _ _ _ := trivial
  verified _ s _ _ := keeps_worker hK (s, fresh) trivial
  crash_leaves _ _ _ hinvariant _ _ := ⟨.refl _, hinvariant.abort, trivial⟩
  ended_leaves _ _ _ _ hinvariant _ _ := ⟨.refl _, hinvariant.abort, trivial, trivial⟩

theorem Start.invariant {fair : Prop} {w : Accounts} (h : Start subscriptionId w) : Invariant fair subscriptionId w := by
  have hstates : w.states = [w.store] := by
    rw [Accounts.states, h.commits, List.map_nil]
  refine ⟨?_, ?_, ?_, ?_, ?_, ?_, ?_, fun _ => h.exhausted, ?_⟩
  · rw [hstates]
    exact List.forall_mem_singleton.mpr h.law
  · rw [hstates]
    exact List.forall_mem_singleton.mpr (.refl _)
  · simp [h.commits]
  · simp [h.commits]
  · simp [h.commits]
  · constructor <;> simp [h.pending]
  · simp [h.pending]
  · simp [h.commits]

theorem invariant_of_reachable {fair : Prop} {K : Conduct calls Exn Accounts Session} (hK : Allows fair subscriptionId K)
    {g : Workers} (h : ReachableBy K subscriptionId gracePeriodHours g) : Invariant fair subscriptionId g.shared :=
  (Contract.good_of_reachable (sound hK) (fun _ hs => ⟨hs.invariant, fun _ => trivial⟩) (fun _ _ _ => .refl _) h).invariant

/-- The paid periods are a queue: in every committed state at most one is active, which is the current one, and
every order has at most one; they are taken up whole, each once and in their order. -/
structure Fifo (subscriptionId : ℕ) (w : Accounts) : Prop where
  single : ∀ u ∈ w.states, ∀ j k p q, Own subscriptionId u j p → Own subscriptionId u k q → p.status = .active →
    q.status = .active → j = k
  current : ∀ u ∈ w.states, ∀ j p, Own subscriptionId u j p → p.status = .active →
    ∃ r, row subscriptionId u = some r ∧ r.currentPeriodId = some j
  orders : ∀ u ∈ w.states, ∀ j k p q, period u j = some p → period u k = some q → p.orderId = q.orderId → j = k
  whole : ∀ c ∈ w.commits, Whole subscriptionId c
  order : w.commits.Pairwise (Behind subscriptionId)

theorem Invariant.fifo {fair : Prop} {w : Accounts} (h : Invariant fair subscriptionId w) : Fifo subscriptionId w where
  single u hu := (h.law u hu).single
  current u hu := (h.law u hu).current
  orders u hu := (h.law u hu).orders
  whole := h.whole
  order := h.order

/-- Whatever the workers do and in whatever order, the paid periods are a queue. When they are timely as well, no usage
transaction leaves the subscription over with a paid period to go on with. -/
theorem paid_periods_fifo (subscriptionId gracePeriodHours : ℕ) :
    (∀ g, ReachableBy (anyTime subscriptionId) subscriptionId gracePeriodHours g → Fifo subscriptionId g.shared) ∧
      ∀ g, ReachableBy (timely subscriptionId) subscriptionId gracePeriodHours g → Fifo subscriptionId g.shared ∧
        ∀ c ∈ g.shared.commits, c.kind = .synced → Graceful subscriptionId c.after := by
  refine ⟨fun g h => (invariant_of_reachable allows_anyTime h).fifo, fun g h => ?_⟩
  have hinvariant := invariant_of_reachable allows_timely h
  exact ⟨hinvariant.fifo, hinvariant.graceful trivial⟩

/-- An active subscription with a paid order for a renewal. -/
def soleAccounts : Accounts where
  store :=
    { database := { Database.empty with
        subscriptions := Table.empty.insert 1
          ⟨1, 5, 1, .active, "rg", 1000, some 0, .synced, some "user", none, none, none, none⟩
        usagePeriods := Table.empty.insert 0 ⟨1, 1, 5, 0, 1000, 0, 100, .active⟩
        orders := Table.empty.insert 2 ⟨1, 5, some 1, .paid, .paid, none, none, none, none⟩
        plans := Table.empty.insert 5 ⟨100, 30, "rg"⟩ }
      samples := .empty
      deltas := .empty
      alerts := [] }
  users := fun _ => ⟨0, 0⟩
  pendingInserts := []
  commits := []

theorem period_soleAccounts {j : ℕ} {p : UsagePeriod} (h : period soleAccounts.store j = some p) :
    j = 0 ∧ p.status = .active := by
  by_cases hj : j = 0
  · subst hj
    cases h
    exact ⟨rfl, rfl⟩
  · have hnone : period soleAccounts.store j = none := if_neg hj
    rw [hnone] at h
    cases h

theorem start_soleAccounts : Start 1 soleAccounts := by
  refine ⟨rfl, rfl, ⟨?_, ?_, ?_, ?_, ?_, ?_⟩, ?_⟩
  · intro j k p q hj hk _ _
    rw [(period_soleAccounts hj.1).1, (period_soleAccounts hk.1).1]
  · intro j k p q hj hk _
    rw [(period_soleAccounts hj).1, (period_soleAccounts hk).1]
  · intro j p hj _
    rw [(period_soleAccounts hj.1).1]
    exact ⟨_, rfl, rfl⟩
  · intro r j hr hcurrent
    cases hr
    cases hcurrent
    exact ⟨_, rfl, UsagePeriodStatus.noConfusion⟩
  · intro j k p q hj _ hqueued _
    rw [(period_soleAccounts hj.1).2] at hqueued
    cases hqueued
  · intro j p hj hqueued
    rw [(period_soleAccounts hj.1).2] at hqueued
    cases hqueued
  · intro r hr hover
    cases hr
    obtain hover | hover := hover <;> cases hover

/-- Nothing fails. -/
def renewalScript (task : Task) (stops : Call → Bool) : (c : Call) → Option c.Choice
  | .applyRenewal _ _ => some (.ok ())
  | .commitOrder => some ⟨none, true⟩
  | c => sampleScript task stops c

def sampleRenewal : Task := .renewal ⟨2, some 1, .renewal⟩ 500

/-- A renewal that is paid in time is taken up at the end of the first period. -/
theorem paid_periods_fifo_sample : ∃ g, ReachableBy (timely 1) 1 24 g ∧
    (period g.shared.store 1).map UsagePeriod.status = some .active ∧ Fifo 1 g.shared := by
  have hstart : ReachableBy (timely 1) 1 24 (.start soleAccounts) := .start start_soleAccounts
  have hrenewed := (hstart.begun 0 rfl).played (renewalScript sampleRenewal nowhere)
    (Configuration.process_update_self _ 0 _ _) 12 ⟨⟨id, trivial⟩, ⟨id, trivial⟩, ⟨id, trivial⟩, trivial⟩
  have hrolled := (hrenewed.begun 1 rfl).played (renewalScript (.usageSync 2000) atPeriod)
    (Configuration.process_update_self _ 1 _ _) 12 ?_
  · exact ⟨_, hrolled, rfl, ((paid_periods_fifo 1 24).2 _ hrolled).1⟩
  · refine ⟨⟨id, trivial⟩, ⟨id, trivial⟩, ⟨id, trivial⟩, ⟨?_, ?_⟩, trivial⟩
    · rintro ⟨e, he, -⟩
      cases he
    · intro r hr
      cases hr
      refine ⟨fun hover => ?_, fun _ _ periodId p hcurrent hp => ?_⟩
      · obtain hover | hover := hover <;> cases hover
      · cases hcurrent
        cases hp
        exact ⟨fun _ _ => rfl, fun hopen => absurd (.inr (by decide)) hopen⟩

/-- A renewal that is paid in the grace period is not taken up: the subscription expires with the period queued. -/
theorem renewal_expired_over : ¬∀ g, ReachableBy (anyTime 1) 1 24 g → Fifo 1 g.shared ∧
    ∀ c ∈ g.shared.commits, c.kind = .synced → Graceful 1 c.after := by
  intro h
  have hstart : ReachableBy (anyTime 1) 1 24 (.start soleAccounts) := .start start_soleAccounts
  have hgrace := (hstart.begun 0 rfl).played (renewalScript (.usageSync 2000) atPeriod)
    (Configuration.process_update_self _ 0 _ _) 12 ⟨id, id, id, ?_, trivial⟩
  · have hrenewed := (hgrace.begun 1 rfl).played (renewalScript sampleRenewal nowhere)
      (Configuration.process_update_self _ 1 _ _) 12 ⟨id, id, id, trivial⟩
    have hexpired := (hrenewed.begun 2 rfl).played (renewalScript (.usageSync (2000 + hours 24)) atPeriod)
      (Configuration.process_update_self _ 2 _ _) 4 ⟨id, id, id, ?_, trivial⟩
    · have hgraceful := (h _ hexpired).2 _ List.mem_cons_self rfl _ rfl (.inr rfl) 1 _ ⟨rfl, rfl⟩
      exact hgraceful.1 rfl
    · rintro ⟨e, he, -⟩
      cases he
  · rintro ⟨e, he, -⟩
    cases he

end Runs

end Lingsway.PaidPeriods.Queue
