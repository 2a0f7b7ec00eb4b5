import Lingsway.Workers.ExpiryPolicy

/-!
# What SYNCED says of the provider

A row that is marked as synced has its quota and its expiry at the provider, as
long as every write to the provider is of the committed rows, and nothing
changes them behind a session that does not know of it.
-/
namespace Lingsway.PaidPeriods

open Library Program Workers

/-- What the provider is to hold for a subscription. -/
structure Terms where
  username : String
  user : ProviderUser
  deriving Repr, DecidableEq

section Terms

variable {subscriptionId : ℕ} {s t : UsageStore}

def quotaOf (s : UsageStore) (periodId : ℕ) : Option ℤ := (period s periodId).map UsagePeriod.quotaBytes

/-- The user, the quota of the current period and the expiry of the committed rows. -/
def terms (subscriptionId : ℕ) (s : UsageStore) : Option Terms := do
  let row ← row subscriptionId s
  let username ← row.accountingUserId
  let periodId ← row.currentPeriodId
  let quotaBytes ← quotaOf s periodId
  pure ⟨username, quotaBytes, row.serviceExpireAt⟩

/-- The columns of a row that the terms rest on. -/
def SameColumns (r r' : Subscription) : Prop :=
  r'.accountingUserId = r.accountingUserId ∧ r'.currentPeriodId = r.currentPeriodId ∧
    r'.serviceExpireAt = r.serviceExpireAt

theorem terms_congr (hrow : row subscriptionId t = row subscriptionId s) (hquota : ∀ j, quotaOf t j = quotaOf s j) :
    terms subscriptionId t = terms subscriptionId s := by
  simp only [terms, hrow, hquota]

theorem terms_map {change : Subscription → Subscription} (hchange : ∀ r, SameColumns r (change r))
    (hrow : row subscriptionId t = (row subscriptionId s).map change) (hquota : ∀ j, quotaOf t j = quotaOf s j) :
    terms subscriptionId t = terms subscriptionId s := by
  simp only [terms, hrow, hquota]
  cases row subscriptionId s with
  | none => rfl
  | some r =>
    obtain ⟨husername, hperiod, hexpire⟩ := hchange r
    simp only [Option.map_some, Option.bind_eq_bind, Option.bind_some, husername, hperiod, hexpire]

theorem terms_update {change : Subscription → Subscription} (hchange : ∀ r, SameColumns r (change r)) :
    terms subscriptionId (update subscriptionId s change) = terms subscriptionId s :=
  terms_map hchange (row_update subscriptionId s change) fun _ => rfl

theorem quotaOf_countUsage (current : Entity UsagePeriod) (usedBytes : ℤ) (now : Timestamp) (j : ℕ) :
    quotaOf (countUsage s subscriptionId current usedBytes now) j = quotaOf s j := by
  rw [quotaOf, period_countUsage, quotaOf]
  split_ifs
  · rw [Option.map_map]
    rfl
  · rfl

/-- The policy changes no quota. -/
theorem quotaOf_policy {subscription : Entity Subscription} {current : Entity UsagePeriod} {now : Timestamp}
    {gracePeriodHours : ℕ} {changes : List Write} {u : UsageStore}
    (h : Policy u subscription current now gracePeriodHours changes) (j : ℕ) :
    quotaOf (s.applyAll changes) j = quotaOf s j := by
  cases h with
  | rolled next _ _ _ =>
    simp only [quotaOf, period, rollOver, UsageStore.applyAll, Write.applyAll_cons, Write.applyAll_nil, Write.apply,
      Table.get_modify]
    split_ifs <;> simp [Option.map_map, Function.comp_def]
  | closed _ _ _ =>
    rw [applyAll_cons, quotaOf, period_enterGrace, period_close, quotaOf]
    split_ifs
    · rw [Option.map_map]
      rfl
    · rfl
  | lapsed _ _ _ => rw [quotaOf, period_enterGrace, quotaOf]
  | expired _ _ => rw [quotaOf, period_expire, quotaOf]
  | nothing _ => rw [applyAll_nil]

theorem next_policy {subscription : Entity Subscription} {current : Entity UsagePeriod} {now : Timestamp}
    {gracePeriodHours : ℕ} {changes : List Write} {u : UsageStore}
    (h : Policy u subscription current now gracePeriodHours changes) :
    (s.applyAll changes).database.usagePeriods.next = s.database.usagePeriods.next := by
  cases h <;> rfl

theorem assign_synced {loaded current : ReconcileState} (h : assign loaded .pending current = .synced) :
    loaded = .pending ∧ current = .synced := by
  unfold assign at h
  split_ifs at h with hloaded
  · exact ⟨hloaded.symm, h⟩

end Terms

section Syncs

variable {subscriptionId gracePeriodHours : ℕ} {s t : UsageStore} {loaded : Subscription} {usedBytes : ℤ}
variable {now : Timestamp} {periodId : ℕ} {before : UsagePeriod} {changes : List Write}

theorem Syncs.quotaOf (h : Syncs subscriptionId gracePeriodHours s loaded usedBytes now periodId before changes t) (j : ℕ) :
    quotaOf t j = quotaOf s j := by
  rw [h.after, quotaOf_policy h.policy, quotaOf_countUsage]

theorem Syncs.next (h : Syncs subscriptionId gracePeriodHours s loaded usedBytes now periodId before changes t) :
    t.database.usagePeriods.next = s.database.usagePeriods.next := by
  rw [h.after, next_policy h.policy]
  rfl

/-- A usage transaction leaves a row synced only if it was, and then the terms have changed only
if its session had the row as pending. -/
theorem Syncs.synced (h : Syncs subscriptionId gracePeriodHours s loaded usedBytes now periodId before changes t)
    {r : Subscription} (hrow : row subscriptionId t = some r) (hsynced : r.reconcileState = .synced) :
    ∃ old, row subscriptionId s = some old ∧ old.reconcileState = .synced ∧
      (loaded.reconcileState = .pending ∨ terms subscriptionId t = terms subscriptionId s) := by
  have hquota := h.quotaOf
  rw [h.after] at hrow hquota ⊢
  cases h.policy with
  | rolled next _ _ _ =>
    rw [row_rollOver, row_countUsage] at hrow
    obtain ⟨old, hold, rfl⟩ := Option.map_eq_some_iff.mp hrow
    obtain ⟨hpending, hstate⟩ := assign_synced hsynced
    exact ⟨old, hold, hstate, .inl hpending⟩
  | closed _ _ _ =>
    rw [applyAll_cons, row_enterGrace, row_close, row_countUsage] at hrow
    obtain ⟨old, hold, rfl⟩ := Option.map_eq_some_iff.mp hrow
    obtain ⟨hpending, hstate⟩ := assign_synced hsynced
    exact ⟨old, hold, hstate, .inl hpending⟩
  | lapsed _ _ _ =>
    rw [row_enterGrace, row_countUsage] at hrow
    obtain ⟨old, hold, rfl⟩ := Option.map_eq_some_iff.mp hrow
    obtain ⟨hpending, hstate⟩ := assign_synced hsynced
    exact ⟨old, hold, hstate, .inl hpending⟩
  | expired _ _ =>
    have hexpired : row subscriptionId ((countUsage s subscriptionId ⟨periodId, before⟩ usedBytes now).applyAll
        [expire ⟨subscriptionId, loaded⟩]) = (row subscriptionId s).map fun r => { r with status := .expired } := by
      rw [row_expire, row_countUsage]
    have hcolumns : ∀ r : Subscription, SameColumns r { r with status := .expired } := fun _ => ⟨rfl, rfl, rfl⟩
    have hterms := terms_map hcolumns hexpired hquota
    rw [hexpired] at hrow
    obtain ⟨old, hold, rfl⟩ := Option.map_eq_some_iff.mp hrow
    exact ⟨old, hold, hsynced, .inr hterms⟩
  | nothing _ => exact ⟨r, hrow, hsynced, .inr (terms_congr rfl hquota)⟩

end Syncs

section Contract

variable {subscriptionId gracePeriodHours i : ℕ} {s t u : Accounts} {l : Session} {w w' : State}

/-- A row that is synced is so at the provider. -/
def Truthful (subscriptionId : ℕ) (w : Accounts) : Prop :=
  ∀ r, row subscriptionId w.store = some r → r.reconcileState = .synced →
    ∃ held, terms subscriptionId w.store = some held ∧ w.users held.username = held.user

/-- A renewal that is not committed has an identifier of its own for its period. -/
structure Reserved (w : Accounts) : Prop where
  absent : ∀ e ∈ w.pendingInserts, period w.store e.periodId = none
  below : ∀ e ∈ w.pendingInserts, e.periodId < w.store.database.usagePeriods.next
  distinct : w.pendingInserts.Pairwise fun e f => e.periodId ≠ f.periodId
  writes : ∀ e ∈ w.pendingInserts, ∃ p orderId change,
    e.writes = [.insertUsagePeriod e.periodId p, .updateOrder orderId change]

/-- The provider still has what it is to hold. -/
def Preserves (subscriptionId : ℕ) (s t : Accounts) : Prop :=
  ∀ held, terms subscriptionId s.store = some held →
    ((s.users held.username).quotaBytes = held.user.quotaBytes → (t.users held.username).quotaBytes = held.user.quotaBytes) ∧
    ((s.users held.username).expireAt = held.user.expireAt → (t.users held.username).expireAt = held.user.expireAt)

theorem Preserves.of_eq (h : t.users = s.users) : Preserves subscriptionId s t := by
  intro held _
  rw [h]
  exact ⟨id, id⟩

/-- What a step of a worker does: it commits, or it writes what is committed to the provider. -/
inductive Guarantee (subscriptionId : ℕ) (s t : Accounts) : Prop
  | quiet (hcommits : t.commits = s.commits) (hterms : terms subscriptionId t.store = terms subscriptionId s.store)
      (husers : Preserves subscriptionId s t)
  | committed (kind : CommitKind) (hcommits : t.commits = ⟨kind, s.store, t.store⟩ :: s.commits)
      (husers : t.users = s.users)

theorem Guarantee.refl (s : Accounts) : Guarantee subscriptionId s s := .quiet rfl rfl (.of_eq rfl)

/-- No commit since the session last sent a quota has changed the terms. -/
def Unchanged (subscriptionId : ℕ) (w : State) : Prop :=
  ∀ c ∈ w.1.commits.take (w.1.commits.length - w.2.sent), terms subscriptionId c.before = terms subscriptionId c.after

/-- What the session has sent is at the provider, as far as `P` says, unless the terms have changed. -/
structure Sent (subscriptionId : ℕ) (P : ProviderUser → ProviderUser → Prop) (w : State) : Prop where
  bound : w.2.sent ≤ w.1.commits.length
  held : Unchanged subscriptionId w → ∃ held, terms subscriptionId w.1.store = some held ∧ P (w.1.users held.username) held.user

def SameQuota (user held : ProviderUser) : Prop := user.quotaBytes = held.quotaBytes

/-- What the other workers do leaves it at the provider. -/
theorem Sent.guarantee {P : ProviderUser → ProviderUser → Prop}
    (hP : ∀ held, terms subscriptionId s.store = some held → Preserves subscriptionId s t → P (s.users held.username) held.user →
      P (t.users held.username) held.user)
    (h : Sent subscriptionId P (s, l)) (hguarantee : Guarantee subscriptionId s t) : Sent subscriptionId P (t, l) := by
  have hbound := h.bound
  cases hguarantee with
  | quiet hcommits hterms husers =>
    refine ⟨by rw [hcommits]; exact hbound, fun hunchanged => ?_⟩
    have hsame : Unchanged subscriptionId (s, l) := by
      intro c hc
      refine hunchanged c ?_
      dsimp only
      rw [hcommits]
      exact hc
    obtain ⟨held, hheld, huser⟩ := h.held hsame
    exact ⟨held, hterms.trans hheld, hP held hheld husers huser⟩
  | committed kind hcommits husers =>
    refine ⟨by rw [hcommits]; exact hbound.trans (Nat.le_succ _), fun hunchanged => ?_⟩
    have hlength : t.commits.length - l.sent = (s.commits.length - l.sent) + 1 := by
      rw [hcommits, List.length_cons]
      dsimp only at hbound
      omega
    have htake : t.commits.take (t.commits.length - l.sent) =
        ⟨kind, s.store, t.store⟩ :: s.commits.take (s.commits.length - l.sent) := by
      rw [hlength, hcommits, List.take_succ_cons]
    have hnew : terms subscriptionId s.store = terms subscriptionId t.store :=
      hunchanged ⟨kind, s.store, t.store⟩ (by rw [htake]; exact List.mem_cons_self)
    have hsame : Unchanged subscriptionId (s, l) := by
      intro c hc
      refine hunchanged c ?_
      rw [htake]
      exact List.mem_cons_of_mem _ hc
    obtain ⟨held, hheld, huser⟩ := h.held hsame
    exact ⟨held, hnew.symm.trans hheld, hP held hheld (.of_eq husers) huser⟩

structure Invariant (subscriptionId : ℕ) (w : Accounts) : Prop where
  truthful : Truthful subscriptionId w
  reserved : Reserved w

def contract (subscriptionId : ℕ) : Contract calls Exn Accounts Session where
  guarantee _ := Guarantee subscriptionId
  invariant := Invariant subscriptionId
  absent _ _ := True
  kept _ _ := True
  safe _ _ _ _ _ := True

/-- A write to the provider is of what is committed. A row is marked as synced when nothing has changed
since its quota was sent. A usage transaction whose session has the row as pending changes
nothing of a row that has been synced since. -/
def Prompt (subscriptionId : ℕ) (c : Call) (w w' : State) : Prop :=
  match c with
  | .setQuota username quotaBytes => ∃ held, terms subscriptionId w.1.store = some held ∧ held.username = username ∧
      held.user.quotaBytes = quotaBytes
  | .setExpire username expireAt => ∃ held, terms subscriptionId w.1.store = some held ∧ held.username = username ∧
      held.user.expireAt = expireAt
  | .markSynced => Unchanged subscriptionId w
  | .syncTransaction loaded _ _ => loaded.reconcileState = .pending →
      (∃ r, row subscriptionId w.1.store = some r ∧ r.reconcileState = .synced) →
      terms subscriptionId w'.1.store = terms subscriptionId w.1.store
  | _ => True

def prompt (subscriptionId : ℕ) : Conduct calls Exn Accounts Session where
  call := fun _ c w _ w' => ¬waits subscriptionId c w.1 ∧ Prompt subscriptionId c w w'
  crash := fun _ _ => True

abbrev among (subscriptionId gracePeriodHours i : ℕ) : Handler calls Exn State :=
  (contract subscriptionId).handler (agents subscriptionId gracePeriodHours) (prompt subscriptionId) i

theorem sent_quota_stable : (contract subscriptionId).Stable i (Sent subscriptionId SameQuota) :=
  fun _ _ _ _ _ hguarantee _ h => h.guarantee (fun held hheld hpreserves hquota => (hpreserves held hheld).1 hquota) hguarantee

theorem sent_stable : (contract subscriptionId).Stable i (Sent subscriptionId Eq) := by
  intro j s t l _ hguarantee _ h
  refine h.guarantee (fun held hheld hpreserves huser => ?_) hguarantee
  obtain ⟨hquota, hexpire⟩ := hpreserves held hheld
  have hquota' := hquota (congrArg ProviderUser.quotaBytes huser)
  have hexpire' := hexpire (congrArg ProviderUser.expireAt huser)
  cases hafter : t.users held.username
  rw [hafter] at hquota' hexpire'
  cases hheldUser : held.user
  rw [hheldUser] at hquota' hexpire'
  simp_all

/-- The calls that mark no row as synced. -/
def Call.Plain : Call → Prop
  | .markSynced => False
  | .markFailed state _ => state ≠ .synced
  | _ => True

theorem fine_same {c : Call} {x : Except Exn c.Answer} {l' : Session} (h : Invariant subscriptionId s) :
    (contract subscriptionId).Fine i c (s, l) x (s, l') := ⟨.refl s, h, trivial, trivial⟩

theorem Reserved.of_periods (h : Reserved s) (hpending : t.pendingInserts = s.pendingInserts)
    (hperiod : ∀ j, period s.store j = none → period t.store j = none)
    (hnext : t.store.database.usagePeriods.next = s.store.database.usagePeriods.next) : Reserved t := by
  refine ⟨?_, ?_, ?_, ?_⟩
  · rw [hpending]
    exact fun e he => hperiod _ (h.absent e he)
  · rw [hpending, hnext]
    exact h.below
  · rw [hpending]
    exact h.distinct
  · rw [hpending]
    exact h.writes

/-- A commit of the row that keeps its terms and does not mark it as synced. -/
theorem fine_write {c : Call} {x : Except Exn c.Answer} {ending : Ending} {change : Subscription → Subscription} {l' : Session}
    (hcolumns : ∀ r, SameColumns r (change r)) (hstate : ∀ r, (change r).reconcileState = .synced → r.reconcileState = .synced)
    (h : Invariant subscriptionId s) :
    (contract subscriptionId).Fine i c (s, l) x ((write subscriptionId s ending change).2, l') := by
  unfold write
  split_ifs
  · refine ⟨.committed .reconciled rfl rfl, ⟨fun r hrow hsynced => ?_, ?_⟩, trivial, trivial⟩
    · rw [Accounts.store_commit, row_update] at hrow
      obtain ⟨old, hold, rfl⟩ := Option.map_eq_some_iff.mp hrow
      obtain ⟨held, hheld, huser⟩ := h.truthful old hold (hstate old hsynced)
      exact ⟨held, (terms_update hcolumns).trans hheld, huser⟩
    · exact h.reserved.of_periods rfl (fun _ hnone => hnone) rfl
  · exact fine_same h

theorem assign_of_ne {old state current : ReconcileState} (hne : state ≠ .synced) (h : assign old state current = .synced) :
    current = .synced := by
  unfold assign at h
  split_ifs at h
  · exact h
  · exact absurd h hne

/-- A mark of another state. -/
theorem fine_writeState {c : Call} {x : Except Exn c.Answer} {loaded : UsageStore} {state : ReconcileState}
    {change : Subscription → Subscription} {ending : Ending} {l' : Session} (hne : state ≠ .synced)
    (hcolumns : ∀ r, SameColumns r (change r)) (hstate : ∀ r, (change r).reconcileState = r.reconcileState)
    (h : Invariant subscriptionId s) :
    (contract subscriptionId).Fine i c (s, l) x ((writeState subscriptionId s loaded state change ending).2, l') := by
  refine fine_write (fun r => ?_) (fun r hsynced => ?_) h
  · exact ⟨(hcolumns _).1, (hcolumns _).2.1, (hcolumns _).2.2⟩
  · rw [hstate] at hsynced
    cases hloaded : row subscriptionId loaded with
    | none =>
      simp only [hloaded] at hsynced
      exact hsynced
    | some old =>
      simp only [hloaded] at hsynced
      exact assign_of_ne hne hsynced

/-- A usage transaction that changes no terms behind a session that has the row as pending. -/
theorem fine_sync {c : Call} {x : Except Exn c.Answer} {loaded : Subscription} {usedBytes : ℤ} {now : Timestamp}
    {ending : Ending} {l' : Session} (h : Invariant subscriptionId s)
    (hprompt : loaded.reconcileState = .pending →
      (∃ r, row subscriptionId s.store = some r ∧ r.reconcileState = .synced) →
      terms subscriptionId (sync subscriptionId gracePeriodHours s loaded usedBytes now ending).2.store =
        terms subscriptionId s.store) :
    (contract subscriptionId).Fine i c (s, l) x
      ((sync subscriptionId gracePeriodHours s loaded usedBytes now ending).2, l') := by
  obtain ⟨hsame, -⟩ | ⟨periodId, before, changes, t, hsyncs, hcommit, -⟩ := sync_cases
    (Prod.mk.eta (p := sync subscriptionId gracePeriodHours s loaded usedBytes now ending)).symm
  · rw [hsame]
    exact fine_same h
  · rw [hcommit] at hprompt ⊢
    refine ⟨.committed .synced rfl rfl, ⟨fun r hrow hsynced => ?_, ?_⟩, trivial, trivial⟩
    · obtain ⟨old, hold, hstate, hterms⟩ := hsyncs.synced hrow hsynced
      obtain ⟨held, hheld, huser⟩ := h.truthful old hold hstate
      have hsame : terms subscriptionId t = terms subscriptionId s.store := by
        obtain hpending | hsame := hterms
        · exact hprompt hpending ⟨old, hold, hstate⟩
        · exact hsame
      exact ⟨held, hsame.trans hheld, huser⟩
    · refine h.reserved.of_periods rfl (fun j hnone => ?_) hsyncs.next
      have hquota := hsyncs.quotaOf j
      rw [quotaOf, quotaOf, hnone, Option.map_none, Option.map_eq_none_iff] at hquota
      exact hquota

/-- A write to the provider that is of what is committed. -/
theorem fine_setUser {c : Call} {x : Except Exn c.Answer} {change : ProviderUser → ProviderUser} {l' : Session} {held : Terms}
    (hheld : terms subscriptionId s.store = some held)
    (hchange : ∀ u, (u.quotaBytes = held.user.quotaBytes → (change u).quotaBytes = held.user.quotaBytes) ∧
      (u.expireAt = held.user.expireAt → (change u).expireAt = held.user.expireAt))
    (h : Invariant subscriptionId s) :
    (contract subscriptionId).Fine i c (s, l) x (s.setUser held.username change, l') := by
  have hself : (s.setUser held.username change).users held.username = change (s.users held.username) := if_pos rfl
  refine ⟨.quiet rfl rfl ?_, ⟨fun r hrow hsynced => ?_, ⟨?_, ?_, ?_, ?_⟩⟩, trivial, trivial⟩
  · intro held' hheld'
    rw [hheld] at hheld'
    cases hheld'
    rw [hself]
    exact hchange _
  · obtain ⟨held', hheld', huser⟩ := h.truthful r hrow hsynced
    rw [hheld] at hheld'
    cases hheld'
    refine ⟨held, hheld, ?_⟩
    obtain ⟨hquota, hexpire⟩ := hchange (s.users held.username)
    have hquota' := hquota (congrArg ProviderUser.quotaBytes huser)
    have hexpire' := hexpire (congrArg ProviderUser.expireAt huser)
    rw [hself]
    cases hafter : change (s.users held.username)
    rw [hafter] at hquota' hexpire'
    cases hheldUser : held.user
    rw [hheldUser] at hquota' hexpire'
    simp_all
  · exact h.reserved.absent
  · exact h.reserved.below
  · exact h.reserved.distinct
  · exact h.reserved.writes

theorem enqueue_changes {view : Database} {now : Timestamp} {command : BillingCommand}
    (h : (Api.enqueueSubscription view now command).result = .ok ()) :
    ∃ p orderId change, (Api.enqueueSubscription view now command).changes =
      [.insertUsagePeriod view.usagePeriods.next p, .updateOrder orderId change] := by
  unfold Api.enqueueSubscription at h ⊢
  split at h
  · cases h
  · split at h
    · cases h
    · split at h
      · cases h
      · split_ifs at h ⊢
        · cases h
        · exact ⟨_, _, _, rfl⟩

/-- A renewal takes an identifier that is not used. -/
theorem Reserved.joined (h : Reserved s) {e : PendingInsert} (hid : e.periodId = s.store.database.usagePeriods.next)
    (hwrites : ∃ p orderId change, e.writes = [.insertUsagePeriod e.periodId p, .updateOrder orderId change]) :
    Reserved { s with
      store := { s.store with database := { s.store.database with
        usagePeriods := s.store.database.usagePeriods.reserve } }
      pendingInserts := e :: s.pendingInserts } := by
  refine ⟨?_, ?_, ?_, ?_⟩
  · refine List.forall_mem_cons.mpr ⟨?_, h.absent⟩
    exact s.store.database.usagePeriods.unused _ hid.ge
  · refine List.forall_mem_cons.mpr ⟨hid.trans_lt (Nat.lt_succ_self _), fun f hf => ?_⟩
    exact (h.below f hf).trans (Nat.lt_succ_self _)
  · refine List.pairwise_cons.mpr ⟨fun f hf => ?_, h.distinct⟩
    rw [hid]
    exact (h.below f hf).ne'
  · exact List.forall_mem_cons.mpr ⟨hwrites, h.writes⟩

theorem fine_applyRenewal {c : Call} {x : Except Exn c.Answer} {command : BillingCommand} {now : Timestamp} {l' : Session}
    (h : Invariant subscriptionId s) :
    (contract subscriptionId).Fine i c (s, l) x ((applyRenewal i s command now).2, l') := by
  unfold applyRenewal
  dsimp only
  split
  · rename_i enqueued hresult hcommand
    refine ⟨.quiet rfl (terms_congr rfl fun _ => rfl) (.of_eq rfl), ⟨fun r hrow hsynced => ?_, ?_⟩, trivial, trivial⟩
    · exact h.truthful r hrow hsynced
    · exact h.reserved.joined rfl (enqueue_changes hresult)
  · exact fine_same h
  · exact fine_same h

theorem Reserved.abort (h : Reserved s) : Reserved (s.abort i) where
  absent e he := h.absent e (List.mem_of_mem_filter he)
  below e he := h.below e (List.mem_of_mem_filter he)
  distinct := h.distinct.filter _
  writes e he := h.writes e (List.mem_of_mem_filter he)

/-- The terms rest on a period that is there, which no renewal inserts. -/
theorem terms_insert {store : UsageStore} {id : ℕ} {p : UsagePeriod} {orderId : ℕ} {change : Order → Order} {held : Terms}
    (habsent : period store id = none) (hheld : terms subscriptionId store = some held) :
    terms subscriptionId (store.applyAll [.insertUsagePeriod id p, .updateOrder orderId change]) = some held := by
  have hquota : ∀ j q, quotaOf store j = some q →
      quotaOf (store.applyAll [.insertUsagePeriod id p, .updateOrder orderId change]) j = some q := by
    intro j q hq
    have hne : j ≠ id := by
      rintro rfl
      rw [quotaOf, habsent] at hq
      cases hq
    have hperiod : period (store.applyAll [.insertUsagePeriod id p, .updateOrder orderId change]) j = period store j :=
      if_neg hne
    rw [quotaOf, hperiod]
    exact hq
  unfold terms at hheld ⊢
  obtain ⟨r, hrow, hheld⟩ := Option.bind_eq_some_iff.mp hheld
  obtain ⟨username, husername, hheld⟩ := Option.bind_eq_some_iff.mp hheld
  obtain ⟨j, hj, hheld⟩ := Option.bind_eq_some_iff.mp hheld
  obtain ⟨q, hq, hheld⟩ := Option.bind_eq_some_iff.mp hheld
  exact Option.bind_eq_some_iff.mpr ⟨r, hrow, Option.bind_eq_some_iff.mpr ⟨username, husername,
    Option.bind_eq_some_iff.mpr ⟨j, hj, Option.bind_eq_some_iff.mpr ⟨q, hquota j q hq, hheld⟩⟩⟩⟩

theorem fine_abort {c : Call} {x : Except Exn c.Answer} {l' : Session} (h : Invariant subscriptionId s) :
    (contract subscriptionId).Fine i c (s, l) x (s.abort i, l') :=
  ⟨.quiet rfl rfl (.of_eq rfl), ⟨h.truthful, h.reserved.abort⟩, trivial, trivial⟩

/-- The other renewals that are not committed. -/
theorem Reserved.others (h : Reserved s) {pending : PendingInsert}
    (hfind : (s.pendingInserts.find? fun e => e.process = i) = some pending) :
    ∀ e ∈ s.pendingInserts.filter fun e => e.process ≠ i, e ∈ s.pendingInserts ∧ e.periodId ≠ pending.periodId := by
  have hmem := List.mem_of_find?_eq_some hfind
  have hprocess : pending.process = i := by simpa using List.find?_some hfind
  intro e he
  obtain ⟨he, hne⟩ := List.mem_filter.mp he
  refine ⟨he, fun heq => ?_⟩
  have hnodup : (s.pendingInserts.map PendingInsert.periodId).Nodup := List.pairwise_map.mpr h.distinct
  have hsame := List.inj_on_of_nodup_map hnodup he hmem heq
  simp [hsame, hprocess] at hne

theorem Reserved.ordered (h : Reserved s) {pending : PendingInsert}
    (hfind : (s.pendingInserts.find? fun e => e.process = i) = some pending) :
    Reserved ((s.commit .ordered (s.store.applyAll pending.writes)).abort i) := by
  obtain ⟨p, orderId, change, hwrites⟩ := h.writes pending (List.mem_of_find?_eq_some hfind)
  rw [hwrites]
  have hother := h.others hfind
  refine ⟨?_, ?_, h.distinct.filter _, ?_⟩
  · intro e he
    obtain ⟨he, hne⟩ := hother e he
    exact (if_neg hne).trans (h.absent e he)
  · intro e he
    exact (h.below e (hother e he).1).trans_le (Nat.le_max_left _ _)
  · intro e he
    exact h.writes e (hother e he).1

/-- A renewal that is committed adds a period that no terms rest on. -/
theorem fine_commitOrder {c : Call} {x : Except Exn c.Answer} {ending : Ending} {l' : Session} (h : Invariant subscriptionId s) :
    (contract subscriptionId).Fine i c (s, l) x ((commitOrder i s ending).2, l') := by
  unfold commitOrder
  cases hfind : s.pendingInserts.find? fun e => e.process = i with
  | none => exact fine_same h
  | some pending =>
    dsimp only
    split_ifs with hkeys htakes
    · have hmem := List.mem_of_find?_eq_some hfind
      refine ⟨.committed .ordered rfl rfl, ⟨fun r hrow hsynced => ?_, h.reserved.ordered hfind⟩, trivial, trivial⟩
      have habsent := h.reserved.absent pending hmem
      obtain ⟨p, orderId, change, hwrites⟩ := h.reserved.writes pending hmem
      rw [hwrites] at hrow ⊢
      obtain ⟨held, hheld, huser⟩ := h.truthful r hrow hsynced
      exact ⟨held, terms_insert habsent hheld, huser⟩
    · exact fine_abort h
    · exact fine_abort h

/-- Every such call is fine as it comes. -/
theorem fine_plain {c : Call} {choice : c.Choice} {x : Except Exn c.Answer} (hplain : c.Plain)
    (h : Invariant subscriptionId w.1) (hact : (agents subscriptionId gracePeriodHours).act i c choice w = (x, w'))
    (hprompt : Prompt subscriptionId c w w') : (contract subscriptionId).Fine i c w x w' := by
  obtain ⟨s, l⟩ := w
  have hw' : (act subscriptionId gracePeriodHours i c choice (s, l)).2 = w' := congrArg Prod.snd hact
  subst hw'
  cases c with
  | markSynced => cases hplain
  | task => exact fine_same h
  | getUsage username => exact fine_same h
  | rollback => exact fine_same h
  | getSubscription =>
    cases choice with
    | ok k => exact fine_same h
    | error e => exact fine_same h
  | getPeriod periodId =>
    cases choice with
    | ok k => exact fine_same h
    | error e => exact fine_same h
  | syncTransaction loaded usedBytes now => exact fine_sync h hprompt
  | markPending loaded =>
    exact fine_write (fun r => ⟨rfl, rfl, rfl⟩) (fun r hsynced => (assign_synced hsynced).2) h
  | setQuota username quotaBytes =>
    obtain ⟨held, hheld, rfl, rfl⟩ := hprompt
    simp only [act]
    split_ifs
    · exact fine_setUser hheld (fun u => ⟨fun _ => rfl, id⟩) h
    · exact fine_same h
  | setExpire username expireAt =>
    obtain ⟨held, hheld, rfl, rfl⟩ := hprompt
    simp only [act]
    split_ifs
    · exact fine_setUser hheld (fun u => ⟨id, fun _ => rfl⟩) h
    · exact fine_same h
  | markMissing detail => exact fine_writeState (by decide) (fun r => ⟨rfl, rfl, rfl⟩) (fun r => rfl) h
  | markFailed state error =>
    refine fine_writeState hplain (fun r => ?_) (fun r => ?_) h
    · cases error <;> exact ⟨rfl, rfl, rfl⟩
    · cases error <;> rfl
  | applyRenewal command now =>
    cases choice with
    | ok k => exact fine_applyRenewal h
    | error e => exact fine_same h
  | commitOrder => exact fine_commitOrder h

theorem keeps_plain {α : Type} {p : Work α} (hp : p.Calls Call.Plain) :
    Keeps (among subscriptionId gracePeriodHours i) (fun _ => True) p := by
  refine Contract.keeps_of_fine hp fun c w choice x w' hplain hinvariant _ hact hallowed => ?_
  exact fine_plain hplain hinvariant hact hallowed.2

end Contract

section Programs

variable {subscriptionId gracePeriodHours i : ℕ} {s : Accounts} {l : Session} {w : State}

theorem Ending.effective_of_answer {ending : Ending} {a : Unit} (h : ending.answer = .ok a) : ending.effective = true := by
  obtain ⟨raises, takes⟩ := ending
  cases raises with
  | none => rfl
  | some exc => cases h

theorem sent_setQuota {username : String} {quotaBytes : ℤ} {ending : Ending} {a : Unit}
    (hprompt : ∃ held, terms subscriptionId s.store = some held ∧ held.username = username ∧
      held.user.quotaBytes = quotaBytes) (hok : ending.answer = .ok a) :
    Sent subscriptionId SameQuota
      (act subscriptionId gracePeriodHours i (.setQuota username quotaBytes) ending (s, l)).2 := by
  obtain ⟨held, hheld, rfl, rfl⟩ := hprompt
  simp only [act, Ending.effective_of_answer hok, if_true]
  exact ⟨le_rfl, fun _ => ⟨held, hheld, by simp [Accounts.setUser, SameQuota]⟩⟩

theorem sent_setExpire {username : String} {expireAt : Timestamp} {ending : Ending} {a : Unit}
    (h : Sent subscriptionId SameQuota (s, l))
    (hprompt : ∃ held, terms subscriptionId s.store = some held ∧ held.username = username ∧
      held.user.expireAt = expireAt) (hok : ending.answer = .ok a) :
    Sent subscriptionId Eq (act subscriptionId gracePeriodHours i (.setExpire username expireAt) ending (s, l)).2 := by
  obtain ⟨held, hheld, rfl, rfl⟩ := hprompt
  simp only [act, Ending.effective_of_answer hok, if_true]
  refine ⟨h.bound, fun hunchanged => ⟨held, hheld, ?_⟩⟩
  obtain ⟨held', hheld', hquota⟩ := h.held hunchanged
  have hsame : held' = held := Option.some.inj (hheld'.symm.trans hheld)
  subst hsame
  simp only [Accounts.setUser, if_true]
  exact congrArg (fun q => (⟨q, held'.user.expireAt⟩ : ProviderUser)) hquota

/-- A row may be marked as synced while the provider has what it is to hold. -/
theorem Invariant.marked {held : Terms} {ending : Ending} (h : Invariant subscriptionId s)
    (hheld : terms subscriptionId s.store = some held) (huser : s.users held.username = held.user) :
    Invariant subscriptionId (write subscriptionId s ending fun r => { r with reconcileState := .synced }).2 := by
  unfold write
  split_ifs
  · have hterms : terms subscriptionId (update subscriptionId s.store fun r => { r with reconcileState := .synced }) =
        terms subscriptionId s.store := terms_update fun _ => ⟨rfl, rfl, rfl⟩
    exact ⟨fun r _ _ => ⟨held, hterms.trans hheld, huser⟩, h.reserved.of_periods rfl (fun _ hnone => hnone) rfl⟩
  · exact h

/-- A row is marked as synced while what was sent for it is at the provider. -/
theorem fine_markSynced {x : Except Exn Unit} {ending : Ending} (h : Invariant subscriptionId s)
    (hsent : Sent subscriptionId Eq (s, l)) (hunchanged : Unchanged subscriptionId (s, l)) :
    (contract subscriptionId).Fine i .markSynced (s, l) x
      (act subscriptionId gracePeriodHours i .markSynced ending (s, l)).2 := by
  obtain ⟨held, hheld, huser⟩ := hsent.held hunchanged
  refine ⟨?_, h.marked hheld huser, trivial, trivial⟩
  simp only [act, write]
  split_ifs
  · exact .committed .reconciled rfl rfl
  · exact .refl s

theorem overwriteProvider_wp (username : String) (quotaBytes : ℤ) (expireAt : Timestamp) (w : State) :
    (overwriteProvider username quotaBytes expireAt).wp (among subscriptionId gracePeriodHours i)
      (fun r w => ∀ a, r = .ok a → Sent subscriptionId Eq w) w := by
  rw [overwriteProvider]
  refine Keeps.wp_bind (keeps_plain (p := work (.getUsage username)) (Calls.perform trivial)).attempt
    (fun e t _ a h => by cases h) ?_ trivial
  rintro (exc | _) t -
  · refine Keeps.wp_bind (keeps_plain (p := work (.markMissing _)) (Calls.perform trivial))
      (fun e t _ a h => by cases h) ?_ trivial
    intro _ _ _ a h
    cases h
  · rw [wp_bind]
    refine Contract.perform_wp (P := fun _ => True) (fun _ _ _ _ _ _ _ h => h) ?_ trivial
    rintro s l ending x w' hinvariant - - hact hallowed
    refine ⟨fine_plain trivial hinvariant hact hallowed.2, ?_⟩
    have hx : ending.answer = x := congrArg Prod.fst hact
    have hw' : (act subscriptionId gracePeriodHours i (.setQuota username quotaBytes) ending (s, l)).2 = w' :=
      congrArg Prod.snd hact
    cases x with
    | error e =>
      intro a h
      cases h
    | ok _ =>
      have hsent := @sent_setQuota subscriptionId gracePeriodHours i s l _ _ _ _ hallowed.2 hx
      rw [hw'] at hsent
      rw [bindPost_ok]
      refine Contract.perform_wp sent_quota_stable ?_ hsent
      rintro s l ending x w' hinvariant - hsent hact hallowed
      refine ⟨fine_plain trivial hinvariant hact hallowed.2, fun a hok => ?_⟩
      have hx : ending.answer = x := congrArg Prod.fst hact
      have hw' : (act subscriptionId gracePeriodHours i (.setExpire username expireAt) ending (s, l)).2 = w' :=
        congrArg Prod.snd hact
      rw [← hw']
      exact sent_setExpire hsent hallowed.2 (hx.trans hok)

theorem keeps_reconcileSubscription (row : Subscription) (pendingManualOnFailure : Bool) :
    Keeps (among subscriptionId gracePeriodHours i) (fun _ => True) (reconcileSubscription row pendingManualOnFailure) := by
  unfold reconcileSubscription
  split
  · refine .ite (.raise _) (.bind (keeps_plain (Calls.perform trivial)) fun found => ?_)
    cases found with
    | none => exact .raise _
    | some period =>
      refine .bind (keeps_plain (Calls.perform trivial)) fun _ => ?_
      intro w _
      rw [wp_bind, wp_attempt]
      refine wp_mono _ _ ?_ (overwriteProvider_wp _ period.quotaBytes row.serviceExpireAt w)
      rintro (exc | _) t hsent
      · cases pendingManualOnFailure with
        | true =>
          have hmark : Call.Plain (.markFailed .pendingManual (some exc.message)) := ReconcileState.noConfusion
          exact Keeps.bind (keeps_plain (p := work _) (Calls.perform hmark)) (fun _ => .raise exc) t trivial
        | false =>
          have hmark : Call.Plain (.markFailed .pending none) := ReconcileState.noConfusion
          exact Keeps.bind (keeps_plain (p := work _) (Calls.perform hmark)) (fun _ => .raise exc) t trivial
      · refine Contract.perform_wp sent_stable ?_ (hsent () rfl)
        rintro s l ending x w' hinvariant - hsent hact hallowed
        have hw' : (act subscriptionId gracePeriodHours i .markSynced ending (s, l)).2 = w' := congrArg Prod.snd hact
        rw [← hw']
        exact ⟨fine_markSynced hinvariant hsent hallowed.2, trivial⟩
  · exact .raise _

theorem keeps_syncUsage (now : Timestamp) :
    Keeps (among subscriptionId gracePeriodHours i) (fun _ => True) (syncUsage now) := by
  refine .bind (keeps_plain (Calls.perform trivial)) fun found => ?_
  cases found with
  | none => exact .raise _
  | some subscription =>
    refine .ite (.raise _) (.bind (keeps_plain (Calls.perform trivial)) fun usedBytes => ?_)
    refine .bind (keeps_plain (Calls.perform trivial)) fun outcome => ?_
    refine .ite ?_ (.ret ())
    exact (keeps_reconcileSubscription _ _).tryCatch fun _ => keeps_plain (Calls.perform trivial)

theorem keeps_runPendingReconcile :
    Keeps (among subscriptionId gracePeriodHours i) (fun _ => True) runPendingReconcile := by
  refine .bind (keeps_plain (Calls.perform trivial)) fun found => ?_
  cases found with
  | none => exact .ret ()
  | some subscription => exact .ite ((keeps_reconcileSubscription _ _).tryCatch fun _ => .ret ()) (.ret ())

theorem keeps_worker : Keeps (among subscriptionId gracePeriodHours i) (fun _ => True) worker := by
  refine .bind (keeps_plain (Calls.perform trivial)) fun task => ?_
  cases task with
  | usageSync now => exact keeps_syncUsage now
  | pendingReconcile => exact keeps_runPendingReconcile
  | renewal command now =>
    exact .bind (keeps_plain (Calls.perform trivial)) fun _ => keeps_plain (Calls.perform trivial)

end Programs

section Runs

variable {subscriptionId gracePeriodHours : ℕ}

abbrev Workers := Configuration calls Exn Unit Accounts Session

/-- Nothing is in progress. A row that is synced is so at the provider. -/
def Start (subscriptionId : ℕ) (w : Accounts) : Prop := w.pendingInserts = [] ∧ Truthful subscriptionId w

abbrev ReachableBy (K : Conduct calls Exn Accounts Session) (subscriptionId gracePeriodHours : ℕ) (g : Workers) : Prop :=
  Agents.Reachable (agents subscriptionId gracePeriodHours) K worker fresh (Start subscriptionId) g

theorem sound : (contract subscriptionId).Sound (agents subscriptionId gracePeriodHours) (prompt subscriptionId) worker
    fresh fun _ _ _ => True where
  kept_stable _ _ _ _ _ _ _ _ _ := trivial
  ended_stable _ _ _ _ _ _ _ _ _ _ := trivial
  absent_stable _ _ _ _ _ _ _ _ := trivial
  begin_kept _ _ _ _ := trivial
  verified _ s _ _ := keeps_worker (s, fresh) trivial
  crash_leaves _ _ _ hinvariant _ _ :=
    ⟨.quiet rfl rfl (.of_eq rfl), ⟨hinvariant.truthful, hinvariant.reserved.abort⟩, trivial⟩
  ended_leaves _ _ _ _ hinvariant _ _ :=
    ⟨.quiet rfl rfl (.of_eq rfl), ⟨hinvariant.truthful, hinvariant.reserved.abort⟩, trivial, trivial⟩

theorem Start.invariant {w : Accounts} (h : Start subscriptionId w) : Invariant subscriptionId w where
  truthful := h.2
  reserved := by
    constructor <;> simp [h.1]

/-- Whatever the workers do and in whatever order, a row that is marked as synced has the quota of its
current period and its expiry at the provider, as long as they are prompt. -/
theorem synced_truthful (subscriptionId gracePeriodHours : ℕ) (g : Workers)
    (h : ReachableBy (prompt subscriptionId) subscriptionId gracePeriodHours g) : Truthful subscriptionId g.shared :=
  (Contract.good_of_reachable sound (fun _ hs => ⟨hs.invariant, fun _ => trivial⟩) (fun _ s _ => Guarantee.refl s)
    h).invariant.truthful

/-- No worker is at work. -/
def AtRest (g : Workers) : Prop := ∀ i q p, g.process i = some q → q.phase ≠ .running p

/-- An active subscription whose quota is to be sent, with a paid period behind the current one. -/
def sampleAccounts : Accounts where
  store :=
    { database := { Database.empty with
        subscriptions := Table.empty.insert 1
          ⟨1, 5, 1, .active, "rg", 1000, some 0, .pending, some "user", none, none, none, none⟩
        usagePeriods := (Table.empty.insert 0 ⟨1, 1, 5, 0, 1000, 0, 100, .active⟩).insert 1 ⟨1, 2, 5, 0, 1000, 0, 200, .queued⟩ }
      samples := .empty
      deltas := .empty
      alerts := [] }
  users := fun _ => ⟨0, 0⟩
  pendingInserts := []
  commits := []

theorem start_sampleAccounts : Start 1 sampleAccounts := by
  refine ⟨rfl, fun r hrow hsynced => ?_⟩
  cases hrow
  cases hsynced

/-- Nothing fails. A call that the worker is to stop before has no choice. -/
def sampleScript (task : Task) (stops : Call → Bool) : (c : Call) → Option c.Choice
  | .task => some task
  | .getSubscription => some (.ok 0)
  | .getUsage _ => some (.ok 50)
  | .syncTransaction _ _ _ => some ⟨none, true⟩
  | .getPeriod periodId => if stops (.getPeriod periodId) then none else some (.ok ())
  | .markPending _ => some ⟨none, true⟩
  | .setQuota username quotaBytes => if stops (.setQuota username quotaBytes) then none else some ⟨none, true⟩
  | .setExpire _ _ => some ⟨none, true⟩
  | .markMissing _ => none
  | .markFailed _ _ => none
  | .markSynced => some ⟨none, true⟩
  | .rollback => none
  | .applyRenewal _ _ => none
  | .commitOrder => none

def nowhere : Call → Bool := fun _ => false

def atQuota : Call → Bool
  | .setQuota _ _ => true
  | _ => false

def atPeriod : Call → Bool
  | .getPeriod _ => true
  | _ => false

/-- A reconcile that nothing comes between. -/
theorem synced_truthful_sample : ∃ g, ReachableBy (prompt 1) 1 24 g ∧
    (row 1 g.shared.store).map Subscription.reconcileState = some .synced ∧ Truthful 1 g.shared := by
  have hstart : ReachableBy (prompt 1) 1 24 (.start sampleAccounts) := .start start_sampleAccounts
  have hbegun := hstart.begun 0 rfl
  have hplayed := hbegun.played (sampleScript .pendingReconcile nowhere) (Configuration.process_update_self _ 0 _ _) 12 ?_
  · exact ⟨_, hplayed, rfl, synced_truthful 1 24 _ hplayed⟩
  · refine ⟨⟨id, trivial⟩, ⟨id, trivial⟩, ⟨id, trivial⟩, ⟨id, trivial⟩, ⟨id, trivial⟩,
      ⟨id, ⟨"user", ⟨100, 1000⟩⟩, rfl, rfl, rfl⟩, ⟨id, ⟨"user", ⟨100, 1000⟩⟩, rfl, rfl, rfl⟩, ⟨id, ?_⟩, trivial⟩
    intro c hc
    cases hc

/-- A period is taken up between a reconcile's reading of the quota and its sending it. -/
theorem synced_untruthful : ¬∀ g, ReachableBy (anyTime 1) 1 24 g → AtRest g → Truthful 1 g.shared := by
  intro h
  have hstart : ReachableBy (anyTime 1) 1 24 (.start sampleAccounts) := .start start_sampleAccounts
  have hbegun := hstart.begun 0 rfl
  have hwaiting := hbegun.played (sampleScript .pendingReconcile atQuota) (Configuration.process_update_self _ 0 _ _) 12
    ⟨id, id, id, id, id, trivial⟩
  have hfree : ¬∃ e ∈ sampleAccounts.pendingInserts, e.subscriptionId = 1 := by
    rintro ⟨e, he, -⟩
    cases he
  have hrolled := (hwaiting.begun 1 rfl).played (sampleScript (.usageSync 2000) atPeriod)
    (Configuration.process_update_self _ 1 _ _) 12 ⟨id, id, id, hfree, trivial⟩
  have hcrashed := hrolled.step (.crash (Configuration.process_update_self _ 1 _ _) trivial)
  have hsent := hcrashed.played (i := 0) (sampleScript .pendingReconcile nowhere) rfl 12 ⟨id, id, id, trivial⟩
  have hended := hsent.step (.ret (i := 0) (a := ()) (Configuration.process_update_self _ 0 _ _))
  have hrest := h _ hended ?_
  · obtain ⟨held, hheld, huser⟩ := hrest _ rfl rfl
    cases hheld
    cases huser
  · intro i q p hprocess hrunning
    by_cases hfirst : i = 0
    · subst hfirst
      cases hprocess
      cases hrunning
    · by_cases hsecond : i = 1
      · subst hsecond
        cases hprocess
        cases hrunning
      · simp [Configuration.update, Configuration.start, hfirst, hsecond] at hprocess

end Runs

end Lingsway.PaidPeriods
