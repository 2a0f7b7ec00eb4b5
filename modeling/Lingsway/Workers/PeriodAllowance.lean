import Lingsway.Workers.SyncedTruth

/-!
# What a paid period is good for

One worker at a time serves a subscription while its user goes on using it. The
provider compares a limit with a counter that is never reset, and the limit it is
sent is the quota of the current period: what was used before that period is
taken off it.
-/
namespace Lingsway.PaidPeriods.Allowance

open Library Program Workers

/-- The rows, the users of the provider, and the bytes that the user of the subscription has used,
newest first, each with the period that was the current one. -/
structure Life where
  accounts : Accounts
  traffic : List (ℕ × ℕ)

namespace Life

def bytes (traffic : List (ℕ × ℕ)) : ℕ := (traffic.map Prod.snd).sum

/-- The counter of the provider, which is not reset. -/
def counter (w : Life) : ℕ := bytes w.traffic

def usedIn (w : Life) (periodId : ℕ) : ℕ := bytes (w.traffic.filter fun e => e.1 = periodId)

def usedOutside (w : Life) (periodId : ℕ) : ℕ := bytes (w.traffic.filter fun e => e.1 ≠ periodId)

/-- What the provider lets through until it blocks the user. -/
def remaining (w : Life) (username : String) : ℤ := (w.accounts.users username).quotaBytes - w.counter

theorem counter_eq (w : Life) (periodId : ℕ) : w.counter = w.usedIn periodId + w.usedOutside periodId := by
  obtain ⟨accounts, traffic⟩ := w
  simp only [counter, usedIn, usedOutside, ne_eq]
  induction traffic with
  | nil => rfl
  | cons e traffic ih =>
    simp only [bytes, List.map_cons, List.sum_cons] at ih ⊢
    by_cases he : e.1 = periodId
    · rw [List.filter_cons_of_pos (by simpa using he), List.filter_cons_of_neg (by simpa using he), List.map_cons,
        List.sum_cons]
      omega
    · rw [List.filter_cons_of_neg (by simpa using he), List.filter_cons_of_pos (by simpa using he), List.map_cons,
        List.sum_cons]
      omega

end Life

section System

variable (subscriptionId gracePeriodHours : ℕ)

/-- The user uses some bytes, unless the provider has blocked it. -/
inductive Flow : Life → Life → Prop
  | bytes {w : Life} {r : Subscription} {periodId : ℕ} {username : String} (n : ℕ)
      (hrow : row subscriptionId w.accounts.store = some r) (hcurrent : r.currentPeriodId = some periodId)
      (huser : r.accountingUserId = some username) (hopen : 0 < w.remaining username) :
      Flow w { w with traffic := (periodId, n) :: w.traffic }

abbrev Flows : Life → Life → Prop := Relation.ReflTransGen (Flow subscriptionId)

/-- With one worker at a time a read sees the latest commit. The usage that is read is the counter. -/
def Answers (w : Life) : (c : Call) → c.Choice → Prop
  | .getSubscription, answer => answer = .ok 0 ∨ ∃ exc, answer = .error exc
  | .getUsage _, answer => answer = .ok (w.counter : ℤ) ∨ ∃ exc, answer = .error exc
  | _, _ => True

/-- The calls of the worker, with the traffic before each. -/
def alone : Handler calls Exn (Life × Session) where
  step c w x w' := ∃ v choice, Flows subscriptionId w.1 v ∧ Answers v c choice ∧
    act subscriptionId gracePeriodHours 0 c choice (v.accounts, w.2) = (x, (w'.1.accounts, w'.2)) ∧ w'.1.traffic = v.traffic
  check _ _ _ w' := Invariant subscriptionId w'.1.accounts

/-- Nothing has been used, nothing is in progress, and a row that is synced is so at the provider. -/
def Begins (w : Life) : Prop := Start subscriptionId w.accounts ∧ w.traffic = []

/-- What a subscription can come to: a worker may stop anywhere. -/
inductive Lives : Life → Prop
  | begins {w : Life} (h : Begins subscriptionId w) : Lives w
  | flows {w w' : Life} (h : Lives w) (hflow : Flow subscriptionId w w') : Lives w'
  | works {w w' : Life} {l : Session} (h : Lives w)
      (hreaches : worker.Reaches (alone subscriptionId gracePeriodHours) (w, fresh) (w', l)) :
      Lives { w' with accounts := w'.accounts.abort 0 }

end System

section Programs

variable {subscriptionId gracePeriodHours : ℕ} {w w' : Life} {s : Accounts} {l : Session}

theorem Flows.accounts (h : Flows subscriptionId w w') : w'.accounts = w.accounts := by
  induction h with
  | refl => rfl
  | tail _ hflow ih =>
    cases hflow
    exact ih

variable (subscriptionId gracePeriodHours) in
/-- What a program does to the rows and the provider, whatever its session and the traffic. -/
def Does {α : Type} (P : Accounts → Prop) (p : Work α) (Q : Except Exn α → Accounts → Prop) : Prop :=
  ∀ w l, Invariant subscriptionId w.accounts → P w.accounts →
    p.wp (alone subscriptionId gracePeriodHours) (fun x t => Invariant subscriptionId t.1.accounts ∧ Q x t.1.accounts) (w, l)

section Rules

variable {α β : Type} {P P' : Accounts → Prop} {p : Work α} {Q : Except Exn α → Accounts → Prop}

theorem Does.ret (a : α) (h : ∀ s, P s → Q (.ok a) s) : Does subscriptionId gracePeriodHours P (.ret a) Q :=
  fun _ _ hinvariant hP => ⟨hinvariant, h _ hP⟩

theorem Does.raise (e : Exn) (h : ∀ s, P s → Q (.error e) s) : Does subscriptionId gracePeriodHours P (.raise e) Q :=
  fun _ _ hinvariant hP => ⟨hinvariant, h _ hP⟩

theorem Does.bind {f : α → Work β} {R : Except Exn β → Accounts → Prop} (hp : Does subscriptionId gracePeriodHours P p Q)
    (herror : ∀ e s, Q (.error e) s → R (.error e) s) (hf : ∀ a, Does subscriptionId gracePeriodHours (Q (.ok a)) (f a) R) :
    Does subscriptionId gracePeriodHours P (p >>= f) R := by
  intro w l hinvariant hP
  rw [wp_bind]
  refine wp_mono _ _ ?_ (hp w l hinvariant hP)
  rintro (e | a) ⟨w, l⟩ ⟨hinvariant, hQ⟩
  · exact ⟨hinvariant, herror e _ hQ⟩
  · exact hf a w l hinvariant hQ

theorem Does.attempt (hp : Does subscriptionId gracePeriodHours P p Q) :
    Does subscriptionId gracePeriodHours P p.attempt fun x s => ∃ y, x = .ok y ∧ Q y s := by
  intro w l hinvariant hP
  rw [wp_attempt]
  refine wp_mono _ _ ?_ (hp w l hinvariant hP)
  rintro x t ⟨hinvariant, hQ⟩
  exact ⟨hinvariant, x, rfl, hQ⟩

theorem Does.tryCatch {h : Exn → Work α} (hp : Does subscriptionId gracePeriodHours P p Q)
    (hh : ∀ e, Does subscriptionId gracePeriodHours (Q (.error e)) (h e) Q) :
    Does subscriptionId gracePeriodHours P (p.tryCatch h) Q := by
  intro w l hinvariant hP
  rw [wp_tryCatch]
  refine wp_mono _ _ ?_ (hp w l hinvariant hP)
  rintro (e | a) ⟨w, l⟩ ⟨hinvariant, hQ⟩
  · exact hh e w l hinvariant hQ
  · exact ⟨hinvariant, hQ⟩

theorem Does.post {Q' : Except Exn α → Accounts → Prop} (hp : Does subscriptionId gracePeriodHours P p Q)
    (h : ∀ x s, Q x s → Q' x s) : Does subscriptionId gracePeriodHours P p Q' :=
  fun w l hinvariant hP => wp_mono _ _ (fun _ _ hx => ⟨hx.1, h _ _ hx.2⟩) (hp w l hinvariant hP)

theorem Does.imp (hp : Does subscriptionId gracePeriodHours P p Q) (h : ∀ s, P' s → P s) :
    Does subscriptionId gracePeriodHours P' p Q :=
  fun w l hinvariant hP => hp w l hinvariant (h _ hP)

/-- A call needs to be verified for the rows and the provider only. -/
theorem Does.work {c : Call} {Q : Except Exn c.Answer → Accounts → Prop}
    (h : ∀ s l choice x t, Invariant subscriptionId s → P s → act subscriptionId gracePeriodHours 0 c choice (s, l) = (x, t) →
      Invariant subscriptionId t.1 ∧ Q x t.1) : Does subscriptionId gracePeriodHours P (work c) Q := by
  intro w l hinvariant hP x t hstep
  rw [wp_ofExcept]
  obtain ⟨v, choice, hflows, -, hact, -⟩ := hstep
  rw [Flows.accounts hflows] at hact
  have hafter := h _ _ choice x _ hinvariant hP hact
  exact ⟨hafter.1, hafter⟩

end Rules

/-- The row that is read is the committed one. -/
theorem does_getSubscription : Does subscriptionId gracePeriodHours (fun _ => True) (work .getSubscription)
    fun x s => ∀ found, x = .ok found → found = row subscriptionId s.store := by
  intro w l hinvariant _ x t hstep
  rw [wp_ofExcept]
  obtain ⟨v, choice, hflows, hanswer, hact, -⟩ := hstep
  rw [Flows.accounts hflows] at hact
  obtain rfl | ⟨exc, rfl⟩ := hanswer
  · obtain ⟨rfl, hafter⟩ := Prod.mk.inj hact
    have haccounts : w.accounts = t.1.accounts := congrArg Prod.fst hafter
    have hinvariant' : Invariant subscriptionId t.1.accounts := haccounts ▸ hinvariant
    refine ⟨hinvariant', hinvariant', fun found hfound => ?_⟩
    cases hfound
    exact congrArg (fun s => row subscriptionId s.store) haccounts
  · obtain ⟨rfl, hafter⟩ := Prod.mk.inj hact
    have haccounts : w.accounts = t.1.accounts := congrArg Prod.fst hafter
    have hinvariant' : Invariant subscriptionId t.1.accounts := haccounts ▸ hinvariant
    exact ⟨hinvariant', hinvariant', fun found hfound => by cases hfound⟩

/-- The provider is to hold `held`. -/
def HasTerms (subscriptionId : ℕ) (held : Terms) (s : Accounts) : Prop := terms subscriptionId s.store = some held

theorem does_getUsage {P : Accounts → Prop} (username : String) :
    Does subscriptionId gracePeriodHours P (work (.getUsage username)) fun _ => P := by
  refine .work fun s l choice x t hinvariant hP hact => ?_
  obtain ⟨rfl, rfl⟩ := Prod.mk.inj hact
  exact ⟨hinvariant, hP⟩

theorem does_getPeriod {P : Accounts → Prop} (periodId : ℕ) :
    Does subscriptionId gracePeriodHours P (work (.getPeriod periodId)) fun x s =>
      P s ∧ ∀ found, x = .ok found → found = period s.store periodId := by
  refine .work fun s l choice x t hinvariant hP hact => ?_
  cases choice with
  | ok _ =>
    obtain ⟨rfl, rfl⟩ := Prod.mk.inj hact
    refine ⟨hinvariant, hP, fun found hfound => ?_⟩
    cases hfound
    rfl
  | error exc =>
    obtain ⟨rfl, rfl⟩ := Prod.mk.inj hact
    exact ⟨hinvariant, hP, fun found hfound => by cases hfound⟩

/-- What keeps the invariant among any workers keeps it alone. -/
theorem invariant_act {c : Call} {choice : c.Choice} {x : Except Exn c.Answer} {t : State}
    (hact : act subscriptionId gracePeriodHours 0 c choice (s, l) = (x, t)) (h : Invariant subscriptionId s)
    (hplain : c.Plain) (hprompt : Prompt subscriptionId c (s, l) t) : Invariant subscriptionId t.1 :=
  (fine_plain (i := 0) (w := (s, l)) hplain h hact hprompt).invariant

theorem does_markPending {held : Terms} (r : Subscription) :
    Does subscriptionId gracePeriodHours (HasTerms subscriptionId held) (work (.markPending r)) fun _ =>
      HasTerms subscriptionId held := by
  refine .work fun s l ending x t hinvariant hheld hact => ?_
  refine ⟨invariant_act hact hinvariant trivial trivial, ?_⟩
  obtain ⟨-, rfl⟩ := Prod.mk.inj hact
  simp only [HasTerms, write]
  split_ifs
  · have hcolumns : ∀ current : Subscription, SameColumns current
        { current with reconcileState := assign r.reconcileState .pending current.reconcileState } := fun _ => ⟨rfl, rfl, rfl⟩
    exact (terms_update hcolumns).trans hheld
  · exact hheld

/-- A call whose outcome nothing rests on. -/
theorem does_mark {P : Accounts → Prop} {c : Call} (hplain : c.Plain)
    (hprompt : ∀ w w', Prompt subscriptionId c w w') :
    Does subscriptionId gracePeriodHours P (work c) fun _ _ => True := by
  refine .work fun s l choice x t hinvariant _ hact => ?_
  exact ⟨invariant_act hact hinvariant hplain (hprompt _ _), trivial⟩

theorem does_setQuota (held : Terms) :
    Does subscriptionId gracePeriodHours (HasTerms subscriptionId held) (work (.setQuota held.username held.user.quotaBytes))
      fun x s => HasTerms subscriptionId held s ∧
        (x = .ok () → (s.users held.username).quotaBytes = held.user.quotaBytes) := by
  refine .work fun s l ending x t hinvariant hheld hact => ?_
  have hprompt : Prompt subscriptionId (.setQuota held.username held.user.quotaBytes) (s, l) t := ⟨held, hheld, rfl, rfl⟩
  refine ⟨invariant_act hact hinvariant trivial hprompt, ?_⟩
  obtain ⟨rfl, rfl⟩ := Prod.mk.inj hact
  refine ⟨?_, fun hok => ?_⟩
  · dsimp only
    split_ifs <;> exact hheld
  · dsimp only
    rw [if_pos (Ending.effective_of_answer hok)]
    simp [Accounts.setUser]

theorem does_setExpire (held : Terms) :
    Does subscriptionId gracePeriodHours (fun s => HasTerms subscriptionId held s ∧
        (s.users held.username).quotaBytes = held.user.quotaBytes) (work (.setExpire held.username held.user.expireAt))
      fun x s => HasTerms subscriptionId held s ∧ (x = .ok () → s.users held.username = held.user) := by
  refine .work fun s l ending x t hinvariant hheld hact => ?_
  have hprompt : Prompt subscriptionId (.setExpire held.username held.user.expireAt) (s, l) t := ⟨held, hheld.1, rfl, rfl⟩
  refine ⟨invariant_act hact hinvariant trivial hprompt, ?_⟩
  obtain ⟨rfl, rfl⟩ := Prod.mk.inj hact
  refine ⟨?_, fun hok => ?_⟩
  · dsimp only
    split_ifs <;> exact hheld.1
  · dsimp only
    rw [if_pos (Ending.effective_of_answer hok)]
    simp only [Accounts.setUser, if_true]
    exact congrArg (fun q => (⟨q, held.user.expireAt⟩ : ProviderUser)) hheld.2

theorem does_overwriteProvider (held : Terms) :
    Does subscriptionId gracePeriodHours (HasTerms subscriptionId held)
      (overwriteProvider held.username held.user.quotaBytes held.user.expireAt)
      fun x s => x = .ok () → HasTerms subscriptionId held s ∧ s.users held.username = held.user := by
  refine .bind (does_getUsage _).attempt (fun e s h => ?_) fun r => ?_
  · obtain ⟨_, h, -⟩ := h
    cases h
  · have hstart : ∀ s, (∃ y, Except.ok r = Except.ok (ε := Exn) y ∧ HasTerms subscriptionId held s) → HasTerms subscriptionId held s :=
      fun _ ⟨_, _, h⟩ => h
    cases r with
    | error exc =>
      have hmark : Does subscriptionId gracePeriodHours (HasTerms subscriptionId held)
          (work (.markMissing ("external accounting identity check failed: " ++ exc.typeName))) fun _ _ => True :=
        does_mark trivial fun _ _ => trivial
      refine (hmark.imp hstart).bind (fun e s _ h => by cases h) fun _ => .raise _ fun _ _ h => by cases h
    | ok _ =>
      refine ((does_setQuota held).imp hstart).bind (fun e s _ h => by cases h) fun _ => ?_
      exact ((does_setExpire held).imp fun s h => ⟨h.1, h.2 rfl⟩).post fun x s h hok => ⟨h.1, h.2 hok⟩

/-- The row is marked as synced. -/
def Synced (subscriptionId : ℕ) (s : Accounts) : Prop :=
  ∃ r, row subscriptionId s.store = some r ∧ r.reconcileState = .synced

theorem does_markSynced (held : Terms) :
    Does subscriptionId gracePeriodHours (fun s => HasTerms subscriptionId held s ∧ s.users held.username = held.user)
      (work .markSynced) fun x s => x = .ok () → Synced subscriptionId s := by
  refine .work fun s l ending x t hinvariant hheld hact => ?_
  obtain ⟨rfl, rfl⟩ := Prod.mk.inj hact
  refine ⟨hinvariant.marked hheld.1 hheld.2, fun hok => ?_⟩
  obtain ⟨r, hr, -⟩ := Option.bind_eq_some_iff.mp hheld.1
  simp only [Synced, write, if_pos (Ending.effective_of_answer hok), Accounts.store_commit, row_update, hr]
  exact ⟨_, rfl, rfl⟩

/-- A reconcile that fails raises. -/
theorem does_markFailed {P : Accounts → Prop} {state : ReconcileState} {error : Option String} (hne : state ≠ .synced) (exc : Exn) :
    Does subscriptionId gracePeriodHours P (work (.markFailed state error) >>= fun _ => Program.raise exc : Work Unit)
      fun x s => x = .ok () → Synced subscriptionId s := by
  have hmark : Does subscriptionId gracePeriodHours P (work (.markFailed state error)) fun _ _ => True :=
    does_mark hne fun _ _ => trivial
  exact hmark.bind (fun e s _ h => by cases h) fun _ => .raise _ fun _ _ h => by cases h

/-- A reconcile that is successful leaves the row marked as synced. -/
theorem does_reconcileSubscription (r : Subscription) (pendingManualOnFailure : Bool) :
    Does subscriptionId gracePeriodHours (fun s => row subscriptionId s.store = some r)
      (reconcileSubscription r pendingManualOnFailure) fun x s => x = .ok () → Synced subscriptionId s := by
  unfold reconcileSubscription
  split
  · rename_i username periodId husername hperiodId
    by_cases hempty : username = ""
    · rw [if_pos hempty]
      exact .raise _ fun _ _ h => by cases h
    · rw [if_neg hempty]
      refine (does_getPeriod periodId).bind (fun e s _ h => by cases h) fun found => ?_
      cases found with
      | none => exact .raise _ fun _ _ h => by cases h
      | some period =>
        have hterms : ∀ s : Accounts, (row subscriptionId s.store = some r ∧
            ∀ found, Except.ok (ε := Exn) (some period) = .ok found → found = PaidPeriods.period s.store periodId) →
            HasTerms subscriptionId ⟨username, period.quotaBytes, r.serviceExpireAt⟩ s := by
          rintro s ⟨hrow, hfound⟩
          have hperiod := hfound _ rfl
          simp [HasTerms, terms, hrow, husername, hperiodId, quotaOf, ← hperiod]
        refine ((does_markPending r).imp hterms).bind (fun e s _ h => by cases h) fun _ => ?_
        refine (does_overwriteProvider ⟨username, period.quotaBytes, r.serviceExpireAt⟩).attempt.bind ?_ fun y => ?_
        · rintro e s ⟨_, h, -⟩
          cases h
        · cases y with
          | ok _ =>
            refine (does_markSynced ⟨username, period.quotaBytes, r.serviceExpireAt⟩).imp fun s h => ?_
            obtain ⟨y, hy, h⟩ := h
            cases hy
            exact h rfl
          | error exc =>
            cases pendingManualOnFailure with
            | true => exact does_markFailed ReconcileState.noConfusion exc
            | false => exact does_markFailed ReconcileState.noConfusion exc
  · exact .raise _ fun _ _ h => by cases h

/-- The row of the session is the committed one, if it was. -/
theorem row_policy {u v : UsageStore} {loaded : Subscription} {current : Entity UsagePeriod} {now : Timestamp}
    {changes : List Write} (h : Policy u ⟨subscriptionId, loaded⟩ current now gracePeriodHours changes)
    (hrow : row subscriptionId v = some loaded) :
    row subscriptionId (v.applyAll changes) = some (sessionRow subscriptionId loaded changes) := by
  cases h with
  | rolled next _ _ _ =>
    rw [row_rollOver, hrow, Option.map_some]
    simp [sessionRow, rollOver, advanced]
  | closed _ _ _ =>
    rw [applyAll_cons, row_enterGrace, row_close, hrow, Option.map_some]
    simp [sessionRow, close, enterGrace]
  | lapsed _ _ _ =>
    rw [row_enterGrace, hrow, Option.map_some]
    simp [sessionRow, enterGrace]
  | expired _ _ =>
    rw [row_expire, hrow, Option.map_some]
    simp [sessionRow, expire]
  | nothing _ =>
    rw [applyAll_nil, hrow]
    rfl

theorem does_syncTransaction (loaded : Subscription) (usedBytes : ℤ) (now : Timestamp) :
    Does subscriptionId gracePeriodHours (fun s => row subscriptionId s.store = some loaded)
      (work (.syncTransaction loaded usedBytes now)) fun x s => ∀ outcome, x = .ok outcome →
        row subscriptionId s.store = some outcome.row := by
  refine .work fun s l ending x t hinvariant hrow hact => ?_
  have hprompt : Prompt subscriptionId (.syncTransaction loaded usedBytes now) (s, l) t := by
    rintro hpending ⟨r, hr, hsynced⟩
    rw [hrow] at hr
    cases hr
    rw [hpending] at hsynced
    cases hsynced
  refine ⟨invariant_act hact hinvariant trivial hprompt, fun outcome houtcome => ?_⟩
  obtain ⟨hx, ht⟩ := Prod.mk.inj hact
  rw [← ht]
  obtain ⟨-, exc, herror⟩ | ⟨periodId, before, changes, v, hsyncs, hcommit, hsession⟩ := sync_cases
    (Prod.mk.eta (p := sync subscriptionId gracePeriodHours s loaded usedBytes now ending)).symm
  · rw [hx, houtcome] at herror
    cases herror
  · rw [hcommit, Accounts.store_commit, hsyncs.after, hsession outcome (hx.trans houtcome)]
    exact row_policy hsyncs.policy hrow

theorem does_syncUsage (now : Timestamp) :
    Does subscriptionId gracePeriodHours (fun _ => True) (syncUsage now) fun _ _ => True := by
  unfold syncUsage
  refine does_getSubscription.bind (fun _ _ _ => trivial) fun found => ?_
  cases found with
  | none => exact .raise _ fun _ _ => trivial
  | some loaded =>
    dsimp only
    by_cases hempty : loaded.accountingUserId.getD "" = ""
    · rw [if_pos hempty]
      exact .raise _ fun _ _ => trivial
    · rw [if_neg hempty]
      have hrow : ∀ s : Accounts, (∀ found, Except.ok (ε := Exn) (some loaded) = .ok found → found = row subscriptionId s.store) →
          row subscriptionId s.store = some loaded := fun s h => (h _ rfl).symm
      refine ((does_getUsage _).imp hrow).bind (fun _ _ _ => trivial) fun usedBytes => ?_
      refine (does_syncTransaction loaded usedBytes now).bind (fun _ _ _ => trivial) fun outcome => ?_
      split_ifs
      · refine .tryCatch ?_ fun _ => does_mark trivial fun _ _ => trivial
        exact ((does_reconcileSubscription outcome.row outcome.rolledPeriod).imp fun s h => h outcome rfl).post fun _ _ _ => trivial
      · exact .ret _ fun _ _ => trivial

theorem does_runPendingReconcile :
    Does subscriptionId gracePeriodHours (fun _ => True) runPendingReconcile fun _ _ => True := by
  unfold runPendingReconcile
  refine does_getSubscription.bind (fun _ _ _ => trivial) fun found => ?_
  cases found with
  | none => exact .ret _ fun _ _ => trivial
  | some r =>
    dsimp only
    split_ifs
    · refine .tryCatch ?_ fun _ => .ret _ fun _ _ => trivial
      exact ((does_reconcileSubscription r false).imp fun s h => (h _ rfl).symm).post fun _ _ _ => trivial
    · exact .ret _ fun _ _ => trivial

theorem does_worker : Does subscriptionId gracePeriodHours (fun _ => True) worker fun _ _ => True := by
  have htask : Does subscriptionId gracePeriodHours (fun _ => True) (work .task) fun _ _ => True :=
    does_mark trivial fun _ _ => trivial
  refine htask.bind (fun _ _ _ => trivial) fun task => ?_
  cases task with
  | usageSync now => exact does_syncUsage now
  | pendingReconcile => exact does_runPendingReconcile
  | renewal command now =>
    have hrenewal : Does subscriptionId gracePeriodHours (fun _ => True) (work (.applyRenewal command now)) fun _ _ => True :=
      does_mark trivial fun _ _ => trivial
    exact hrenewal.bind (fun _ _ _ => trivial) fun _ => does_mark trivial fun _ _ => trivial

theorem invariant_of_reaches (h : Invariant subscriptionId w.accounts)
    (hreaches : worker.Reaches (alone subscriptionId gracePeriodHours) (w, fresh) (w', l)) :
    Invariant subscriptionId w'.accounts := by
  have hwp := @does_worker subscriptionId gracePeriodHours w fresh h trivial
  obtain hsame | ⟨_, _, _, -, hcheck⟩ := reaches_of_wp hwp hreaches
  · obtain ⟨rfl, -⟩ := Prod.mk.inj hsame
    exact h
  · exact hcheck

theorem Lives.invariant (h : Lives subscriptionId gracePeriodHours w) : Invariant subscriptionId w.accounts := by
  induction h with
  | begins h => exact h.1.invariant
  | flows _ hflow ih =>
    cases hflow
    exact ih
  | works _ hreaches ih =>
    have hafter := invariant_of_reaches ih hreaches
    exact ⟨hafter.truthful, hafter.reserved.abort⟩

end Programs

section Deliveries

variable {subscriptionId gracePeriodHours : ℕ} {w w' : Life} {l : Session}

/-- The user has what is left of the quota of the current period. -/
def Delivered (subscriptionId : ℕ) (w : Life) : Prop :=
  ∃ r username periodId p, row subscriptionId w.accounts.store = some r ∧ r.accountingUserId = some username ∧
    r.currentPeriodId = some periodId ∧ period w.accounts.store periodId = some p ∧
    w.remaining username = p.quotaBytes - w.usedIn periodId

/-- Whatever has been used has been used in the current period. -/
def OnlyCurrent (subscriptionId : ℕ) (w : Life) : Prop :=
  ∀ r periodId, row subscriptionId w.accounts.store = some r → r.currentPeriodId = some periodId → w.usedOutside periodId = 0

theorem delivered_iff (hinvariant : Invariant subscriptionId w.accounts) (hsynced : Synced subscriptionId w.accounts) :
    Delivered subscriptionId w ↔ OnlyCurrent subscriptionId w := by
  obtain ⟨r, hr, hstate⟩ := hsynced
  obtain ⟨held, hheld, huser⟩ := hinvariant.truthful r hr hstate
  simp only [terms, hr, Option.bind_eq_bind, Option.bind_some] at hheld
  obtain ⟨username, husername, hheld⟩ := Option.bind_eq_some_iff.mp hheld
  obtain ⟨periodId, hperiodId, hheld⟩ := Option.bind_eq_some_iff.mp hheld
  obtain ⟨quotaBytes, hquota, hheld⟩ := Option.bind_eq_some_iff.mp hheld
  obtain ⟨p, hp, rfl⟩ := Option.map_eq_some_iff.mp hquota
  cases hheld
  have hremaining : w.remaining username = p.quotaBytes - w.usedIn periodId - w.usedOutside periodId := by
    rw [Life.remaining, huser, w.counter_eq periodId]
    push_cast
    ring
  constructor
  · rintro ⟨r', username', periodId', p', hr', husername', hperiodId', hp', hdelivered⟩ r₀ j hr₀ hj
    rw [hr] at hr' hr₀
    cases hr'
    cases hr₀
    rw [hperiodId] at hperiodId' hj
    cases hperiodId'
    cases hj
    rw [husername] at husername'
    cases husername'
    rw [hp] at hp'
    cases hp'
    omega
  · intro hcurrent
    refine ⟨r, username, periodId, p, hr, husername, hperiodId, hp, ?_⟩
    rw [hremaining, hcurrent r periodId hr hperiodId]
    simp

/-- A reconcile that is successful leaves the row synced, and whenever the row is synced the user has what is left of
the quota of the current period if and only if nothing was used in another one. -/
theorem quota_delivered_iff (subscriptionId gracePeriodHours : ℕ) :
    (∀ w l w' l' r pendingManualOnFailure, Lives subscriptionId gracePeriodHours w → row subscriptionId w.accounts.store = some r →
      (reconcileSubscription r pendingManualOnFailure).Exec (alone subscriptionId gracePeriodHours) (w, l) (.ok ()) (w', l') →
      Synced subscriptionId w'.accounts ∧ (Delivered subscriptionId w' ↔ OnlyCurrent subscriptionId w')) ∧
    ∀ w w' l, Lives subscriptionId gracePeriodHours w →
      worker.Reaches (alone subscriptionId gracePeriodHours) (w, fresh) (w', l) → Synced subscriptionId w'.accounts →
      (Delivered subscriptionId w' ↔ OnlyCurrent subscriptionId w') := by
  refine ⟨fun w l w' l' r _ h hr hexec => ?_, fun w w' l h hreaches hsynced => ?_⟩
  · obtain ⟨hinvariant, hsynced⟩ := exec_of_wp (does_reconcileSubscription r _ w l h.invariant hr) hexec
    exact ⟨hsynced rfl, delivered_iff hinvariant (hsynced rfl)⟩
  · exact delivered_iff (invariant_of_reaches h.invariant hreaches) hsynced

/-- What a script does is a run, if it reads what is there. -/
theorem reaches_play {traffic : List (ℕ × ℕ)} (script : (c : Call) → Option c.Choice)
    (hanswers : ∀ s c choice, script c = some choice → Answers ⟨s, traffic⟩ c choice) (n : ℕ) {α : Type} (p : Work α)
    (s : Accounts) (l : Session) :
    p.Reaches (alone subscriptionId gracePeriodHours) (⟨s, traffic⟩, l)
      (⟨((agents subscriptionId gracePeriodHours).play 0 script n p (s, l)).2.1, traffic⟩,
        ((agents subscriptionId gracePeriodHours).play 0 script n p (s, l)).2.2) := by
  induction n generalizing p s l with
  | zero =>
    cases p with
    | ret a => rfl
    | raise e => rfl
    | call c next => exact .inl rfl
  | succ n ih =>
    cases p with
    | ret a => rfl
    | raise e => rfl
    | call c next =>
      cases hchoice : script c with
      | none =>
        simp only [Agents.play, hchoice]
        exact .inl rfl
      | some choice =>
        simp only [Agents.play, hchoice]
        refine .inr ⟨_, (⟨_, traffic⟩, _), ⟨⟨s, traffic⟩, choice, .refl, hanswers s c choice hchoice, rfl, rfl⟩, ?_⟩
        exact ih _ _ _

/-- Nothing fails, and the counter is what has been used. -/
def allowanceScript (task : Task) (counter : ℤ) : (c : Call) → Option c.Choice
  | .getUsage _ => some (.ok counter)
  | c => sampleScript task nowhere c

theorem answers_allowanceScript {s : Accounts} {traffic : List (ℕ × ℕ)} {task : Task} {c : Call} {choice : c.Choice}
    (h : allowanceScript task (Life.bytes traffic) c = some choice) : Answers ⟨s, traffic⟩ c choice := by
  cases c with
  | getUsage username =>
    cases h
    exact .inl rfl
  | getSubscription =>
    cases h
    exact .inl rfl
  | _ => trivial

/-- What a task leaves when nothing is used meanwhile. -/
def served (task : Task) (w : Life) : Life × Session :=
  (⟨((agents 1 24).play 0 (allowanceScript task w.counter) 12 worker (w.accounts, fresh)).2.1, w.traffic⟩,
    ((agents 1 24).play 0 (allowanceScript task w.counter) 12 worker (w.accounts, fresh)).2.2)

theorem reaches_served (task : Task) (w : Life) : worker.Reaches (alone 1 24) (w, fresh) (served task w) :=
  reaches_play _ (fun _ _ _ h => answers_allowanceScript h) 12 worker w.accounts fresh

def sampleLife : Life := ⟨sampleAccounts, []⟩

theorem lives_sampleLife : Lives 1 24 sampleLife := .begins ⟨start_sampleAccounts, rfl⟩

/-- The first period of a new user. -/
theorem quota_delivered_iff_sample : ∃ w, Synced 1 w.accounts ∧ Delivered 1 w := by
  have hsynced : Synced 1 (served .pendingReconcile sampleLife).1.accounts := ⟨_, rfl, rfl⟩
  have hdelivered := (quota_delivered_iff 1 24).2 sampleLife _ _ lives_sampleLife
    (reaches_served .pendingReconcile sampleLife) hsynced
  exact ⟨_, hsynced, hdelivered.mpr fun _ _ _ _ => rfl⟩

/-- What was used in the first period is taken off the quota of the second. -/
theorem second_period_short : ¬∀ w w' l, Lives 1 24 w → worker.Reaches (alone 1 24) (w, fresh) (w', l) →
    Synced 1 w'.accounts → Delivered 1 w' := by
  intro h
  have hreconciled := Lives.works lives_sampleLife (reaches_served .pendingReconcile sampleLife)
  have hused := hreconciled.flows (.bytes 60 rfl rfl rfl (by decide))
  obtain ⟨r, username, periodId, p, hr, husername, hperiodId, hp, hremaining⟩ :=
    h _ _ _ hused (reaches_served (.usageSync 2000) _) ⟨_, rfl, rfl⟩
  cases hr
  cases husername
  cases hperiodId
  cases hp
  revert hremaining
  decide

end Deliveries

end Lingsway.PaidPeriods.Allowance
