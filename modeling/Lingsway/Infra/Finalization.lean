import Lingsway.System

/-!
# Certainty of the gateway finalization

A purchase is finalized by one commit over four rows: the job, the subscription,
the order and the run. While the call runs, other transactions may change
subscriptions, but neither jobs nor orders.
-/
namespace Lingsway.Infra

open Library Saga Program

/-- The four rows that the payload of a purchase job names. -/
structure Purchase where
  job : ℕ
  subscription : ℕ
  order : ℕ
  run : ℕ

def Purchase.payload (p : Purchase) : GatewayPayload :=
  ⟨.value .purchase, .value p.subscription, .value p.order, .value p.run⟩

def jobStatus (db : Database) (id : ℕ) : Option JobStatus := (db.jobs.get id).map (fun j => j.status)

def subscriptionStatus (db : Database) (id : ℕ) : Option SubscriptionStatus :=
  (db.subscriptions.get id).map (fun s => s.status)

def orderStatus (db : Database) (id : ℕ) : Option OrderStatus :=
  (db.orders.get id).map (fun o => o.status)

/-- The four rows exist, and the job's payload names the other three. -/
structure Purchase.Stands (p : Purchase) (db : Database) : Prop where
  job : ∃ row, db.jobs.get p.job = some row ∧ row.payload = .gateway p.payload
  run : (db.jobs.get p.run).isSome
  order : (db.orders.get p.order).isSome
  subscription : (db.subscriptions.get p.subscription).isSome

/-- The rows that only this call may write are finalized. -/
structure Purchase.Durable (p : Purchase) (db : Database) : Prop where
  job : jobStatus db p.job = some .succeeded
  order : orderStatus db p.order = some .activated
  run : jobStatus db p.run = some .succeeded

/-- What other transactions may do between two calls: anything but changes of jobs
and orders and the removal of subscriptions. -/
def Interferes (w w' : World) : Prop :=
  ∃ db : Database, db.jobs = w.shared.database.jobs ∧ db.orders = w.shared.database.orders ∧
    (∀ id, (db.subscriptions.get id).isSome = (w.shared.database.subscriptions.get id).isSome) ∧
    w' = w.setDatabase db

abbrev WorldMoment := Moment port Exn World

namespace Purchase

variable (p : Purchase)

/-- A step of the call finalizes all four rows or none of them. -/
def Together (m : WorldMoment) : Prop :=
  let before := m.before.shared.database
  let after := m.after.shared.database
  (jobStatus before p.job ≠ some .succeeded ∧ jobStatus after p.job = some .succeeded ∨
    subscriptionStatus before p.subscription ≠ some .active ∧
      subscriptionStatus after p.subscription = some .active ∨
    orderStatus before p.order ≠ some .activated ∧ orderStatus after p.order = some .activated ∨
    jobStatus before p.run ≠ some .succeeded ∧ jobStatus after p.run = some .succeeded) →
  p.Durable after ∧ subscriptionStatus after p.subscription = some .active

/-- A step of the call does not take a finalization back. -/
def Lasting (m : WorldMoment) : Prop :=
  p.Durable m.before.shared.database → p.Durable m.after.shared.database

/-- The call notifies only of a durable finalization. -/
def NotifiedTruly (m : WorldMoment) : Prop :=
  match m.call with
  | .provider (.notifySend _) => p.Durable m.before.shared.database
  | _ => True

/-- What the call may do at one step. -/
def Certain (m : WorldMoment) (_ : List WorldMoment) : Prop :=
  p.Together m ∧ p.Lasting m ∧ p.NotifiedTruly m

/-- When the finalization is durable, nobody has moved the subscription off ACTIVE
before the observer reads it. -/
def Undisturbed (m : WorldMoment) (_ : List WorldMoment) : Prop :=
  match m.call with
  | .session (.probeSubscriptionStatus id) =>
    id = p.subscription → p.Durable m.before.shared.database →
      subscriptionStatus m.before.shared.database p.subscription = some .active
  | _ => True

/-- The rows of the purchase are the same. -/
structure SameRows (db db' : Database) : Prop where
  job : db'.jobs.get p.job = db.jobs.get p.job
  run : db'.jobs.get p.run = db.jobs.get p.run
  order : db'.orders.get p.order = db.orders.get p.order
  subscription : db'.subscriptions.get p.subscription = db.subscriptions.get p.subscription

variable {p}

theorem SameRows.of {db db' : Database} (h : Database.SameRows db db') : p.SameRows db db' :=
  ⟨h.jobs _, h.jobs _, h.orders _, h.subscriptions _⟩

theorem SameRows.stands {db db' : Database} (h : p.SameRows db db') (hp : p.Stands db) : p.Stands db' := by
  refine ⟨?_, ?_, ?_, ?_⟩
  · rw [h.job]; exact hp.job
  · rw [h.run]; exact hp.run
  · rw [h.order]; exact hp.order
  · rw [h.subscription]; exact hp.subscription

theorem SameRows.durable {db db' : Database} (h : p.SameRows db db') : p.Durable db' ↔ p.Durable db := by
  constructor
  · rintro ⟨hj, ho, hr⟩
    simp only [jobStatus, orderStatus, h.job, h.run, h.order] at hj ho hr
    exact ⟨hj, ho, hr⟩
  · rintro ⟨hj, ho, hr⟩
    refine ⟨?_, ?_, ?_⟩
    · simpa only [jobStatus, h.job] using hj
    · simpa only [orderStatus, h.order] using ho
    · simpa only [jobStatus, h.run] using hr

/-- A step that leaves the four rows alone and notifies nobody is certain. -/
theorem certain_of_sameRows {m : WorldMoment} {past : List WorldMoment}
    (h : p.SameRows m.before.shared.database m.after.shared.database)
    (hnotify : p.NotifiedTruly m) : p.Certain m past := by
  refine ⟨?_, h.durable.mpr, hnotify⟩
  simp only [Together, jobStatus, subscriptionStatus, orderStatus, h.job, h.run, h.order, h.subscription]
  rintro (⟨hn, hy⟩ | ⟨hn, hy⟩ | ⟨hn, hy⟩ | ⟨hn, hy⟩)
  · exact absurd hy hn
  · exact absurd hy hn
  · exact absurd hy hn
  · exact absurd hy hn

end Purchase

abbrev Traced := World × List WorldMoment

/-- Nothing but audit entries is pending. -/
def OnlyAudits (ws : List Write) : Prop := ∀ c ∈ ws, ∃ entry, c = .addAuditLog entry

theorem onlyAudits_nil : OnlyAudits [] := by simp [OnlyAudits]

theorem OnlyAudits.sameRows {ws : List Write} (hws : OnlyAudits ws) (p : Purchase) (db : Database) :
    p.SameRows db (Write.applyAll ws db) := by
  induction ws generalizing db with
  | nil => exact ⟨rfl, rfl, rfl, rfl⟩
  | cons c ws ih =>
    obtain ⟨entry, rfl⟩ := hws c (List.mem_cons_self ..)
    have hrest := ih (fun c' hc' => hws c' (List.mem_cons_of_mem _ hc'))
      (Write.apply db (.addAuditLog entry))
    exact ⟨hrest.job, hrest.run, hrest.order, hrest.subscription⟩

section Calls

variable (p : Purchase)

/-- The runs of the call in which nobody disturbs the observer. -/
abbrev undisturbed : Handler port Exn Traced := traced worlds Interferes p.Undisturbed

/-- The job is not finalized, and the session's changes satisfy `K`. -/
structure Running (K : List Write → Prop) (s : Traced) : Prop where
  stands : p.Stands s.1.shared.database
  open_job : jobStatus s.1.shared.database p.job ≠ some .succeeded
  certain : History.Always p.Certain s.2
  pending : K s.1.session.pending

/-- The finalization is durable. -/
structure Landed (s : Traced) : Prop where
  durable : p.Durable s.1.shared.database
  certain : History.Always p.Certain s.2
  pending : OnlyAudits s.1.session.pending

variable {p} {K : List Write → Prop} {w t : World} {tr : List WorldMoment}

theorem Running.interfere (h : Running p K (w, tr)) (hI : Interferes w t) : Running p K (t, tr) := by
  obtain ⟨db, hjobs, horders, hsubs, rfl⟩ := hI
  refine ⟨⟨?_, ?_, ?_, ?_⟩, ?_, h.certain, h.pending⟩
  · simpa [hjobs] using h.stands.job
  · simpa [hjobs] using h.stands.run
  · simpa [horders] using h.stands.order
  · simpa [hsubs] using h.stands.subscription
  · simpa [jobStatus, hjobs] using h.open_job

theorem Landed.interfere (h : Landed p (w, tr)) (hI : Interferes w t) : Landed p (t, tr) := by
  obtain ⟨db, hjobs, horders, hsubs, rfl⟩ := hI
  refine ⟨⟨?_, ?_, ?_⟩, h.certain, h.pending⟩
  · simpa [jobStatus, hjobs] using h.durable.job
  · simpa [orderStatus, horders] using h.durable.order
  · simpa [jobStatus, hjobs] using h.durable.run

/-- A step that leaves the four rows alone. -/
theorem Running.step {K' : List Write → Prop} {c : Call} {x : Except Exn c.Answer} {u : World}
    (h : Running p K (t, tr)) (hrows : p.SameRows t.shared.database u.shared.database)
    (hc : p.NotifiedTruly ⟨c, x, t, u⟩) (hK : K' u.session.pending) :
    Running p K' (u, ⟨c, x, t, u⟩ :: tr) := by
  refine ⟨hrows.stands h.stands, ?_, ⟨Purchase.certain_of_sameRows hrows hc, h.certain⟩, hK⟩
  simpa only [jobStatus, hrows.job] using h.open_job

theorem Landed.step {c : Call} {x : Except Exn c.Answer} {u : World} (h : Landed p (t, tr))
    (hrows : p.SameRows t.shared.database u.shared.database)
    (hc : p.NotifiedTruly ⟨c, x, t, u⟩) (hpending : OnlyAudits u.session.pending) :
    Landed p (u, ⟨c, x, t, u⟩ :: tr) :=
  ⟨hrows.durable.mpr h.durable, ⟨Purchase.certain_of_sameRows hrows hc, h.certain⟩, hpending⟩

/-- Quiet calls that notify nobody. -/
def passive : Call → Bool
  | .provider (.notifySend _) => false
  | c => c.quiet

theorem quiet_of_passive {c : Call} (hc : passive c = true) : c.quiet = true := by
  cases c with
  | provider c => rfl
  | _ => exact hc

theorem notifiedTruly_passive {c : Call} (hc : passive c = true) (x : Except Exn c.Answer)
    (t u : World) : p.NotifiedTruly ⟨c, x, t, u⟩ := by
  cases c with
  | provider c => cases c with
    | notifySend _ => cases hc
    | _ => trivial
  | _ => trivial

theorem keeps_running {c : Call} (hc : passive c = true) :
    Keeps (undisturbed p) (Running p K) (perform (S := port) c : Saga c.Answer) := by
  apply Keeps.call_traced
  intro w tr t choice hs hI _
  obtain ⟨hdb, hpending⟩ := World.act_quiet (quiet_of_passive hc) choice t
  have ht := hs.interfere hI
  refine ht.step ?_ (notifiedTruly_passive hc _ _ _) ?_
  · rw [show worlds.act c choice t = World.act c choice t from rfl, hdb]
    exact ⟨rfl, rfl, rfl, rfl⟩
  · rw [show worlds.act c choice t = World.act c choice t from rfl, hpending]
    exact ht.pending

theorem keeps_landed {c : Call} (hc : passive c = true) :
    Keeps (undisturbed p) (Landed p) (perform (S := port) c : Saga c.Answer) := by
  apply Keeps.call_traced
  intro w tr t choice hs hI _
  obtain ⟨hdb, hpending⟩ := World.act_quiet (quiet_of_passive hc) choice t
  have ht := hs.interfere hI
  refine ht.step ?_ (notifiedTruly_passive hc _ _ _) ?_
  · rw [show worlds.act c choice t = World.act c choice t from rfl, hdb]
    exact ⟨rfl, rfl, rfl, rfl⟩
  · rw [show worlds.act c choice t = World.act c choice t from rfl, hpending]
    exact ht.pending

/-- A change of a mapped object never fails. -/
theorem write_wp (K' : List Write → Prop) {change : Write} {s : Traced} (hs : Running p K s)
    (hK : ∀ ws, K ws → K' (ws ++ [change])) :
    (session (.write change)).wp (undisturbed p) (fun r s' => r = .ok () ∧ Running p K' s') s := by
  obtain ⟨w, tr⟩ := s
  simp only [session, perform, wp_call_traced, wp_ofExcept]
  intro t hI fate _
  have ht := hs.interfere hI
  exact ⟨rfl, ht.step (.of (t.sameRows_stage [change])) trivial (hK _ ht.pending)⟩

/-- A rollback discards the changes, also when it raises. -/
theorem keeps_rollback {s : Traced} (hs : Running p K s) :
    rollback.wp (undisturbed p) (fun _ => Running p (· = [])) s := by
  obtain ⟨w, tr⟩ := s
  simp only [rollback, session, perform, wp_call_traced, wp_ofExcept]
  intro t hI fate _
  exact (hs.interfere hI).step ⟨rfl, rfl, rfl, rfl⟩ trivial rfl

theorem landed_rollback : Keeps (undisturbed p) (Landed p) rollback := by
  apply Keeps.call_traced
  intro w tr t fate hs hI _
  exact (hs.interfere hI).step ⟨rfl, rfl, rfl, rfl⟩ trivial onlyAudits_nil

theorem landed_commit : Keeps (undisturbed p) (Landed p) commit := by
  apply Keeps.call_traced
  intro w tr t fate hs hI _
  have ht := hs.interfere hI
  rcases t.commit_cases fate with hland | ⟨hsame, -⟩
  · rw [show (worlds.act (.session .commit) fate t).2 = t.land from hland]
    exact ht.step (ht.pending.sameRows p _) trivial onlyAudits_nil
  · rw [show (worlds.act (.session .commit) fate t).2 = t from hsame]
    exact ht.step ⟨rfl, rfl, rfl, rfl⟩ trivial ht.pending

theorem landed_audit (entry : AuditLog) :
    Keeps (undisturbed p) (Landed p) (session (.write (.addAuditLog entry))) := by
  apply Keeps.call_traced
  intro w tr t fate hs hI _
  have ht := hs.interfere hI
  refine ht.step (.of (t.sameRows_stage [.addAuditLog entry])) trivial ?_
  intro c hc
  rcases List.mem_append.mp hc with hc | hc
  · exact ht.pending c hc
  · exact ⟨entry, List.mem_singleton.mp hc⟩

end Calls

namespace Purchase

variable (p : Purchase)

/-- A change that finalizes none of the four rows and keeps payloads. -/
def Plain : Write → Prop
  | .insertJob .. | .insertSubscription .. => False
  | .updateJob _ change => ∀ row, (change row).payload = row.payload ∧
      ((change row).status = .succeeded → row.status = .succeeded)
  | .updateSubscription _ change => ∀ row, (change row).status = .active → row.status = .active
  | .updateOrder _ change => ∀ row, (change row).status = .activated → row.status = .activated
  | _ => True

/-- Of the four rows none is newly finalized, and none is lost. -/
structure NotFinalized (db db' : Database) : Prop where
  stands : p.Stands db → p.Stands db'
  jobs : ∀ id, jobStatus db' id = some .succeeded → jobStatus db id = some .succeeded
  subscription : subscriptionStatus db' p.subscription = some .active →
    subscriptionStatus db p.subscription = some .active
  order : orderStatus db' p.order = some .activated → orderStatus db p.order = some .activated

variable {p}

theorem NotFinalized.refl (db : Database) : p.NotFinalized db db := ⟨id, fun _ => id, id, id⟩

theorem NotFinalized.trans {a b c : Database} (hab : p.NotFinalized a b) (hbc : p.NotFinalized b c) :
    p.NotFinalized a c :=
  ⟨hbc.stands ∘ hab.stands, fun id => hab.jobs id ∘ hbc.jobs id,
    hab.subscription ∘ hbc.subscription, hab.order ∘ hbc.order⟩

theorem Plain.notFinalized {c : Write} (hc : Plain c) (db : Database) : p.NotFinalized db (c.apply db) := by
  cases c with
  | insertJob id row => cases hc
  | insertSubscription id row => cases hc
  | updateJob id change =>
    refine ⟨?_, ?_, fun h => h, fun h => h⟩
    · rintro ⟨⟨row, hrow, hpayload⟩, hrun, horder, hsub⟩
      refine ⟨?_, ?_, horder, hsub⟩
      · simp only [Write.apply, Table.get_modify, hrow]
        split_ifs
        · exact ⟨_, rfl, (hc row).1.trans hpayload⟩
        · exact ⟨row, rfl, hpayload⟩
      · simp only [Write.apply, Table.get_modify]
        split_ifs <;> simpa using hrun
    · intro j
      simp only [jobStatus, Write.apply, Table.get_modify]
      split_ifs
      · cases db.jobs.get j with
        | none => simp
        | some row => simpa using (hc row).2
      · exact fun h => h
  | updateSubscription id change =>
    refine ⟨?_, fun _ h => h, ?_, fun h => h⟩
    · rintro ⟨hjob, hrun, horder, hsub⟩
      refine ⟨hjob, hrun, horder, ?_⟩
      simp only [Write.apply, Table.get_modify]
      split_ifs <;> simpa using hsub
    · simp only [subscriptionStatus, Write.apply, Table.get_modify]
      split_ifs
      · cases db.subscriptions.get p.subscription with
        | none => simp
        | some row => simpa using hc row
      · exact fun h => h
  | updateOrder id change =>
    refine ⟨?_, fun _ h => h, fun h => h, ?_⟩
    · rintro ⟨hjob, hrun, horder, hsub⟩
      refine ⟨hjob, hrun, ?_, hsub⟩
      simp only [Write.apply, Table.get_modify]
      split_ifs <;> simpa using horder
    · simp only [orderStatus, Write.apply, Table.get_modify]
      split_ifs
      · cases db.orders.get p.order with
        | none => simp
        | some row => simpa using hc row
      · exact fun h => h
  | _ =>
    refine ⟨?_, fun _ => id, id, id⟩
    rintro ⟨hjob, hrun, horder, hsub⟩
    exact ⟨hjob, hrun, horder, hsub⟩

theorem plain_applyAll {ws : List Write} (hws : ∀ c ∈ ws, Plain c) (db : Database) :
    p.NotFinalized db (Write.applyAll ws db) := by
  induction ws generalizing db with
  | nil => exact .refl db
  | cons c ws ih =>
    exact ((hws c (List.mem_cons_self ..)).notFinalized db).trans
      (ih (fun c' hc' => hws c' (List.mem_cons_of_mem _ hc')) _)

end Purchase

section Recording

variable {p : Purchase} {K : List Write → Prop} {w t : World} {tr : List WorldMoment}

/-- Every pending change is plain. -/
def AllPlain (ws : List Write) : Prop := ∀ c ∈ ws, Purchase.Plain c

theorem allPlain_nil : AllPlain [] := by simp [AllPlain]

theorem AllPlain.append {ws : List Write} {c : Write} (hws : AllPlain ws) (hc : Purchase.Plain c) :
    AllPlain (ws ++ [c]) := by
  intro c' hc'
  rcases List.mem_append.mp hc' with hc' | hc'
  · exact hws c' hc'
  · rw [List.mem_singleton.mp hc']
    exact hc

theorem Running.weaken {K' : List Write → Prop} {s : Traced} (hs : Running p K s)
    (hK : ∀ ws, K ws → K' ws) : Running p K' s :=
  ⟨hs.stands, hs.open_job, hs.certain, hK _ hs.pending⟩

/-- A commit of plain changes finalizes nothing, whether it lands or not. -/
theorem plain_commit_wp {s : Traced} (hs : Running p AllPlain s) : commit.wp (undisturbed p)
    (fun | .ok _ => Running p (· = []) | .error _ => Running p AllPlain) s := by
  obtain ⟨w, tr⟩ := s
  simp only [commit, session, perform, wp_call_traced, wp_ofExcept]
  intro t hI fate _
  have ht := hs.interfere hI
  have hlands : ∀ x, Running p (· = []) (t.land, ⟨.session .commit, x, t, t.land⟩ :: tr) := by
    intro x
    have hquiet : p.NotFinalized t.shared.database t.land.shared.database :=
      Purchase.plain_applyAll ht.pending _
    refine ⟨hquiet.stands ht.stands, ?_, ⟨⟨?_, ?_, trivial⟩, ht.certain⟩, rfl⟩
    · exact fun h => ht.open_job (hquiet.jobs _ h)
    · rintro (⟨hn, hy⟩ | ⟨hn, hy⟩ | ⟨hn, hy⟩ | ⟨hn, hy⟩)
      · exact absurd (hquiet.jobs _ hy) hn
      · exact absurd (hquiet.subscription hy) hn
      · exact absurd (hquiet.order hy) hn
      · exact absurd (hquiet.jobs _ hy) hn
    · exact fun hd => absurd hd.job ht.open_job
  rcases t.commit_cases fate with hland | ⟨hsame, exc, herror⟩
  · rw [show worlds.act (.session .commit) fate t = ((t.commit fate).1, t.land) from
      Prod.ext rfl hland]
    cases (t.commit fate).1 with
    | ok _ => exact hlands _
    | error exc => exact (hlands _).weaken fun ws hws => hws ▸ allPlain_nil
  · rw [show worlds.act (.session .commit) fate t = (.error exc, t) from Prod.ext herror hsame]
    exact ht.step ⟨rfl, rfl, rfl, rfl⟩ trivial ht.pending

theorem keeps_plain_commit : Keeps (undisturbed p) (Running p AllPlain) commit := by
  intro s hs
  refine wp_mono _ _ ?_ (plain_commit_wp hs)
  rintro (e | _) t ht
  · exact ht
  · exact ht.weaken fun ws hws => hws ▸ allPlain_nil

theorem keeps_plain_write {change : Write} (hc : Purchase.Plain change) :
    Keeps (undisturbed p) (Running p AllPlain) (session (.write change)) := by
  intro s hs
  refine wp_mono _ _ ?_ (write_wp AllPlain hs (fun ws hws => AllPlain.append hws hc))
  exact fun r s' h => h.2

theorem keeps_payloadSubscription (payload : GatewayPayload) :
    Keeps (undisturbed p) (Running p K) (payloadSubscription payload) := by
  unfold payloadSubscription
  split
  · exact Keeps.bind (keeps_running rfl) fun _ => Keeps.ret _
  · exact Keeps.ret _

theorem keeps_updatePayloadRun {payload : GatewayPayload} {change : Job → Job}
    (hc : ∀ id, Purchase.Plain (.updateJob id change)) :
    Keeps (undisturbed p) (Running p AllPlain) (updatePayloadRun payload change) := by
  unfold updatePayloadRun
  split
  · refine Keeps.bind (keeps_running rfl) fun run => ?_
    exact Keeps.ite (keeps_plain_write (hc _)) (Keeps.ret _)
  · exact Keeps.ret _

theorem keeps_auditSubscription (action : String) (id : ℕ) (result detail : String) :
    Keeps (undisturbed p) (Running p AllPlain) (auditSubscription action id result detail) :=
  keeps_plain_write trivial

theorem keeps_writeFailure (jobId : ℕ) (job : Job) (payload : GatewayPayload)
    (subscription : Option ℕ) (reasonCode : String) (now : Timestamp) :
    Keeps (undisturbed p) (Running p AllPlain)
      (writeFailure jobId job payload subscription reasonCode now) := by
  refine Keeps.bind (keeps_plain_write fun row => ⟨rfl, by simp⟩) fun _ => ?_
  refine Keeps.bind (Keeps.ite (keeps_updatePayloadRun fun id row => ⟨rfl, by simp⟩)
    (Keeps.ret _)) fun _ => ?_
  cases subscription with
  | none => exact Keeps.ret _
  | some subscriptionId =>
    exact Keeps.bind (keeps_plain_write fun row h => h) fun _ => keeps_auditSubscription _ _ _ _

/-- Whatever a failed attempt does afterwards, it reports nothing finalized. -/
def Unfinalized (p : Purchase) (r : Except Exn GatewayReconciliationResult) (s : Traced) : Prop :=
  Running p (fun _ => True) s ∧ ∀ res, r = .ok res → res.finalized = false

theorem Running.unfinalized {s : Traced} (hs : Running p K s) (e : Exn) :
    Unfinalized p (.error e) s :=
  ⟨hs.weaken fun _ _ => trivial, fun _ h => nomatch h⟩

theorem keeps_getJob (jobId : ℕ) : Keeps (undisturbed p) (Running p K) (session (.getJob jobId)) :=
  keeps_running rfl

/-- A recorded failure finalizes nothing and reports nothing finalized. -/
theorem recordFailure_wp {s : Traced} (hs : Running p K s) (jobId : ℕ) (error : Exn)
    (now : Timestamp) :
    (recordFailure jobId error now).wp (undisturbed p) (Unfinalized p) s := by
  unfold recordFailure
  rw [wp_bind]
  refine wp_mono _ _ ?_ (keeps_rollback hs)
  rintro (e | _) t ht
  · exact ht.unfinalized e
  have hplain : Running p AllPlain t := ht.weaken fun ws hws => hws ▸ allPlain_nil
  refine Keeps.wp_bind (keeps_getJob jobId) (fun e _ h => h.unfinalized e) (fun job u hu => ?_) hplain
  cases job with
  | none => exact hu.unfinalized _
  | some job =>
    refine Keeps.wp_bind (Keeps.ofExcept _) (fun e _ h => h.unfinalized e) (fun payload _ h => ?_) hu
    refine Keeps.wp_bind (keeps_payloadSubscription payload) (fun e _ h => h.unfinalized e)
      (fun subscription _ h => ?_) h
    refine Keeps.wp_bind (keeps_writeFailure _ _ _ _ _ _) (fun e _ h => h.unfinalized e) (fun _ _ h => ?_) h
    refine Keeps.wp_bind keeps_plain_commit (fun e _ h => h.unfinalized e) (fun _ _ h => ?_) h
    exact ⟨h.weaken fun _ _ => trivial, fun res hres => by cases hres; rfl⟩

theorem keeps_markSubscriptionUnknown (subscription : Option ℕ) :
    Keeps (undisturbed p) (Running p AllPlain) (markSubscriptionUnknown subscription) := by
  cases subscription with
  | none => exact Keeps.ret _
  | some subscriptionId =>
    exact Keeps.bind (keeps_plain_write fun row h => h) fun _ => keeps_auditSubscription _ _ _ _

/-- The unknown-outcome record leaves the job open when it was open. -/
theorem markFinalizationUnknown_wp {s : Traced} (hs : Running p K s) (jobId : ℕ)
    (payload : GatewayPayload) (now : Timestamp) :
    (markFinalizationUnknown jobId payload now).wp (undisturbed p) (Unfinalized p) s := by
  unfold markFinalizationUnknown
  rw [wp_bind]
  refine wp_mono _ _ ?_ (keeps_rollback hs)
  rintro (e | _) t ht
  · exact ht.unfinalized e
  have hplain : Running p AllPlain t := ht.weaken fun ws hws => hws ▸ allPlain_nil
  refine Keeps.wp_bind (I := Running p AllPlain) ?_ (fun e _ h => h.unfinalized e)
    (fun _ u hu => ?_) hplain
  refine Keeps.tryCatch ?_ fun _ => ?_
  · refine Keeps.bind (keeps_getJob jobId) fun job => ?_
    cases job with
    | none => exact Keeps.raise _
    | some job =>
      refine Keeps.bind (keeps_plain_write fun row => ⟨rfl, by simp⟩) fun _ => ?_
      refine Keeps.bind (keeps_payloadSubscription payload) fun subscription => ?_
      exact Keeps.bind (keeps_markSubscriptionUnknown subscription) fun _ => keeps_plain_commit
  · refine Keeps.bind (Keeps.suppress fun u hu => ?_) fun _ => Keeps.raise _
    refine wp_mono _ _ ?_ (keeps_rollback hu)
    exact fun _ _ h => h.weaken fun ws hws => hws ▸ allPlain_nil
  · exact ⟨hu.weaken fun _ _ => trivial, fun res hres => by cases hres; rfl⟩

end Recording

namespace Purchase

variable (p : Purchase)

/-- The rows that the finalization looks up. -/
structure Present (db : Database) : Prop where
  run : (db.jobs.get p.run).isSome
  order : (db.orders.get p.order).isSome
  subscription : (db.subscriptions.get p.subscription).isSome

/-- Everything the finalization of the purchase writes, in its order. -/
def finalWrites (at' : Timestamp) : List Write :=
  [.updateOrder p.order fun row => { row with status := .activated, activatedAt := some at' },
    .updateSubscription p.subscription fun row => { row with status := .active, provisionError := none },
    .updateJob p.job fun row =>
      { row with status := .succeeded, lockedAt := none, lastErrorCode := none },
    .addAuditLog ⟨"GATEWAY_RECONCILIATION_SUCCEEDED", "SUBSCRIPTION", toString p.subscription,
      "SUCCESS", "DB desired state, runtime projection, and finalization committed"⟩,
    .updateJob p.run fun run => { run with status := .succeeded, lastErrorCode := none }]

/-- The first `n` changes of the finalization are pending. -/
def Written (n : ℕ) (ws : List Write) : Prop := ∃ at', ws = (p.finalWrites at').take n

variable {p}

/-- No change removes a row. -/
theorem Present.apply {db : Database} (h : p.Present db) (c : Write) : p.Present (c.apply db) := by
  obtain ⟨hrun, horder, hsub⟩ := h
  cases c <;> refine ⟨?_, ?_, ?_⟩ <;> simp only [Write.apply, Table.get_insert, Table.get_modify] <;>
    first | assumption | (split_ifs <;> simp [hrun, horder, hsub])

theorem Present.applyAll {db : Database} (h : p.Present db) (ws : List Write) :
    p.Present (Write.applyAll ws db) := by
  induction ws generalizing db with
  | nil => exact h
  | cons c ws ih => exact ih (h.apply c)

theorem Stands.present {db : Database} (h : p.Stands db) : p.Present db :=
  ⟨h.run, h.order, h.subscription⟩

/-- Together the changes finalize the four rows. -/
theorem finalWrites_durable {db : Database} (h : p.Stands db) (at' : Timestamp) :
    p.Durable (Write.applyAll (p.finalWrites at') db) ∧
      subscriptionStatus (Write.applyAll (p.finalWrites at') db) p.subscription = some .active := by
  obtain ⟨⟨job, hjob, -⟩, hrun, horder, hsub⟩ := h
  obtain ⟨run, hrun⟩ := Option.isSome_iff_exists.mp hrun
  obtain ⟨order, horder⟩ := Option.isSome_iff_exists.mp horder
  obtain ⟨subscription, hsub⟩ := Option.isSome_iff_exists.mp hsub
  refine ⟨⟨?_, ?_, ?_⟩, ?_⟩
  · simp only [jobStatus, finalWrites, Write.applyAll_cons, Write.applyAll_nil, Write.apply,
      Table.get_modify, hjob]
    split_ifs <;> rfl
  · simp [orderStatus, finalWrites, Write.apply, horder]
  · simp only [jobStatus, finalWrites, Write.applyAll_cons, Write.applyAll_nil, Write.apply,
      Table.get_modify, hrun]
    split_ifs <;> rfl
  · simp [subscriptionStatus, finalWrites, Write.apply, hsub]

end Purchase

section Finalizing

variable {p : Purchase} {K : List Write → Prop}

/-- A lookup of a row of the purchase finds it, when it answers. -/
theorem lookup_wp {c : SessionCall} (hc : c.reads = true) {F : Except Exn c.Answer → Prop}
    (hF : ∀ t : World, ∀ fate, p.Present t.view → F (t.sessionCall fate c).1) {s : Traced}
    (hs : Running p K s) :
    (session c).wp (undisturbed p) (fun r s' => F r ∧ Running p K s') s := by
  obtain ⟨w, tr⟩ := s
  simp only [session, perform, wp_call_traced, wp_ofExcept]
  intro t hI fate _
  have ht := hs.interfere hI
  have hact : worlds.act (.session c) fate t = ((t.sessionCall fate c).1, t) :=
    Prod.ext rfl (t.sessionCall_reads fate hc)
  rw [hact]
  exact ⟨hF t fate (ht.stands.present.applyAll _), ht.step ⟨rfl, rfl, rfl, rfl⟩ trivial ht.pending⟩

/-- The next change of the finalization. -/
theorem write_final {n : ℕ} {change : Write} {s : Traced}
    (hchange : ∀ at', (p.finalWrites at').take n ++ [change] = (p.finalWrites at').take (n + 1))
    {β : Type} {f : Unit → Saga β} {Q : Except Exn β → Traced → Prop}
    (hf : ∀ t, Running p (p.Written (n + 1)) t → (f ()).wp (undisturbed p) Q t)
    (hs : Running p (p.Written n) s) :
    (session (.write change) >>= f).wp (undisturbed p) Q s := by
  rw [wp_bind]
  refine wp_mono _ _ ?_ (write_wp (p.Written (n + 1)) hs ?_)
  · rintro r t ⟨rfl, ht⟩
    exact hf t ht
  · rintro ws ⟨at', rfl⟩
    exact ⟨at', hchange at'⟩

/-- What the finalization leaves: all its changes, or an exception. -/
def Finalized (p : Purchase) : Except Exn Unit → Traced → Prop
  | .ok _, s => Running p (p.Written 5) s
  | .error _, s => Running p (fun _ => True) s

theorem keeps_orNow (at' : Option Timestamp) : Keeps (undisturbed p) (Running p K) (orNow at') := by
  cases at' with
  | none => exact keeps_running rfl
  | some at' => exact Keeps.ret _

theorem Running.any {s : Traced} (hs : Running p K s) : Running p (fun _ => True) s :=
  hs.weaken fun _ _ => trivial

theorem finalizePurchase_wp {s : Traced} (hs : Running p (· = []) s) :
    (finalizePurchase p.subscription p.payload).wp (undisturbed p)
      (fun | .ok _ => Running p (p.Written 2) | .error _ => Running p fun _ => True) s := by
  simp only [finalizePurchase, Purchase.payload]
  refine Keeps.wp_bind (keeps_running rfl) (fun _ _ h => h.any) (fun order t ht => ?_) hs
  cases order with
  | none => exact ht.any
  | some order =>
    refine Keeps.wp_bind (keeps_orNow _) (fun _ _ h => h.any) (fun at' u hu => ?_) ht
    rw [wp_bind]
    refine wp_mono _ _ ?_ (write_wp (p.Written 1) hu ?_)
    · rintro r v ⟨rfl, hv⟩
      refine wp_mono _ _ ?_ (write_wp (p.Written 2) hv ?_)
      · rintro r x ⟨rfl, hx⟩
        exact hx
      · rintro ws ⟨at', rfl⟩
        exact ⟨at', rfl⟩
    · rintro ws rfl
      exact ⟨at', rfl⟩

/-- The run that the payload names exists, and is finalized with the others. -/
theorem updatePayloadRun_final {s : Traced} (hs : Running p (p.Written 4) s) :
    (updatePayloadRun p.payload fun run =>
      { run with status := .succeeded, lastErrorCode := none }).wp (undisturbed p) (Finalized p) s := by
  simp only [updatePayloadRun, Purchase.payload, wp_bind]
  refine wp_mono _ _ ?_ (lookup_wp (c := .getJob p.run) rfl
    (F := fun r => ∀ run : Option Job, r = .ok run → run.isSome = true) ?_ hs)
  · rintro (e | run) t ⟨hfound, ht⟩
    · exact ht.any
    · have hrun : Option.isSome run = true := hfound run rfl
      simp only [bindPost_ok, Saga.when, hrun, if_true]
      refine wp_mono _ _ ?_ (write_wp (p.Written 5) ht ?_)
      · rintro r u ⟨rfl, hu⟩
        exact hu
      · rintro ws ⟨at', rfl⟩
        exact ⟨at', rfl⟩
  · intro t fate hpresent run hrun
    rw [World.query_ok _ hrun]
    exact hpresent.run

theorem finalize_wp {s : Traced} (hs : Running p (· = []) s) :
    (finalize p.job p.payload).wp (undisturbed p) (Finalized p) s := by
  unfold finalize
  refine Keeps.wp_bind (keeps_running rfl) (fun _ _ h => h.any) (fun subscription t ht => ?_) hs
  cases subscription with
  | none => exact ht.any
  | some _ =>
    rw [wp_bind]
    refine wp_mono _ _ ?_ (finalizePurchase_wp ht)
    rintro (e | _) u hu
    · exact hu
    · refine write_final (fun _ => rfl) (fun v hv => ?_) hu
      refine write_final (fun _ => rfl) (fun x hx => ?_) hv
      exact updatePayloadRun_final hx

/-- The commit of a finalization: when it returned it landed, and when it raised it may have. -/
theorem commit_wp {s : Traced} (hs : Running p (p.Written 5) s) :
    commit.wp (undisturbed p)
      (fun | .ok _ => Landed p | .error _ => fun t => Landed p t ∨ Running p (p.Written 5) t) s := by
  obtain ⟨w, tr⟩ := s
  simp only [commit, session, perform, wp_call_traced, wp_ofExcept]
  intro t hI fate _
  have ht := hs.interfere hI
  have hlands : ∀ x, Landed p (t.land, ⟨.session .commit, x, t, t.land⟩ :: tr) := by
    intro x
    obtain ⟨at', hat⟩ := ht.pending
    have hview : t.land.shared.database = Write.applyAll (p.finalWrites at') t.shared.database := by
      rw [World.database_land, World.view, show t.session.pending = p.finalWrites at' from hat]
    have hdurable := Purchase.finalWrites_durable ht.stands at'
    rw [← hview] at hdurable
    refine ⟨hdurable.1, ⟨⟨fun _ => hdurable, ?_, trivial⟩, ht.certain⟩, onlyAudits_nil⟩
    exact fun hd => absurd hd.job ht.open_job
  rcases t.commit_cases fate with hland | ⟨hsame, exc, herror⟩
  · rw [show worlds.act (.session .commit) fate t = ((t.commit fate).1, t.land) from
      Prod.ext rfl hland]
    cases (t.commit fate).1 with
    | ok _ => exact hlands _
    | error exc => exact .inl (hlands _)
  · rw [show worlds.act (.session .commit) fate t = (.error exc, t) from Prod.ext herror hsame]
    exact .inr (ht.step ⟨rfl, rfl, rfl, rfl⟩ trivial ht.pending)

/-- A read of the session, or of an independent one, leaves the world alone. -/
theorem reads_wp {c : SessionCall} (hc : c.reads = true) {Q : Except Exn c.Answer → Traced → Prop}
    {s : Traced}
    (hQ : ∀ t fate, Interferes s.1 t → p.Undisturbed ⟨.session c, (t.sessionCall fate c).1, t, t⟩ s.2 →
      Q (t.sessionCall fate c).1 (t, ⟨.session c, (t.sessionCall fate c).1, t, t⟩ :: s.2)) :
    (session c).wp (undisturbed p) Q s := by
  simp only [session, perform, wp_call_traced, wp_ofExcept]
  intro t hI fate hP
  have hact : worlds.act (.session c) fate t = ((t.sessionCall fate c).1, t) :=
    Prod.ext rfl (t.sessionCall_reads fate hc)
  rw [hact] at hP ⊢
  exact hQ t fate hI hP

/-- A probe of a finalized row finds it finalized, when it answers. -/
theorem probe_landed {c : SessionCall} (hc : c.reads = true) {v : c.Answer} {β : Type}
    {f : c.Answer → Saga β} {Q : Except Exn β → Traced → Prop}
    (htrue : ∀ t : World, ∀ fate a, p.Durable t.shared.database →
      p.Undisturbed ⟨.session c, (t.sessionCall fate c).1, t, t⟩ [] →
      (t.sessionCall fate c).1 = .ok a → a = v)
    (herror : ∀ e t, Landed p t → Q (.error e) t)
    (hf : ∀ t, Landed p t → (f v).wp (undisturbed p) Q t) {s : Traced} (hs : Landed p s) :
    (session c >>= f).wp (undisturbed p) Q s := by
  rw [wp_bind]
  refine reads_wp hc fun t fate hI hP => ?_
  have ht := hs.interfere hI
  have hread := fun x : Except Exn c.Answer =>
    ht.step (c := .session c) (x := x) ⟨rfl, rfl, rfl, rfl⟩ trivial ht.pending
  cases hx : (t.sessionCall fate c).1 with
  | error e => exact herror e _ (hread _)
  | ok a =>
    rw [hx] at hP
    have ha : a = v := htrue t fate a ht.durable (by rw [hx]; exact hP) hx
    subst ha
    exact hf _ (hread _)

/-- The probe of the job tells that it is open. -/
theorem probeJob_running {s : Traced} (hs : Running p K s) :
    (session (.probeJobStatus p.job)).wp (undisturbed p)
      (fun r t => r ≠ .ok (some .succeeded) ∧ Running p K t) s := by
  refine reads_wp rfl fun t fate hI _ => ?_
  have ht := hs.interfere hI
  refine ⟨fun h => ?_, ht.step ⟨rfl, rfl, rfl, rfl⟩ trivial ht.pending⟩
  exact ht.open_job (World.query_ok _ h).symm

/-- The four rows of a purchase are not classified as landed while the job is open. -/
theorem purchaseFinalizationOutcome_open {job : Option JobStatus} (hjob : job ≠ some .succeeded)
    (subscription : Option SubscriptionStatus) (order : Option OrderStatus) (run : Option JobStatus) :
    purchaseFinalizationOutcome job subscription order run ≠ .landed := by
  unfold purchaseFinalizationOutcome
  split
  · rename_i job subscription order run
    have hstatus : job ≠ .succeeded := fun h => hjob (h ▸ rfl)
    split_ifs <;> simp_all
  · simp

/-- The class that the handlers re-raise without recording a failure. -/
def IsUnknown {α : Type} (r : Except Exn α) : Prop := ∃ e, r = .error e ∧ e.cls = .gatewayCommitOutcomeUnknown

/-- The classification of a finalization as its payload asks for it. -/
def classification (p : Purchase) : Saga FinalizationCommitOutcome :=
  classifyFinalizationOutcome p.job p.subscription (some p.order) (some p.run) (some .purchase)

/-- While the job is open the finalization is not classified as landed. -/
theorem classify_running {s : Traced} (hs : Running p K s) :
    (classification p).wp (undisturbed p) (fun r t => r ≠ .ok .landed ∧ Running p K t) s := by
  simp only [classification, classifyFinalizationOutcome, wp_tryCatch, if_true,
    probePurchaseFinalization, probeRunStatus]
  have herror : ∀ e t, Running p K t → catchPost (undisturbed p)
      (fun _ => .raise (commitOutcomeUnknown "GATEWAY_FINALIZATION_COMMIT_OUTCOME_UNKNOWN"))
      (fun r t => r ≠ .ok FinalizationCommitOutcome.landed ∧ Running p K t) (.error e) t :=
    fun e t ht => And.intro (fun h => nomatch h) ht
  rw [wp_bind]
  refine wp_mono _ _ ?_ (probeJob_running hs)
  rintro (e | job) t ⟨hjob, ht⟩
  · exact herror e t ht
  refine Keeps.wp_bind (keeps_running rfl) herror (fun subscription u hu => ?_) ht
  refine Keeps.wp_bind (keeps_running rfl) herror (fun order v hv => ?_) hu
  refine Keeps.wp_bind (keeps_running rfl) herror (fun run x hx => ?_) hv
  refine And.intro (fun h => ?_) hx
  exact purchaseFinalizationOutcome_open (fun hs => hjob (hs ▸ rfl)) _ _ _ (Except.ok.inj h)

/-- A durable finalization is classified as landed, or not at all. -/
theorem classify_landed {s : Traced} (hs : Landed p s) :
    (classification p).wp (undisturbed p)
      (fun r t => (r = .ok .landed ∨ IsUnknown r) ∧ Landed p t) s := by
  simp only [classification, classifyFinalizationOutcome, wp_tryCatch, if_true,
    probePurchaseFinalization, probeRunStatus]
  have herror : ∀ e t, Landed p t → catchPost (undisturbed p)
      (fun _ => .raise (commitOutcomeUnknown "GATEWAY_FINALIZATION_COMMIT_OUTCOME_UNKNOWN"))
      (fun r t => (r = .ok FinalizationCommitOutcome.landed ∨ IsUnknown r) ∧ Landed p t)
      (.error e) t :=
    fun e t ht => And.intro (.inr ⟨_, rfl, rfl⟩) ht
  refine probe_landed rfl (v := some .succeeded) (fun t fate a hd _ ha => ?_) herror (fun t ht => ?_) hs
  · exact (World.query_ok _ ha).trans hd.job
  refine probe_landed rfl (v := some .active) (fun t fate a hd hP ha => ?_) herror (fun u hu => ?_) ht
  · exact (World.query_ok _ ha).trans (hP rfl hd)
  refine probe_landed rfl (v := some .activated) (fun t fate a hd _ ha => ?_) herror (fun v hv => ?_) hu
  · exact (World.query_ok _ ha).trans hd.order
  refine probe_landed rfl (v := some .succeeded) (fun t fate a hd _ ha => ?_) herror (fun x hx => ?_) hv
  · exact (World.query_ok _ ha).trans hd.run
  exact And.intro (.inl rfl) hx

end Finalizing

section Attempt

variable {p : Purchase} {K : List Write → Prop}

/-- Either the finalization is durable, or it is not and nothing reports that it is. -/
def Settled (p : Purchase) (r : Except Exn GatewayReconciliationResult) (s : Traced) : Prop :=
  (Landed p s ∧ ∀ e, r = .error e → e.cls = .gatewayCommitOutcomeUnknown) ∨ Unfinalized p r s

theorem settleFinalization_landed {s : Traced} (hs : Landed p s) (commitError : Exn) :
    (settleFinalization p.job p.subscription p.payload commitError).wp (undisturbed p) (Settled p) s := by
  unfold settleFinalization
  rw [wp_bind, wp_suppress]
  refine wp_mono _ _ (fun _ t ht => ?_) (landed_rollback s hs)
  rw [bindPost_ok, wp_bind]
  refine wp_mono _ _ ?_ (classify_landed ht)
  rintro (e | outcome) u ⟨houtcome, hu⟩
  · refine .inl ⟨hu, fun e' he => ?_⟩
    cases he
    obtain hok | ⟨e', he, hcls⟩ := houtcome
    · cases hok
    · cases he
      exact hcls
  · obtain hok | ⟨e', he, -⟩ := houtcome
    · cases hok
      simp only [bindPost_ok, wp_bind, wp_suppress]
      refine wp_mono _ _ (fun _ v hv => ?_) (landed_rollback u hu)
      exact .inl ⟨hv, fun e he => nomatch he⟩
    · cases he

theorem settleFinalization_running {s : Traced} (hs : Running p K s) (commitError : Exn) :
    (settleFinalization p.job p.subscription p.payload commitError).wp (undisturbed p)
      (Unfinalized p) s := by
  unfold settleFinalization
  rw [wp_bind, wp_suppress]
  refine wp_mono _ _ (fun _ t ht => ?_) (keeps_rollback hs)
  rw [bindPost_ok, wp_bind]
  refine wp_mono _ _ ?_ (classify_running ht)
  rintro (e | outcome) u ⟨houtcome, hu⟩
  · exact hu.unfinalized e
  · cases outcome with
    | landed => exact absurd rfl houtcome
    | absent =>
      exact Keeps.wp_bind (keeps_running rfl) (fun e _ h => h.unfinalized e)
        (fun now v hv => recordFailure_wp hv _ _ _) hu
    | unknown =>
      exact Keeps.wp_bind (keeps_running rfl) (fun e _ h => h.unfinalized e)
        (fun now v hv => markFinalizationUnknown_wp hv _ _ _) hu

theorem checkedPayload_payload (p : Purchase) : checkedPayload p.payload = .ok p.subscription := by
  simp [checkedPayload, Purchase.payload]

theorem commitFinalization_wp {s : Traced} (hs : Running p (· = []) s) :
    (commitFinalization p.job p.payload).wp (undisturbed p) (Settled p) s := by
  unfold commitFinalization
  rw [wp_bind]
  refine wp_mono _ _ ?_ (finalize_wp hs)
  rintro (e | _) t ht
  · exact .inr (ht.unfinalized e)
  simp only [bindPost_ok, checkedPayload_payload, wp_bind, wp_ofExcept, wp_attempt]
  refine wp_mono _ _ ?_ (commit_wp ht)
  rintro (commitError | _) u hu
  · obtain hlanded | hrunning := hu
    · exact settleFinalization_landed hlanded commitError
    · refine wp_mono _ _ (fun _ _ h => .inr h) (settleFinalization_running hrunning commitError)
  · exact .inl ⟨hu, fun e he => nomatch he⟩

theorem keeps_applyProjection : Keeps (undisturbed p) (Running p K) applyProjection := by
  refine Keeps.bind (keeps_running rfl) fun desired => ?_
  refine Keeps.bind (keeps_running rfl) fun candidate => ?_
  refine Keeps.bind (keeps_running rfl) fun validation => ?_
  refine Keeps.ite (Keeps.raise _) (Keeps.bind (keeps_running rfl) fun applied => ?_)
  exact Keeps.ite (Keeps.raise _) (Keeps.ret _)

/-- One claimed attempt. Its handler records a failure only before the commit landed. -/
theorem reconcileClaimedJob_wp {s : Traced} (hs : Running p (· = []) s) {job : Job}
    (hpayload : job.payload = .gateway p.payload) :
    (reconcileClaimedJob p.job job).wp (undisturbed p) (Settled p) s := by
  simp only [reconcileClaimedJob, jobPayload, hpayload, wp_bind, wp_ofExcept, bindPost_ok, wp_tryCatch]
  have hhandler : ∀ r t, Settled p r t → catchPost (undisturbed p) (fun exc =>
      if exc.cls = .gatewayCommitOutcomeUnknown then .raise exc
      else do
        let now ← now
        recordFailure p.job exc now) (Settled p) r t := by
    rintro (exc | result) t ht
    · simp only [catchPost_error, wp_ite]
      refine ⟨fun _ => ht, fun hcls => ?_⟩
      obtain ⟨-, hunknown⟩ | ⟨hrunning, -⟩ := ht
      · exact absurd (hunknown exc rfl) hcls
      · refine Keeps.wp_bind (keeps_running rfl) (fun e _ h => .inr (h.unfinalized e))
          (fun now v hv => ?_) hrunning
        exact wp_mono _ _ (fun _ _ h => .inr h) (recordFailure_wp hv _ _ _)
    · exact ht
  refine wp_mono _ _ ?_ (keeps_applyProjection s hs)
  rintro (e | _) t ht
  · exact hhandler _ _ (.inr (ht.unfinalized e))
  · exact wp_mono _ _ hhandler (commitFinalization_wp ht)

end Attempt

/-- The job that a claim selected, with the database it was selected from. -/
def claimOf (m : WorldMoment) : Option (ℕ × Database) :=
  match m with
  | ⟨.session (.claimableJob _), .ok (some job), before, _⟩ => some (job.id, before.shared.database)
  | _ => none

/-- The oldest claim of a run. -/
def firstClaim : List WorldMoment → Option (ℕ × Database)
  | [] => none
  | m :: past => (firstClaim past).or (claimOf m)

theorem firstClaim_suffix {tr past : List WorldMoment} {claim : ℕ × Database} (hs : past <:+ tr)
    (h : firstClaim past = some claim) : firstClaim tr = some claim := by
  obtain ⟨newer, rfl⟩ := hs
  induction newer with
  | nil => exact h
  | cons m newer ih => simp only [List.cons_append, firstClaim, ih, Option.some_or]

section Call

variable {p : Purchase}

theorem claimable_open {now : Timestamp} {job : Job} (h : Database.claimable now job = true) :
    job.status ≠ .succeeded := by
  intro hs
  simp [Database.claimable, hs] at h

/-- Nothing is claimed yet. -/
structure Idle (p : Purchase) (s : Traced) : Prop where
  claim : firstClaim s.2 = none
  certain : History.Always p.Certain s.2
  pending : s.1.session.pending = []

/-- What the run owes to a purchase that it claimed. -/
def Owed (p : Purchase) (r : Except Exn (Option GatewayReconciliationResult)) (s : Traced) : Prop :=
  ∀ db, firstClaim s.2 = some (p.job, db) → p.Stands db →
    History.Always p.Certain s.2 ∧
      ∀ res, r = .ok (some res) → res.applied = true → res.finalized = true →
        p.Durable s.1.shared.database

theorem Idle.owed {s : Traced} (hs : Idle p s) (r : Except Exn (Option GatewayReconciliationResult)) :
    Owed p r s := by
  intro db hclaim
  rw [hs.claim] at hclaim
  cases hclaim

/-- Calls of the run that claim nothing leave it idle. -/
theorem keeps_idle {c : Call} (hc : passive c = true) (hclaim : ∀ x t u, claimOf ⟨c, x, t, u⟩ = none) :
    Keeps (undisturbed p) (Idle p) (perform (S := port) c : Saga c.Answer) := by
  apply Keeps.call_traced
  rintro w tr t choice ⟨hnone, hcertain, hempty⟩ ⟨db, hjobs, horders, hsubs, rfl⟩ _
  obtain ⟨hdb, hpending⟩ := World.act_quiet (quiet_of_passive hc) choice (w.setDatabase db)
  refine ⟨?_, ⟨?_, hcertain⟩, ?_⟩
  · simp only [firstClaim, hnone, Option.none_or]
    exact hclaim _ _ _
  · refine Purchase.certain_of_sameRows ?_ (notifiedTruly_passive hc _ _ _)
    rw [show worlds.act c choice (w.setDatabase db) = World.act c choice (w.setDatabase db) from rfl, hdb]
    exact ⟨rfl, rfl, rfl, rfl⟩
  · exact hpending.trans hempty

/-- A job was claimed that is not the purchase's, or whose rows did not stand. -/
def ClaimedOther (p : Purchase) (s : Traced) : Prop :=
  ∃ claim, firstClaim s.2 = some claim ∧ ¬ (claim.1 = p.job ∧ p.Stands claim.2)

/-- What the claim leaves: nothing claimed, the purchase running, or a claim of another job. -/
def Claimed (p : Purchase) : Except Exn (Option (Entity Job)) → Traced → Prop
  | .ok (some job), s => (Running p (· = []) s ∧ job.id = p.job ∧ job.row.payload = .gateway p.payload) ∨
      ClaimedOther p s
  | _, s => Idle p s ∨ Running p (fun _ => True) s ∨ ClaimedOther p s

theorem writeClaim_wp {s : Traced} (hs : Running p (· = []) s) (job : Job) (now : Timestamp) :
    (writeClaim p.job job now).wp (undisturbed p)
      (fun | .ok row => fun t => Running p (· = []) t ∧ row.payload = job.payload
           | .error _ => Running p fun _ => True) s := by
  unfold writeClaim
  have hplain : Running p AllPlain s := hs.weaken fun ws hws => hws ▸ allPlain_nil
  refine Keeps.wp_bind (keeps_plain_write ?_) (fun _ _ h => h.any) (fun _ t ht => ?_) hplain
  · exact fun row => ⟨rfl, by simp⟩
  rw [wp_bind]
  refine wp_mono _ _ ?_ (plain_commit_wp ht)
  rintro (e | _) u hu
  · exact hu.any
  · exact And.intro hu rfl

/-- A claim of another job says nothing about the purchase, however the run goes on. -/
theorem keeps_claimedOther {α : Type} (prog : Saga α) :
    Keeps (undisturbed p) (ClaimedOther p) prog := by
  rintro s ⟨claim, hclaim, hother⟩
  refine wp_mono _ _ ?_ (wp_suffix prog s)
  exact fun _ t ht => ⟨claim, firstClaim_suffix ht hclaim, hother⟩

theorem claimJob_wp {s : Traced} (hs : Idle p s) (now : Timestamp) :
    (claimJob now).wp (undisturbed p) (Claimed p) s := by
  unfold claimJob
  rw [wp_bind]
  refine reads_wp rfl fun t fate hI _ => ?_
  obtain ⟨w, tr⟩ := s
  obtain ⟨hnone, hcertain, hempty⟩ := hs
  obtain ⟨db, -, -, -, rfl⟩ := hI
  have hcert : ∀ x, p.Certain ⟨.session (.claimableJob now), x, w.setDatabase db, w.setDatabase db⟩ tr :=
    fun x => Purchase.certain_of_sameRows ⟨rfl, rfl, rfl, rfl⟩ trivial
  cases hx : ((w.setDatabase db).sessionCall fate (.claimableJob now)).1 with
  | error e =>
    exact .inl ⟨by simp only [firstClaim, hnone, claimOf, Option.or_none], ⟨hcert _, hcertain⟩, hempty⟩
  | ok found =>
    have hfound := World.query_ok _ hx
    cases found with
    | none =>
      exact .inl ⟨by simp only [firstClaim, hnone, claimOf, Option.or_none], ⟨hcert _, hcertain⟩, hempty⟩
    | some job =>
      have hview : (w.setDatabase db).view = db := by
        rw [World.view, World.session_setDatabase, hempty, Write.applyAll_nil, World.database_setDatabase]
      rw [hview] at hfound
      obtain ⟨hrow, hclaimable⟩ := Table.find_some hfound.symm
      by_cases hmine : job.id = p.job ∧ p.Stands db
      · obtain ⟨hid, hstands⟩ := hmine
        have hrunning : Running p (· = []) (w.setDatabase db,
            ⟨.session (.claimableJob now), .ok (some job), w.setDatabase db, w.setDatabase db⟩ :: tr) := by
          refine ⟨hstands, ?_, ⟨hcert _, hcertain⟩, hempty⟩
          rw [hid] at hrow
          simp only [World.database_setDatabase, jobStatus, hrow, Option.map_some]
          exact fun h => claimable_open hclaimable (Option.some.inj h)
        obtain ⟨row, hget, hpayload⟩ := hstands.job
        rw [hid] at hrow
        have hsame : row = job.row := Option.some.inj (hget.symm.trans hrow)
        simp only [bindPost_ok, hid, wp_bind]
        refine wp_mono _ _ ?_ (writeClaim_wp hrunning job.row now)
        rintro (e | claimedRow) u hu
        · exact .inr (.inl hu)
        · exact .inl ⟨hu.1, rfl, hu.2.trans (hsame ▸ hpayload)⟩
      · have hother : ClaimedOther p (w.setDatabase db,
            ⟨.session (.claimableJob now), .ok (some job), w.setDatabase db, w.setDatabase db⟩ :: tr) := by
          refine ⟨(job.id, db), ?_, hmine⟩
          simp only [firstClaim, hnone, claimOf, Option.none_or, World.database_setDatabase]
        refine wp_mono _ _ ?_ (keeps_claimedOther _ _ hother)
        rintro (e | found) u hu
        · exact .inr (.inr hu)
        · cases found with
          | none => exact .inr (.inr hu)
          | some _ => exact .inr hu

/-- The end of the locked part of a run. -/
def Attempted (p : Purchase) (r : Except Exn (Option GatewayReconciliationResult)) (s : Traced) : Prop :=
  (Idle p s ∧ ∀ res, r ≠ .ok (some res)) ∨ Landed p s ∨
    (Running p (fun _ => True) s ∧ ∀ res, r = .ok (some res) → res.finalized = false) ∨
    ClaimedOther p s

theorem Attempted.owed {r : Except Exn (Option GatewayReconciliationResult)} {s : Traced}
    (hs : Attempted p r s) : Owed p r s := by
  intro db hclaim hstands
  obtain ⟨hidle, -⟩ | hlanded | ⟨hrunning, hreport⟩ | ⟨claim, hother, hnot⟩ := hs
  · exact hidle.owed r db hclaim hstands
  · exact ⟨hlanded.certain, fun _ _ _ _ => hlanded.durable⟩
  · refine ⟨hrunning.certain, fun res hres _ hfinal => ?_⟩
    rw [hreport res hres] at hfinal
    cases hfinal
  · rw [hother] at hclaim
    cases hclaim
    exact absurd ⟨rfl, hstands⟩ hnot

theorem keeps_attempted {c : Call} (hc : passive c = true) (hclaim : ∀ x t u, claimOf ⟨c, x, t, u⟩ = none)
    (r : Except Exn (Option GatewayReconciliationResult)) :
    Keeps (undisturbed p) (Attempted p r) (perform (S := port) c : Saga c.Answer) := by
  rintro s (⟨hidle, hr⟩ | hlanded | ⟨hrunning, hr⟩ | hother)
  · exact wp_mono _ _ (fun _ _ h => .inl ⟨h, hr⟩) (keeps_idle hc hclaim s hidle)
  · exact wp_mono _ _ (fun _ _ h => .inr (.inl h)) (keeps_landed hc s hlanded)
  · exact wp_mono _ _ (fun _ _ h => .inr (.inr (.inl ⟨h, hr⟩))) (keeps_running hc s hrunning)
  · exact wp_mono _ _ (fun _ _ h => .inr (.inr (.inr h))) (keeps_claimedOther _ s hother)

/-- An exception replaces the result without making it worse. -/
theorem Attempted.raise {r : Except Exn (Option GatewayReconciliationResult)} {s : Traced}
    (hs : Attempted p r s) (e : Exn) : Attempted p (.error e) s := by
  obtain ⟨hidle, -⟩ | hlanded | ⟨hrunning, -⟩ | hother := hs
  · exact .inl ⟨hidle, fun _ h => nomatch h⟩
  · exact .inr (.inl hlanded)
  · exact .inr (.inr (.inl ⟨hrunning, fun _ h => nomatch h⟩))
  · exact .inr (.inr (.inr hother))

/-- The locked part: claim, and reconcile what was claimed. -/
theorem lockedPart_wp {s : Traced} (hs : Idle p s) :
    (do
      let now ← now
      match ← claimJob now with
      | none => pure none
      | some job => do
        let result ← reconcileClaimedJob job.id job.row
        pure (some result) : Saga (Option GatewayReconciliationResult)).wp (undisturbed p)
      (Attempted p) s := by
  refine Keeps.wp_bind (keeps_idle rfl fun _ _ _ => rfl)
    (fun e _ h => .inl ⟨h, fun _ h => nomatch h⟩) (fun now t ht => ?_) hs
  rw [wp_bind]
  refine wp_mono _ _ ?_ (claimJob_wp ht now)
  rintro (e | found) u hu
  · obtain hidle | hrunning | hother := hu
    · exact .inl ⟨hidle, fun _ h => nomatch h⟩
    · exact .inr (.inr (.inl ⟨hrunning, fun _ h => nomatch h⟩))
    · exact .inr (.inr (.inr hother))
  · cases found with
    | none =>
      obtain hidle | hrunning | hother := hu
      · exact .inl ⟨hidle, fun _ h => nomatch h⟩
      · exact .inr (.inr (.inl ⟨hrunning, fun _ h => nomatch h⟩))
      · exact .inr (.inr (.inr hother))
    | some job =>
      obtain ⟨hrunning, hid, hpayload⟩ | hother := hu
      · simp only [bindPost_ok, wp_bind, hid]
        refine wp_mono _ _ ?_ (reconcileClaimedJob_wp hrunning hpayload)
        rintro (e | result) v (⟨hlanded, -⟩ | ⟨hopen, hreport⟩)
        · exact .inr (.inl hlanded)
        · exact .inr (.inr (.inl ⟨hopen, fun _ h => nomatch h⟩))
        · exact .inr (.inl hlanded)
        · refine .inr (.inr (.inl ⟨hopen, fun res hres => ?_⟩))
          cases hres
          exact hreport result rfl
      · exact wp_mono _ _ (fun _ _ h => .inr (.inr (.inr h))) (keeps_claimedOther _ u hother)

/-- The notification finds the finalization durable and leaves it so. -/
theorem keeps_notifyAfterLock (result : GatewayReconciliationResult) :
    Keeps (undisturbed p) (Landed p) (notifyAfterLock result) := by
  unfold notifyAfterLock
  refine Keeps.bind (keeps_landed rfl) fun job => ?_
  cases job with
  | none => exact Keeps.ret _
  | some job =>
    refine Keeps.bind (Keeps.ofExcept _) fun payload => ?_
    refine Keeps.tryCatch ?_ fun _ => Keeps.bind (landed_audit _) fun _ => landed_commit
    apply Keeps.call_traced
    intro w tr t choice hs hI _
    have ht := hs.interfere hI
    exact ht.step ⟨rfl, rfl, rfl, rfl⟩ ht.durable ht.pending

theorem reconcileGatewayJob_wp {s : Traced} (hs : Idle p s) :
    reconcileGatewayJob.wp (undisturbed p) (Owed p) s := by
  unfold reconcileGatewayJob gatewayRouteBindingLock
  rw [wp_bind]
  rw [wp_bind]
  refine wp_mono _ _ ?_ (keeps_idle (c := .session .acquireLock) rfl (fun _ _ _ => rfl) s hs)
  rintro (e | _) t ht
  · exact ht.owed _
  rw [bindPost_ok, wp_tryFinally]
  refine wp_mono _ _ ?_ (lockedPart_wp ht)
  intro r u hu
  refine wp_mono _ _ ?_ (keeps_attempted (c := .session .releaseLock) rfl (fun _ _ _ => rfl) r u hu)
  rintro (e | _) v hv
  · exact (hv.raise e).owed
  · cases r with
    | error e => exact hv.owed
    | ok found =>
      cases found with
      | none => exact hv.owed
      | some result =>
        obtain ⟨-, hr⟩ | hlanded | ⟨hrunning, hreport⟩ | hother := hv
        · exact absurd rfl (hr result)
        · refine Keeps.wp_bind (Keeps.ite (keeps_notifyAfterLock result) (Keeps.ret ()))
            (fun e x hx => ?_) (fun _ x hx => ?_) hlanded
          · exact Attempted.owed (.inr (.inl hx))
          · exact Attempted.owed (.inr (.inl hx))
        · have hopen : (result.applied && result.finalized) = false := by
            rw [hreport result rfl, Bool.and_false]
          simp only [bindPost_ok, Saga.when, hopen, Bool.false_eq_true, if_false]
          exact Attempted.owed (.inr (.inr (.inl ⟨hrunning, hreport⟩)))
        · refine wp_mono _ _ ?_ (keeps_claimedOther _ v hother)
          exact fun _ _ h => Attempted.owed (.inr (.inr (.inr h)))

end Call

/-- Every step of a run is certain, when nobody moves the subscription off ACTIVE
between a landed finalization and the observer's read of it. -/
theorem finalization_certain (p : Purchase) (w : World) (hsession : w.session.pending = [])
    (r : Except Exn (Option GatewayReconciliationResult)) (s : Traced)
    (hrun : reconcileGatewayJob.Exec (traced worlds Interferes fun _ _ => True) (w, []) r s)
    (db : Database) (hclaim : firstClaim s.2 = some (p.job, db)) (hstands : p.Stands db)
    (hundisturbed : History.Always p.Undisturbed s.2) :
    History.Always p.Certain s.2 ∧
      ∀ res, r = .ok (some res) → res.applied = true → res.finalized = true →
        p.Durable s.1.shared.database := by
  have hcalm : reconcileGatewayJob.Exec (undisturbed p) (w, []) r s :=
    traced_of_always hrun hundisturbed
  have hidle : Idle p (w, []) := ⟨rfl, trivial, hsession⟩
  exact exec_of_wp (reconcileGatewayJob_wp hidle) hcalm db hclaim hstands

section Runs

instance (p : Purchase) (db : Database) : Decidable (p.Durable db) :=
  decidable_of_iff (jobStatus db p.job = some .succeeded ∧ orderStatus db p.order = some .activated ∧
    jobStatus db p.run = some .succeeded) ⟨fun ⟨a, b, c⟩ => ⟨a, b, c⟩, fun ⟨a, b, c⟩ => ⟨a, b, c⟩⟩

instance (p : Purchase) (m : WorldMoment) : Decidable (p.NotifiedTruly m) := by
  unfold Purchase.NotifiedTruly
  split <;> infer_instance

instance (p : Purchase) (m : WorldMoment) (past : List WorldMoment) : Decidable (p.Certain m past) := by
  unfold Purchase.Certain Purchase.Together Purchase.Lasting
  infer_instance

instance (p : Purchase) (m : WorldMoment) (past : List WorldMoment) :
    Decidable (p.Undisturbed m past) := by
  unfold Purchase.Undisturbed
  split <;> infer_instance

def paidPurchase : Purchase := ⟨0, 0, 0, 1⟩

/-- A purchase whose first commit has landed. -/
def paidDatabase : Database :=
  { Database.empty with
    jobs := (Table.empty.insert 0 ⟨.gatewayReconcile, .gatewayReconcile .purchase (.order 0),
      .gateway paidPurchase.payload, .pending, 0, 5, (0 : ℤ), none, none⟩).insert 1
      ⟨.provision, .provision 0, .provision ⟨0, [], [], none⟩, .running, 1, 5, (0 : ℤ), none, none⟩
    subscriptions := Table.empty.insert 0 ⟨1, 1, 0, .provisioning, "US", (100 : ℤ), none, .pending,
      some "sub-1", none, none, none, none⟩
    orders := Table.empty.insert 0 ⟨1, 1, some 0, .paid, .paid, none, none, none, none⟩ }

def paidWorld : World := ⟨⟨paidDatabase, ⟨[], []⟩, false⟩, ⟨0, "sub.example.com", false, []⟩⟩

theorem interferes_refl (w : World) : Interferes w w := ⟨w.shared.database, rfl, rfl, fun _ => rfl, rfl⟩

theorem finalization_certain_uneventful :
    History.Always paidPurchase.Certain
        ((tracer worlds).run (fun c _ => (id, c.calm)) reconcileGatewayJob (paidWorld, [])).2.2 ∧
      ∀ res, ((tracer worlds).run (fun c _ => (id, c.calm)) reconcileGatewayJob (paidWorld, [])).1 =
          .ok (some res) → res.applied = true → res.finalized = true →
        paidPurchase.Durable
          ((tracer worlds).run (fun c _ => (id, c.calm)) reconcileGatewayJob
            (paidWorld, [])).2.1.shared.database := by
  refine finalization_certain paidPurchase paidWorld rfl _ _
    (exec_tracer (S := port) (M := worlds) (fun c _ => (id, c.calm)) (fun _ _ => interferes_refl _) _ _)
    paidDatabase rfl ⟨⟨_, rfl, rfl⟩, rfl, rfl, rfl⟩ ?_
  decide

def expire (w : World) : World :=
  w.setDatabase { w.shared.database with
    subscriptions := w.shared.database.subscriptions.modify 0 fun s => { s with status := .expired } }

theorem interferes_expire (w : World) : Interferes w (expire w) := by
  refine ⟨(expire w).shared.database, rfl, rfl, fun id => ?_, rfl⟩
  simp only [expire, World.database_setDatabase, Table.get_modify]
  split_ifs <;> simp

/-- The commit of the finalization lands but its acknowledgement is lost, and the
subscription expires before it is probed. -/
def expiredBeforeProbe (c : Call) (s : Traced) : (World → World) × c.Choice :=
  match c with
  | .session .commit =>
    (id, if s.1.session.pending.length = 5 then
        ⟨(0 : ℤ), some ⟨.other "OperationalError", "connection lost"⟩, 1⟩
      else Fate.calm)
  | .session (.probeSubscriptionStatus _) => (expire, Fate.calm)
  | c => (id, c.calm)

theorem landed_finalization_reopened :
    ∃ (p : Purchase) (w : World) (r : Except Exn (Option GatewayReconciliationResult)) (s : Traced)
      (db : Database), w.session.pending = [] ∧
      reconcileGatewayJob.Exec (traced worlds Interferes fun _ _ => True) (w, []) r s ∧
      firstClaim s.2 = some (p.job, db) ∧ p.Stands db ∧ ¬ History.Always p.Certain s.2 := by
  refine ⟨paidPurchase, paidWorld, _, _, paidDatabase, rfl,
    exec_tracer (S := port) (M := worlds) expiredBeforeProbe ?_ reconcileGatewayJob _, rfl,
    ⟨⟨_, rfl, rfl⟩, rfl, rfl, rfl⟩, ?_⟩
  · intro c s
    unfold expiredBeforeProbe
    split
    · exact interferes_refl _
    · exact interferes_expire _
    · exact interferes_refl _
  · decide

end Runs
end Lingsway.Infra
