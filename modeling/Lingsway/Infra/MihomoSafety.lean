import Lingsway.Infra.MihomoRuns

/-!
# Safety of the Mihomo workers

What holds in every run of any number of workers: the blockers of releases, the
order of the jobs, and durable success.
-/
namespace Lingsway.Mihomo

open Library

/-- Every call may end in every way, and every worker may crash at any time. -/
def unrestricted : Conduct calls Exn World Worker where
  call := fun _ _ _ _ _ => True
  crash := fun _ _ => True

abbrev Workers := Configuration calls Exn (Option MihomoReconciliationResult) World Worker

/-- A step of the workers. -/
abbrev StepBy (K : Conduct calls Exn World Worker) : Workers → Workers → Prop :=
  workers.Step K reconcileMihomoJob Worker.begin

/-- A release blocker of the job stands, unresolved and written by `i`. -/
def HeldBlocker (i id : ℕ) (w : World) : Prop :=
  ∃ b, blockerAt w .lockRelease id = some b ∧ b.unresolved = true ∧ b.holder = some i

/-- The release is confirmed, and the durable state was known. -/
def Settled (l : Worker) : Prop := l.annals.confirmed = true ∧ l.annals.known = true

/-- The release protocol, in one configuration and its next steps. -/
structure ReleaseProtocol (K : Conduct calls Exn World Worker) (g : Workers) : Prop where
  ended : ∀ i r l m, g.process i = some ⟨.ended r, l⟩ → l.annals.metadata = some m → ¬ Settled l →
    HeldBlocker i m.sourceJobId g.shared ∨ raised r = true ∧ l.annals.persistReturned = false
  persisted : ∀ i q, g.process i = some q → q.own.annals.persisted = true → Settled q.own ∨
    ∃ m, q.own.annals.metadata = some m ∧ HeldBlocker i m.sourceJobId g.shared
  resolved : ∀ g', StepBy K g g' → ∀ id b b', blockerAt g.shared .lockRelease id = some b → b.unresolved = true →
    blockerAt g'.shared .lockRelease id = some b' → b'.unresolved = false →
    ∃ i q, g.process i = some q ∧ b.holder = some i ∧ Settled q.own
  asserted : ∀ i id next l choice w, g.process i = some ⟨.running (.call (.unresolvedOlder id) next), l⟩ →
    act i (.unresolvedOlder id) choice (g.shared, l) = (.ok false, w) →
    K.call i (.unresolvedOlder id) (g.shared, l) (.ok false) w →
    ∀ j q, g.process j = some q → q.own.annals.persisted = true → Settled q.own
  identity : ∀ i site id next l choice b w,
    g.process i = some ⟨.running (.call (.lockBlocker site .lockRelease id) next), l⟩ →
    act i (.lockBlocker site .lockRelease id) choice (g.shared, l) = (.ok (some b), w) →
    K.call i (.lockBlocker site .lockRelease id) (g.shared, l) (.ok (some b)) w →
    ∃ metadata, l.session.releaseMetadata = some metadata ∧ metadata.sourceJobId = id ∧
      b.payload = some (releasePayload metadata)

/-- The order of the jobs: an apply has the lock, nothing older and no blocker before it, and no
doubt behind it; a refused claim is taken back while the lock is held. -/
structure FifoWithoutReplay (g : Workers) : Prop where
  applied : ∀ i id next l, g.process i = some ⟨.running (.call (.apply id) next), l⟩ →
    g.shared.lock = some i ∧ Unblocked g.shared id ∧ id ∉ g.shared.uncertain
  refused : ∀ i next l, g.process i = some ⟨.running (.call .releaseLock next), l⟩ →
    l.annals.refused = true → Restored (g.shared, l)

section Steps

variable {K : Conduct calls Exn World Worker} {g g' : Workers} {i : ℕ}

theorem store_unlock (w : World) : (w.unlock i).store = w.store := by
  unfold World.unlock
  split_ifs <;> rfl

/-- A step that is no call leaves the store alone. -/
theorem step_cases (hstep : StepBy K g g') :
    g'.shared.store = g.shared.store ∨ ∃ i c next l x w choice,
      g.process i = some ⟨.running (.call c next), l⟩ ∧ act i c choice (g.shared, l) = (x, w) ∧
        K.call i c (g.shared, l) x w ∧ g'.shared = w.1 := by
  cases hstep with
  | spawn i h => exact .inl rfl
  | call choice h hact hallowed => exact .inr ⟨_, _, _, _, _, _, choice, h, hact, hallowed, rfl⟩
  | ret h => exact .inl (store_unlock _)
  | raise h => exact .inl (store_unlock _)
  | crash h hallowed => exact .inl (store_unlock _)

theorem Absorbing.trans {s t u : World} (h : Absorbing s t) (h' : Absorbing t u) : Absorbing s u := by
  intro id job hjob hdurable
  obtain ⟨job', hjob', hsucceeded, hpayload⟩ := h id job hjob hdurable
  have hdurable' : Durable job' := ⟨hsucceeded, by rw [hpayload]; exact hdurable.2⟩
  obtain ⟨job'', hjob'', hsucceeded', hpayload'⟩ := h' id job' hjob' hdurable'
  exact ⟨job'', hjob'', hsucceeded', hpayload'.trans hpayload⟩

end Steps

/-- How the commits, the rollbacks and the apply of a worker end, and when it runs. Without an
apply it stops there. -/
structure Course where
  now : Timestamp
  commit : Site → CommitChoice
  rollback : Site → Option Exn
  apply : Option Bool

namespace Course

/-- Everything else succeeds. -/
def script (course : Course) : (c : Call) → Option (Choice c)
  | .getLock => some (.ok (some 1))
  | .releaseLock => some (.ok (some 1))
  | .now => some course.now
  | .rollback site => some (course.rollback site)
  | .commit site => some (course.commit site)
  | .claimableJob _ => some (.ok [])
  | .getJob _ _ => some (.ok none)
  | .readBlocker _ _ => some (.ok none)
  | .observeJob _ _ => some (.ok none)
  | .observeBlocker _ _ => some (.ok none)
  | .load _ => some (.ok (some 1))
  | .finalizeTemplate => some (.ok "rendered")
  | .apply _ => course.apply.map .ok
  | .verify _ _ _ => some (.ok (some ⟨true, .str "v1"⟩))
  | .insertBlocker _ _ _ _ => course.apply.map fun _ => none
  | .configure => some none
  | .openConnection => some none
  | .closeConnection => some none
  | .render => some none
  | .unresolvedBlocker => some none
  | .unresolvedOlder _ => some none
  | .lockJob _ => some none
  | .lockBlocker _ _ _ => some none
  | .invalidate => some ()
  | .enterBlock => some ()
  | .leaveBlock _ => some ()
  | .releaseInfo => some ()
  | .holdsProjectionLock => some ()
  | .setReleaseMetadata _ => some ()
  | .flagDurableStateUnknown => some ()
  | .write _ => some ()

end Course

/-- A worker that begins over a world, for at most `n` of its calls. -/
def played (course : Course) (i n : ℕ) (w : World) : Work (Option MihomoReconciliationResult) × State :=
  workers.play i course.script n reconcileMihomoJob (w, Worker.begin)

theorem run_played {K : Conduct calls Exn World Worker} {course : Course} {i : ℕ} {g : Workers}
    (hK : ∀ c choice w x w', course.script c = some choice → act i c choice w = (x, w') → K.call i c w x w')
    (hnone : g.process i = none) (n : ℕ) :
    Relation.ReflTransGen (StepBy K) g
      (g.update i (.running (played course i n g.shared).1) (played course i n g.shared).2) := by
  have hspawn : StepBy K g (g.update i (.running reconcileMihomoJob) (g.shared, Worker.begin)) := .spawn i hnone
  have hplay := Agents.run_play (M := workers) (K := K) reconcileMihomoJob Worker.begin course.script hK
    (Configuration.process_update_self g i (.running reconcileMihomoJob) (g.shared, Worker.begin)) n
  rw [Configuration.update_update] at hplay
  exact hplay.head hspawn

/-- One pending job, and nothing else. -/
def oneJob : World :=
  ⟨⟨Table.empty.insert 1 ⟨.object ⟨.str "op-1", .str "CREATE", .int 1, .null⟩, .pending, 0, 5, 0, none, none⟩,
    fun _ => Table.empty⟩, none, [], []⟩

theorem initial_oneJob : Initial oneJob := by
  refine ⟨?_, rfl, rfl, rfl⟩
  intro id b hb
  cases hb

/-- The worker 0 alone, over one job. -/
def alone (course : Course) (n : ℕ) : Workers :=
  (Configuration.start oneJob).update 0 (.running (played course 0 n oneJob).1) (played course 0 n oneJob).2

theorem reachable_alone {K : Conduct calls Exn World Worker} (course : Course)
    (hK : ∀ c choice w x w', course.script c = some choice → act 0 c choice w = (x, w') → K.call 0 c w x w') (n : ℕ) :
    ReachableBy K (alone course n) :=
  (Agents.Reachable.start initial_oneJob).run (run_played hK rfl n)

/-- Nothing fails. -/
def smooth (apply : Option Bool) : Course := ⟨0, fun _ => .lands, fun _ => none, apply⟩

def lost : Exn := ⟨.runtimeError, "connection lost"⟩

/-- In every run whose calls are orderly, jobs are applied in order and no doubt is applied again. -/
theorem fifo_without_replay {g : Workers} (h : ReachableBy orderly g) : FifoWithoutReplay g where
  applied := by
    intro i id next l hprocess
    have hact : act i (.apply id) (Except.ok true) (g.shared, l) = _ := rfl
    have hsafe := safe_of_reachable h hprocess hact trivial
    obtain ⟨hlock, hunblocked, hcertain⟩ := hsafe.allowed
    exact ⟨hlock, hunblocked, hcertain ⟨fun _ _ _ _ _ h => h, fun _ _ h => h⟩⟩
  refused := by
    intro i next l hprocess
    have hact : act i .releaseLock (Except.ok none) (g.shared, l) = _ := rfl
    have hsafe := safe_of_reachable h hprocess hact trivial
    exact hsafe.allowed ⟨fun _ _ _ _ _ h => h, fun _ _ h => h⟩

theorem fifo_without_replay_smooth : FifoWithoutReplay (alone (smooth none) 30) := by
  refine fifo_without_replay (reachable_alone _ ?_ 30)
  intro c choice w x w' hscript hact
  cases c with
  | rollback site =>
    cases hscript
    cases hact
    cases site <;> trivial
  | getJob site id =>
    cases hscript
    cases hact
    cases site <;> trivial
  | commit site =>
    cases hscript
    cases hact
    cases site <;> trivial
  | lockBlocker site kind source =>
    cases hscript
    cases hact
    cases site <;> trivial
  | insertBlocker site kind source row => cases hscript
  | _ => trivial

/-- The apply does not confirm, and neither its blocker nor that of its release can be written. -/
def unrecorded : Course :=
  ⟨0, fun site => if site = .blocker then .fails lost else .lands,
    fun site => if site = .release then some lost else none, some false⟩

/-- A later worker, before it applies. -/
def later : Course := ⟨staleAfter + 1, fun _ => .lands, fun _ => none, none⟩

/-- The job that a program is about to apply. -/
def nextApply (p : Work (Option MihomoReconciliationResult)) : Option ℕ :=
  match p with
  | .call (.apply id) _ => some id
  | _ => none

theorem call_of_nextApply {p : Work (Option MihomoReconciliationResult)} {id : ℕ} (h : nextApply p = some id) :
    ∃ next, p = .call (.apply id) next := by
  unfold nextApply at h
  split at h
  · cases h
    exact ⟨_, rfl⟩
  · cases h

/-- The apply of the job is not confirmed, and a quarter of an hour later it is applied again. -/
theorem doubt_applied_again : ¬ ∀ g, ReachableBy unrestricted g → FifoWithoutReplay g := by
  intro h
  have hfree : ∀ (course : Course) i, ∀ c choice w x w', course.script c = some choice → act i c choice w = (x, w') →
      unrestricted.call i c w x w' := fun _ _ _ _ _ _ _ _ _ => trivial
  have hreachable := (reachable_alone unrecorded (hfree unrecorded 0) 60).run
    (run_played (g := alone unrecorded 60) (hfree later 1) rfl 60)
  have happly : nextApply (played later 1 60 (played unrecorded 0 60 oneJob).2.1).1 = some 1 := by decide +kernel
  have hdoubt : 1 ∈ (played later 1 60 (played unrecorded 0 60 oneJob).2.1).2.1.uncertain := by decide +kernel
  obtain ⟨next, hnext⟩ := call_of_nextApply happly
  obtain ⟨-, -, hcertain⟩ := (h _ hreachable).applied 1 1 next _ (by
    rw [← hnext]
    exact Configuration.process_update_self _ _ _ _)
  exact hcertain hdoubt

/-- In every run a release whose outcome matters leaves its blocker. -/
theorem release_protocol {g : Workers} (h : ReachableBy unrestricted g) : ReleaseProtocol unrestricted g := by
  have hgood := good_of_reachable h
  have hkept : ∀ i q, g.process i = some q → q.own.annals.persisted = true → Settled q.own ∨
      ∃ m, q.own.annals.metadata = some m ∧ HeldBlocker i m.sourceJobId g.shared := by
    intro i q hq hpersisted
    obtain hdone | ⟨m, b, hm, hb, hunresolved, hholder⟩ := hgood.kept i q hq hpersisted
    · exact .inl hdone
    · exact .inr ⟨m, hm, b, hb, hunresolved, hholder⟩
  refine ⟨?_, hkept, ?_, ?_, ?_⟩
  · intro i r l m hprocess hm hopen
    have hended : Ended unrestricted i (raised r) (g.shared, l) := hgood.standing i _ hprocess
    have hmetadata : l.annals.metadata.isSome = true := by rw [hm]; rfl
    obtain hpersisted | hraised := hended.persisted hmetadata
    · obtain hdone | ⟨m', hm', hheld⟩ := hkept i _ hprocess hpersisted
      · exact absurd hdone hopen
      · rw [show l.annals.metadata = some m from hm] at hm'
        cases hm'
        exact .inl hheld
    · exact .inr hraised
  · intro g' hstep id b b' hb hunresolved hb' hresolved
    obtain hstore | ⟨i, c, next, l, x, w, choice, hprocess, hact, hallowed, hshared⟩ := step_cases hstep
    · rw [blockerAt, hstore] at hb'
      rw [blockerAt, hb'] at hb
      cases hb
      rw [hunresolved] at hresolved
      cases hresolved
    · rw [hshared] at hb'
      have hsafe := safe_of_reachable h hprocess hact hallowed
      obtain ⟨hholder, hsettled⟩ := hsafe.resolves id b b' hb hunresolved hb' hresolved
      exact ⟨i, _, hprocess, hholder, hsettled⟩
  · intro i id next l choice w hprocess hact hallowed j q hq hpersisted
    have hclear : ¬ Blocked g.shared := (safe_of_reachable h hprocess hact hallowed).answered
    obtain hdone | ⟨m, -, b, hb, hunresolved, -⟩ := hkept j q hq hpersisted
    · exact hdone
    · exact absurd ⟨_, _, b, hb, hunresolved⟩ hclear
  · intro i site id next l choice b w hprocess hact hallowed
    exact (safe_of_reachable h hprocess hact hallowed).answered

/-- A worker over one job, behind its release. -/
theorem release_protocol_smooth : ReleaseProtocol unrestricted (alone (smooth (some true)) 60) :=
  release_protocol (reachable_alone _ (fun _ _ _ _ _ _ _ => trivial) 60)

end Lingsway.Mihomo
