import Lingsway.Library.Program

/-!
# Programs that run side by side

Processes share a state, and each has a local one. Any of them may make its next
call, and may crash before it; new processes may begin at any time. A process is
verified alone, against everything the others guarantee, and what is proved of
every process then holds of every run of all of them.
-/
namespace Lingsway.Library

/-- What a call of a process does, by a choice of the outside world, and what is left of
the shared state when a process is gone. -/
structure Agents (S : Signature) (ε σ ρ : Type) where
  Choice : S.Call → Type
  act : ℕ → (c : S.Call) → Choice c → σ × ρ → Except ε (S.Answer c) × (σ × ρ)
  leave : ℕ → σ → σ

/-- The calls and the crashes that a run allows. -/
structure Conduct (S : Signature) (ε σ ρ : Type) where
  call : ℕ → (c : S.Call) → σ × ρ → Except ε (S.Answer c) → σ × ρ → Prop
  crash : ℕ → σ × ρ → Prop

inductive Phase (S : Signature) (ε α : Type) where
  | running (p : Program S ε α)
  | ended (r : Except ε α)
  | crashed

structure Process (S : Signature) (ε α ρ : Type) where
  phase : Phase S ε α
  own : ρ

structure Configuration (S : Signature) (ε α σ ρ : Type) where
  shared : σ
  process : ℕ → Option (Process S ε α ρ)

namespace Configuration

variable {S : Signature} {ε α σ ρ : Type}

def update (g : Configuration S ε α σ ρ) (i : ℕ) (phase : Phase S ε α) (w : σ × ρ) :
    Configuration S ε α σ ρ where
  shared := w.1
  process := fun j => if j = i then some ⟨phase, w.2⟩ else g.process j

def start (s : σ) : Configuration S ε α σ ρ := ⟨s, fun _ => none⟩

@[simp] theorem process_update_self (g : Configuration S ε α σ ρ) (i : ℕ) (phase : Phase S ε α) (w : σ × ρ) :
    (g.update i phase w).process i = some ⟨phase, w.2⟩ := if_pos rfl

theorem update_self {g : Configuration S ε α σ ρ} {i : ℕ} {phase : Phase S ε α} {l : ρ}
    (h : g.process i = some ⟨phase, l⟩) : g.update i phase (g.shared, l) = g := by
  obtain ⟨s, process⟩ := g
  simp only [update, mk.injEq, true_and]
  funext j
  split_ifs with hj
  · rw [hj]
    exact h.symm
  · rfl

@[simp] theorem update_update (g : Configuration S ε α σ ρ) (i : ℕ) (phase phase' : Phase S ε α) (w w' : σ × ρ) :
    (g.update i phase w).update i phase' w' = g.update i phase' w' := by
  simp only [update, mk.injEq, true_and]
  funext j
  split_ifs <;> rfl

end Configuration

namespace Agents

variable {S : Signature} {ε α σ ρ : Type}

/-- A step of a run in which `p` is begun with the local state `own`. -/
inductive Step (M : Agents S ε σ ρ) (K : Conduct S ε σ ρ) (p : Program S ε α) (own : ρ) :
    Configuration S ε α σ ρ → Configuration S ε α σ ρ → Prop
  | spawn {g : Configuration S ε α σ ρ} (i : ℕ) (h : g.process i = none) :
      Step M K p own g (g.update i (.running p) (g.shared, own))
  | call {g : Configuration S ε α σ ρ} {i : ℕ} {c : S.Call} {next : Except ε (S.Answer c) → Program S ε α}
      {l : ρ} {x : Except ε (S.Answer c)} {w : σ × ρ} (choice : M.Choice c)
      (h : g.process i = some ⟨.running (.call c next), l⟩) (hact : M.act i c choice (g.shared, l) = (x, w))
      (hallowed : K.call i c (g.shared, l) x w) :
      Step M K p own g (g.update i (.running (next x)) w)
  | ret {g : Configuration S ε α σ ρ} {i : ℕ} {a : α} {l : ρ}
      (h : g.process i = some ⟨.running (.ret a), l⟩) :
      Step M K p own g (g.update i (.ended (.ok a)) (M.leave i g.shared, l))
  | raise {g : Configuration S ε α σ ρ} {i : ℕ} {e : ε} {l : ρ}
      (h : g.process i = some ⟨.running (.raise e), l⟩) :
      Step M K p own g (g.update i (.ended (.error e)) (M.leave i g.shared, l))
  | crash {g : Configuration S ε α σ ρ} {i : ℕ} {q : Program S ε α} {l : ρ}
      (h : g.process i = some ⟨.running q, l⟩) (hallowed : K.crash i (g.shared, l)) :
      Step M K p own g (g.update i .crashed (M.leave i g.shared, l))

inductive Reachable (M : Agents S ε σ ρ) (K : Conduct S ε σ ρ) (p : Program S ε α) (own : ρ)
    (Start : σ → Prop) : Configuration S ε α σ ρ → Prop
  | start {s : σ} (h : Start s) : Reachable M K p own Start (.start s)
  | step {g g' : Configuration S ε α σ ρ} (h : Reachable M K p own Start g) (hstep : M.Step K p own g g') :
      Reachable M K p own Start g'

/-- At most `n` calls of process `i`, by the choices that the script has for them. -/
def play (M : Agents S ε σ ρ) (i : ℕ) (script : (c : S.Call) → Option (M.Choice c)) :
    ℕ → Program S ε α → σ × ρ → Program S ε α × (σ × ρ)
  | 0, p, w => (p, w)
  | n + 1, .call c next, w =>
    match script c with
    | none => (.call c next, w)
    | some choice =>
      let r := M.act i c choice w
      M.play i script n (next r.1) r.2
  | _ + 1, .ret a, w => (.ret a, w)
  | _ + 1, .raise e, w => (.raise e, w)

theorem Reachable.run {M : Agents S ε σ ρ} {K : Conduct S ε σ ρ} {p : Program S ε α} {own : ρ} {Start : σ → Prop}
    {g g' : Configuration S ε α σ ρ} (h : Reachable M K p own Start g)
    (hrun : Relation.ReflTransGen (M.Step K p own) g g') : Reachable M K p own Start g' := by
  induction hrun with
  | refl => exact h
  | tail _ hstep ih => exact ih.step hstep

/-- The calls of `play` are allowed. -/
def PlayAllowed (M : Agents S ε σ ρ) (K : Conduct S ε σ ρ) (i : ℕ) (script : (c : S.Call) → Option (M.Choice c)) :
    ℕ → Program S ε α → σ × ρ → Prop
  | n + 1, .call c next, w =>
    match script c with
    | none => True
    | some choice =>
      let r := M.act i c choice w
      K.call i c w r.1 r.2 ∧ M.PlayAllowed K i script n (next r.1) r.2
  | _, _, _ => True

/-- A script whose calls are allowed as they come is a run. -/
theorem run_playAllowed {M : Agents S ε σ ρ} {K : Conduct S ε σ ρ} (p : Program S ε α) (own : ρ) {i : ℕ}
    (script : (c : S.Call) → Option (M.Choice c)) {q : Program S ε α} {l : ρ}
    {g : Configuration S ε α σ ρ} (hprocess : g.process i = some ⟨.running q, l⟩) (n : ℕ)
    (hK : M.PlayAllowed K i script n q (g.shared, l)) :
    Relation.ReflTransGen (M.Step K p own) g (g.update i (.running (M.play i script n q (g.shared, l)).1)
      (M.play i script n q (g.shared, l)).2) := by
  induction n generalizing q l g with
  | zero =>
    rw [play, Configuration.update_self hprocess]
  | succ n ih =>
    cases q with
    | ret a =>
      rw [play, Configuration.update_self hprocess]
    | raise e =>
      rw [play, Configuration.update_self hprocess]
    | call c next =>
      rw [PlayAllowed] at hK
      rw [play]
      cases hchoice : script c with
      | none =>
        dsimp only
        rw [Configuration.update_self hprocess]
      | some choice =>
        rw [hchoice] at hK
        obtain ⟨hcall, hrest⟩ := hK
        have hnext := ih (Configuration.process_update_self g i (.running (next (M.act i c choice (g.shared, l)).1))
          (M.act i c choice (g.shared, l)).2) hrest
        rw [Configuration.update_update] at hnext
        exact hnext.head (.call choice hprocess rfl hcall)

theorem Reachable.begun {M : Agents S ε σ ρ} {K : Conduct S ε σ ρ} {p : Program S ε α} {own : ρ} {Start : σ → Prop}
    {g : Configuration S ε α σ ρ} (h : Reachable M K p own Start g) (i : ℕ) (hnone : g.process i = none) :
    Reachable M K p own Start (g.update i (.running p) (g.shared, own)) := h.step (.spawn i hnone)

/-- A reachable configuration whose process `i` has gone on by a script. -/
theorem Reachable.played {M : Agents S ε σ ρ} {K : Conduct S ε σ ρ} {p : Program S ε α} {own : ρ} {Start : σ → Prop}
    {g : Configuration S ε α σ ρ} (h : Reachable M K p own Start g) (script : (c : S.Call) → Option (M.Choice c))
    {i : ℕ} {q : Program S ε α} {l : ρ} (hprocess : g.process i = some ⟨.running q, l⟩) (n : ℕ)
    (hK : M.PlayAllowed K i script n q (g.shared, l)) :
    Reachable M K p own Start (g.update i (.running (M.play i script n q (g.shared, l)).1)
      (M.play i script n q (g.shared, l)).2) :=
  h.run (run_playAllowed p own script hprocess n hK)

theorem playAllowed_of_all {M : Agents S ε σ ρ} {K : Conduct S ε σ ρ} {i : ℕ}
    {script : (c : S.Call) → Option (M.Choice c)}
    (hK : ∀ c choice w x w', script c = some choice → M.act i c choice w = (x, w') → K.call i c w x w')
    (n : ℕ) (q : Program S ε α) (w : σ × ρ) : M.PlayAllowed K i script n q w := by
  induction n generalizing q w with
  | zero => cases q <;> trivial
  | succ n ih =>
    cases q with
    | ret a => trivial
    | raise e => trivial
    | call c next =>
      rw [PlayAllowed]
      cases hchoice : script c with
      | none => trivial
      | some choice => exact ⟨hK c choice w _ _ hchoice rfl, ih _ _⟩

/-- A script that is allowed is a run. -/
theorem run_play {M : Agents S ε σ ρ} {K : Conduct S ε σ ρ} (p : Program S ε α) (own : ρ) {i : ℕ}
    (script : (c : S.Call) → Option (M.Choice c)) {q : Program S ε α} {l : ρ}
    (hK : ∀ c choice w x w', script c = some choice → M.act i c choice w = (x, w') → K.call i c w x w')
    {g : Configuration S ε α σ ρ} (hprocess : g.process i = some ⟨.running q, l⟩) (n : ℕ) :
    Relation.ReflTransGen (M.Step K p own) g (g.update i (.running (M.play i script n q (g.shared, l)).1)
      (M.play i script n q (g.shared, l)).2) :=
  run_playAllowed p own script hprocess n (playAllowed_of_all hK n q (g.shared, l))

end Agents

/-- What every process guarantees of its steps, what holds of the shared state all the time
and before a process begins, what holds of every process all the time, and what every call
satisfies. -/
structure Contract (S : Signature) (ε σ ρ : Type) where
  guarantee : ℕ → σ → σ → Prop
  invariant : σ → Prop
  absent : ℕ → σ → Prop
  kept : ℕ → σ × ρ → Prop
  safe : ℕ → (c : S.Call) → σ × ρ → Except ε (S.Answer c) → σ × ρ → Prop

namespace Contract

variable {S : Signature} {ε α β σ ρ : Type}

/-- What the other processes may have done. -/
def Rely (C : Contract S ε σ ρ) (i : ℕ) : σ → σ → Prop :=
  Relation.ReflTransGen fun s t => ∃ j, j ≠ i ∧ C.guarantee j s t ∧ C.invariant t

/-- The other processes keep `P`. -/
def Stable (C : Contract S ε σ ρ) (i : ℕ) (P : σ × ρ → Prop) : Prop :=
  ∀ j s t l, j ≠ i → C.guarantee j s t → C.invariant t → P (s, l) → P (t, l)

theorem Stable.rely {C : Contract S ε σ ρ} {i : ℕ} {P : σ × ρ → Prop} (h : C.Stable i P) {s t : σ} {l : ρ}
    (hrely : C.Rely i s t) (hP : P (s, l)) : P (t, l) := by
  induction hrely with
  | refl => exact hP
  | tail _ hlast ih =>
    obtain ⟨j, hj, hguarantee, hinvariant⟩ := hlast
    exact h j _ _ l hj hguarantee hinvariant ih

theorem Stable.and {C : Contract S ε σ ρ} {i : ℕ} {P Q : σ × ρ → Prop} (hP : C.Stable i P) (hQ : C.Stable i Q) :
    C.Stable i fun w => P w ∧ Q w := by
  intro j s t l hj hguarantee hinvariant h
  exact ⟨hP j s t l hj hguarantee hinvariant h.1, hQ j s t l hj hguarantee hinvariant h.2⟩

/-- The others leave the local state alone. -/
theorem stable_own {C : Contract S ε σ ρ} {i : ℕ} (R : ρ → Prop) : C.Stable i fun w => R w.2 :=
  fun _ _ _ _ _ _ _ h => h

/-- The calls of process `i` among the other ones. -/
def handler (C : Contract S ε σ ρ) (M : Agents S ε σ ρ) (K : Conduct S ε σ ρ) (i : ℕ) :
    Handler S ε (σ × ρ) where
  step c w x w' := ∃ s choice, C.Rely i w.1 s ∧ C.invariant s ∧ C.kept i (s, w.2) ∧
    M.act i c choice (s, w.2) = (x, w') ∧ K.call i c (s, w.2) x w'
  check c w x w' := ∀ s choice, C.Rely i w.1 s → C.invariant s → C.kept i (s, w.2) →
    M.act i c choice (s, w.2) = (x, w') → K.call i c (s, w.2) x w' →
    C.guarantee i s w'.1 ∧ C.invariant w'.1 ∧ C.kept i w' ∧ C.safe i c (s, w.2) x w'

/-- What one call of process `i` has to satisfy, before its continuation. -/
structure Fine (C : Contract S ε σ ρ) (i : ℕ) (c : S.Call) (w : σ × ρ) (x : Except ε (S.Answer c))
    (w' : σ × ρ) : Prop where
  guarantee : C.guarantee i w.1 w'.1
  invariant : C.invariant w'.1
  kept : C.kept i w'
  safe : C.safe i c w x w'

section Rules

variable {C : Contract S ε σ ρ} {M : Agents S ε σ ρ} {K : Conduct S ε σ ρ} {i : ℕ}

/-- The rule of a call: its precondition survives what the others do. -/
theorem call_wp {c : S.Call} {next : Except ε (S.Answer c) → Program S ε α} {P : σ × ρ → Prop}
    {Q : Except ε α → σ × ρ → Prop} (hstable : C.Stable i P)
    (h : ∀ s l choice x w', C.invariant s → C.kept i (s, l) → P (s, l) →
      M.act i c choice (s, l) = (x, w') → K.call i c (s, l) x w' →
      C.Fine i c (s, l) x w' ∧ (next x).wp (C.handler M K i) Q w')
    {w : σ × ρ} (hw : P w) : (Program.call c next).wp (C.handler M K i) Q w := by
  intro x w' hstep
  constructor
  · intro s choice hrely hinvariant hkept hact hallowed
    have hfine := (h s w.2 choice x w' hinvariant hkept (hstable.rely hrely hw) hact hallowed).1
    exact ⟨hfine.guarantee, hfine.invariant, hfine.kept, hfine.safe⟩
  · obtain ⟨s, choice, hrely, hinvariant, hkept, hact, hallowed⟩ := hstep
    exact (h s w.2 choice x w' hinvariant hkept (hstable.rely hrely hw) hact hallowed).2

theorem perform_wp {c : S.Call} {P : σ × ρ → Prop} {Q : Except ε (S.Answer c) → σ × ρ → Prop}
    (hstable : C.Stable i P)
    (h : ∀ s l choice x w', C.invariant s → C.kept i (s, l) → P (s, l) →
      M.act i c choice (s, l) = (x, w') → K.call i c (s, l) x w' → C.Fine i c (s, l) x w' ∧ Q x w')
    {w : σ × ρ} (hw : P w) : (Program.perform c).wp (C.handler M K i) Q w := by
  refine call_wp hstable ?_ hw
  intro s l choice x w' hinvariant hkept hP hact hallowed
  rw [Program.wp_ofExcept]
  exact h s l choice x w' hinvariant hkept hP hact hallowed

/-- A program whose calls are all fine as they come needs no assertion. -/
theorem keeps_of_fine {Plain : S.Call → Prop} {p : Program S ε α} (hp : p.Calls Plain)
    (hfine : ∀ c w choice x w', Plain c → C.invariant w.1 → C.kept i w → M.act i c choice w = (x, w') →
      K.call i c w x w' → C.Fine i c w x w') :
    Program.Keeps (C.handler M K i) (fun _ => True) p := by
  refine hp.keeps fun c w x w' hplain _ _ => ⟨?_, trivial⟩
  intro s choice _ hinvariant hkept hact hallowed
  have h := hfine c (s, w.2) choice x w' hplain hinvariant hkept hact hallowed
  exact ⟨h.guarantee, h.invariant, h.kept, h.safe⟩

/-- A program that is verified stays so whatever the others do. -/
theorem wp_rely {p : Program S ε α} {Q : Except ε α → σ × ρ → Prop} (hQ : ∀ r, C.Stable i (Q r))
    {s t : σ} {l : ρ} (hrely : C.Rely i s t) (h : p.wp (C.handler M K i) Q (s, l)) :
    p.wp (C.handler M K i) Q (t, l) := by
  cases p with
  | ret a => exact (hQ _).rely hrely h
  | raise e => exact (hQ _).rely hrely h
  | call c next =>
    intro x w' hstep
    obtain ⟨s', choice, hrely', hinvariant, hkept, hact, hallowed⟩ := hstep
    obtain ⟨hcheck, hnext⟩ := h x w' ⟨s', choice, hrely.trans hrely', hinvariant, hkept, hact, hallowed⟩
    exact ⟨fun u choice' hu => hcheck u choice' (hrely.trans hu), hnext⟩

end Rules

/-- The programs of a system are verified against its contract. -/
structure Sound (C : Contract S ε σ ρ) (M : Agents S ε σ ρ) (K : Conduct S ε σ ρ) (p : Program S ε α)
    (own : ρ) (Q : ℕ → Except ε α → σ × ρ → Prop) : Prop where
  kept_stable : ∀ i, C.Stable i (C.kept i)
  ended_stable : ∀ i r, C.Stable i (Q i r)
  absent_stable : ∀ i j s t, j ≠ i → C.guarantee j s t → C.invariant t → C.absent i s → C.absent i t
  begin_kept : ∀ i s, C.invariant s → C.absent i s → C.kept i (s, own)
  verified : ∀ i s, C.invariant s → C.absent i s → p.wp (C.handler M K i) (Q i) (s, own)
  crash_leaves : ∀ i s l, C.invariant s → C.kept i (s, l) → K.crash i (s, l) →
    C.guarantee i s (M.leave i s) ∧ C.invariant (M.leave i s) ∧ C.kept i (M.leave i s, l)
  ended_leaves : ∀ i r s l, C.invariant s → C.kept i (s, l) → Q i r (s, l) →
    C.guarantee i s (M.leave i s) ∧ C.invariant (M.leave i s) ∧ C.kept i (M.leave i s, l) ∧
      Q i r (M.leave i s, l)

/-- What is known of a process in a configuration. -/
def Standing (C : Contract S ε σ ρ) (M : Agents S ε σ ρ) (K : Conduct S ε σ ρ)
    (Q : ℕ → Except ε α → σ × ρ → Prop) (i : ℕ) (phase : Phase S ε α) (w : σ × ρ) : Prop :=
  match phase with
  | .running p => p.wp (C.handler M K i) (Q i) w
  | .ended r => Q i r w
  | .crashed => True

section Runs

variable {C : Contract S ε σ ρ} {M : Agents S ε σ ρ} {K : Conduct S ε σ ρ} {p : Program S ε α}
variable {own : ρ} {Q : ℕ → Except ε α → σ × ρ → Prop}

/-- Every process of the configuration stands where its verification has it. -/
structure Good (C : Contract S ε σ ρ) (M : Agents S ε σ ρ) (K : Conduct S ε σ ρ)
    (Q : ℕ → Except ε α → σ × ρ → Prop) (g : Configuration S ε α σ ρ) : Prop where
  invariant : C.invariant g.shared
  absent : ∀ i, g.process i = none → C.absent i g.shared
  kept : ∀ i q, g.process i = some q → C.kept i (g.shared, q.own)
  standing : ∀ i q, g.process i = some q → C.Standing M K Q i q.phase (g.shared, q.own)

theorem standing_stable (hsound : C.Sound M K p own Q) {i : ℕ} {phase : Phase S ε α} :
    C.Stable i (C.Standing M K Q i phase) := by
  intro j s t l hj hguarantee hinvariant h
  cases phase with
  | running q =>
    have hrely : C.Rely i s t := .single ⟨j, hj, hguarantee, hinvariant⟩
    exact wp_rely (hsound.ended_stable i) hrely h
  | ended r => exact hsound.ended_stable i r j s t l hj hguarantee hinvariant h
  | crashed => trivial

/-- A step of one process that keeps its part keeps everything. -/
theorem Good.update (hsound : C.Sound M K p own Q) {g : Configuration S ε α σ ρ} (hg : C.Good M K Q g) {i : ℕ}
    {phase : Phase S ε α} {w : σ × ρ} (hguarantee : C.guarantee i g.shared w.1)
    (hinvariant : C.invariant w.1) (hkept : C.kept i w) (hstanding : C.Standing M K Q i phase w) :
    C.Good M K Q (g.update i phase w) := by
  refine ⟨hinvariant, ?_, ?_, ?_⟩
  · intro j hj
    by_cases hne : j = i
    · simp only [Configuration.update, if_pos hne] at hj
      cases hj
    · simp only [Configuration.update, if_neg hne] at hj
      exact hsound.absent_stable j i _ _ (Ne.symm hne) hguarantee hinvariant (hg.absent j hj)
  · intro j q hq
    by_cases hj : j = i
    · subst hj
      simp only [Configuration.update, if_true, Option.some.injEq] at hq
      subst hq
      exact hkept
    · simp only [Configuration.update, if_neg hj] at hq
      exact hsound.kept_stable j i _ _ _ (Ne.symm hj) hguarantee hinvariant (hg.kept j q hq)
  · intro j q hq
    by_cases hj : j = i
    · subst hj
      simp only [Configuration.update, if_true, Option.some.injEq] at hq
      subst hq
      exact hstanding
    · simp only [Configuration.update, if_neg hj] at hq
      exact standing_stable hsound i _ _ _ (Ne.symm hj) hguarantee hinvariant (hg.standing j q hq)

theorem Good.call {g : Configuration S ε α σ ρ} (hg : C.Good M K Q g) {i : ℕ}
    {c : S.Call} {next : Except ε (S.Answer c) → Program S ε α} {l : ρ} {x : Except ε (S.Answer c)}
    {w : σ × ρ} (choice : M.Choice c) (h : g.process i = some ⟨.running (.call c next), l⟩)
    (hact : M.act i c choice (g.shared, l) = (x, w)) (hallowed : K.call i c (g.shared, l) x w) :
    C.Fine i c (g.shared, l) x w ∧ (next x).wp (C.handler M K i) (Q i) w := by
  have hkept := hg.kept i _ h
  have hwp : (Program.call c next).wp (C.handler M K i) (Q i) (g.shared, l) := hg.standing i _ h
  have hstep : (C.handler M K i).step c (g.shared, l) x w :=
    ⟨g.shared, choice, .refl, hg.invariant, hkept, hact, hallowed⟩
  obtain ⟨hcheck, hnext⟩ := hwp x w hstep
  obtain ⟨hguarantee, hinvariant, hkept', hsafe⟩ :=
    hcheck g.shared choice .refl hg.invariant hkept hact hallowed
  exact ⟨⟨hguarantee, hinvariant, hkept', hsafe⟩, hnext⟩

/-- Every reachable configuration is good. -/
theorem good_of_reachable (hsound : C.Sound M K p own Q) {Start : σ → Prop}
    (hstart : ∀ s, Start s → C.invariant s ∧ ∀ i, C.absent i s) (hrefl : ∀ i s, C.invariant s → C.guarantee i s s)
    {g : Configuration S ε α σ ρ} (h : M.Reachable K p own Start g) : C.Good M K Q g := by
  induction h with
  | start h =>
    refine ⟨(hstart _ h).1, fun i _ => (hstart _ h).2 i, ?_, ?_⟩
    · intro i q hq
      cases hq
    · intro i q hq
      cases hq
  | step _ hstep ih =>
    cases hstep with
    | spawn i hnone =>
      have habsent := ih.absent i hnone
      exact ih.update hsound (hrefl i _ ih.invariant) ih.invariant (hsound.begin_kept i _ ih.invariant habsent)
        (hsound.verified i _ ih.invariant habsent)
    | call choice hprocess hact hallowed =>
      obtain ⟨hfine, hnext⟩ := ih.call choice hprocess hact hallowed
      exact ih.update hsound hfine.guarantee hfine.invariant hfine.kept hnext
    | ret hprocess =>
      obtain ⟨hguarantee, hinvariant, hkept, hended⟩ := hsound.ended_leaves _ _ _ _ ih.invariant
        (ih.kept _ _ hprocess) (ih.standing _ _ hprocess)
      exact ih.update hsound hguarantee hinvariant hkept hended
    | raise hprocess =>
      obtain ⟨hguarantee, hinvariant, hkept, hended⟩ := hsound.ended_leaves _ _ _ _ ih.invariant
        (ih.kept _ _ hprocess) (ih.standing _ _ hprocess)
      exact ih.update hsound hguarantee hinvariant hkept hended
    | crash hprocess hallowed =>
      obtain ⟨hguarantee, hinvariant, hkept⟩ := hsound.crash_leaves _ _ _ ih.invariant
        (ih.kept _ _ hprocess) hallowed
      exact ih.update hsound hguarantee hinvariant hkept trivial

end Runs

end Contract
end Lingsway.Library
