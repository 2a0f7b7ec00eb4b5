import Lingsway.Library.Machine

/-!
# Histories of calls

A history lists what happened, newest first, so that a past-time property is a
function by recursion on the list. An event is a call with its answer and with
whether it had its effect, which a call that raised may have had. A moment also
keeps the states before and after the call.
-/
namespace Lingsway.Library

namespace History

variable {α : Type} {P Q : α → List α → Prop}

/-- Every entry satisfies `P` together with the entries before it. -/
def Always (P : α → List α → Prop) : List α → Prop
  | [] => True
  | e :: past => P e past ∧ Always P past

@[simp] theorem always_nil : Always P [] := trivial

@[simp] theorem always_cons {e : α} {past : List α} :
    Always P (e :: past) ↔ P e past ∧ Always P past := Iff.rfl

theorem Always.mono (hPQ : ∀ e past, P e past → Q e past) {h : List α} (hP : Always P h) :
    Always Q h := by
  induction h with
  | nil => trivial
  | cons e past ih => exact ⟨hPQ e past hP.1, ih hP.2⟩

theorem Always.of_suffix {h past : List α} (hP : Always P h) (hs : past <:+ h) : Always P past := by
  obtain ⟨newer, rfl⟩ := hs
  induction newer with
  | nil => exact hP
  | cons e newer ih => exact ih hP.2

instance Always.decidable [∀ e past, Decidable (P e past)] : (h : List α) → Decidable (Always P h)
  | [] => .isTrue trivial
  | _ :: past => @instDecidableAnd _ _ inferInstance (decidable past)

end History

structure Event (S : Signature) (ε : Type) where
  call : S.Call
  answer : Except ε (S.Answer call)
  took : Bool

abbrev History (S : Signature) (ε : Type) := List (Event S ε)

namespace Event

variable {S : Signature} {ε : Type}

def returned (e : Event S ε) : Bool :=
  match e.answer with
  | .ok _ => true
  | .error _ => false

end Event

/-- Every behaviour whose events satisfy `P`: a call may be answered in any way. -/
def behaviours {S : Signature} {ε : Type} (P : Event S ε → History S ε → Prop) :
    Handler S ε (History S ε) where
  step c h x h' := ∃ took, P ⟨c, x, took⟩ h ∧ h' = ⟨c, x, took⟩ :: h
  check _ _ _ _ := True

/-- The machine whose choices are the answers, and which keeps their history. -/
def recorder (S : Signature) (ε : Type) : Machine S ε (History S ε) where
  Choice c := Except ε (S.Answer c) × Bool
  act c choice h := (choice.1, ⟨c, choice.1, choice.2⟩ :: h)

structure Moment (S : Signature) (ε σ : Type) where
  call : S.Call
  answer : Except ε (S.Answer call)
  before : σ
  after : σ

namespace Moment

variable {S : Signature} {ε σ : Type}

def returned (m : Moment S ε σ) : Bool :=
  match m.answer with
  | .ok _ => true
  | .error _ => false

end Moment

/-- The runs of a machine with their moments. Before each call others may change the
state as `I` allows, every moment satisfies `P`, and every moment has to satisfy `G`. -/
def assured {S : Signature} {ε σ : Type} (M : Machine S ε σ) (I : σ → σ → Prop)
    (P G : Moment S ε σ → List (Moment S ε σ) → Prop) : Handler S ε (σ × List (Moment S ε σ)) where
  step c s x s' := ∃ t, I s.1 t ∧ ∃ choice, M.act c choice t = (x, s'.1) ∧
    s'.2 = ⟨c, x, t, s'.1⟩ :: s.2 ∧ P ⟨c, x, t, s'.1⟩ s.2
  check _ _ _ s' := ∀ m past, s'.2 = m :: past → G m past

/-- The runs of a machine with their moments, nothing being required of them. -/
abbrev traced {S : Signature} {ε σ : Type} (M : Machine S ε σ) (I : σ → σ → Prop)
    (P : Moment S ε σ → List (Moment S ε σ) → Prop) : Handler S ε (σ × List (Moment S ε σ)) :=
  assured M I P fun _ _ => True

/-- The machine that also lets others change the state before each call, and keeps
the moments. -/
def tracer {S : Signature} {ε σ : Type} (M : Machine S ε σ) :
    Machine S ε (σ × List (Moment S ε σ)) where
  Choice c := (σ → σ) × M.Choice c
  act c choice s :=
    let t := choice.1 s.1
    let (x, u) := M.act c choice.2 t
    (x, (u, ⟨c, x, t, u⟩ :: s.2))

namespace Program

section Behaviours

variable {S : Signature} {ε α : Type} {P Q : Event S ε → History S ε → Prop}

theorem suffix_of_exec {p : Program S ε α} {h h' : History S ε} {r : Except ε α}
    (he : p.Exec (behaviours P) h r h') : h <:+ h' := by
  induction p generalizing h with
  | ret a => exact he.2 ▸ List.suffix_rfl
  | raise e => exact he.2 ▸ List.suffix_rfl
  | call c next ih =>
    obtain ⟨x, t, ⟨took, _, rfl⟩, hrest⟩ := he
    exact (List.suffix_cons _ h).trans (ih x hrest)

/-- A run all of whose events satisfy `Q` is a run under the condition `Q`. -/
theorem exec_of_always {p : Program S ε α} {h h' : History S ε} {r : Except ε α}
    (he : p.Exec (behaviours P) h r h') (hQ : History.Always Q h') :
    p.Exec (behaviours fun e past => P e past ∧ Q e past) h r h' := by
  induction p generalizing h with
  | ret a => exact he
  | raise e => exact he
  | call c next ih =>
    obtain ⟨x, t, ⟨took, hP, rfl⟩, hrest⟩ := he
    have hevent := (hQ.of_suffix (suffix_of_exec hrest)).1
    exact ⟨x, _, ⟨took, ⟨hP, hevent⟩, rfl⟩, ih x hrest⟩

/-- What the recorder runs under a condition is an execution under that condition. -/
theorem exec_recorder (script : (c : S.Call) → History S ε → Except ε (S.Answer c) × Bool)
    (p : Program S ε α) (hQ : History.Always Q ((recorder S ε).run script p []).2) :
    p.Exec (behaviours Q) [] ((recorder S ε).run script p []).1
      ((recorder S ε).run script p []).2 := by
  have hany : ∀ (p : Program S ε α) (h : History S ε), p.Exec (behaviours fun _ _ => True) h
      ((recorder S ε).run script p h).1 ((recorder S ε).run script p h).2 := by
    intro p
    induction p with
    | ret a => exact fun h => ⟨rfl, rfl⟩
    | raise e => exact fun h => ⟨rfl, rfl⟩
    | call c next ih => exact fun h => ⟨_, _, ⟨(script c h).2, trivial, rfl⟩, ih _ _⟩
  have hcond := exec_of_always (hany p []) hQ
  simp only [true_and] at hcond
  exact hcond

@[simp] theorem wp_call_behaviours (c : S.Call) (next : Except ε (S.Answer c) → Program S ε α)
    (R : Except ε α → History S ε → Prop) (h : History S ε) :
    (call c next).wp (behaviours P) R h ↔
      ∀ x took, P ⟨c, x, took⟩ h → (next x).wp (behaviours P) R (⟨c, x, took⟩ :: h) := by
  simp only [wp, behaviours, true_and]
  constructor
  · intro hall x took hP
    exact hall x _ ⟨took, hP, rfl⟩
  · rintro hall x t ⟨took, hP, rfl⟩
    exact hall x took hP

end Behaviours

section Traced

variable {S : Signature} {ε α σ : Type} {M : Machine S ε σ} {I : σ → σ → Prop}
variable {P Q G : Moment S ε σ → List (Moment S ε σ) → Prop}

theorem suffix_of_traced {p : Program S ε α} {s s' : σ × List (Moment S ε σ)} {r : Except ε α}
    (he : p.Exec (assured M I P G) s r s') : s.2 <:+ s'.2 := by
  induction p generalizing s with
  | ret a => exact he.2 ▸ List.suffix_rfl
  | raise e => exact he.2 ▸ List.suffix_rfl
  | call c next ih =>
    obtain ⟨x, t, ⟨u, _, choice, _, htrace, _⟩, hrest⟩ := he
    have hsuffix := ih x hrest
    rw [htrace] at hsuffix
    exact (List.suffix_cons _ _).trans hsuffix

/-- A run all of whose moments satisfy `Q` is a run under the condition `Q`. -/
theorem traced_of_always {p : Program S ε α} {s s' : σ × List (Moment S ε σ)} {r : Except ε α}
    (he : p.Exec (traced M I fun _ _ => True) s r s') (hQ : History.Always Q s'.2) :
    p.Exec (assured M I Q G) s r s' := by
  induction p generalizing s with
  | ret a => exact he
  | raise e => exact he
  | call c next ih =>
    obtain ⟨x, t, ⟨u, hI, choice, hact, htrace, -⟩, hrest⟩ := he
    have hsuffix := suffix_of_traced hrest
    rw [htrace] at hsuffix
    have hmoment := (hQ.of_suffix hsuffix).1
    exact ⟨x, t, ⟨u, hI, choice, hact, htrace, hmoment⟩, ih x hrest⟩

theorem suffix_of_reaches {p : Program S ε α} {s s' : σ × List (Moment S ε σ)}
    (hr : p.Reaches (assured M I P G) s s') : s.2 <:+ s'.2 := by
  induction p generalizing s with
  | ret a => exact hr ▸ List.suffix_rfl
  | raise e => exact hr ▸ List.suffix_rfl
  | call c next ih =>
    obtain rfl | ⟨x, t, ⟨u, _, choice, _, htrace, _⟩, hrest⟩ := hr
    · exact List.suffix_rfl
    · have hsuffix := ih x hrest
      rw [htrace] at hsuffix
      exact (List.suffix_cons _ _).trans hsuffix

/-- An interrupted run all of whose moments satisfy `Q`. -/
theorem reaches_of_always {p : Program S ε α} {s s' : σ × List (Moment S ε σ)}
    (hr : p.Reaches (traced M I fun _ _ => True) s s') (hQ : History.Always Q s'.2) :
    p.Reaches (assured M I Q G) s s' := by
  induction p generalizing s with
  | ret a => exact hr
  | raise e => exact hr
  | call c next ih =>
    obtain rfl | ⟨x, t, ⟨u, hI, choice, hact, htrace, -⟩, hrest⟩ := hr
    · exact .inl rfl
    · have hsuffix := suffix_of_reaches hrest
      rw [htrace] at hsuffix
      have hmoment := (hQ.of_suffix hsuffix).1
      exact .inr ⟨x, t, ⟨u, hI, choice, hact, htrace, hmoment⟩, ih x hrest⟩

/-- What the tracer runs is an execution, when the others do what `I` allows. -/
theorem exec_tracer (script : (c : S.Call) → σ × List (Moment S ε σ) → (σ → σ) × M.Choice c)
    (hI : ∀ c s, I s.1 ((script c s).1 s.1)) (p : Program S ε α) (s : σ × List (Moment S ε σ)) :
    p.Exec (traced M I fun _ _ => True) s ((tracer M).run script p s).1
      ((tracer M).run script p s).2 := by
  induction p generalizing s with
  | ret a => exact ⟨rfl, rfl⟩
  | raise e => exact ⟨rfl, rfl⟩
  | call c next ih => exact ⟨_, _, ⟨_, hI c s, (script c s).2, rfl, rfl, trivial⟩, ih _ _⟩

/-- The moments of a run are kept. -/
theorem wp_suffix (p : Program S ε α) (s : σ × List (Moment S ε σ)) :
    p.wp (traced M I P) (fun _ s' => s.2 <:+ s'.2) s :=
  wp_of_exec (fun _ _ _ _ _ _ _ _ => trivial) fun _ _ he => suffix_of_traced he

theorem wp_call_assured (c : S.Call) (next : Except ε (S.Answer c) → Program S ε α)
    (R : Except ε α → σ × List (Moment S ε σ) → Prop) (s : σ × List (Moment S ε σ)) :
    (call c next).wp (assured M I P G) R s ↔
      ∀ t, I s.1 t → ∀ choice,
        P ⟨c, (M.act c choice t).1, t, (M.act c choice t).2⟩ s.2 →
        G ⟨c, (M.act c choice t).1, t, (M.act c choice t).2⟩ s.2 ∧
        (next (M.act c choice t).1).wp (assured M I P G) R ((M.act c choice t).2,
          ⟨c, (M.act c choice t).1, t, (M.act c choice t).2⟩ :: s.2) := by
  simp only [wp, assured]
  constructor
  · intro hall t hI choice hP
    obtain ⟨hG, hnext⟩ := hall (M.act c choice t).1
      ((M.act c choice t).2, ⟨c, (M.act c choice t).1, t, (M.act c choice t).2⟩ :: s.2)
      ⟨t, hI, choice, rfl, rfl, hP⟩
    exact ⟨hG _ _ rfl, hnext⟩
  · rintro hall x ⟨u, tr⟩ ⟨t, hI, choice, hact, htrace, hP⟩
    have hnext := hall t hI choice
    rw [hact] at hnext
    simp only at htrace
    subst htrace
    obtain ⟨hG, hrest⟩ := hnext hP
    refine ⟨?_, hrest⟩
    intro m past htrace
    cases htrace
    exact hG

@[simp] theorem wp_call_traced (c : S.Call) (next : Except ε (S.Answer c) → Program S ε α)
    (R : Except ε α → σ × List (Moment S ε σ) → Prop) (s : σ × List (Moment S ε σ)) :
    (call c next).wp (traced M I P) R s ↔
      ∀ t, I s.1 t → ∀ choice,
        P ⟨c, (M.act c choice t).1, t, (M.act c choice t).2⟩ s.2 →
        (next (M.act c choice t).1).wp (traced M I P) R ((M.act c choice t).2,
          ⟨c, (M.act c choice t).1, t, (M.act c choice t).2⟩ :: s.2) := by
  simp only [wp_call_assured, true_and]

/-- An invariant of the state and its moments that one call keeps. -/
theorem Keeps.call_assured {J : σ × List (Moment S ε σ) → Prop} {c : S.Call}
    (hc : ∀ s tr t choice, J (s, tr) → I s t →
      P ⟨c, (M.act c choice t).1, t, (M.act c choice t).2⟩ tr →
      G ⟨c, (M.act c choice t).1, t, (M.act c choice t).2⟩ tr ∧
      J ((M.act c choice t).2, ⟨c, (M.act c choice t).1, t, (M.act c choice t).2⟩ :: tr)) :
    Keeps (assured M I P G) J (Program.perform c : Program S ε (S.Answer c)) := by
  rintro ⟨s, tr⟩ hJ
  simp only [Program.perform, wp_call_assured, wp_ofExcept]
  exact fun t hI choice hP => hc s tr t choice hJ hI hP

theorem Keeps.call_traced {J : σ × List (Moment S ε σ) → Prop} {c : S.Call}
    (hc : ∀ s tr t choice, J (s, tr) → I s t →
      P ⟨c, (M.act c choice t).1, t, (M.act c choice t).2⟩ tr →
      J ((M.act c choice t).2, ⟨c, (M.act c choice t).1, t, (M.act c choice t).2⟩ :: tr)) :
    Keeps (traced M I P) J (Program.perform c : Program S ε (S.Answer c)) :=
  Keeps.call_assured fun s tr t choice hJ hI hP => ⟨trivial, hc s tr t choice hJ hI hP⟩

end Traced

end Program
end Lingsway.Library
