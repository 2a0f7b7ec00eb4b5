import Mathlib

/-!
# Programs over an effect signature

A program is a finite tree of calls. Every call is answered by a value or by
an exception, and the continuation sees which of the two happened, so that
handlers and cleanups are ordinary functions on trees. What a call does to the
world is not part of the tree: it is given by a handler, a relation between the
state before, the answer and the state after, which may be nondeterministic.
-/
namespace Lingsway.Library

/-- The calls a program can make and the type of value each one returns. -/
structure Signature where
  Call : Type
  Answer : Call → Type

inductive Program (S : Signature) (ε α : Type) : Type where
  | ret (a : α)
  | raise (e : ε)
  | call (c : S.Call) (next : Except ε (S.Answer c) → Program S ε α)

namespace Program

variable {S : Signature} {ε α β σ : Type}

def bind : Program S ε α → (α → Program S ε β) → Program S ε β
  | ret a, f => f a
  | raise e, _ => raise e
  | call c next, f => call c (fun r => (next r).bind f)

instance : Monad (Program S ε) where
  pure := ret
  bind := bind

/-- `try p except e: h e`, for the exceptions that `ε` stands for. -/
def tryCatch : Program S ε α → (ε → Program S ε α) → Program S ε α
  | ret a, _ => ret a
  | raise e, h => h e
  | call c next, h => call c (fun r => (next r).tryCatch h)

/-- Run to the end and hand over the outcome as a value. -/
def attempt : Program S ε α → Program S ε (Except ε α)
  | ret a => ret (.ok a)
  | raise e => ret (.error e)
  | call c next => call c (fun r => (next r).attempt)

def ofExcept : Except ε α → Program S ε α
  | .ok a => ret a
  | .error e => raise e

/-- One call: its value is returned and its exception is raised. -/
def perform (c : S.Call) : Program S ε (S.Answer c) := call c ofExcept

/-- `try p finally: cleanup`. An exception of the cleanup replaces the outcome. -/
def tryFinally (p : Program S ε α) (cleanup : Program S ε Unit) : Program S ε α :=
  p.attempt.bind (fun r => cleanup.bind (fun _ => ofExcept r))

/-- `with suppress(Exception): p`. -/
def suppress (p : Program S ε Unit) : Program S ε Unit := p.tryCatch (fun _ => ret ())

end Program

/-- What a call may do in a state: `step` relates the state to the answer and the state
it leaves. `check` is what every such step has to satisfy. -/
structure Handler (S : Signature) (ε σ : Type) where
  step : (c : S.Call) → σ → Except ε (S.Answer c) → σ → Prop
  check : (c : S.Call) → σ → Except ε (S.Answer c) → σ → Prop

namespace Program

variable {S : Signature} {ε α β σ τ : Type}

/-- `p.Exec H s r s'`: from `s` the program can end in `s'` with outcome `r`. -/
def Exec (H : Handler S ε σ) : Program S ε α → σ → Except ε α → σ → Prop
  | ret a, s, r, s' => r = .ok a ∧ s' = s
  | raise e, s, r, s' => r = .error e ∧ s' = s
  | call c next, s, r, s' => ∃ x t, H.step c s x t ∧ (next x).Exec H t r s'

/-- `p.Reaches H s s'`: from `s` the program can have come to `s'`, and go on or not. -/
def Reaches (H : Handler S ε σ) : Program S ε α → σ → σ → Prop
  | ret _, s, s' => s' = s
  | raise _, s, s' => s' = s
  | call c next, s, s' => s' = s ∨ ∃ x t, H.step c s x t ∧ (next x).Reaches H t s'

/-- Every step from `s` passes its check, and every execution ends in an outcome and a
state that satisfy `Q`. -/
def wp (H : Handler S ε σ) : Program S ε α → (Except ε α → σ → Prop) → σ → Prop
  | ret a, Q, s => Q (.ok a) s
  | raise e, Q, s => Q (.error e) s
  | call c next, Q, s => ∀ x t, H.step c s x t → H.check c s x t ∧ (next x).wp H Q t

theorem exec_of_wp {H : Handler S ε σ} {p : Program S ε α} {Q : Except ε α → σ → Prop} {s : σ}
    (h : p.wp H Q s) {r : Except ε α} {s' : σ} (he : p.Exec H s r s') : Q r s' := by
  induction p generalizing s with
  | ret a =>
    obtain ⟨rfl, rfl⟩ := he
    exact h
  | raise e =>
    obtain ⟨rfl, rfl⟩ := he
    exact h
  | call c next ih =>
    obtain ⟨x, t, hstep, hrest⟩ := he
    exact ih x (h x t hstep).2 hrest

/-- The last step of an interrupted run has passed its check. -/
theorem reaches_of_wp {H : Handler S ε σ} {p : Program S ε α} {Q : Except ε α → σ → Prop} {s s' : σ}
    (h : p.wp H Q s) (hr : p.Reaches H s s') : s' = s ∨ ∃ c t x, H.step c t x s' ∧ H.check c t x s' := by
  induction p generalizing s with
  | ret a => exact .inl hr
  | raise e => exact .inl hr
  | call c next ih =>
    obtain rfl | ⟨x, t, hstep, hrest⟩ := hr
    · exact .inl rfl
    · obtain ⟨hcheck, hnext⟩ := h x t hstep
      obtain rfl | hlast := ih x hnext hrest
      · exact .inr ⟨c, s, x, hstep, hcheck⟩
      · exact .inr hlast

theorem wp_of_exec {H : Handler S ε σ} (hcheck : ∀ c s x t, H.step c s x t → H.check c s x t)
    {p : Program S ε α} {Q : Except ε α → σ → Prop} {s : σ}
    (h : ∀ r s', p.Exec H s r s' → Q r s') : p.wp H Q s := by
  induction p generalizing s with
  | ret a => exact h _ _ ⟨rfl, rfl⟩
  | raise e => exact h _ _ ⟨rfl, rfl⟩
  | call c next ih =>
    intro x t hstep
    exact ⟨hcheck _ _ _ _ hstep, ih x fun r s' hrest => h r s' ⟨x, t, hstep, hrest⟩⟩

theorem wp_mono (H : Handler S ε σ) (p : Program S ε α) {Q R : Except ε α → σ → Prop}
    (hQR : ∀ r s, Q r s → R r s) {s : σ} (h : p.wp H Q s) : p.wp H R s := by
  induction p generalizing s with
  | ret a => exact hQR _ _ h
  | raise e => exact hQR _ _ h
  | call c next ih => exact fun x t hstep => ⟨(h x t hstep).1, ih x (h x t hstep).2⟩

/-- The postcondition `p` must establish so that `p` followed by `f` establishes `Q`. -/
def bindPost (H : Handler S ε σ) (f : α → Program S ε β) (Q : Except ε β → σ → Prop) :
    Except ε α → σ → Prop
  | .ok a, s => (f a).wp H Q s
  | .error e, s => Q (.error e) s

/-- The postcondition `p` must establish under a handler `h` for its exceptions. -/
def catchPost (H : Handler S ε σ) (h : ε → Program S ε α) (Q : Except ε α → σ → Prop) :
    Except ε α → σ → Prop
  | .ok a, s => Q (.ok a) s
  | .error e, s => (h e).wp H Q s

@[simp] theorem bindPost_ok (H : Handler S ε σ) (f : α → Program S ε β)
    (Q : Except ε β → σ → Prop) (a : α) (s : σ) :
    bindPost H f Q (.ok a) s = (f a).wp H Q s := rfl

@[simp] theorem bindPost_error (H : Handler S ε σ) (f : α → Program S ε β)
    (Q : Except ε β → σ → Prop) (e : ε) (s : σ) :
    bindPost H f Q (.error e) s = Q (.error e) s := rfl

@[simp] theorem catchPost_ok (H : Handler S ε σ) (h : ε → Program S ε α)
    (Q : Except ε α → σ → Prop) (a : α) (s : σ) :
    catchPost H h Q (.ok a) s = Q (.ok a) s := rfl

@[simp] theorem catchPost_error (H : Handler S ε σ) (h : ε → Program S ε α)
    (Q : Except ε α → σ → Prop) (e : ε) (s : σ) :
    catchPost H h Q (.error e) s = (h e).wp H Q s := rfl

@[simp] theorem wp_ret (H : Handler S ε σ) (a : α) (Q : Except ε α → σ → Prop) (s : σ) :
    (ret a : Program S ε α).wp H Q s = Q (.ok a) s := rfl

@[simp] theorem wp_pure (H : Handler S ε σ) (a : α) (Q : Except ε α → σ → Prop) (s : σ) :
    (pure a : Program S ε α).wp H Q s = Q (.ok a) s := rfl

@[simp] theorem wp_raise (H : Handler S ε σ) (e : ε) (Q : Except ε α → σ → Prop) (s : σ) :
    (raise e : Program S ε α).wp H Q s = Q (.error e) s := rfl

theorem wp_bind_eq (H : Handler S ε σ) (p : Program S ε α) (f : α → Program S ε β)
    (Q : Except ε β → σ → Prop) (s : σ) :
    (p.bind f).wp H Q s = p.wp H (bindPost H f Q) s := by
  induction p generalizing s with
  | ret a => rfl
  | raise e => rfl
  | call c next ih => simp only [bind, wp, ih]

@[simp] theorem wp_bind (H : Handler S ε σ) (p : Program S ε α) (f : α → Program S ε β)
    (Q : Except ε β → σ → Prop) (s : σ) :
    (p >>= f).wp H Q s = p.wp H (bindPost H f Q) s := wp_bind_eq H p f Q s

@[simp] theorem wp_tryCatch (H : Handler S ε σ) (p : Program S ε α) (h : ε → Program S ε α)
    (Q : Except ε α → σ → Prop) (s : σ) :
    (p.tryCatch h).wp H Q s = p.wp H (catchPost H h Q) s := by
  induction p generalizing s with
  | ret a => rfl
  | raise e => rfl
  | call c next ih => simp only [tryCatch, wp, ih]

@[simp] theorem wp_attempt (H : Handler S ε σ) (p : Program S ε α)
    (Q : Except ε (Except ε α) → σ → Prop) (s : σ) :
    p.attempt.wp H Q s = p.wp H (fun r => Q (.ok r)) s := by
  induction p generalizing s with
  | ret a => rfl
  | raise e => rfl
  | call c next ih => simp only [attempt, wp, ih]

@[simp] theorem wp_ofExcept (H : Handler S ε σ) (r : Except ε α)
    (Q : Except ε α → σ → Prop) (s : σ) :
    (ofExcept r : Program S ε α).wp H Q s = Q r s := by
  cases r <;> rfl

theorem wp_tryFinally (H : Handler S ε σ) (p : Program S ε α) (cleanup : Program S ε Unit)
    (Q : Except ε α → σ → Prop) (s : σ) :
    (p.tryFinally cleanup).wp H Q s =
      p.wp H (fun r => cleanup.wp H (fun
        | .ok _ => Q r
        | .error e => Q (.error e))) s := by
  simp only [tryFinally, wp_bind_eq, wp_attempt]
  congr 1
  funext r t
  simp only [bindPost, wp_bind_eq]
  congr 1
  funext x u
  cases x with
  | ok _ => simp only [bindPost, wp_ofExcept]
  | error e => rfl

@[simp] theorem wp_suppress (H : Handler S ε σ) (p : Program S ε Unit)
    (Q : Except ε Unit → σ → Prop) (s : σ) :
    p.suppress.wp H Q s = p.wp H (fun _ => Q (.ok ())) s := by
  simp only [suppress, wp_tryCatch]
  congr 1
  funext r t
  cases r <;> rfl

@[simp] theorem wp_ite (H : Handler S ε σ) (c : Prop) [Decidable c] (p q : Program S ε α)
    (Q : Except ε α → σ → Prop) (s : σ) :
    (if c then p else q).wp H Q s ↔ (c → p.wp H Q s) ∧ (¬c → q.wp H Q s) := by
  split_ifs with hc <;> simp [hc]

/-- Both outcomes of a call, one after the other. -/
theorem forall_except {P : Except ε α → Prop} :
    (∀ x, P x) ↔ (∀ e, P (.error e)) ∧ ∀ a, P (.ok a) := by
  constructor
  · intro h
    exact ⟨fun e => h _, fun a => h _⟩
  · rintro ⟨herror, hok⟩ (e | a)
    · exact herror e
    · exact hok a

/-- Whatever the outcome, `p` keeps `I`. -/
def Keeps (H : Handler S ε σ) (I : σ → Prop) (p : Program S ε α) : Prop :=
  ∀ s, I s → p.wp H (fun _ => I) s

section Keeps

variable {H : Handler S ε σ} {I : σ → Prop}

theorem Keeps.ret (a : α) : Keeps H I (ret a : Program S ε α) := fun _ hs => hs

theorem Keeps.raise (e : ε) : Keeps H I (raise e : Program S ε α) := fun _ hs => hs

theorem Keeps.bind {p : Program S ε α} {f : α → Program S ε β} (hp : Keeps H I p)
    (hf : ∀ a, Keeps H I (f a)) : Keeps H I (p >>= f) := by
  intro s hs
  rw [wp_bind]
  refine wp_mono H p ?_ (hp s hs)
  rintro (e | a) t ht
  · exact ht
  · exact hf a t ht

theorem Keeps.attempt {p : Program S ε α} (hp : Keeps H I p) : Keeps H I p.attempt := by
  intro s hs
  rw [wp_attempt]
  exact hp s hs

theorem Keeps.suppress {p : Program S ε Unit} (hp : Keeps H I p) : Keeps H I p.suppress := by
  intro s hs
  rw [wp_suppress]
  exact hp s hs

theorem Keeps.tryCatch {p : Program S ε α} {h : ε → Program S ε α} (hp : Keeps H I p)
    (hh : ∀ e, Keeps H I (h e)) : Keeps H I (p.tryCatch h) := by
  intro s hs
  rw [wp_tryCatch]
  refine wp_mono H p ?_ (hp s hs)
  rintro (e | a) t ht
  · exact hh e t ht
  · exact ht

theorem Keeps.ofExcept (r : Except ε α) : Keeps H I (ofExcept r : Program S ε α) := by
  intro s hs
  rw [wp_ofExcept]
  exact hs

theorem Keeps.perform {c : S.Call} (hc : ∀ s x t, I s → H.step c s x t → H.check c s x t ∧ I t) :
    Keeps H I (perform c : Program S ε (S.Answer c)) := by
  intro s hs x t hstep
  rw [wp_ofExcept]
  exact hc s x t hs hstep

theorem Keeps.ite {c : Prop} [Decidable c] {p q : Program S ε α} (hp : Keeps H I p)
    (hq : Keeps H I q) : Keeps H I (if c then p else q) := by
  split_ifs
  · exact hp
  · exact hq

/-- `p` keeps `I` while `f` goes on from its value. -/
theorem Keeps.wp_bind {p : Program S ε α} {f : α → Program S ε β} (hp : Keeps H I p)
    {Q : Except ε β → σ → Prop} (herror : ∀ e t, I t → Q (.error e) t)
    (hf : ∀ a t, I t → (f a).wp H Q t) {s : σ} (hs : I s) : (p >>= f).wp H Q s := by
  rw [Program.wp_bind]
  refine wp_mono H p ?_ (hp s hs)
  rintro (e | a) t ht
  · exact herror e t ht
  · exact hf a t ht

end Keeps

section Calls

variable {P Q : S.Call → Prop}

/-- Every call of the program satisfies `P`. -/
def Calls (P : S.Call → Prop) : Program S ε α → Prop
  | ret _ => True
  | raise _ => True
  | call c next => P c ∧ ∀ x, (next x).Calls P

theorem Calls.ret (a : α) : (ret a : Program S ε α).Calls P := trivial

theorem Calls.raise (e : ε) : (raise e : Program S ε α).Calls P := trivial

theorem Calls.ofExcept (r : Except ε α) : (ofExcept r : Program S ε α).Calls P := by
  cases r <;> trivial

theorem Calls.perform {c : S.Call} (hc : P c) : (perform c : Program S ε (S.Answer c)).Calls P :=
  ⟨hc, fun x => Calls.ofExcept x⟩

theorem Calls.bind {p : Program S ε α} {f : α → Program S ε β} (hp : p.Calls P) (hf : ∀ a, (f a).Calls P) :
    (p >>= f).Calls P := by
  induction p with
  | ret a => exact hf a
  | raise e => trivial
  | call c next ih => exact ⟨hp.1, fun x => ih x (hp.2 x)⟩

theorem Calls.attempt {p : Program S ε α} (hp : p.Calls P) : p.attempt.Calls P := by
  induction p with
  | ret a => trivial
  | raise e => trivial
  | call c next ih => exact ⟨hp.1, fun x => ih x (hp.2 x)⟩

theorem Calls.tryCatch {p : Program S ε α} {h : ε → Program S ε α} (hp : p.Calls P) (hh : ∀ e, (h e).Calls P) :
    (p.tryCatch h).Calls P := by
  induction p with
  | ret a => trivial
  | raise e => exact hh e
  | call c next ih => exact ⟨hp.1, fun x => ih x (hp.2 x)⟩

theorem Calls.suppress {p : Program S ε Unit} (hp : p.Calls P) : p.suppress.Calls P :=
  hp.tryCatch fun _ => .ret ()

theorem Calls.ite {c : Prop} [Decidable c] {p q : Program S ε α} (hp : p.Calls P) (hq : q.Calls P) :
    (if c then p else q).Calls P := by
  split_ifs
  · exact hp
  · exact hq

/-- What every such call keeps, the program keeps. -/
theorem Calls.keeps {H : Handler S ε σ} {I : σ → Prop} {p : Program S ε α} (hp : p.Calls P)
    (hkeeps : ∀ c s x t, P c → I s → H.step c s x t → H.check c s x t ∧ I t) : Keeps H I p := by
  induction p with
  | ret a => exact fun _ hs => hs
  | raise e => exact fun _ hs => hs
  | call c next ih =>
    intro s hs x t hstep
    obtain ⟨hcheck, ht⟩ := hkeeps c s x t hp.1 hs hstep
    exact ⟨hcheck, ih x (hp.2 x) t ht⟩

end Calls

end Program
end Lingsway.Library
