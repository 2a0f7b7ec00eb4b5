import Lingsway.Library.Program

/-!
# Machines: handlers that can be run

A machine answers a call by a function of the state and of a choice, which is
what the outside world decides. Its handler allows every choice, and a script
that fixes the choices makes the machine run a program.
-/
namespace Lingsway.Library

structure Machine (S : Signature) (ε σ : Type) where
  Choice : S.Call → Type
  act : (c : S.Call) → Choice c → σ → Except ε (S.Answer c) × σ

namespace Machine

variable {S : Signature} {ε α σ : Type}

def handler (M : Machine S ε σ) : Handler S ε σ where
  step c s x t := ∃ choice, M.act c choice s = (x, t)
  check _ _ _ _ := True

def run (M : Machine S ε σ) (script : (c : S.Call) → σ → M.Choice c) :
    Program S ε α → σ → Except ε α × σ
  | .ret a, s => (.ok a, s)
  | .raise e, s => (.error e, s)
  | .call c next, s =>
    let (x, t) := M.act c (script c s) s
    run M script (next x) t

theorem exec_run (M : Machine S ε σ) (script : (c : S.Call) → σ → M.Choice c)
    (p : Program S ε α) (s : σ) :
    p.Exec M.handler s (M.run script p s).1 (M.run script p s).2 := by
  induction p generalizing s with
  | ret a => exact ⟨rfl, rfl⟩
  | raise e => exact ⟨rfl, rfl⟩
  | call c next ih => exact ⟨_, _, ⟨script c s, rfl⟩, ih _ _⟩

@[simp] theorem wp_call_handler (M : Machine S ε σ) (c : S.Call)
    (next : Except ε (S.Answer c) → Program S ε α) (Q : Except ε α → σ → Prop) (s : σ) :
    (Program.call c next).wp M.handler Q s ↔
      ∀ choice, (next (M.act c choice s).1).wp M.handler Q (M.act c choice s).2 := by
  simp only [Program.wp, handler, true_and]
  constructor
  · intro h choice
    exact h _ _ ⟨choice, rfl⟩
  · rintro h x t ⟨choice, hact⟩
    have hnext := h choice
    rw [hact] at hnext
    exact hnext

end Machine
end Lingsway.Library
