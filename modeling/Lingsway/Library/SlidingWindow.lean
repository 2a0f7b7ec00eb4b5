import Mathlib

/-!
# Sliding windows

A limiter keeps the instants it has recorded and forgets those that a window's
width has passed. If it records an instant only while fewer than its limit are
kept, no window of that width has more recorded instants than the limit.
-/
namespace Lingsway.Library.SlidingWindow

section Windows

variable {R : Type*} [AddCommGroup R] [LinearOrder R]

/-- The instants that are not yet a width old. -/
def evict (width now : R) (kept : List R) : List R := kept.dropWhile fun instant => instant ≤ now - width

/-- The number of instants in the window that begins at `start`. -/
def countWithin (width start : R) (log : List R) : ℕ :=
  log.countP fun instant => start ≤ instant ∧ instant < start + width

/-- A limiter at an instant: what it has recorded, and what it has kept of it. -/
structure Limited (width : R) (limit : ℕ) (log kept : List R) (now : R) : Prop where
  suffix : ∃ old, log = old ++ kept ∧ ∀ instant ∈ old, instant ≤ now - width
  room : kept.length ≤ limit
  bound : ∀ start, countWithin width start log ≤ limit

variable {width now : R} {limit : ℕ} {log kept : List R}

theorem Limited.evict (h : Limited width limit log kept now) :
    Limited width limit log (evict width now kept) now := by
  obtain ⟨old, rfl, hold⟩ := h.suffix
  refine ⟨⟨old ++ kept.takeWhile fun instant => instant ≤ now - width, ?_, ?_⟩, ?_, h.bound⟩
  · rw [List.append_assoc, SlidingWindow.evict, List.takeWhile_append_dropWhile]
  · intro instant hinstant
    obtain hinstant | hinstant := List.mem_append.mp hinstant
    · exact hold instant hinstant
    · simpa using List.mem_takeWhile_imp hinstant
  · exact (List.length_dropWhile_le _ kept).trans h.room

/-- When a width has passed since the first kept instant, it is forgotten. -/
theorem length_evict {first : R} (h : first ≤ now - width) :
    (evict width now (first :: kept)).length ≤ kept.length := by
  rw [SlidingWindow.evict, List.dropWhile_cons_of_pos (by simpa using h)]
  exact List.length_dropWhile_le _ kept

/-- Instants that are among the recorded ones are as rare. -/
theorem Limited.sublist (h : Limited width limit log kept now) {instants : List R} (hsub : instants.Sublist log)
    (start : R) : countWithin width start instants ≤ limit :=
  (List.Sublist.countP_le hsub).trans (h.bound start)

variable [IsOrderedAddMonoid R]

theorem Limited.later (h : Limited width limit log kept now) {t : R} (ht : now ≤ t) :
    Limited width limit log kept t := by
  obtain ⟨old, hlog, hold⟩ := h.suffix
  refine ⟨⟨old, hlog, fun instant hinstant => ?_⟩, h.room, h.bound⟩
  exact (hold instant hinstant).trans (sub_le_sub_right ht width)

/-- An instant is recorded while there is room for it. -/
theorem Limited.record (h : Limited width limit log kept now) (hroom : kept.length < limit) :
    Limited width limit (log ++ [now]) (kept ++ [now]) now := by
  obtain ⟨old, rfl, hold⟩ := h.suffix
  refine ⟨⟨old, List.append_assoc _ _ _, hold⟩, by simpa using hroom, ?_⟩
  intro start
  by_cases hin : start ≤ now ∧ now < start + width
  · -- a window with the new instant has only kept ones beside it
    have hnone : countWithin width start old = 0 := by
      rw [countWithin, List.countP_eq_zero]
      intro instant hinstant
      have hlt : instant < start := (hold instant hinstant).trans_lt (sub_lt_iff_lt_add.mpr hin.2)
      simp [hlt]
    have hkept : countWithin width start kept ≤ kept.length := List.countP_le_length
    have hnew : countWithin width start [now] = 1 := by simp [countWithin, hin]
    simp only [countWithin, List.countP_append] at hnone hkept hnew ⊢
    omega
  · have hnew : countWithin width start [now] = 0 := by
      rw [countWithin, List.countP_eq_zero]
      simpa using hin
    have hbound := h.bound start
    simp only [countWithin, List.countP_append] at hbound hnew ⊢
    omega

end Windows

end Lingsway.Library.SlidingWindow
