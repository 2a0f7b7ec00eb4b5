import Mathlib

/-!
# Reading lists of values

A reader that may fail is run over a list. It yields one value for each, in the
order of the list, and a list in another order is read to the values in another order.
-/
namespace Lingsway.Library.Reading

variable {α β ε : Type} {f : α → Except ε β}

theorem bind_ok {x : Except ε α} {k : α → Except ε β} {b : β} (h : x >>= k = .ok b) :
    ∃ a, x = .ok a ∧ k a = .ok b := by
  cases x with
  | error e => cases h
  | ok a => exact ⟨a, rfl, h⟩

theorem bind_error {x : Except ε α} {k : α → Except ε β} {e : ε} (h : x >>= k = .error e) :
    x = .error e ∨ ∃ a, x = .ok a ∧ k a = .error e := by
  cases x with
  | error d =>
    cases h
    exact .inl rfl
  | ok a => exact .inr ⟨a, rfl, h⟩

theorem mapM_ok_iff {xs : List α} {ys : List β} : xs.mapM f = .ok ys ↔ List.Forall₂ (fun x y => f x = .ok y) xs ys := by
  induction xs generalizing ys with
  | nil =>
    simp only [List.mapM_nil, List.forall₂_nil_left_iff]
    constructor
    · intro h
      cases h
      rfl
    · intro h
      rw [h]
      rfl
  | cons x xs ih =>
    rw [List.mapM_cons, List.forall₂_cons_left_iff]
    cases hx : f x with
    | error e =>
      constructor
      · intro h
        cases h
      · rintro ⟨y, _, hy, _, _⟩
        cases hy
    | ok y =>
      cases hxs : xs.mapM f with
      | error e =>
        constructor
        · intro h
          cases h
        · rintro ⟨_, zs, _, hzs, _⟩
          rw [ih.mpr hzs] at hxs
          cases hxs
      | ok zs =>
        constructor
        · intro h
          cases h
          exact ⟨y, zs, rfl, ih.mp hxs, rfl⟩
        · rintro ⟨y', zs', hy, hzs, rfl⟩
          cases hy
          rw [ih.mpr hzs] at hxs
          cases hxs
          rfl

theorem mapM_perm {xs xs' : List α} {ys : List β} (h : xs.mapM f = .ok ys) (hperm : xs.Perm xs') :
    ∃ ys', xs'.mapM f = .ok ys' ∧ ys.Perm ys' := by
  obtain ⟨ys', hread, hys⟩ := List.perm_comp_forall₂ hperm.symm (mapM_ok_iff.mp h)
  exact ⟨ys', mapM_ok_iff.mpr hread, hys.symm⟩

/-- Every value that is read comes from an element. -/
theorem exists_of_mem {xs : List α} {ys : List β} (h : xs.mapM f = .ok ys) {y : β} (hy : y ∈ ys) :
    ∃ x ∈ xs, f x = .ok y := by
  have hread := mapM_ok_iff.mp h
  clear h
  induction hread with
  | nil => cases hy
  | cons hx _ ih =>
    obtain rfl | hy := List.mem_cons.mp hy
    · exact ⟨_, List.mem_cons_self, hx⟩
    · obtain ⟨x, hmem, hfx⟩ := ih hy
      exact ⟨x, List.mem_cons_of_mem _ hmem, hfx⟩

/-- Every element is read. -/
theorem exists_of_element {xs : List α} {ys : List β} (h : xs.mapM f = .ok ys) {x : α} (hx : x ∈ xs) :
    ∃ y ∈ ys, f x = .ok y := by
  have hread := mapM_ok_iff.mp h
  clear h
  induction hread with
  | nil => cases hx
  | cons hy _ ih =>
    obtain rfl | hx := List.mem_cons.mp hx
    · exact ⟨_, List.mem_cons_self, hy⟩
    · obtain ⟨y, hmem, hfx⟩ := ih hx
      exact ⟨y, List.mem_cons_of_mem _ hmem, hfx⟩

/-- An element that is read can be read first. -/
theorem mapM_first [DecidableEq α] {xs : List α} {ys : List β} (h : xs.mapM f = .ok ys) {x : α} (hx : x ∈ xs) {y : β}
    (hy : f x = .ok y) : ∃ ys', (x :: xs.erase x).mapM f = .ok (y :: ys') ∧ ys.Perm (y :: ys') := by
  obtain ⟨zs, hread, hperm⟩ := mapM_perm h (List.perm_cons_erase hx)
  obtain ⟨y', zs', hy', _, rfl⟩ := List.forall₂_cons_left_iff.mp (mapM_ok_iff.mp hread)
  rw [hy] at hy'
  cases hy'
  exact ⟨zs', hread, hperm⟩

end Lingsway.Library.Reading
