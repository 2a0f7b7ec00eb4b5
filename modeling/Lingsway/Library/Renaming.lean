import Mathlib

/-!
# Renaming under a unique key

Items are given new keys one after the other. A renaming is refused when another
item has the key. Whether any order is refused depends on the old and the new
keys alone.
-/
namespace Lingsway.Library.Renaming

variable {ι κ : Type}

/-- No other item has the key. -/
def Free (key : ι → Option κ) (u : ι × κ) : Prop := ∀ j, j ≠ u.1 → key j ≠ some u.2

/-- The new keys are free, and differ from each other. -/
structure Separated (key : ι → Option κ) (updates : List (ι × κ)) : Prop where
  free : ∀ u ∈ updates, Free key u
  distinct : ∀ u ∈ updates, ∀ v ∈ updates, u.1 ≠ v.1 → u.2 ≠ v.2

theorem Separated.of_perm {key : ι → Option κ} {updates order : List (ι × κ)} (h : Separated key updates)
    (horder : order.Perm updates) : Separated key order where
  free u hu := h.free u (horder.mem_iff.mp hu)
  distinct u hu v hv := h.distinct u (horder.mem_iff.mp hu) v (horder.mem_iff.mp hv)

variable [DecidableEq ι]

def rename (key : ι → Option κ) (u : ι × κ) : ι → Option κ := Function.update key u.1 (some u.2)

/-- No renaming of the sequence is refused. -/
def Clear (key : ι → Option κ) : List (ι × κ) → Prop
  | [] => True
  | u :: rest => Free key u ∧ Clear (rename key u) rest

/-- A renaming that is done leaves the others free. -/
theorem Separated.tail {key : ι → Option κ} {u : ι × κ} {rest : List (ι × κ)} (h : Separated key (u :: rest)) :
    Separated (rename key u) rest where
  free v hv j hj := by
    by_cases heq : j = u.1
    · have hkeys : u.2 ≠ v.2 := h.distinct u List.mem_cons_self v (List.mem_cons_of_mem _ hv) (heq ▸ hj)
      rw [rename, heq, Function.update_self]
      exact fun hsame => hkeys (Option.some.inj hsame)
    · rw [rename, Function.update_of_ne heq]
      exact h.free v (List.mem_cons_of_mem _ hv) j hj
  distinct v hv v' hv' := h.distinct v (List.mem_cons_of_mem _ hv) v' (List.mem_cons_of_mem _ hv')

theorem Separated.clear {key : ι → Option κ} {order : List (ι × κ)} (h : Separated key order) : Clear key order := by
  induction order generalizing key with
  | nil => trivial
  | cons u rest ih => exact ⟨h.free u List.mem_cons_self, ih h.tail⟩

/-- No order of the renamings is refused if and only if the keys are separated. -/
theorem clear_iff_separated [DecidableEq κ] {key : ι → Option κ} {updates : List (ι × κ)} :
    (∀ order : List (ι × κ), order.Perm updates → Clear key order) ↔ Separated key updates := by
  constructor
  · intro h
    constructor
    · intro u hu
      exact (h _ (List.perm_cons_erase hu).symm).1
    · intro u hu v hv hne
      have hother : v ≠ u := by
        rintro rfl
        exact hne rfl
      have hv' : v ∈ updates.erase u := (List.mem_erase_of_ne hother).mpr hv
      have horder : (u :: v :: (updates.erase u).erase v).Perm updates :=
        ((List.perm_cons_erase hv').symm.cons u).trans (List.perm_cons_erase hu).symm
      have hfree := (h _ horder).2.1 u.1 hne
      rw [rename, Function.update_self] at hfree
      exact fun heq => hfree (congrArg some heq)
  · intro h order horder
    exact (h.of_perm horder).clear

end Lingsway.Library.Renaming
