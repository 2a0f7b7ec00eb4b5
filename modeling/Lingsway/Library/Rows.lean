import Mathlib

/-!
# Rows under a primary key

A table is an association list whose keys differ. What a query sums over its
rows changes, when one row is written, by the difference of that row alone.
-/
namespace Lingsway.Library

/-- The rows of a table with a primary key. -/
abbrev Rows (κ ν : Type) := AList fun _ : κ => ν

namespace Rows

variable {κ ν : Type} {M : Type*} [AddCommGroup M]

/-- `SELECT SUM(f) FROM rows`. -/
def total (f : κ → ν → M) (rows : Rows κ ν) : M := (rows.entries.map fun entry => f entry.1 entry.2).sum

/-- `DELETE FROM rows WHERE NOT p`. -/
def keep (p : κ → ν → Bool) (rows : Rows κ ν) : Rows κ ν where
  entries := rows.entries.filter fun entry => p entry.1 entry.2
  nodupKeys := rows.nodupKeys.sublist List.filter_sublist

@[simp] theorem total_empty (f : κ → ν → M) : total f (∅ : Rows κ ν) = 0 := rfl

theorem total_add (f g : κ → ν → M) (rows : Rows κ ν) :
    total (fun k v => f k v + g k v) rows = total f rows + total g rows := List.sum_map_add

/-- The rows that are kept and the rows that are deleted make up the sum. -/
theorem total_keep (f : κ → ν → M) (p : κ → ν → Bool) (rows : Rows κ ν) :
    total f (keep p rows) + total f (keep (fun k v => !p k v) rows) = total f rows := by
  obtain ⟨entries, hkeys⟩ := rows
  simp only [total, keep]
  clear hkeys
  induction entries with
  | nil => simp
  | cons entry entries ih =>
    by_cases hp : p entry.1 entry.2 = true
    · simp only [List.filter_cons, hp, if_true, Bool.not_true, Bool.false_eq_true, if_false, List.map_cons,
        List.sum_cons, ← ih, add_assoc]
    · simp only [List.filter_cons, hp, if_false, Bool.not_false, if_true, List.map_cons, List.sum_cons, ← ih,
        Bool.false_eq_true]
      abel

variable [DecidableEq κ]

theorem sum_kerase (f : κ → ν → M) (k : κ) {entries : List (Sigma fun _ : κ => ν)} (h : entries.NodupKeys) :
    ((entries.kerase k).map fun entry => f entry.1 entry.2).sum + ((entries.dlookup k).elim 0 (f k)) =
      (entries.map fun entry => f entry.1 entry.2).sum := by
  induction entries with
  | nil => simp
  | cons entry entries ih =>
    obtain ⟨key, v⟩ := entry
    rw [List.nodupKeys_cons] at h
    by_cases hk : k = key
    · subst key
      have herase : (⟨k, v⟩ :: entries : List (Sigma fun _ : κ => ν)).kerase k = entries := List.kerase_cons_eq rfl
      rw [herase, List.dlookup_cons_eq]
      simp [add_comm]
    · rw [List.kerase_cons_ne hk, List.dlookup_cons_ne _ _ hk, List.map_cons, List.sum_cons, List.map_cons,
        List.sum_cons, ← ih h.2, add_assoc]

/-- A row that is written replaces what its key added to the sum. -/
theorem total_insert (f : κ → ν → M) (rows : Rows κ ν) (k : κ) (v : ν) :
    total f (rows.insert k v) = total f rows + (f k v - (rows.lookup k).elim 0 (f k)) := by
  have hsum := sum_kerase f k rows.nodupKeys
  simp only [total, AList.entries_insert, List.map_cons, List.sum_cons, AList.lookup, ← hsum]
  abel

theorem lookup_insert (rows : Rows κ ν) (k j : κ) (v : ν) :
    (rows.insert k v).lookup j = if j = k then some v else rows.lookup j := by
  by_cases hj : j = k
  · rw [if_pos hj, hj, AList.lookup_insert]
  · rw [if_neg hj, AList.lookup_insert_ne hj]

theorem mem_entries {rows : Rows κ ν} {k : κ} {v : ν} : ⟨k, v⟩ ∈ rows.entries ↔ rows.lookup k = some v :=
  (List.mem_dlookup_iff rows.nodupKeys).symm

theorem lookup_keep (p : κ → ν → Bool) (rows : Rows κ ν) (k : κ) :
    (keep p rows).lookup k = (rows.lookup k).filter (p k) := by
  ext v
  rw [← mem_entries, Option.filter_eq_some_iff, ← mem_entries]
  simp [keep]

/-- Sums over rows whose summands agree. -/
theorem total_congr {f g : κ → ν → M} {rows : Rows κ ν} (h : ∀ k v, rows.lookup k = some v → f k v = g k v) :
    total f rows = total g rows := by
  refine congrArg List.sum (List.map_congr_left ?_)
  rintro ⟨k, v⟩ hentry
  exact h k v (mem_entries.mp hentry)

end Rows

end Lingsway.Library
