import Mathlib

/-!
# Tables with automatic identifiers

A table maps identifiers to rows and knows the first identifier it has never
handed out. Identifiers are handed out once, also when the row that was to carry
them is never stored. Rows are enumerated in the order of their identifiers.
-/
namespace Lingsway.Library

structure Table (ρ : Type) where
  get : ℕ → Option ρ
  next : ℕ
  unused : ∀ id, next ≤ id → get id = none

/-- A stored row together with its identifier. -/
structure Entity (ρ : Type) where
  id : ℕ
  row : ρ
  deriving Repr, DecidableEq

namespace Table

variable {ρ : Type}

def empty : Table ρ where
  get := fun _ => none
  next := 0
  unused := fun _ _ => rfl

/-- Hand out the next identifier without storing a row. -/
def reserve (t : Table ρ) : Table ρ where
  get := t.get
  next := t.next + 1
  unused := fun id h => t.unused id (Nat.le_of_succ_le h)

def insert (t : Table ρ) (id : ℕ) (row : ρ) : Table ρ where
  get := fun j => if j = id then some row else t.get j
  next := max t.next (id + 1)
  unused := fun j h => by
    have hj : j ≠ id := by omega
    rw [if_neg hj]
    exact t.unused j (by omega)

def modify (t : Table ρ) (id : ℕ) (f : ρ → ρ) : Table ρ where
  get := fun j => if j = id then (t.get j).map f else t.get j
  next := t.next
  unused := fun j h => by
    rw [t.unused j h]
    split_ifs <;> rfl

@[simp] theorem get_empty (id : ℕ) : (empty : Table ρ).get id = none := rfl

@[simp] theorem get_reserve (t : Table ρ) (id : ℕ) : t.reserve.get id = t.get id := rfl

@[simp] theorem get_insert (t : Table ρ) (id j : ℕ) (row : ρ) :
    (t.insert id row).get j = if j = id then some row else t.get j := rfl

@[simp] theorem get_modify (t : Table ρ) (id j : ℕ) (f : ρ → ρ) :
    (t.modify id f).get j = if j = id then (t.get j).map f else t.get j := rfl

@[simp] theorem next_reserve (t : Table ρ) : t.reserve.next = t.next + 1 := rfl

@[simp] theorem next_insert (t : Table ρ) (id : ℕ) (row : ρ) :
    (t.insert id row).next = max t.next (id + 1) := rfl

@[simp] theorem next_modify (t : Table ρ) (id : ℕ) (f : ρ → ρ) : (t.modify id f).next = t.next := rfl

/-- A stored row has an identifier that was handed out. -/
theorem lt_next_of_get {t : Table ρ} {id : ℕ} {row : ρ} (h : t.get id = some row) : id < t.next := by
  by_contra hle
  rw [t.unused id (by omega)] at h
  cases h

def entities (t : Table ρ) : List (Entity ρ) :=
  (List.range t.next).filterMap (fun id => (t.get id).map (Entity.mk id))

theorem mem_entities {t : Table ρ} {e : Entity ρ} : e ∈ t.entities ↔ t.get e.id = some e.row := by
  simp only [entities, List.mem_filterMap, List.mem_range, Option.map_eq_some_iff]
  constructor
  · rintro ⟨id, _, row, hrow, rfl⟩
    exact hrow
  · intro h
    exact ⟨e.id, lt_next_of_get h, e.row, h, rfl⟩

theorem nodup_entities (t : Table ρ) : t.entities.Nodup := by
  refine List.Nodup.filterMap ?_ List.nodup_range
  intro i j e hi hj
  simp only [Option.mem_def, Option.map_eq_some_iff] at hi hj
  obtain ⟨r, -, rfl⟩ := hi
  obtain ⟨s, -, he⟩ := hj
  exact (Entity.mk.inj he).1.symm

/-- Among the rows that satisfy `p`, the key `f` tells the identifiers apart. -/
def UniqueKey {κ : Type} (get : ℕ → Option ρ) (p : ρ → Bool) (f : ρ → κ) : Prop :=
  ∀ i j r s, get i = some r → get j = some s → p r = true → p s = true → f r = f s → i = j

theorem nodup_keys {κ : Type} {t : Table ρ} {p : ρ → Bool} {f : ρ → κ} :
    ((t.entities.filter fun e => p e.row).map fun e => f e.row).Nodup ↔ UniqueKey t.get p f := by
  rw [List.nodup_map_iff_inj_on (t.nodup_entities.filter _)]
  simp only [List.mem_filter, mem_entities]
  constructor
  · intro h i j r s hr hs hpr hps hkey
    exact (Entity.mk.inj (h ⟨i, r⟩ ⟨hr, hpr⟩ ⟨j, s⟩ ⟨hs, hps⟩ hkey)).1
  · rintro h ⟨i, r⟩ ⟨hr, hpr⟩ ⟨j, s⟩ ⟨hs, hps⟩ hkey
    have hid : i = j := h i j r s hr hs hpr hps hkey
    subst hid
    rw [hr] at hs
    cases hs
    rfl

theorem nodup_key {κ : Type} {t : Table ρ} {f : ρ → κ} :
    (t.entities.map fun e => f e.row).Nodup ↔ UniqueKey t.get (fun _ => true) f := by
  simpa using nodup_keys (t := t) (p := fun _ => true) (f := f)

/-- The rows with `row` under `own`. -/
def replaced (get : ℕ → Option ρ) (own : ℕ) (row : ρ) (id : ℕ) : Option ρ := if id = own then some row else get id

/-- A row that is added or rewritten keeps a key unless another row has its value. -/
theorem uniqueKey_replaced {κ : Type} {get : ℕ → Option ρ} {p : ρ → Bool} {f : ρ → κ} {own : ℕ} {row : ρ}
    (h : UniqueKey get p f) (hrow : p row = true) :
    UniqueKey (replaced get own row) p f ↔
      ∀ id r, id ≠ own → get id = some r → p r = true → f r ≠ f row := by
  have hown : replaced get own row own = some row := if_pos rfl
  have hother : ∀ id, id ≠ own → replaced get own row id = get id := fun id hid => if_neg hid
  constructor
  · intro hkey id r hid hr hp heq
    exact hid (hkey id own r row ((hother id hid).trans hr) hown hp hrow heq)
  · intro hclear i j r s hr hs hpr hps heq
    by_cases hi : i = own
    · by_cases hj : j = own
      · rw [hi, hj]
      · rw [hi, hown] at hr
        cases hr
        rw [hother j hj] at hs
        exact absurd heq.symm (hclear j s hj hs hps)
    · rw [hother i hi] at hr
      by_cases hj : j = own
      · rw [hj, hown] at hs
        cases hs
        exact absurd heq (hclear i r hi hr hpr)
      · rw [hother j hj] at hs
        exact h i j r s hr hs hpr hps heq

/-- A row stored under the next identifier comes last. -/
theorem entities_insert_next (t : Table ρ) (row : ρ) :
    (t.insert t.next row).entities = t.entities ++ [⟨t.next, row⟩] := by
  have hnext : (t.insert t.next row).next = t.next + 1 := by
    rw [next_insert]
    omega
  have hold : (List.range t.next).filterMap (fun id => ((t.insert t.next row).get id).map (Entity.mk id)) =
      t.entities := by
    apply List.filterMap_congr
    intro id hid
    have hne : id ≠ t.next := Nat.ne_of_lt (List.mem_range.mp hid)
    rw [get_insert, if_neg hne]
  rw [entities, hnext, List.range_succ, List.filterMap_append, hold]
  simp

/-- The first row, by identifier, that satisfies `p`. -/
def find (t : Table ρ) (p : ρ → Bool) : Option (Entity ρ) := t.entities.find? (fun e => p e.row)

theorem find_some {t : Table ρ} {p : ρ → Bool} {e : Entity ρ} (h : t.find p = some e) :
    t.get e.id = some e.row ∧ p e.row = true :=
  ⟨mem_entities.mp (List.mem_of_find?_eq_some h), by simpa using List.find?_some h⟩

theorem find_eq_none {t : Table ρ} {p : ρ → Bool} :
    t.find p = none ↔ ∀ id row, t.get id = some row → p row = false := by
  simp only [find, List.find?_eq_none, Bool.not_eq_true]
  constructor
  · intro h id row hrow
    exact h ⟨id, row⟩ (mem_entities.mpr hrow)
  · intro h e he
    exact h e.id e.row (mem_entities.mp he)

theorem find_isSome {t : Table ρ} {p : ρ → Bool} {id : ℕ} {row : ρ} (h : t.get id = some row)
    (hp : p row = true) : ∃ e, t.find p = some e := by
  cases hf : t.find p with
  | some e => exact ⟨e, rfl⟩
  | none => rw [find_eq_none.mp hf id row h] at hp; cases hp

theorem sorted_entities (t : Table ρ) : t.entities.Pairwise fun d e => d.id < e.id := by
  refine List.Pairwise.filterMap _ ?_ (List.pairwise_lt_range (n := t.next))
  intro i j hij d hd e he
  simp only [Option.mem_def, Option.map_eq_some_iff] at hd he
  obtain ⟨r, -, rfl⟩ := hd
  obtain ⟨s, -, rfl⟩ := he
  exact hij

/-- The row that is found has the least identifier of those that satisfy `p`. -/
theorem find_least {t : Table ρ} {p : ρ → Bool} {e : Entity ρ} (h : t.find p = some e) {id : ℕ} {row : ρ}
    (hget : t.get id = some row) (hp : p row = true) : e.id ≤ id := by
  obtain ⟨-, before, after, hentities, hbefore⟩ := List.find?_eq_some_iff_append.mp h
  have hmem : (⟨id, row⟩ : Entity ρ) ∈ before ++ e :: after := hentities ▸ mem_entities.mpr hget
  have hsorted := t.sorted_entities
  rw [hentities] at hsorted
  obtain hin | hin := List.mem_append.mp hmem
  · have hnot := hbefore _ hin
    simp [hp] at hnot
  · obtain heq | hin := List.mem_cons.mp hin
    · rw [← heq]
    · have hlater := (List.pairwise_cons.mp (List.pairwise_append.mp hsorted).2.1).1 _ hin
      exact hlater.le

/-- A row that is the only one to satisfy `p` is the one found. -/
theorem find_unique {t : Table ρ} {p : ρ → Bool} {id : ℕ} {row : ρ} (h : t.get id = some row)
    (hp : p row = true) (honly : ∀ j r, t.get j = some r → p r = true → j = id) :
    t.find p = some ⟨id, row⟩ := by
  obtain ⟨⟨j, r⟩, he⟩ := find_isSome h hp
  obtain ⟨hget, hpr⟩ := find_some he
  have hid : j = id := honly j r hget hpr
  subst hid
  rw [h] at hget
  cases hget
  exact he

/-- Two tables with the same rows find the same ones. -/
theorem entities_congr {t u : Table ρ} (h : ∀ id, t.get id = u.get id) : t.entities = u.entities := by
  have extend : ∀ (v : Table ρ) (n : ℕ), v.next ≤ n → v.entities =
      (List.range n).filterMap (fun id => (v.get id).map (Entity.mk id)) := by
    intro v n hn
    obtain ⟨k, rfl⟩ := Nat.exists_eq_add_of_le hn
    have htail : ((List.range k).map (v.next + ·)).filterMap
        (fun id => (v.get id).map (Entity.mk id)) = [] := by
      rw [List.filterMap_eq_nil_iff]
      intro id hid
      obtain ⟨j, _, rfl⟩ := List.mem_map.mp hid
      rw [v.unused _ (by omega)]
      rfl
    rw [List.range_add, List.filterMap_append, htail, List.append_nil]
    rfl
  rw [extend t (max t.next u.next) (Nat.le_max_left _ _), extend u (max t.next u.next) (Nat.le_max_right _ _)]
  simp only [h]

theorem find_congr {t u : Table ρ} (h : ∀ id, t.get id = u.get id) (p : ρ → Bool) :
    t.find p = u.find p := by
  rw [find, find, entities_congr h]

end Table
end Lingsway.Library
