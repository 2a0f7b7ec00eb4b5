import Lingsway.Library.Json

/-!
# Objects as dictionaries

The order of the members of an object does not matter to its canonical form. A
stable sort is determined by the elements of each key, so that two objects have
one canonical form when they agree on every key.
-/
namespace Lingsway.Library

section StableSort

variable {α κ : Type*} [LinearOrder κ] {key : α → κ} {r : α → α → Prop} [DecidableRel r]

theorem filter_orderedInsert (hr : ∀ a b, r a b ↔ key a ≤ key b) (a : α) (l : List α) (k : κ) :
    (l.orderedInsert r a).filter (key · = k) = (a :: l).filter (key · = k) := by
  induction l with
  | nil => rfl
  | cons b l ih =>
    by_cases hab : r a b
    · rw [List.orderedInsert_cons_of_le r l hab]
    · rw [List.orderedInsert_of_not_le r l hab, List.filter_cons, ih]
      have hlt : key b < key a := not_le.mp fun h => hab ((hr a b).mpr h)
      by_cases hb : key b = k
      · have ha : key a ≠ k := fun ha => by simp [ha, hb] at hlt
        simp [hb, ha]
      · simp [List.filter_cons, hb]

/-- A stable sort keeps the elements of each key in their order. -/
theorem filter_insertionSort (hr : ∀ a b, r a b ↔ key a ≤ key b) (l : List α) (k : κ) :
    (l.insertionSort r).filter (key · = k) = l.filter (key · = k) := by
  induction l with
  | nil => rfl
  | cons a l ih =>
    rw [List.insertionSort_cons, filter_orderedInsert hr, List.filter_cons, List.filter_cons, ih]

theorem eq_of_filter_eq {l₁ l₂ : List α} (h₁ : l₁.Pairwise (key · ≤ key ·))
    (h₂ : l₂.Pairwise (key · ≤ key ·)) (h : ∀ k, l₁.filter (key · = k) = l₂.filter (key · = k)) : l₁ = l₂ := by
  induction l₁ generalizing l₂ with
  | nil =>
    cases l₂ with
    | nil => rfl
    | cons b l₂ =>
      have hb := h (key b)
      simp at hb
  | cons a l₁ ih =>
    cases l₂ with
    | nil =>
      have ha := h (key a)
      simp at ha
    | cons b l₂ =>
      have hle : ∀ {x y : α} {xs ys : List α}, (x :: xs).Pairwise (key · ≤ key ·) →
          (x :: xs).filter (key · = key y) = (y :: ys).filter (key · = key y) → key x ≤ key y := by
        intro x y xs ys hsorted hfilter
        have hmem : y ∈ (x :: xs).filter (key · = key y) := by
          rw [hfilter]
          simp
        obtain rfl | hin := List.mem_cons.mp (List.mem_filter.mp hmem).1
        · exact le_rfl
        · exact (List.pairwise_cons.mp hsorted).1 y hin
      have hkey : key a = key b := le_antisymm (hle h₁ (h (key b))) (hle h₂ (h (key a)).symm)
      have hhead := h (key a)
      simp only [List.filter_cons, hkey, decide_true, if_true, List.cons.injEq] at hhead
      obtain ⟨rfl, -⟩ := hhead
      have htail : ∀ k, l₁.filter (key · = k) = l₂.filter (key · = k) := by
        intro k
        have hk := h k
        by_cases ha : key a = k
        · simpa [List.filter_cons, ha] using hk
        · simpa [List.filter_cons, ha] using hk
      rw [ih (List.pairwise_cons.mp h₁).2 (List.pairwise_cons.mp h₂).2 htail]

theorem pairwise_insertionSort (hr : ∀ a b, r a b ↔ key a ≤ key b) (l : List α) :
    (l.insertionSort r).Pairwise (key · ≤ key ·) := by
  have : Std.Total r := ⟨fun a b => by simpa [hr] using le_total (key a) (key b)⟩
  have : IsTrans α r := ⟨fun a b c => by simpa [hr] using le_trans⟩
  exact (List.pairwise_insertionSort r l).imp fun {a b} hab => (hr a b).mp hab

theorem insertionSort_eq_iff (hr : ∀ a b, r a b ↔ key a ≤ key b) {l₁ l₂ : List α} :
    l₁.insertionSort r = l₂.insertionSort r ↔ ∀ k, l₁.filter (key · = k) = l₂.filter (key · = k) := by
  constructor
  · intro h k
    rw [← filter_insertionSort hr l₁, h, filter_insertionSort hr l₂]
  · intro h
    apply eq_of_filter_eq (pairwise_insertionSort hr l₁) (pairwise_insertionSort hr l₂)
    intro k
    rw [filter_insertionSort hr, filter_insertionSort hr, h]

end StableSort

namespace Json

theorem canonicalItems_eq_map (xs : List Json) : canonicalItems xs = xs.map canonical := by
  induction xs with
  | nil => rfl
  | cons x xs ih => simp [canonicalItems, ih]

theorem canonicalMembers_eq_map (ms : Members) :
    canonicalMembers ms = ms.map fun m => (m.1, m.2.canonical) := by
  induction ms with
  | nil => rfl
  | cons m ms ih => simp [canonicalMembers, ih]

theorem mem_sortMembers {ms : Members} {m : String × Json} : m ∈ sortMembers ms ↔ m ∈ ms := by
  simp [sortMembers]

theorem sortMembers_eq_iff {ms ns : Members} :
    sortMembers ms = sortMembers ns ↔ ∀ k, ms.filter (·.1 = k) = ns.filter (·.1 = k) :=
  insertionSort_eq_iff fun _ _ => Iff.rfl

theorem filter_sortMembers (ms : Members) (k : String) :
    (sortMembers ms).filter (·.1 = k) = ms.filter (·.1 = k) :=
  filter_insertionSort (fun _ _ => Iff.rfl) ms k

theorem sortMembers_sortMembers (ms : Members) : sortMembers (sortMembers ms) = sortMembers ms :=
  sortMembers_eq_iff.mpr (filter_sortMembers ms)

theorem canonicalMembers_sortMembers {ms : Members} (h : canonicalMembers ms = ms) :
    canonicalMembers (sortMembers ms) = sortMembers ms := by
  rw [canonicalMembers_eq_map] at h ⊢
  have hfixed : ∀ m ∈ ms, (m.1, m.2.canonical) = id m :=
    List.map_inj_left.mp (h.trans (List.map_id ms).symm)
  rw [List.map_congr_left fun m hm => hfixed m (mem_sortMembers.mp hm), List.map_id]

mutual

@[simp] theorem canonical_canonical : ∀ j : Json, j.canonical.canonical = j.canonical
  | arr items => by simp [canonical, canonicalItems_canonicalItems items]
  | obj members => by
      simp [canonical, canonicalMembers_sortMembers (canonicalMembers_canonicalMembers members),
        sortMembers_sortMembers]
  | null => rfl
  | bool _ => rfl
  | int _ => rfl
  | float _ => rfl
  | str _ => rfl

theorem canonicalItems_canonicalItems :
    ∀ xs : List Json, canonicalItems (canonicalItems xs) = canonicalItems xs
  | [] => rfl
  | x :: xs => by simp [canonicalItems, canonical_canonical x, canonicalItems_canonicalItems xs]

theorem canonicalMembers_canonicalMembers :
    ∀ ms : List (String × Json), canonicalMembers (canonicalMembers ms) = canonicalMembers ms
  | [] => rfl
  | (k, x) :: ms => by simp [canonicalMembers, canonical_canonical x, canonicalMembers_canonicalMembers ms]

end

end Json

namespace Members

open Json

/-- `d[key] = value`. -/
def set (key : String) (value : Json) : Members → Members
  | [] => [(key, value)]
  | (k, v) :: rest => if k = key then (k, value) :: rest else (k, v) :: set key value rest

theorem lookup_cons_eq (l : String) (v : Json) (rest : Members) (k : String) :
    List.lookup k ((l, v) :: rest) = if k = l then some v else rest.lookup k := by
  by_cases hk : k = l
  · simp [hk]
  · have hbeq : (k == l) = false := by simpa using hk
    simp [List.lookup_cons, hk, hbeq]

/-- What an object holds under a key, in canonical form. -/
def values (m : Members) (k : String) : List Json := (m.filter (·.1 = k)).map fun member => member.2.canonical

/-- A key is looked up among the members that have it. -/
theorem lookup_eq_head (m : Members) (k : String) : m.lookup k = (m.filter (·.1 = k)).head?.map Prod.snd := by
  induction m with
  | nil => rfl
  | cons head rest ih =>
    obtain ⟨l, v⟩ := head
    rw [lookup_cons_eq]
    by_cases hl : k = l
    · simp [hl]
    · have hl' : l ≠ k := fun h => hl h.symm
      simpa [hl, hl'] using ih

/-- The canonical form keeps what is found under a key. -/
theorem lookup_canonical (m : Members) (k : String) :
    (sortMembers (canonicalMembers m)).lookup k = (m.lookup k).map canonical := by
  rw [lookup_eq_head, filter_sortMembers, canonicalMembers_eq_map, List.filter_map, lookup_eq_head]
  simp [Function.comp_def]

theorem item_canonical (m : Members) (k : String) :
    item (sortMembers (canonicalMembers m)) k = (item m k).canonical := by
  simp only [item, lookup_canonical]
  cases m.lookup k with
  | none => rfl
  | some v => rfl

theorem lookup_filter (m : Members) (p : String → Bool) (k : String) :
    List.lookup k (m.filter fun member => p member.1) = if p k then m.lookup k else none := by
  induction m with
  | nil => simp
  | cons head rest ih =>
    obtain ⟨l, v⟩ := head
    rw [List.filter_cons, lookup_cons_eq]
    by_cases hp : p l = true
    · simp only [hp, if_true, lookup_cons_eq, ih]
      by_cases hl : k = l
      · simp [hl, hp]
      · simp [hl]
    · rw [if_neg hp, ih]
      by_cases hl : k = l
      · simp [hl, hp]
      · simp [hl]

end Members

end Lingsway.Library
