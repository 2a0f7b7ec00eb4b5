import Lingsway.Library.Decimal

/-!
# The values of rounded decimals

What a context makes of a sum, product or quotient depends on its value only:
the closest multiple of one power of ten, of two the even one.
-/
namespace Lingsway.Library

/-- The closest integer, of two the even one. -/
def halfEven (v : ℚ) : ℤ :=
  if Int.fract v < 1 / 2 then ⌊v⌋
  else if 1 / 2 < Int.fract v then ⌊v⌋ + 1
  else if Even ⌊v⌋ then ⌊v⌋
  else ⌊v⌋ + 1

theorem abs_halfEven_sub (v : ℚ) : |(halfEven v : ℚ) - v| = min (Int.fract v) (1 - Int.fract v) := by
  have hv : (⌊v⌋ : ℚ) + Int.fract v = v := Int.floor_add_fract v
  have hlow := Int.fract_nonneg v
  have hhigh := Int.fract_lt_one v
  have hdown : |((⌊v⌋ : ℤ) : ℚ) - v| = Int.fract v := by
    rw [abs_of_nonpos (by linarith)]
    linarith
  have hup : |((⌊v⌋ + 1 : ℤ) : ℚ) - v| = 1 - Int.fract v := by
    push_cast
    rw [abs_of_nonneg (by linarith)]
    linarith
  unfold halfEven
  split_ifs with hless hmore heven
  · rw [hdown, min_eq_left (by linarith)]
  · rw [hup, min_eq_right (by linarith)]
  · rw [hdown, min_eq_left (by linarith)]
  · rw [hup, min_eq_right (by linarith)]

theorem abs_halfEven_sub_le (v : ℚ) : |(halfEven v : ℚ) - v| ≤ 1 / 2 := by
  rw [abs_halfEven_sub]
  obtain h | h := le_total (Int.fract v) (1 / 2)
  · exact (min_le_left _ _).trans h
  · exact (min_le_right _ _).trans (by linarith)

@[simp] theorem halfEven_intCast (n : ℤ) : halfEven n = n := by
  simp [halfEven]

/-- An even number is taken from the middle as well. -/
theorem halfEven_eq_iff_of_even {v : ℚ} {k : ℤ} (hk : Even k) : halfEven v = k ↔ |(k : ℚ) - v| ≤ 1 / 2 := by
  constructor
  · intro h
    rw [← h]
    exact abs_halfEven_sub_le v
  · intro h
    obtain ⟨hbelow, habove⟩ := abs_le.mp h
    have hv : (⌊v⌋ : ℚ) + Int.fract v = v := Int.floor_add_fract v
    obtain hle | hlt := le_or_gt (k : ℚ) v
    · have hfloor : ⌊v⌋ = k := by
        rw [Int.floor_eq_iff]
        constructor
        · exact hle
        · linarith
      rw [hfloor] at hv
      unfold halfEven
      rw [if_neg (by linarith : ¬1 / 2 < Int.fract v), hfloor, if_pos hk, ite_self]
    · have hfloor : ⌊v⌋ = k - 1 := by
        rw [Int.floor_eq_iff]
        push_cast
        constructor
        · linarith
        · linarith
      rw [hfloor] at hv
      push_cast at hv
      have hodd : ¬Even (k - 1) := by
        rw [Int.even_sub_one]
        simpa using hk
      unfold halfEven
      rw [if_neg (by linarith : ¬Int.fract v < 1 / 2), hfloor, if_neg hodd, ite_self]
      omega

namespace Decimal

/-- The place of the last of 28 digits. -/
def quantum (v : ℚ) : ℚ := 10 ^ (Int.log 10 v + 1 - precision)

/-- The value in the context's precision. -/
def rounded (v : ℚ) : ℚ := halfEven (v / quantum v) * quantum v

theorem quantum_pos (v : ℚ) : 0 < quantum v := zpow_pos (by norm_num) _

theorem quantum_of_bounds {v : ℚ} {a : ℤ} (hlow : (10 : ℚ) ^ a ≤ v) (hhigh : v < (10 : ℚ) ^ (a + 1)) :
    quantum v = 10 ^ (a + 1 - precision) := by
  have hpos : 0 < v := lt_of_lt_of_le (zpow_pos (by norm_num) _) hlow
  have hle : a ≤ Int.log 10 v := (Int.zpow_le_iff_le_log (by norm_num) hpos).mp (by exact_mod_cast hlow)
  have hlt : Int.log 10 v < a + 1 := (Int.lt_zpow_iff_log_lt (by norm_num) hpos).mp (by exact_mod_cast hhigh)
  have hlog : Int.log 10 v = a := by omega
  rw [quantum, hlog]

theorem abs_rounded_sub (v : ℚ) : |rounded v - v| =
    min (Int.fract (v / quantum v)) (1 - Int.fract (v / quantum v)) * quantum v := by
  have hpos := quantum_pos v
  have hv : rounded v - v = (halfEven (v / quantum v) - v / quantum v) * quantum v := by
    rw [rounded, sub_mul, div_mul_cancel₀ _ hpos.ne']
  rw [hv, abs_mul, abs_halfEven_sub, abs_of_pos hpos]

theorem abs_rounded_sub_le (v : ℚ) : |rounded v - v| ≤ quantum v / 2 := by
  rw [abs_rounded_sub, ← abs_halfEven_sub]
  have := mul_le_mul_of_nonneg_right (abs_halfEven_sub_le (v / quantum v)) (quantum_pos v).le
  linarith

/-- A value that has 28 digits stays. -/
theorem rounded_of_multiple {v : ℚ} {k : ℤ} (h : v = k * quantum v) : rounded v = v := by
  have hk : v / quantum v = k := by
    rw [div_eq_iff (quantum_pos v).ne']
    exact h
  rw [rounded, hk, halfEven_intCast, ← h]

def value (x : Decimal) : ℚ := x.coefficient * 10 ^ x.exponent

theorem divHalfEven_eq {n d : ℕ} (hd : 0 < d) : (divHalfEven n d : ℤ) = halfEven ((n : ℚ) / d) := by
  have hd' : (0 : ℚ) < d := by exact_mod_cast hd
  have hfloor : ⌊(n : ℚ) / d⌋ = ((n / d : ℕ) : ℤ) := by
    exact_mod_cast Rat.floor_natCast_div_natCast n d
  have hfract : Int.fract ((n : ℚ) / d) = ((n % d : ℕ) : ℚ) / d := Int.fract_div_natCast_eq_div_natCast_mod
  have hless : Int.fract ((n : ℚ) / d) < 1 / 2 ↔ 2 * (n % d) < d := by
    rw [hfract, div_lt_div_iff₀ hd' (by norm_num)]
    constructor
    · intro h
      have : ((2 * (n % d) : ℕ) : ℚ) < (d : ℕ) := by push_cast; linarith
      exact_mod_cast this
    · intro h
      have : ((2 * (n % d) : ℕ) : ℚ) < (d : ℕ) := by exact_mod_cast h
      push_cast at this ⊢
      linarith
  have hmore : 1 / 2 < Int.fract ((n : ℚ) / d) ↔ d < 2 * (n % d) := by
    rw [hfract, div_lt_div_iff₀ (by norm_num) hd']
    constructor
    · intro h
      have : ((d : ℕ) : ℚ) < (2 * (n % d) : ℕ) := by push_cast; linarith
      exact_mod_cast this
    · intro h
      have : ((d : ℕ) : ℚ) < (2 * (n % d) : ℕ) := by exact_mod_cast h
      push_cast at this ⊢
      linarith
  have heven : Even ((n / d : ℕ) : ℤ) ↔ n / d % 2 = 0 := by
    rw [Int.even_coe_nat, Nat.even_iff]
  unfold halfEven divHalfEven
  simp only [hless, hmore, hfloor, heven]
  split_ifs <;> rfl

theorem log_eq_digits (c : ℕ) : Nat.log 10 c + 1 = digits c := rfl

theorem pow_le_value {c : ℕ} (hc : 0 < c) (e : ℤ) : (10 : ℚ) ^ (Nat.log 10 c + e) ≤ c * 10 ^ e := by
  have hlow : (10 : ℚ) ^ Nat.log 10 c ≤ c := by exact_mod_cast Nat.pow_log_le_self 10 hc.ne'
  rw [zpow_add₀ (by norm_num), zpow_natCast]
  exact mul_le_mul_of_nonneg_right hlow (zpow_nonneg (by norm_num) e)

theorem value_lt_pow (c : ℕ) (e : ℤ) : (c : ℚ) * 10 ^ e < 10 ^ (Nat.log 10 c + e + 1) := by
  have hhigh : (c : ℚ) < 10 ^ (Nat.log 10 c + 1) := by exact_mod_cast Nat.lt_pow_succ_log_self (by norm_num) c
  have hsplit : (10 : ℚ) ^ ((Nat.log 10 c : ℤ) + e + 1) = 10 ^ (Nat.log 10 c + 1) * 10 ^ e := by
    rw [← zpow_natCast, ← zpow_add₀ (by norm_num)]
    push_cast
    ring_nf
  rw [hsplit]
  exact mul_lt_mul_of_pos_right hhigh (zpow_pos (by norm_num) e)

theorem quantum_mul_pow {c : ℕ} (hc : 0 < c) (e : ℤ) :
    quantum (c * 10 ^ e) = 10 ^ ((digits c : ℤ) + e - precision) := by
  rw [quantum_of_bounds (pow_le_value hc e) (value_lt_pow c e), ← log_eq_digits]
  push_cast
  ring_nf

theorem divHalfEven_le {n d q : ℕ} (hd : 0 < d) (h : n ≤ q * d) : divHalfEven n d ≤ q := by
  obtain hlt | heq := Nat.lt_or_eq_of_le h
  · have hdiv : n / d < q := (Nat.div_lt_iff_lt_mul hd).mpr hlt
    simp only [divHalfEven]
    split_ifs
    all_goals omega
  · have hmod : n % d = 0 := by rw [heq, Nat.mul_mod_left]
    have hdiv : n / d = q := by rw [heq, Nat.mul_div_cancel _ hd]
    unfold divHalfEven
    rw [if_pos (by omega), hdiv]

/-- Rounding a coefficient is rounding the value. -/
theorem value_round {x : Decimal} (h : 0 < x.coefficient) : (round x).value = rounded x.value := by
  obtain ⟨coefficient, e⟩ := x
  obtain ⟨c, rfl⟩ := Int.eq_ofNat_of_zero_le h.le
  have hc : 0 < c := by simpa using h
  have hquantum := quantum_mul_pow hc e
  have hvalue : value ⟨(c : ℤ), e⟩ = c * 10 ^ e := by simp [value]
  rw [hvalue]
  unfold round
  simp only [Int.natAbs_natCast]
  by_cases hfit : digits c ≤ precision
  · rw [if_pos hfit, hvalue]
    refine (rounded_of_multiple (k := c * 10 ^ (precision - digits c)) ?_).symm
    rw [hquantum]
    push_cast
    rw [mul_assoc, ← zpow_natCast, ← zpow_add₀ (by norm_num)]
    congr 2
    omega
  · rw [if_neg hfit, Int.sign_eq_one_of_pos h, one_mul]
    set drop := digits c - precision with hdrop
    have hpow : (0 : ℕ) < 10 ^ drop := Nat.pow_pos (by norm_num)
    have hq : quantum (c * 10 ^ e) = 10 ^ (drop : ℤ) * 10 ^ e := by
      rw [hquantum, ← zpow_add₀ (by norm_num)]
      congr 1
      omega
    have hdiv : (c : ℚ) * 10 ^ e / quantum (c * 10 ^ e) = (c : ℚ) / (10 ^ drop : ℕ) := by
      rw [hq, zpow_natCast]
      have := zpow_pos (by norm_num : (0 : ℚ) < 10) e
      push_cast
      field_simp
    have hrounded : rounded (c * 10 ^ e) = divHalfEven c (10 ^ drop) * 10 ^ (e + drop) := by
      rw [rounded, hdiv, ← divHalfEven_eq hpow, hq, ← zpow_add₀ (by norm_num), add_comm (drop : ℤ)]
      push_cast
      rfl
    rw [hrounded]
    by_cases hcarry : digits (divHalfEven c (10 ^ drop)) ≤ precision
    · rw [if_pos hcarry]
      simp [value]
    · -- rounding up has given a power of ten
      rw [if_neg hcarry]
      have hle : divHalfEven c (10 ^ drop) ≤ 10 ^ precision := by
        refine divHalfEven_le hpow ?_
        rw [← pow_add]
        have := Nat.lt_pow_succ_log_self (b := 10) (by norm_num) c
        rw [show precision + drop = Nat.log 10 c + 1 by unfold digits at hdrop hfit; omega]
        exact this.le
      have hge : 10 ^ precision ≤ divHalfEven c (10 ^ drop) := by
        unfold digits at hcarry
        have hlog : precision ≤ Nat.log 10 (divHalfEven c (10 ^ drop)) := by omega
        have hne : divHalfEven c (10 ^ drop) ≠ 0 := by
          intro hzero
          rw [hzero] at hlog
          simp [precision] at hlog
        exact (Nat.le_log_iff_pow_le (by norm_num) hne).mp hlog
      have heq : divHalfEven c (10 ^ drop) = 10 ^ precision := le_antisymm hle hge
      rw [heq]
      unfold value precision
      push_cast
      rw [zpow_add₀ (by norm_num) (e + drop) 1]
      norm_num
      ring

theorem value_mul {x y : Decimal} (hx : 0 < x.coefficient) (hy : 0 < y.coefficient) :
    (x * y).value = rounded (x.value * y.value) := by
  change (round ⟨x.coefficient * y.coefficient, x.exponent + y.exponent⟩).value = _
  rw [value_round (mul_pos hx hy)]
  congr 1
  unfold value
  push_cast
  rw [zpow_add₀ (by norm_num)]
  ring

theorem stripZeros_spec (k n : ℕ) : (stripZeros k n).1 * 10 ^ (stripZeros k n).2 = n := by
  induction k generalizing n with
  | zero => simp [stripZeros]
  | succ k ih =>
    by_cases hzero : n % 10 = 0
    · rw [stripZeros, if_pos hzero, pow_succ, ← mul_assoc, ih]
      omega
    · rw [stripZeros, if_neg hzero]
      simp

/-- The half of an even divisor separates a quotient from what it leaves. -/
theorem lt_half_iff {t r d m : ℕ} (hm : m % 2 = 0) (hr : r < d) : 2 * (r + d * t) < d * m ↔ 2 * t < m := by
  constructor
  · intro h
    by_contra hge
    have : d * m ≤ d * (2 * t) := Nat.mul_le_mul_left d (by omega)
    have : d * (2 * t) = 2 * (d * t) := by ring
    omega
  · intro h
    have : d * (2 * t + 2) ≤ d * m := Nat.mul_le_mul_left d (by omega)
    have : d * (2 * t + 2) = 2 * (d * t) + 2 * d := by ring
    omega

theorem half_lt_iff {t r d m : ℕ} (hpos : 0 < r) (hm : m % 2 = 0) (hr : r < d) :
    d * m < 2 * (r + d * t) ↔ m ≤ 2 * t := by
  constructor
  · intro h
    by_contra hlt
    have := (lt_half_iff hm hr).mpr (by omega : 2 * t < m)
    omega
  · intro h
    have : d * m ≤ d * (2 * t) := Nat.mul_le_mul_left d h
    have : d * (2 * t) = 2 * (d * t) := by ring
    omega

theorem divHalfEven_mul {n d m : ℕ} (hd : 0 < d) : divHalfEven (d * n) (d * m) = divHalfEven n m := by
  have hless : 2 * (d * (n % m)) < d * m ↔ 2 * (n % m) < m := by
    rw [← mul_assoc, mul_comm 2 d, mul_assoc, Nat.mul_lt_mul_left hd]
  have hmore : d * m < 2 * (d * (n % m)) ↔ m < 2 * (n % m) := by
    rw [← mul_assoc, mul_comm 2 d, mul_assoc, Nat.mul_lt_mul_left hd]
  simp only [divHalfEven, Nat.mul_div_mul_left n m hd, Nat.mul_mod_mul_left, hless, hmore]

/-- The last digit keeps what the rounding of a quotient depends on. -/
theorem divHalfEven_stickyDiv {n d k : ℕ} (hd : 0 < d) (hk : 0 < k) :
    divHalfEven (stickyDiv n d) (10 ^ k) = divHalfEven n (d * 10 ^ k) := by
  obtain ⟨m, hm⟩ : ∃ m, 10 ^ k = 10 * m := ⟨10 ^ (k - 1), by rw [← pow_succ']; congr 1; omega⟩
  have hmpos : 0 < 10 ^ k := Nat.pow_pos (by norm_num)
  rw [hm] at hmpos ⊢
  by_cases hexact : n % d = 0
  · obtain ⟨c, rfl⟩ := Nat.dvd_of_mod_eq_zero hexact
    rw [divHalfEven_mul hd, stickyDiv, if_neg (by simp), Nat.mul_div_cancel_left c hd]
  · have hr : n % d < d := Nat.mod_lt n hd
    have hdiv : n / (d * (10 * m)) = n / d / (10 * m) := (Nat.div_div_eq_div_mul n d (10 * m)).symm
    have hmod : n % (d * (10 * m)) = n % d + d * (n / d % (10 * m)) := Nat.mod_mul
    have hless := lt_half_iff (t := n / d % (10 * m)) (m := 10 * m) (by omega) hr
    have hmore := half_lt_iff (t := n / d % (10 * m)) (m := 10 * m) (by omega) (by omega) hr
    have hlt : n / d % (10 * m) < 10 * m := Nat.mod_lt _ hmpos
    have hfive : n / d % (10 * m) % 5 = n / d % 5 := Nat.mod_mod_of_dvd _ ⟨2 * m, by ring⟩
    by_cases hlast : n / d % 5 = 0
    · have hsticky : stickyDiv n d = n / d + 1 := if_pos ⟨hexact, hlast⟩
      have hone : 1 < 10 * m := by omega
      have hnext : (n / d + 1) % (10 * m) = n / d % (10 * m) + 1 := by
        rw [Nat.add_mod, Nat.mod_eq_of_lt hone, Nat.mod_eq_of_lt (by omega)]
      have hq : (n / d + 1) / (10 * m) = n / d / (10 * m) := by
        rw [Nat.add_div hmpos, Nat.mod_eq_of_lt hone, if_neg (by omega), Nat.div_eq_of_lt hone, add_zero, add_zero]
      simp only [divHalfEven, hsticky, hnext, hq, hdiv, hmod, hless, hmore]
      generalize n / d % (10 * m) = t at *
      split_ifs
      all_goals omega
    · have hsticky : stickyDiv n d = n / d := if_neg (by simp [hlast])
      simp only [divHalfEven, hsticky, hdiv, hmod, hless, hmore]
      generalize n / d % (10 * m) = t at *
      split_ifs
      all_goals omega

theorem log_stickyDiv {n d : ℕ} (hpos : 0 < n / d) : Nat.log 10 (stickyDiv n d) = Nat.log 10 (n / d) := by
  by_cases hlast : n % d ≠ 0 ∧ n / d % 5 = 0
  · rw [stickyDiv, if_pos hlast]
    have hlow := Nat.pow_log_le_self 10 hpos.ne'
    have hhigh := Nat.lt_pow_succ_log_self (b := 10) (by norm_num) (n / d)
    have hfive : 10 ^ (Nat.log 10 (n / d) + 1) % 5 = 0 := by
      rw [pow_succ]
      omega
    exact Nat.log_eq_of_pow_le_of_lt_pow (by omega) (by omega)
  · rw [stickyDiv, if_neg hlast]

/-- A sticky quotient of more than 28 digits is rounded as the quotient is. -/
theorem value_round_stickyDiv {num den : ℕ} {e : ℤ} (hden : 0 < den) (hlarge : 10 ^ precision * den ≤ num) :
    (round ⟨stickyDiv num den, e⟩).value = rounded ((num : ℚ) / den * 10 ^ e) := by
  have hdenq : (0 : ℚ) < den := by exact_mod_cast hden
  have hdiv : 10 ^ precision ≤ num / den := (Nat.le_div_iff_mul_le hden).mpr hlarge
  have hdivpos : 0 < num / den := lt_of_lt_of_le (Nat.pow_pos (by norm_num)) hdiv
  have hlog := log_stickyDiv hdivpos
  have hlog28 : precision ≤ Nat.log 10 (num / den) := Nat.le_log_of_pow_le (by norm_num) hdiv
  have hsticky : 0 < stickyDiv num den := by
    unfold stickyDiv
    split_ifs
    · omega
    · exact hdivpos
  obtain ⟨k, hk⟩ : ∃ k : ℕ, Nat.log 10 (num / den) + 1 = precision + k :=
    ⟨Nat.log 10 (num / den) + 1 - precision, by omega⟩
  have hpow : 0 < 10 ^ k := Nat.pow_pos (by norm_num)
  have hepos : (0 : ℚ) < 10 ^ e := zpow_pos (by norm_num) e
  have hq : quantum (stickyDiv num den * 10 ^ e) = 10 ^ k * 10 ^ e := by
    rw [quantum_mul_pow hsticky, ← log_eq_digits, hlog, hk, ← zpow_natCast, ← zpow_add₀ (by norm_num)]
    congr 1
    push_cast
    ring
  have hq' : quantum ((num : ℚ) / den * 10 ^ e) = 10 ^ k * 10 ^ e := by
    have hfloor : ((num / den : ℕ) : ℚ) ≤ (num : ℚ) / den := Nat.cast_div_le
    have hup : (num : ℚ) / den < 10 ^ (Nat.log 10 (num / den) + 1) := by
      have hlt := Nat.lt_pow_succ_log_self (b := 10) (by norm_num) (num / den)
      rw [div_lt_iff₀ hdenq]
      exact_mod_cast (Nat.div_lt_iff_lt_mul hden).mp hlt
    have hsplit : (10 : ℚ) ^ ((Nat.log 10 (num / den) : ℤ) + e + 1) = 10 ^ (Nat.log 10 (num / den) + 1) * 10 ^ e := by
      rw [← zpow_natCast, ← zpow_add₀ (by norm_num)]
      push_cast
      ring_nf
    have hlow : (10 : ℚ) ^ ((Nat.log 10 (num / den) : ℤ) + e) ≤ (num : ℚ) / den * 10 ^ e :=
      (pow_le_value hdivpos e).trans (mul_le_mul_of_nonneg_right hfloor hepos.le)
    have hhigh : (num : ℚ) / den * 10 ^ e < 10 ^ ((Nat.log 10 (num / den) : ℤ) + e + 1) := by
      rw [hsplit]
      exact mul_lt_mul_of_pos_right hup hepos
    rw [quantum_of_bounds hlow hhigh, ← zpow_natCast, ← zpow_add₀ (by norm_num)]
    congr 1
    omega
  rw [value_round (by simpa using hsticky)]
  have hvalue : value ⟨(stickyDiv num den : ℤ), e⟩ = stickyDiv num den * 10 ^ e := by simp [value]
  have hscale : (stickyDiv num den : ℚ) * 10 ^ e / (10 ^ k * 10 ^ e) = (stickyDiv num den : ℚ) / (10 ^ k : ℕ) := by
    push_cast
    field_simp
  have hscale' : (num : ℚ) / den * 10 ^ e / (10 ^ k * 10 ^ e) = (num : ℚ) / (den * 10 ^ k : ℕ) := by
    push_cast
    field_simp
  have hkpos : 0 < k := by omega
  rw [hvalue, rounded, rounded, hq, hq', hscale, hscale', ← divHalfEven_eq hpow,
    ← divHalfEven_eq (Nat.mul_pos hden hpow), divHalfEven_stickyDiv hden hkpos]

/-- The quotient is the rounded quotient of the values. -/
theorem value_div {x y : Decimal} (hx : 0 < x.coefficient) (hy : 0 < y.coefficient) :
    (x / y).value = rounded (x.value / y.value) := by
  obtain ⟨coefficient, e⟩ := x
  obtain ⟨divisor, f⟩ := y
  obtain ⟨n, rfl⟩ := Int.eq_ofNat_of_zero_le hx.le
  obtain ⟨d, rfl⟩ := Int.eq_ofNat_of_zero_le hy.le
  have hn : 0 < n := by simpa using hx
  have hd : 0 < d := by simpa using hy
  change (div ⟨n, e⟩ ⟨d, f⟩).value = _
  unfold div
  simp only [Int.natAbs_natCast, Int.sign_eq_one_of_pos hx, Int.sign_eq_one_of_pos hy, one_mul]
  set shift : ℤ := digits d - digits n + precision + 1 with hshift
  set num := n * 10 ^ shift.toNat with hnum
  set den := d * 10 ^ (-shift).toNat with hdenq
  have hden : 0 < den := Nat.mul_pos hd (Nat.pow_pos (by norm_num))
  have hden' : (0 : ℚ) < den := by exact_mod_cast hden
  have hpow : (10 : ℚ) ^ shift.toNat = 10 ^ shift * 10 ^ (-shift).toNat := by
    rw [← zpow_natCast, ← zpow_natCast, ← zpow_add₀ (by norm_num)]
    congr 1
    omega
  have hquotient : (num : ℚ) / den * 10 ^ (e - f - shift) = value ⟨n, e⟩ / value ⟨d, f⟩ := by
    have hd' : (0 : ℚ) < d := by exact_mod_cast hd
    rw [hnum, hdenq, value, value]
    push_cast
    rw [hpow, zpow_sub₀ (by norm_num), zpow_sub₀ (by norm_num)]
    field_simp
  have hlarge : 10 ^ precision * den ≤ num := by
    have hlow : 10 ^ Nat.log 10 n ≤ n := Nat.pow_log_le_self 10 hn.ne'
    have hhigh : d < 10 ^ (Nat.log 10 d + 1) := Nat.lt_pow_succ_log_self (by norm_num) d
    have hexp : precision + (Nat.log 10 d + 1) + (-shift).toNat = Nat.log 10 n + shift.toNat := by
      unfold digits at hshift
      omega
    calc 10 ^ precision * (d * 10 ^ (-shift).toNat)
        ≤ 10 ^ precision * (10 ^ (Nat.log 10 d + 1) * 10 ^ (-shift).toNat) :=
          Nat.mul_le_mul_left _ (Nat.mul_le_mul_right _ hhigh.le)
      _ = 10 ^ Nat.log 10 n * 10 ^ shift.toNat := by rw [← pow_add, ← pow_add, ← pow_add, ← hexp]; ring_nf
      _ ≤ n * 10 ^ shift.toNat := Nat.mul_le_mul_right _ hlow
  by_cases hexact : num % den = 0
  · rw [if_pos hexact]
    have hstrip := stripZeros_spec shift.toNat (num / den)
    set stripped := stripZeros shift.toNat (num / den)
    have hpos : 0 < stripped.1 := by
      by_contra hzero
      have hnumpos : 0 < num / den := Nat.div_pos
        (le_trans (Nat.le_mul_of_pos_left den (Nat.pow_pos (by norm_num))) hlarge) hden
      rw [Nat.eq_zero_of_not_pos hzero, zero_mul] at hstrip
      omega
    rw [value_round (by simpa using hpos), ← hquotient]
    congr 1
    have hcast : (num : ℚ) / den = (stripped.1 : ℚ) * 10 ^ stripped.2 := by
      rw [← Nat.cast_div (Nat.dvd_of_mod_eq_zero hexact) hden'.ne', ← hstrip]
      push_cast
      rfl
    rw [hcast, value, zpow_add₀ (by norm_num), zpow_natCast]
    push_cast
    ring
  · rw [if_neg hexact, value_round_stickyDiv hden hlarge, hquotient]

/-- What a coefficient is moved by when it is brought to 28 digits. -/
def lost (c : ℕ) : ℕ := min (c % 10 ^ (digits c - precision)) (10 ^ (digits c - precision) - c % 10 ^ (digits c - precision))

theorem lost_of_dvd {c : ℕ} (h : 10 ^ (digits c - precision) ∣ c) : lost c = 0 := by
  simp [lost, Nat.mod_eq_zero_of_dvd h]

theorem abs_rounded_sub_eq {c : ℕ} (hc : 0 < c) (e : ℤ) :
    |rounded (c * 10 ^ e) - c * 10 ^ e| = lost c * 10 ^ e := by
  have hpos : (0 : ℚ) < 10 ^ e := zpow_pos (by norm_num) e
  have hquantum := quantum_mul_pow hc e
  by_cases hfit : digits c ≤ precision
  · have hzero : lost c = 0 := lost_of_dvd (by simp [Nat.sub_eq_zero_of_le hfit])
    have hsame : rounded (c * 10 ^ e) = c * 10 ^ e := by
      refine rounded_of_multiple (k := c * 10 ^ (precision - digits c)) ?_
      rw [hquantum]
      push_cast
      rw [mul_assoc, ← zpow_natCast, ← zpow_add₀ (by norm_num)]
      congr 2
      omega
    rw [hsame, hzero]
    simp
  · obtain ⟨drop, hdrop⟩ : ∃ drop : ℕ, digits c - precision = drop := ⟨_, rfl⟩
    have hq : quantum (c * 10 ^ e) = 10 ^ drop * 10 ^ e := by
      rw [hquantum, ← zpow_natCast, ← zpow_add₀ (by norm_num)]
      congr 1
      omega
    have hpow : (0 : ℚ) < 10 ^ drop := by positivity
    have hdiv : (c : ℚ) * 10 ^ e / (10 ^ drop * 10 ^ e) = (c : ℚ) / (10 ^ drop : ℕ) := by
      push_cast
      field_simp
    have hle : c % 10 ^ drop ≤ 10 ^ drop := (Nat.mod_lt c (Nat.pow_pos (by norm_num))).le
    rw [abs_rounded_sub, hq, hdiv, Int.fract_div_natCast_eq_div_natCast_mod, ← mul_assoc, lost, hdrop]
    congr 1
    rw [Nat.cast_min, Nat.cast_sub hle, min_mul_of_nonneg _ _ hpow.le]
    push_cast
    congr 1
    · field_simp
    · field_simp

theorem quantum_le {v : ℚ} (hv : 0 < v) : quantum v ≤ v := by
  have hlog : (10 : ℚ) ^ Int.log 10 v ≤ v := by
    exact_mod_cast Int.zpow_log_le_self (b := 10) (by norm_num) hv
  have hmono : quantum v ≤ 10 ^ Int.log 10 v := by
    unfold quantum precision
    exact zpow_le_zpow_right₀ (by norm_num) (by omega)
  exact hmono.trans hlog

theorem rounded_pos {v : ℚ} (hv : 0 < v) : 0 < rounded v := by
  have hclose := (abs_le.mp (abs_rounded_sub_le v)).1
  have := quantum_le hv
  linarith

theorem coefficient_pos {x : Decimal} (h : 0 < x.value) : 0 < x.coefficient := by
  have hpow : (0 : ℚ) < 10 ^ x.exponent := zpow_pos (by norm_num) _
  have hcast : (0 : ℚ) < x.coefficient := pos_of_mul_pos_left h hpow.le
  exact_mod_cast hcast

@[simp] theorem value_ofInt (n : ℤ) : (ofInt n).value = n := by simp [ofInt, value]

section Compare

theorem scaled_value {x : Decimal} {e : ℤ} (h : e ≤ x.exponent) : (x.scaled e : ℚ) * 10 ^ e = x.value := by
  unfold scaled value
  push_cast
  rw [mul_assoc, ← zpow_natCast, ← zpow_add₀ (by norm_num)]
  congr 2
  omega

theorem le_iff {x y : Decimal} : x.le y = true ↔ x.value ≤ y.value := by
  have hpos : (0 : ℚ) < 10 ^ min x.exponent y.exponent := zpow_pos (by norm_num) _
  rw [← scaled_value (min_le_left x.exponent y.exponent), ← scaled_value (min_le_right x.exponent y.exponent),
    mul_le_mul_iff_left₀ hpos]
  simp [le]

theorem numEq_iff {x y : Decimal} : x.numEq y = true ↔ x.value = y.value := by
  simp only [numEq, Bool.and_eq_true, le_iff]
  exact ⟨fun h => le_antisymm h.1 h.2, fun h => ⟨h.le, h.ge⟩⟩

/-- A positive decimal is its integral value where its value is an integer. -/
theorem numEq_toIntegralValue {x : Decimal} (h : 0 ≤ x.coefficient) :
    x.numEq x.toIntegralValue = true ↔ ∃ m : ℤ, x.value = m := by
  obtain ⟨coefficient, e⟩ := x
  obtain ⟨c, rfl⟩ := Int.eq_ofNat_of_zero_le h
  rw [numEq_iff]
  unfold toIntegralValue
  by_cases he : 0 ≤ e
  · rw [if_pos he]
    obtain ⟨k, rfl⟩ := Int.eq_ofNat_of_zero_le he
    have hvalue : value ⟨c, k⟩ = ((c * 10 ^ k : ℕ) : ℤ) := by
      simp [value]
    exact ⟨fun _ => ⟨_, hvalue⟩, fun _ => rfl⟩
  · rw [if_neg he]
    obtain ⟨k, hk⟩ : ∃ k : ℕ, -e = k := ⟨(-e).toNat, by omega⟩
    have hpow : 0 < 10 ^ k := Nat.pow_pos (by norm_num)
    have hvalue : value ⟨c, e⟩ = (c : ℚ) / (10 ^ k : ℕ) := by
      have : e = -(k : ℤ) := by omega
      rw [this]
      simp [value, zpow_neg, div_eq_mul_inv]
    have hround : value ⟨(c : ℤ).sign * divHalfEven c (10 ^ k), 0⟩ = halfEven ((c : ℚ) / (10 ^ k : ℕ)) := by
      rw [← divHalfEven_eq hpow]
      obtain rfl | hpos := Nat.eq_zero_or_pos c
      · simp [value, divHalfEven]
      · simp [value, Int.sign_eq_one_of_pos (by exact_mod_cast hpos : (0 : ℤ) < c)]
    simp only [Int.natAbs_natCast, hk, Int.toNat_natCast, hround]
    rw [hvalue]
    constructor
    · intro heq
      exact ⟨_, heq⟩
    · rintro ⟨m, hm⟩
      rw [hm, halfEven_intCast]

theorem truncate_eq {x : Decimal} {m : ℤ} (h : x.value = m) : x.truncate = m := by
  obtain ⟨c, e⟩ := x
  unfold truncate
  by_cases he : 0 ≤ e
  · rw [if_pos he]
    obtain ⟨k, rfl⟩ := Int.eq_ofNat_of_zero_le he
    simp only [value, zpow_natCast] at h
    simp only [Int.toNat_natCast]
    exact_mod_cast h
  · rw [if_neg he]
    obtain ⟨k, hk⟩ : ∃ k : ℕ, -e = k := ⟨(-e).toNat, by omega⟩
    have hc : c = m * 10 ^ k := by
      have hcast : (c : ℚ) = m * 10 ^ k := by
        have hneg : e = -(k : ℤ) := by omega
        rw [value, hneg, zpow_neg, zpow_natCast] at h
        field_simp at h
        linarith
      exact_mod_cast hcast
    simp only [hk, Int.toNat_natCast, hc]
    rw [Int.mul_tdiv_cancel m (pow_ne_zero k (by norm_num))]

end Compare

end Decimal
end Lingsway.Library
