import Lingsway.Library.Rounding
import Lingsway.Domain.Capacity

/-!
# The quota of a plan

A request carries a plan's bytes as a number of GiB, and the conversion
multiplies it back. The quotient is rounded to 28 digits in between.
-/
namespace Lingsway.Domain

open Library

/-- `Decimal(plan.traffic_limit_bytes) / Decimal(1024**3)`. -/
def planQuotaGb (trafficLimitBytes : ℕ) : Decimal := .ofInt trafficLimitBytes / .ofInt bytesPerGib

/-- The digits of `n / 2 ^ 30` are those of `n * 5 ^ 30`. What rounding takes from
them is at most half of the last of 28 digits of `n`. -/
def Recovers (n : ℕ) : Prop := 2 * (2 ^ 30 * Decimal.lost (n * 5 ^ 30)) ≤ 10 ^ (Decimal.digits n + 2)

instance (n : ℕ) : Decidable (Recovers n) := inferInstanceAs (Decidable (_ ≤ _))

/-- A conversion multiplies and checks for a whole number of bytes. -/
theorem quotaGbToBytes_of_pos {x : Decimal} (h : 0 < x.value) :
    (∀ m : ℤ, Decimal.rounded (x.value * 1024 ^ 3) = m → quotaGbToBytes x = .ok m) ∧
      ((¬∃ m : ℤ, Decimal.rounded (x.value * 1024 ^ 3) = m) →
        quotaGbToBytes x = .error ⟨.valueError, "quota cannot represent a whole number of bytes"⟩) := by
  have hpositive : x.le (.ofInt 0) = false := by
    rw [Bool.eq_false_iff, ne_eq, Decimal.le_iff]
    simpa using h
  have hcoefficient := Decimal.coefficient_pos h
  have hvalue : (x * Decimal.ofInt bytesPerGib).value = Decimal.rounded (x.value * 1024 ^ 3) := by
    rw [Decimal.value_mul hcoefficient (by decide), Decimal.value_ofInt]
    norm_num [bytesPerGib]
  have hproduct : 0 < (x * Decimal.ofInt bytesPerGib).value := by
    rw [hvalue]
    exact Decimal.rounded_pos (mul_pos h (by norm_num))
  have hintegral := Decimal.numEq_toIntegralValue (Decimal.coefficient_pos hproduct).le
  rw [hvalue] at hintegral
  unfold quotaGbToBytes
  simp only [hpositive, Bool.false_eq_true, if_false]
  constructor
  · intro m hm
    rw [hintegral.mpr ⟨m, hm⟩]
    simp only [Bool.not_true, Bool.false_eq_true, if_false]
    rw [Decimal.truncate_eq (hvalue.trans hm)]
  · intro hnone
    rw [Bool.eq_false_iff.mpr fun htrue => hnone (hintegral.mp htrue)]
    simp

theorem value_planQuotaGb {n : ℕ} (h : 0 < n) :
    (planQuotaGb n).value = Decimal.rounded ((n * 5 ^ 30 : ℕ) * 10 ^ (-30 : ℤ)) := by
  change (Decimal.ofInt n / Decimal.ofInt bytesPerGib).value = _
  rw [Decimal.value_div (by simpa [Decimal.ofInt] using h) (by decide), Decimal.value_ofInt, Decimal.value_ofInt]
  congr 1
  push_cast
  norm_num [bytesPerGib]
  ring

/-- The quotient of a power of ten needs 21 digits. -/
theorem lost_of_pow_ten (j : ℕ) : Decimal.lost (10 ^ j * 5 ^ 30) = 0 := by
  refine Decimal.lost_of_dvd ?_
  have hlog : Nat.log 10 (10 ^ j * 5 ^ 30) < j + 21 := by
    refine Nat.log_lt_of_lt_pow (by positivity) ?_
    rw [pow_add]
    exact Nat.mul_lt_mul_of_pos_left (by norm_num) (by positivity)
  have hdrop : Decimal.digits (10 ^ j * 5 ^ 30) - Decimal.precision ≤ j := by
    unfold Decimal.digits Decimal.precision
    omega
  exact Dvd.dvd.mul_right (pow_dvd_pow 10 hdrop) _

section Product

variable {n : ℕ}

/-- What the product is away from `n` before it is rounded. -/
theorem abs_product_sub (h : 0 < n) :
    |(planQuotaGb n).value * 1024 ^ 3 - n| = ((2 ^ 30 * Decimal.lost (n * 5 ^ 30) : ℕ) : ℚ) * 10 ^ (-30 : ℤ) := by
  have hexact : (n : ℚ) = ((n * 5 ^ 30 : ℕ) * 10 ^ (-30 : ℤ)) * 1024 ^ 3 := by
    push_cast
    norm_num
    ring
  have hdigits : 0 < n * 5 ^ 30 := by positivity
  have hfactor : (planQuotaGb n).value * 1024 ^ 3 - n =
      (Decimal.rounded ((n * 5 ^ 30 : ℕ) * 10 ^ (-30 : ℤ)) - (n * 5 ^ 30 : ℕ) * 10 ^ (-30 : ℤ)) * 1024 ^ 3 := by
    rw [value_planQuotaGb h, sub_mul, ← hexact]
  rw [hfactor, abs_mul, Decimal.abs_rounded_sub_eq hdigits, abs_of_pos (by norm_num : (0 : ℚ) < 1024 ^ 3)]
  push_cast
  ring

theorem lost_le (c : ℕ) : 2 * Decimal.lost c ≤ 10 ^ (Decimal.digits c - Decimal.precision) := by
  unfold Decimal.lost
  have := min_le_left (c % 10 ^ (Decimal.digits c - Decimal.precision))
    (10 ^ (Decimal.digits c - Decimal.precision) - c % 10 ^ (Decimal.digits c - Decimal.precision))
  have := min_le_right (c % 10 ^ (Decimal.digits c - Decimal.precision))
    (10 ^ (Decimal.digits c - Decimal.precision) - c % 10 ^ (Decimal.digits c - Decimal.precision))
  omega

/-- Within the column's range the product is close to `n`. -/
theorem abs_product_sub_lt (h : 0 < n) (hbig : n < 2 ^ 63) : |(planQuotaGb n).value * 1024 ^ 3 - n| < 1 / 4 := by
  have hlog : Nat.log 10 (n * 5 ^ 30) < 40 := by
    refine Nat.log_lt_of_lt_pow (by positivity) ?_
    have : n * 5 ^ 30 < 2 ^ 63 * 5 ^ 30 := Nat.mul_lt_mul_of_pos_right hbig (by positivity)
    exact this.trans (by norm_num)
  have hdrop : Decimal.digits (n * 5 ^ 30) - Decimal.precision ≤ 12 := by
    unfold Decimal.digits Decimal.precision
    omega
  have hunit : 10 ^ (Decimal.digits (n * 5 ^ 30) - Decimal.precision) ≤ 10 ^ 12 := Nat.pow_le_pow_right (by norm_num) hdrop
  have hlost := lost_le (n * 5 ^ 30)
  have hbound : 2 ^ 30 * Decimal.lost (n * 5 ^ 30) ≤ 2 ^ 29 * 10 ^ 12 := by omega
  have hcast : ((2 ^ 30 * Decimal.lost (n * 5 ^ 30) : ℕ) : ℚ) ≤ 2 ^ 29 * 10 ^ 12 := by exact_mod_cast hbound
  rw [abs_product_sub h]
  calc ((2 ^ 30 * Decimal.lost (n * 5 ^ 30) : ℕ) : ℚ) * 10 ^ (-30 : ℤ)
      ≤ 2 ^ 29 * 10 ^ 12 * 10 ^ (-30 : ℤ) := mul_le_mul_of_nonneg_right hcast (by positivity)
    _ < 1 / 4 := by norm_num

theorem recovers_iff (h : 0 < n) : Recovers n ↔
    |(planQuotaGb n).value * 1024 ^ 3 - n| ≤ Decimal.quantum n / 2 := by
  have hquantum : Decimal.quantum n = 10 ^ (Decimal.digits n + 2) * 10 ^ (-30 : ℤ) := by
    have hzero := Decimal.quantum_mul_pow h 0
    rw [zpow_zero, mul_one] at hzero
    rw [hzero, ← zpow_natCast, ← zpow_add₀ (by norm_num)]
    congr 1
    unfold Decimal.precision
    push_cast
    ring
  have hpow : (0 : ℚ) < 10 ^ (-30 : ℤ) := by positivity
  have hscale : ((10 : ℚ) ^ (Decimal.digits n + 2) * 10 ^ (-30 : ℤ)) / 2 =
      10 ^ (Decimal.digits n + 2) / 2 * 10 ^ (-30 : ℤ) := by ring
  rw [abs_product_sub h, hquantum, hscale, mul_le_mul_iff_left₀ hpow, Recovers]
  constructor
  · intro hle
    have hcast : ((2 * (2 ^ 30 * Decimal.lost (n * 5 ^ 30)) : ℕ) : ℚ) ≤ (10 ^ (Decimal.digits n + 2) : ℕ) := by
      exact_mod_cast hle
    push_cast at hcast ⊢
    linarith
  · intro hle
    have hcast : ((2 * (2 ^ 30 * Decimal.lost (n * 5 ^ 30)) : ℕ) : ℚ) ≤ (10 ^ (Decimal.digits n + 2) : ℕ) := by
      push_cast at hle ⊢
      linarith
    exact_mod_cast hcast

/-- A product that is not `n` has as many digits before its point as `n`, which is not a power of ten. -/
theorem quantum_product (h : 0 < n) (hbig : n < 2 ^ 63) :
    Decimal.quantum ((planQuotaGb n).value * 1024 ^ 3) = Decimal.quantum n := by
  obtain hexact | hmoved := Nat.eq_zero_or_pos (Decimal.lost (n * 5 ^ 30))
  · have hsame := abs_product_sub h
    rw [hexact] at hsame
    have hzero : (planQuotaGb n).value * 1024 ^ 3 - n = 0 := by simpa using hsame
    rw [sub_eq_zero.mp hzero]
  · obtain ⟨hbelow, habove⟩ := abs_lt.mp (abs_product_sub_lt h hbig)
    have hlow : 10 ^ Nat.log 10 n + 1 ≤ n := by
      obtain heq | hlt := Nat.eq_or_lt_of_le (Nat.pow_log_le_self 10 h.ne')
      · rw [← heq, lost_of_pow_ten] at hmoved
        exact absurd hmoved (lt_irrefl 0)
      · exact hlt
    have hhigh : n + 1 ≤ 10 ^ (Nat.log 10 n + 1) := Nat.lt_pow_succ_log_self (by norm_num) n
    have hlowq : (10 : ℚ) ^ Nat.log 10 n + 1 ≤ n := by exact_mod_cast hlow
    have hhighq : (n : ℚ) + 1 ≤ 10 ^ (Nat.log 10 n + 1) := by exact_mod_cast hhigh
    have hzero := Decimal.quantum_mul_pow h 0
    rw [zpow_zero, mul_one] at hzero
    have hproductLow : (10 : ℚ) ^ Nat.log 10 n ≤ (planQuotaGb n).value * 1024 ^ 3 := by linarith
    have hproductHigh : (planQuotaGb n).value * 1024 ^ 3 < (10 : ℚ) ^ (Nat.log 10 n + 1) := by linarith
    have hproduct := Decimal.quantum_of_bounds (v := (planQuotaGb n).value * 1024 ^ 3) (a := Nat.log 10 n)
      (by exact_mod_cast hproductLow) (by exact_mod_cast hproductHigh)
    rw [hproduct, hzero]
    rfl

/-- The product is rounded to `n` or to no integer. -/
theorem rounded_product (h : 0 < n) (hbig : n < 2 ^ 63) :
    (Recovers n → Decimal.rounded ((planQuotaGb n).value * 1024 ^ 3) = n) ∧
      (¬Recovers n → ¬∃ m : ℤ, Decimal.rounded ((planQuotaGb n).value * 1024 ^ 3) = m) := by
  set product := (planQuotaGb n).value * 1024 ^ 3 with hproduct
  have hquantum : Decimal.quantum product = Decimal.quantum n := quantum_product h hbig
  have hpos := Decimal.quantum_pos n
  have hlog : Nat.log 10 n < 19 := Nat.log_lt_of_lt_pow h.ne' (hbig.trans (by norm_num))
  have hdigits := Decimal.quantum_mul_pow h 0
  rw [zpow_zero, mul_one] at hdigits
  have hsmall : Decimal.quantum n ≤ 1 := by
    rw [hdigits]
    refine zpow_le_one_of_nonpos₀ (by norm_num) ?_
    unfold Decimal.digits Decimal.precision
    omega
  -- `n` is an even number of its quanta
  obtain ⟨k, heven, hk⟩ : ∃ k : ℤ, Even k ∧ (n : ℚ) = k * Decimal.quantum n := by
    refine ⟨n * 10 ^ (28 - Decimal.digits n), ?_, ?_⟩
    · have hten : Even ((10 : ℤ) ^ (28 - Decimal.digits n)) :=
        Even.pow_of_ne_zero (by decide) (by unfold Decimal.digits; omega)
      exact hten.mul_left _
    · rw [hdigits]
      push_cast
      rw [mul_assoc, ← zpow_natCast, ← zpow_add₀ (by norm_num)]
      have hexp : ((28 - Decimal.digits n : ℕ) : ℤ) + ((Decimal.digits n : ℤ) + 0 - Decimal.precision) = 0 := by
        unfold Decimal.digits Decimal.precision
        omega
      rw [hexp, zpow_zero, mul_one]
  have hscaled : |(k : ℚ) - product / Decimal.quantum n| * Decimal.quantum n = |product - n| := by
    rw [← abs_of_pos hpos, ← abs_mul, abs_of_pos hpos, sub_mul, div_mul_cancel₀ _ hpos.ne', ← hk, abs_sub_comm]
  have hnear : halfEven (product / Decimal.quantum n) = k ↔ Recovers n := by
    have hhalf : Decimal.quantum n / 2 = 1 / 2 * Decimal.quantum n := by ring
    rw [halfEven_eq_iff_of_even heven, recovers_iff h, ← hscaled, hhalf, mul_le_mul_iff_left₀ hpos]
  constructor
  · intro hrecovers
    rw [Decimal.rounded, hquantum, hnear.mpr hrecovers, ← hk]
  · rintro hnot ⟨m, hm⟩
    have hround := abs_le.mp (Decimal.abs_rounded_sub_le product)
    obtain ⟨hbelow, habove⟩ := abs_lt.mp (abs_product_sub_lt h hbig)
    rw [hquantum, hm] at hround
    have hless : (m : ℚ) - n < 1 := by linarith
    have hmore : -1 < (m : ℚ) - n := by linarith
    have hmn : m = n := by
      have hless' : m - (n : ℤ) < 1 := by exact_mod_cast hless
      have hmore' : -1 < m - (n : ℤ) := by exact_mod_cast hmore
      omega
    have hsame : (halfEven (product / Decimal.quantum n) : ℚ) * Decimal.quantum n = k * Decimal.quantum n := by
      rw [← hk, ← hquantum]
      rw [Decimal.rounded] at hm
      rw [hm, hmn]
      push_cast
      rfl
    have hcast := mul_right_cancel₀ hpos.ne' hsame
    exact hnot (hnear.mp (by exact_mod_cast hcast))

end Product

/-- The conversion gives a plan's bytes back exactly where the rounded digits allow it, and raises elsewhere. -/
theorem plan_quota_recovered {n : ℕ} (h : 0 < n) (hbig : n < 2 ^ 63) :
    (quotaGbToBytes (planQuotaGb n) = .ok (n : ℤ) ↔ Recovers n) ∧
      (¬Recovers n → quotaGbToBytes (planQuotaGb n) =
        .error ⟨.valueError, "quota cannot represent a whole number of bytes"⟩) := by
  have hpos : 0 < (planQuotaGb n).value := by
    rw [value_planQuotaGb h]
    exact Decimal.rounded_pos (by positivity)
  obtain ⟨hwhole, hbroken⟩ := quotaGbToBytes_of_pos hpos
  obtain ⟨hsame, hnone⟩ := rounded_product h hbig
  have herror := fun hnot : ¬Recovers n => hbroken (hnone hnot)
  refine ⟨⟨?_, fun hrecovers => hwhole n (by exact_mod_cast hsame hrecovers)⟩, herror⟩
  intro hok
  by_contra hnot
  rw [herror hnot] at hok
  cases hok

theorem plan_quota_recovered_sample : quotaGbToBytes (planQuotaGb 9223372036854775807) = .ok (9223372036854775807 : ℕ) := by
  have hrecovers : Recovers 9223372036854775807 := by decide +kernel
  exact (plan_quota_recovered (n := 9223372036854775807) (by norm_num) (by norm_num)).1.mpr hrecovers

/-- Four bytes more than a GiB have 29 digits. -/
theorem plan_quota_lost : ¬∀ n : ℕ, 0 < n → n < 2 ^ 63 → quotaGbToBytes (planQuotaGb n) = .ok (n : ℤ) := by
  intro h
  have hraises : quotaGbToBytes (planQuotaGb 1073741828) =
      .error ⟨.valueError, "quota cannot represent a whole number of bytes"⟩ := by decide +kernel
  have hok := h 1073741828 (by norm_num) (by norm_num)
  rw [hraises] at hok
  cases hok

/-- A plan of whole GiB, as the catalogue has them, recovers. -/
theorem recovers_of_whole_gib {g : ℕ} (hbig : g * 1024 ^ 3 < 2 ^ 63) : Recovers (g * 1024 ^ 3) := by
  have hten : g * 1024 ^ 3 * 5 ^ 30 = 10 ^ 30 * g := by ring
  have hlost : Decimal.lost (g * 1024 ^ 3 * 5 ^ 30) = 0 := by
    rw [hten]
    obtain rfl | hg := Nat.eq_zero_or_pos g
    · simp [Decimal.lost]
    · have hlog : Nat.log 10 (10 ^ 30 * g) < 40 := by
        refine Nat.log_lt_of_lt_pow (by positivity) ?_
        omega
      have hdrop : Decimal.digits (10 ^ 30 * g) - Decimal.precision ≤ 30 := by
        unfold Decimal.digits Decimal.precision
        omega
      exact Decimal.lost_of_dvd (Dvd.dvd.mul_right (pow_dvd_pow 10 hdrop) _)
  unfold Recovers
  rw [hlost]
  simp

end Lingsway.Domain
