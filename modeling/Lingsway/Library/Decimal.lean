import Mathlib

/-!
# Decimal numbers in a context of 28 digits

Finite decimals are a coefficient and a power of ten. Sums and products are
computed exactly and then rounded half to even to the context's precision.
Comparisons are numerical, so two representations of one value are equal.
Infinities, NaNs and the exponent limits are left out.
-/
namespace Lingsway.Library

structure Decimal where
  coefficient : ℤ
  exponent : ℤ
  deriving Repr, DecidableEq

namespace Decimal

def precision : ℕ := 28

def digits (n : ℕ) : ℕ := Nat.log 10 n + 1

/-- Divide by `d`, rounding half to even. -/
def divHalfEven (n d : ℕ) : ℕ :=
  let q := n / d
  let r := n % d
  if 2 * r < d then q
  else if d < 2 * r then q + 1
  else if q % 2 = 0 then q else q + 1

/-- Bring a coefficient to at most 28 digits. Rounding up can carry into a
29th digit, which is then a power of ten and is shifted once more. -/
def round (x : Decimal) : Decimal :=
  let n := x.coefficient.natAbs
  if digits n ≤ precision then x
  else
    let drop := digits n - precision
    let q := divHalfEven n (10 ^ drop)
    let sign := x.coefficient.sign
    if digits q ≤ precision then ⟨sign * q, x.exponent + drop⟩
    else ⟨sign * (q / 10), x.exponent + drop + 1⟩

/-- The coefficient after lowering the exponent to `e`. -/
def scaled (x : Decimal) (e : ℤ) : ℤ := x.coefficient * 10 ^ (x.exponent - e).toNat

def add (x y : Decimal) : Decimal :=
  let e := min x.exponent y.exponent
  round ⟨x.scaled e + y.scaled e, e⟩

def mul (x y : Decimal) : Decimal :=
  round ⟨x.coefficient * y.coefficient, x.exponent + y.exponent⟩

def ofInt (n : ℤ) : Decimal := ⟨n, 0⟩

/-- A quotient's digits, of which the last one tells a value in between from
the middle and the end. -/
def stickyDiv (n d : ℕ) : ℕ := if n % d ≠ 0 ∧ n / d % 5 = 0 then n / d + 1 else n / d

/-- Take up to `k` zeros off a coefficient: what is left, and how many went. -/
def stripZeros : ℕ → ℕ → ℕ × ℕ
  | 0, n => (n, 0)
  | k + 1, n => if n % 10 = 0 then ((stripZeros k (n / 10)).1, (stripZeros k (n / 10)).2 + 1) else (n, 0)

/-- The quotient by a divisor that is not zero. An exact one has the exponent
closest to the difference of the exponents. -/
def div (x y : Decimal) : Decimal :=
  let n := x.coefficient.natAbs
  let d := y.coefficient.natAbs
  let shift : ℤ := digits d - digits n + precision + 1
  let num := n * 10 ^ shift.toNat
  let den := d * 10 ^ (-shift).toNat
  let sign := x.coefficient.sign * y.coefficient.sign
  let ideal := x.exponent - y.exponent
  if num % den = 0 then
    let stripped := stripZeros shift.toNat (num / den)
    round ⟨sign * stripped.1, ideal - shift + stripped.2⟩
  else round ⟨sign * stickyDiv num den, ideal - shift⟩

instance : Add Decimal := ⟨add⟩
instance : Mul Decimal := ⟨mul⟩
instance : Div Decimal := ⟨div⟩

/-- Numerical comparison, on the common exponent. -/
def le (x y : Decimal) : Bool :=
  let e := min x.exponent y.exponent
  x.scaled e ≤ y.scaled e

def lt (x y : Decimal) : Bool := !y.le x

def numEq (x y : Decimal) : Bool := x.le y && y.le x

/-- Round to an integer, half to even. A nonnegative exponent is kept. -/
def toIntegralValue (x : Decimal) : Decimal :=
  if 0 ≤ x.exponent then x
  else ⟨x.coefficient.sign * divHalfEven x.coefficient.natAbs (10 ^ (-x.exponent).toNat), 0⟩

/-- `int(x)`: truncation toward zero. -/
def truncate (x : Decimal) : ℤ :=
  if 0 ≤ x.exponent then x.coefficient * 10 ^ x.exponent.toNat
  else x.coefficient.tdiv (10 ^ (-x.exponent).toNat)

/-- `str(x)`: plain notation down to an adjusted exponent of -6, else scientific. -/
def toText (x : Decimal) : String :=
  let ds := (toString x.coefficient.natAbs).toList
  let sign := if x.coefficient < 0 then "-" else ""
  let adjusted : ℤ := x.exponent + (ds.length - 1 : ℕ)
  let body : List Char :=
    if x.exponent ≤ 0 ∧ -6 ≤ adjusted then
      if x.exponent = 0 then ds
      else
        let places := (-x.exponent).toNat
        let padded := List.replicate (places + 1 - ds.length) '0' ++ ds
        padded.take (padded.length - places) ++ '.' :: padded.drop (padded.length - places)
    else
      let mantissa := match ds with
        | d :: rest => if rest.isEmpty then [d] else d :: '.' :: rest
        | [] => []
      mantissa ++ 'E' :: (if 0 ≤ adjusted then ['+'] else []) ++ (toString adjusted).toList
  sign ++ String.ofList body

end Decimal
end Lingsway.Library
