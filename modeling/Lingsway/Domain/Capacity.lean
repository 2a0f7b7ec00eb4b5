import Lingsway.Providers.Base

/-!
# Capacity and quota checks
-/
namespace Lingsway.Domain

open Library

def capacityExceeded (capacity : CapacityDTO) (requestedGb : Decimal) : Exn where
  cls := .capacityExceededError
  message := "capacity exceeded: " ++
    s!"allocated={capacity.allocatedGb.toText}GB, requested={requestedGb.toText}GB, " ++
    s!"reserved={capacity.reservedGb.toText}GB, total={capacity.totalGb.toText}GB"

/-- Enforce allocated + requested + operations reserve ≤ provider total. -/
def ensureCapacity (capacity : CapacityDTO) (requestedGb : Decimal) : Except Exn Unit :=
  if requestedGb.le (.ofInt 0) then
    .error ⟨.valueError, "requested quota must be positive"⟩
  else
    let required := capacity.allocatedGb + requestedGb + capacity.reservedGb
    if capacity.totalGb.lt required then .error (capacityExceeded capacity requestedGb)
    else .ok ()

def bytesPerGib : ℤ := 1024 ^ 3

/-- Convert sold quota one-to-one, without hidden buffer or overbooking. -/
def quotaGbToBytes (quotaGb : Decimal) : Except Exn ℤ :=
  if quotaGb.le (.ofInt 0) then .error ⟨.valueError, "quota must be positive"⟩
  else
    let exactBytes := quotaGb * .ofInt bytesPerGib
    if !exactBytes.numEq exactBytes.toIntegralValue then
      .error ⟨.valueError, "quota cannot represent a whole number of bytes"⟩
    else .ok exactBytes.truncate

/-- A capacity check fails with the capacity error or, for a quota that is not
positive, with a value error. -/
theorem ensureCapacity_error {capacity : CapacityDTO} {requestedGb : Decimal} {e : Exn}
    (h : ensureCapacity capacity requestedGb = .error e) :
    e = capacityExceeded capacity requestedGb ∨
      (e.cls = .valueError ∧ requestedGb.le (.ofInt 0) = true) := by
  by_cases hpos : requestedGb.le (.ofInt 0) = true
  · rw [ensureCapacity, if_pos hpos] at h
    cases h
    exact .inr ⟨rfl, hpos⟩
  · rw [ensureCapacity, if_neg hpos] at h
    dsimp only at h
    split_ifs at h
    cases h
    exact .inl rfl

/-- A check that passed has seen a positive quota. -/
theorem ensureCapacity_ok {capacity : CapacityDTO} {requestedGb : Decimal}
    (h : ensureCapacity capacity requestedGb = .ok ()) :
    requestedGb.le (.ofInt 0) = false := by
  by_contra hpos
  rw [Bool.not_eq_false] at hpos
  rw [ensureCapacity, if_pos hpos] at h
  cases h

end Lingsway.Domain
