/-! # Decimals beyond the floating point numbers -/

set_option autoImplicit false

namespace ClosureConversion.Decimal

/-- The least number that no finite floating point number is nearest to. -/
def overflowBound : Nat := (Nat.pow 2 54 - 1) * Nat.pow 2 970

/-- Whether `coeff · 10^exp` rounds to no finite number. The bound has 309 digits, so only
decimals of that size are compared with it. -/
def exceedsFloats (coeff : Nat) (exp : Int) : Bool :=
  let size := (Nat.toDigits 10 coeff).length + exp
  if coeff = 0 || size < 309 then false
  else if 309 < size then true
  else overflowBound * Nat.pow 10 (-exp).toNat ≤ coeff * Nat.pow 10 exp.toNat

end ClosureConversion.Decimal
