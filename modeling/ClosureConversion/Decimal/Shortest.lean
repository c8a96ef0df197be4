/-! # Shortest decimals -/

set_option autoImplicit false

namespace ClosureConversion.Decimal

/-- The number `coeff · 10^exp`. -/
structure Digits where
  coeff : Nat
  exp : Int
  deriving Repr, DecidableEq

/-- A positive rational with the interval of what rounds to it, over one denominator. -/
structure Rounding where
  low : Nat
  value : Nat
  high : Nat
  den : Nat
  closed : Bool
  deriving Repr

/-- The rounding interval of the positive number with these exponent and fraction fields.
Below a power of two the gap to the next number is half as wide. -/
def Rounding.ofFields (expField fraction : Nat) : Rounding :=
  let m := if expField = 0 then fraction else Nat.pow 2 52 + fraction
  let q : Int := (if expField = 0 then 1 else expField : Nat) - 1077
  let low := 4 * m - (if fraction = 0 ∧ 1 < expField then 1 else 2)
  let up := Nat.pow 2 q.toNat
  { low := low * up, value := 4 * m * up, high := (4 * m + 2) * up
    den := Nat.pow 2 (-q).toNat, closed := m % 2 == 0 }

/-- The exponent of the leading decimal digit of `value / den`. -/
def leadingExponent (value den : Nat) : Int :=
  if den ≤ value then ((Nat.toDigits 10 (value / den)).length : Int) - 1
  else
    match (List.range 400).find? fun j => den ≤ value * Nat.pow 10 j with
    | some j => -(j : Int)
    | none => -400

/-- The neighbour of the number on the grid of `10^exp` that reads back as it, if any. -/
def Rounding.onGrid (r : Rounding) (exp : Int) : Option Nat :=
  let unit := r.den * Nat.pow 10 exp.toNat
  let scale := Nat.pow 10 (-exp).toNat
  let value := r.value * scale
  let below := value / unit
  let inside (c : Nat) : Bool :=
    if r.closed then r.low * scale ≤ c * unit && c * unit ≤ r.high * scale
    else r.low * scale < c * unit && c * unit < r.high * scale
  match inside below, inside (below + 1) with
  | true, true =>
    -- a tie goes to the greater neighbour
    if value - below * unit < (below + 1) * unit - value then some below
    else some (below + 1)
  | true, false => some below
  | false, true => some (below + 1)
  | false, false => none

/-- Drop trailing zeros of the coefficient. -/
def Digits.trim (d : Digits) : (fuel : Nat) → Digits
  | 0 => d
  | fuel + 1 =>
    if d.coeff ≠ 0 ∧ d.coeff % 10 = 0 then
      Digits.trim ⟨d.coeff / 10, d.exp + 1⟩ fuel
    else d

def Rounding.shortest (r : Rounding) : Digits :=
  let lead := leadingExponent r.value r.den
  let grids := (List.range 17).map fun n : Nat => lead - Int.ofNat n
  match grids.findSome? fun e => (r.onGrid e).map fun c => (⟨c, e⟩ : Digits) with
  | some d => d.trim 400
  | none => ⟨r.value / r.den, 0⟩

/-- The shortest digits of the magnitude of a finite nonzero number. -/
def shortest (x : Float) : Digits :=
  let bits := x.toBits.toNat % Nat.pow 2 63
  (Rounding.ofFields (bits / Nat.pow 2 52) (bits % Nat.pow 2 52)).shortest

end ClosureConversion.Decimal
