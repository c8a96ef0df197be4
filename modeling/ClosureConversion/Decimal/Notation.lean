import ClosureConversion.Decimal.Shortest

/-! # Writing floating point numbers -/

set_option autoImplicit false

namespace ClosureConversion.Decimal

structure Layout where
  /-- Least exponent of the leading digit that is written without an exponent. -/
  lowest : Int
  /-- Greatest such exponent. -/
  highest : Int

/-- Floats in generated code: positional from `1e-4` up to below `1e16`. -/
def code : Layout := ⟨-4, 15⟩

def zeros (n : Nat) : String := String.ofList (List.replicate n '0')

/-- Digits with a point after the first `point` of them. -/
def withPoint (digits : String) (point : Int) : String :=
  if point ≤ 0 then "0." ++ zeros (-point).toNat ++ digits
  else
    let n := point.toNat
    let count := digits.length
    if count ≤ n then digits ++ zeros (n - count) ++ ".0"
    else
      String.ofList (digits.toList.take n) ++ "." ++ String.ofList (digits.toList.drop n)

/-- Digits in scientific notation, one of them before the point. -/
def scientific (digits : String) (lead : Int) : String :=
  let rest := digits.toList.drop 1
  let point := if rest.isEmpty then "" else "." ++ String.ofList rest
  String.ofList (digits.toList.take 1) ++ point ++ "e" ++ toString lead

def Layout.write (layout : Layout) (d : Digits) : String :=
  let digits := toString d.coeff
  let lead := (digits.length : Int) - 1 + d.exp
  if layout.lowest ≤ lead ∧ lead ≤ layout.highest then withPoint digits (lead + 1)
  else scientific digits lead

/-- A finite number; the sign of zero is kept. -/
def Layout.writeFloat (layout : Layout) (x : Float) : String :=
  let sign := if x.toBits.toNat < Nat.pow 2 63 then "" else "-"
  if x == 0.0 then sign ++ "0.0" else sign ++ layout.write (shortest x)

end ClosureConversion.Decimal
