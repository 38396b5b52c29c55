import Landscape.Json.Basic

/-!
Numbers with a fraction or an exponent, and what they come to in 64-bit binary floating point.

A number is kept exactly. Two questions are asked about its nearest floating-point value: whether it
is zero and whether it is infinite. Both are answered by comparing with the points half-way to the
smallest value and half-way beyond the largest, in exact arithmetic. Exponents so large that the
answer is plain are not multiplied out.
-/

namespace Landscape.Toml

/-- The number `± digits · 10 ^ exponent`. -/
structure Decimal where
  negative : Bool
  digits : Nat
  exponent : Int
deriving Repr, DecidableEq

namespace Decimal

/-- The number of decimal digits of a natural number, none for zero. -/
def digitCount (n : Nat) : Nat :=
  if n = 0 then 0 else (toString n).length

/-- The power of ten just above the number. -/
def magnitude (x : Decimal) : Int :=
  digitCount x.digits + x.exponent

/-- Whether the size of the number, times `2 ^ shift`, is at least `bound`. -/
def atLeast (x : Decimal) (shift bound : Nat) : Bool :=
  decide (x.digits * Nat.pow 10 x.exponent.toNat * Nat.pow 2 shift ≥
    bound * Nat.pow 10 (-x.exponent).toNat)

/-- Whether the nearest value is infinite: the size is at least half-way beyond the largest finite
value, which has 53 bits and ends at `2 ^ 1024`. -/
def overflows (x : Decimal) : Bool :=
  if x.magnitude < 300 then false
  else if x.magnitude > 320 then true
  else x.atLeast 0 (Nat.pow 2 1024 - Nat.pow 2 970)

/-- Whether the nearest value is zero: the size is at most half of the smallest value, `2 ^ -1074`.
-/
def vanishes (x : Decimal) : Bool :=
  if x.digits = 0 then true
  else if x.magnitude > -300 then false
  else if x.magnitude < -340 then true
  else !x.atLeast 1075 1 || x.digits * Nat.pow 2 1075 == Nat.pow 10 (-x.exponent).toNat

/-- The number in JSON. What vanishes is zero, and all else is kept in scientific form. -/
def toJson (x : Decimal) : Json :=
  if x.vanishes then .number 0
  else
    let sign := if x.negative then "-" else ""
    .fraction (sign ++ toString x.digits ++ "e" ++ toString x.exponent)

end Decimal

end Landscape.Toml
