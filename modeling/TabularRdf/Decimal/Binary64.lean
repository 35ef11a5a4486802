/-!
Finite binary64 numbers as sign, mantissa and exponent, with the operations that a reader of decimal
texts needs: rounding a ratio to the nearest number, and the rounded product and quotient.
All of it is exact arithmetic on natural numbers.
-/
namespace TabularRdf.Decimal

/- The number (-1)^negative · mantissa · 2^exponent. Numbers made here have the mantissa in
`[2^52, 2^53)`, or the least exponent, -1074, with a smaller mantissa. -/
structure Binary64 where
  negative : Bool
  mantissa : Nat
  exponent : Int
  deriving DecidableEq, Repr

def roundDiv (num den : Nat) : Nat :=
  let q := num / den
  let r := num % den
  if 2 * r < den then q
  else if den < 2 * r then q + 1
  else q + q % 2

namespace Binary64

def leastExponent : Int := -1074
def greatestExponent : Int := 971

def leastMantissa : Nat := 4503599627370496

def mantissaBound : Nat := 9007199254740992

def zero : Binary64 := ⟨false, 0, leastExponent⟩

def isZero (x : Binary64) : Bool := x.mantissa == 0

def neg (x : Binary64) : Binary64 := { x with negative := !x.negative }

def shiftRatio (num den : Nat) (shift : Int) : Nat × Nat :=
  if 0 ≤ shift then (num, den * Nat.pow 2 shift.toNat) else (num * Nat.pow 2 (-shift).toNat, den)

def exponentOf (num den : Nat) : Int :=
  let guess := (Nat.log2 num : Int) - (Nat.log2 den : Int) - 52
  let (n, d) := shiftRatio num den guess
  max leastExponent (if n < d * leastMantissa then guess - 1 else guess)

def ofRatio? (num den : Nat) : Option Binary64 :=
  if num = 0 then some zero else
  let e := exponentOf num den
  let (n, d) := shiftRatio num den e
  let m := roundDiv n d
  let (m, e) := if m = mantissaBound then (leastMantissa, e + 1) else (m, e)
  if greatestExponent < e then none else some ⟨false, m, e⟩

def toRatio (x : Binary64) : Nat × Nat := shiftRatio x.mantissa 1 (-x.exponent)

def mul? (x y : Binary64) : Option Binary64 :=
  let (a, b) := x.toRatio
  let (c, d) := y.toRatio
  (ofRatio? (a * c) (b * d)).map fun z => { z with negative := x.negative != y.negative }

def div? (x y : Binary64) : Option Binary64 :=
  let (a, b) := x.toRatio
  let (c, d) := y.toRatio
  (ofRatio? (a * d) (b * c)).map fun z => { z with negative := x.negative != y.negative }

def ofInt (n : Int) : Binary64 :=
  let x := (ofRatio? n.natAbs 1).getD zero
  if n < 0 then x.neg else x

def powTen (k : Nat) : Binary64 := (ofRatio? (Nat.pow 10 k) 1).getD zero

def divPowTen (x : Binary64) (places : Nat) : Binary64 :=
  if places ≤ 308 ∨ x.isZero then (x.div? (powTen (min places 308))).getD zero
  else divPowTen ((x.div? (powTen 308)).getD zero) (places - 308)
  termination_by places

/-- A significand scaled by a power of ten, rounded twice: the significand first, then the product
or quotient with the number nearest to that power. None when the result is too large. -/
def scaled? (significand : Nat) (scale : Int) : Option Binary64 :=
  let x := (ofRatio? significand 1).getD zero
  if scale < 0 then some (x.divPowTen scale.natAbs)
  else if scale ≤ 308 then x.mul? (powTen scale.toNat)
  else if x.isZero then some x else none

end Binary64

end TabularRdf.Decimal
