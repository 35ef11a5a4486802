import TabularRdf.Decimal.Binary64

/-!
The fewest decimal digits that still name one binary64 number. Grids of powers of ten are tried from
coarse to fine; the first grid with a point in the interval of reals that round to the number wins,
and of two such points the nearer one.
-/
namespace TabularRdf.Decimal

structure Digits where
  significand : Nat
  scale : Int
  deriving DecidableEq, Repr

inductive Tie where
  | toEven
  | away
  deriving DecidableEq, Repr

/- The reals that round to `mantissa · 2^exponent`, in units of 2^(exponent - 2): from `low` to `high`,
with the ends included when the mantissa is even. -/
structure Rounding where
  low : Nat
  value : Nat
  high : Nat
  closed : Bool
  exponent : Int
  deriving DecidableEq, Repr

/- Below a power of two the neighbours lie twice as dense, so the lower end is nearer there. -/
def Rounding.of (x : Binary64) : Rounding where
  low := 4 * x.mantissa -
    (if x.mantissa = Binary64.leastMantissa ∧ Binary64.leastExponent < x.exponent then 1 else 2)
  value := 4 * x.mantissa
  high := 4 * x.mantissa + 2
  closed := x.mantissa % 2 = 0
  exponent := x.exponent - 2

def Rounding.onGrid? (r : Rounding) (tie : Tie) (scale : Int) : Option Nat :=
  let unit := Nat.pow 2 r.exponent.toNat * Nat.pow 10 (-scale).toNat
  let step := Nat.pow 2 (-r.exponent).toNat * Nat.pow 10 scale.toNat
  let value := r.value * unit
  let below := value / step
  let rest := value % step
  let inside (k : Nat) : Bool :=
    if r.closed then r.low * unit ≤ k * step && k * step ≤ r.high * unit
    else r.low * unit < k * step && k * step < r.high * unit
  match inside below, inside (below + 1) with
  | false, false => none
  | true, false => some below
  | false, true => some (below + 1)
  | true, true =>
    if 2 * rest < step then some below
    else if step < 2 * rest then some (below + 1)
    else match tie with
      | .away => some (below + 1)
      | .toEven => some (below + below % 2)

def leadingScale (x : Binary64) : Int :=
  (((Nat.log2 x.mantissa : Int) + x.exponent) * 30103).fdiv 100000 + 1

def Digits.strip (d : Digits) : Digits :=
  let zeros := ((Nat.toDigits 10 d.significand).reverse.takeWhile (· == '0')).length
  ⟨d.significand / Nat.pow 10 zeros, d.scale + zeros⟩

/- The shortest digits of a number other than zero. A number has at most 17, so one of the twenty grids
below its leading digit has a point; the last line is never reached. -/
def shortest (tie : Tie) (x : Binary64) : Digits :=
  let top := leadingScale x
  let found := (List.range 20).findSome? fun (i : Nat) =>
    ((Rounding.of x).onGrid? tie (top - i)).map fun k => (⟨k, top - i⟩ : Digits)
  (found.getD ⟨0, 0⟩).strip

end TabularRdf.Decimal
