import TabularRdf.Decimal.Shortest

/-!
How the shortest digits of a number are laid out as text: where positional notation ends, whether a
whole number keeps a decimal, and which way a tie between two shortest forms goes.
-/
namespace TabularRdf.Decimal

structure Layout where
  positional : Int → Bool
  keepsPoint : Bool
  tie : Tie

def Layout.scalar : Layout := ⟨fun e => -5 ≤ e && e < 16, true, .toEven⟩

def Layout.cell : Layout := ⟨fun _ => true, false, .away⟩

def positionalText (keepsPoint : Bool) (digits : List Char) (scale : Int) : List Char :=
  let point := digits.length + scale
  if 0 ≤ scale then
    digits ++ List.replicate scale.toNat '0' ++ (if keepsPoint then ['.', '0'] else [])
  else if 0 < point then
    digits.take point.toNat ++ '.' :: digits.drop point.toNat
  else
    '0' :: '.' :: List.replicate (-point).toNat '0' ++ digits

def scientificText (digits : List Char) (exponent : Int) : List Char :=
  let head := digits.take 1
  let tail := digits.drop 1
  head ++ (if tail.isEmpty then [] else '.' :: tail) ++
    'e' :: (if exponent < 0 then '-' else '+') :: Nat.toDigits 10 exponent.natAbs

def Layout.text (layout : Layout) (x : Binary64) : String :=
  let sign := if x.negative then ['-'] else []
  let d := if x.isZero then ⟨0, 0⟩ else shortest layout.tie x
  let digits := Nat.toDigits 10 d.significand
  let exponent := digits.length - 1 + d.scale
  String.ofList <| sign ++
    if layout.positional exponent then positionalText layout.keepsPoint digits d.scale
    else scientificText digits exponent

end TabularRdf.Decimal
