import TabularRdf.Decimal.Layout

/-!
Numbers of a JSON text: an integer of at most 64 bits is kept exactly, anything else is a binary64
number. The text of a number is its scalar layout.
-/
namespace TabularRdf.Json

open Decimal (Binary64)

inductive Number where
  | int (value : Int)
  | float (value : Binary64)
  deriving DecidableEq, Repr

namespace Number

def greatestWord : Nat := 18446744073709551615

def signedBound : Nat := 9223372036854775808

def isSigned64 (n : Int) : Bool := -(signedBound : Int) ≤ n && n < (signedBound : Int)

def signed64? : Number → Option Int
  | .int n => if isSigned64 n then some n else none
  | .float _ => none

def toBinary64 : Number → Binary64
  | .int n => .ofInt n
  | .float x => x

def text : Number → String
  | .int n => toString n
  | .float x => Decimal.Layout.scalar.text x

def digitValue (c : Char) : Nat := c.toNat - '0'.toNat

def absorb (significand : Nat) : List Char → Nat × List Char
  | [] => (significand, [])
  | c :: rest =>
    let next := significand * 10 + digitValue c
    if next ≤ greatestWord then absorb next rest else (significand, c :: rest)

structure Parts where
  negative : Bool
  whole : List Char
  fraction : Option (List Char)
  exponent : Option Int
  deriving DecidableEq, Repr

/-- The number that a text denotes. Digits of the whole part that do not fit into the significand each
raise the scale by one; such digits of the fraction are dropped. A minus sign before a zero makes a
binary64 number, as does an integer outside 64 bits. None when the number is too large. -/
def Parts.value? (p : Parts) : Option Number :=
  let (significand, excess) := absorb 0 p.whole
  let signed (x : Binary64) : Number := .float (if p.negative then x.neg else x)
  if p.fraction.isNone && p.exponent.isNone && excess.isEmpty then
    if !p.negative then some (.int significand)
    else if significand = 0 ∨ signedBound < significand then
      (Binary64.scaled? significand 0).map signed
    else some (.int (-significand))
  else
    let fraction := p.fraction.getD []
    let (significand, dropped) := absorb significand fraction
    let scale : Int := excess.length - (fraction.length - dropped.length)
    (Binary64.scaled? significand (scale + p.exponent.getD 0)).map signed

end Number

end TabularRdf.Json
