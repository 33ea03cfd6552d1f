import Metronome.Decimal.Shortest

namespace Metronome.Decimal

structure Layout where
  /-- Exponents of the first digit that are written positionally: from the first number up to, not
  including, the second; all of them if absent. -/
  positional : Option (Int × Int)
  wholeMark : String
  tie : Tie

def placePoint (digits : List Char) (whole : Int) (wholeMark : String) : List Char :=
  if whole ≤ 0 then
    ['0', '.'] ++ List.replicate (-whole).toNat '0' ++ digits
  else if digits.length ≤ whole.toNat then
    digits ++ List.replicate (whole.toNat - digits.length) '0' ++ wholeMark.toList
  else
    digits.take whole.toNat ++ ['.'] ++ digits.drop whole.toNat

def withExponent (digits : List Char) (exponent : Int) : List Char :=
  let sign := if exponent < 0 then '-' else '+'
  let point := if digits.length ≤ 1 then [] else '.' :: digits.drop 1
  digits.take 1 ++ point ++ ['e', sign] ++ Nat.toDigits 10 exponent.natAbs

def Layout.magnitude (layout : Layout) (d : Dyadic) : List Char :=
  let decimal := shortest layout.tie d
  let digits := Nat.toDigits 10 decimal.digits
  let whole := decimal.exponent + digits.length
  match layout.positional with
  | none => placePoint digits whole layout.wholeMark
  | some (first, limit) =>
    if first ≤ whole - 1 && whole - 1 < limit then placePoint digits whole layout.wholeMark
    else withExponent digits (whole - 1)

def Layout.write (layout : Layout) (x : Float) : String :=
  if x.isNaN then "NaN"
  else if x.isInf then if x < 0.0 then "-inf" else "inf"
  else
    let d := Dyadic.ofFloat x
    String.ofList ((if d.negative then ['-'] else []) ++ layout.magnitude d)

/-- A plain number never has an exponent, a whole one has no point, and a tie goes up. -/
def plain : Layout := ⟨none, "", .up⟩

end Metronome.Decimal
