import Metronome.Decimal.Binary64
import Metronome.Text.Blank

namespace Metronome.Decimal

open Metronome.Text (sameIgnoringCase)

def maxUnsigned : Nat := Nat.pow 2 64 - 1

def digitValue (c : Char) : Nat := c.toNat - '0'.toNat

def ofDigits (digits : List Char) : Nat :=
  digits.foldl (fun n c => 10 * n + digitValue c) 0

def unsigned? (text : List Char) : Option Nat :=
  let digits := match text with
    | '+' :: rest => rest
    | _ => text
  if digits ≠ [] && digits.all Char.isDigit && ofDigits digits ≤ maxUnsigned then
    some (ofDigits digits)
  else none

def splitSign : List Char → Bool × List Char
  | '-' :: rest => (true, rest)
  | '+' :: rest => (false, rest)
  | text => (false, text)

def exponentPart? : List Char → Option Int
  | [] => some 0
  | mark :: rest =>
    if mark = 'e' || mark = 'E' then
      let (negative, digits) := splitSign rest
      if digits ≠ [] && digits.all Char.isDigit then
        let size : Int := ofDigits digits
        some (if negative then -size else size)
      else none
    else none

def magnitude? (text : List Char) : Option Float := do
  let whole := text.takeWhile Char.isDigit
  let rest := text.dropWhile Char.isDigit
  let (fraction, rest) := match rest with
    | '.' :: after => (after.takeWhile Char.isDigit, after.dropWhile Char.isDigit)
    | _ => ([], rest)
  if whole = [] && fraction = [] then none
  else
    let exponent ← exponentPart? rest
    some (nearestFloat (ofDigits (whole ++ fraction)) (exponent - fraction.length))

/-- A double: a sign if there is one, then a decimal number, `inf`, `infinity` or `nan` in letters
of either case. -/
def float? (text : List Char) : Option Float :=
  let (negative, body) := splitSign text
  let size :=
    if sameIgnoringCase body "inf".toList || sameIgnoringCase body "infinity".toList then
      some (1.0 / 0.0)
    else if sameIgnoringCase body "nan".toList then some (0.0 / 0.0)
    else magnitude? body
  size.map fun x => if negative then -x else x

end Metronome.Decimal
