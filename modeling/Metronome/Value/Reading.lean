import Metronome.Decimal.Reading
import Metronome.Value.Basic

namespace Metronome.Json

open Metronome.Decimal (digitValue maxUnsigned)

def nestingLimit : Nat := 128

def isJsonBlank (c : Char) : Bool :=
  c == ' ' || c == '\n' || c == '\t' || c == '\r'

def skipBlanks (text : List Char) : List Char :=
  text.dropWhile isJsonBlank

def powerOfTen (exponent : Nat) : Float :=
  Float.ofScientific 1 false exponent

/-- A significand times a power of ten, computed in doubles. A larger power than 308 is taken in
several divisions; `fuel` bounds their number. -/
def scaleFloat (significand : Float) (exponent : Int) : Nat → Option Float
  | 0 => some 0.0
  | fuel + 1 =>
    if exponent.natAbs ≤ 308 then
      if exponent ≥ 0 then
        let scaled := significand * powerOfTen exponent.natAbs
        if scaled.isInf then none else some scaled
      else some (significand / powerOfTen exponent.natAbs)
    else if significand == 0.0 then some significand
    else if exponent ≥ 0 then none
    else scaleFloat (significand / powerOfTen 308) (exponent + 308) fuel

def assemble (negative : Bool) (significand : Nat) (exponent : Int) : Option Numeral := do
  let size ← scaleFloat (Float.ofNat significand) exponent 8
  some (.float (if negative then -size else size))

def maxExponent : Nat := Nat.pow 2 31 - 1

def clampExponent (exponent : Int) : Int :=
  max (-(Nat.pow 2 31 : Int)) (min maxExponent exponent)

def readExponent (negative : Bool) (significand : Nat) (before : Int) (text : List Char) :
    Option (Numeral × List Char) := do
  let (negativeExponent, rest) := Decimal.splitSign text
  let digits := rest.takeWhile Char.isDigit
  let rest := rest.dropWhile Char.isDigit
  if digits = [] then none
  else
    let size := Decimal.ofDigits digits
    if size > maxExponent then
      if significand ≠ 0 && !negativeExponent then none
      else some (.float (if negative then -0.0 else 0.0), rest)
    else
      let exponent := clampExponent (if negativeExponent then before - size else before + size)
      let numeral ← assemble negative significand exponent
      some (numeral, rest)

def readAfterDigits (negative : Bool) (significand : Nat) (exponent : Int) :
    List Char → Option (Numeral × List Char)
  | [] => (assemble negative significand exponent).map (·, [])
  | c :: rest =>
    if c = 'e' || c = 'E' then readExponent negative significand exponent rest
    else (assemble negative significand exponent).map (·, c :: rest)

/-- The digits after a point, as long as the significand fits 64 bits; the others are dropped. -/
def readFraction (negative : Bool) (significand : Nat) (exponent : Int) (some? : Bool) :
    List Char → Option (Numeral × List Char)
  | [] => if some? then readAfterDigits negative significand exponent [] else none
  | c :: rest =>
    if c.isDigit then
      let next := 10 * significand + digitValue c
      if next > maxUnsigned then
        readAfterDigits negative significand exponent (rest.dropWhile Char.isDigit)
      else readFraction negative next (exponent - 1) true rest
    else if some? then readAfterDigits negative significand exponent (c :: rest)
    else none

/-- The whole number of digits that fit 64 bits; without a sign up to 2^64, with a minus sign down
to -2^63, and a double beyond that and for minus zero. -/
def wholeNumeral (negative : Bool) (significand : Nat) : Numeral :=
  if !negative then .int significand
  else if significand = 0 || significand > Nat.pow 2 63 then .float (-(Float.ofNat significand))
  else .int (-significand)

def readWhole (negative : Bool) (significand : Nat) (dropped : Nat) :
    List Char → Option (Numeral × List Char)
  | [] =>
    if dropped = 0 then some (wholeNumeral negative significand, [])
    else readAfterDigits negative significand dropped []
  | c :: rest =>
    if c.isDigit then
      let next := 10 * significand + digitValue c
      if dropped > 0 || next > maxUnsigned then
        readWhole negative significand (dropped + 1) rest
      else readWhole negative next 0 rest
    else if c = '.' then readFraction negative significand dropped false rest
    else if c = 'e' || c = 'E' then readExponent negative significand dropped rest
    else if dropped = 0 then some (wholeNumeral negative significand, c :: rest)
    else readAfterDigits negative significand dropped (c :: rest)

def readNumeral (negative : Bool) : List Char → Option (Numeral × List Char)
  | [] => none
  | c :: rest =>
    if !c.isDigit then none
    else if c = '0' then
      match rest with
      | d :: _ => if d.isDigit then none else readWhole negative 0 0 rest
      | [] => readWhole negative 0 0 []
    else readWhole negative (digitValue c) 0 rest

def hexValue? (c : Char) : Option Nat :=
  if c.isDigit then some (c.toNat - 48)
  else if 'a' ≤ c ∧ c ≤ 'f' then some (c.toNat - 87)
  else if 'A' ≤ c ∧ c ≤ 'F' then some (c.toNat - 55)
  else none

def hexUnit? (a b c d : Char) : Option Nat := do
  return ((← hexValue? a) * 16 + (← hexValue? b)) * 256 + ((← hexValue? c) * 16 + (← hexValue? d))

def charOf? (codePoint : Nat) : Option Char :=
  if codePoint.isValidChar then some (Char.ofNat codePoint) else none

def escapes : List (Char × Char) :=
  [('"', '"'), ('\\', '\\'), ('/', '/'), ('b', '\x08'), ('f', '\x0c'), ('n', '\n'), ('r', '\r'),
    ('t', '\t')]

def readText (held : List Char) : List Char → Option (String × List Char)
  | [] => none
  | '"' :: rest => some (String.ofList held.reverse, rest)
  | '\\' :: 'u' :: a :: b :: c :: d :: rest =>
    match hexUnit? a b c d with
    | none => none
    | some high =>
      if 0xD800 ≤ high && high < 0xDC00 then
        match rest with
        | '\\' :: 'u' :: e :: f :: g :: h :: rest =>
          match hexUnit? e f g h with
          | none => none
          | some low =>
            if 0xDC00 ≤ low && low < 0xE000 then
              readText (Char.ofNat (0x10000 + (high - 0xD800) * 0x400 + (low - 0xDC00)) :: held) rest
            else none
        | _ => none
      else
        match charOf? high with
        | some character => readText (character :: held) rest
        | none => none
  | '\\' :: c :: rest =>
    match escapes.lookup c with
    | some character => readText (character :: held) rest
    | none => none
  | c :: rest => if c.toNat < 0x20 then none else readText (c :: held) rest

def readItems (readItem : List Char → Option (Value × List Char)) :
    Nat → List Char → Option (List Value × List Char)
  | 0, _ => none
  | fuel + 1, text => do
    let (item, rest) ← readItem (skipBlanks text)
    match skipBlanks rest with
    | ',' :: rest =>
      let (items, rest) ← readItems readItem fuel rest
      some (item :: items, rest)
    | ']' :: rest => some ([item], rest)
    | _ => none

def readFields (readItem : List Char → Option (Value × List Char)) :
    Nat → List Char → Option (List (String × Value) × List Char)
  | 0, _ => none
  | fuel + 1, text => do
    match skipBlanks text with
    | '"' :: rest =>
      let (name, rest) ← readText [] rest
      match skipBlanks rest with
      | ':' :: rest =>
        let (value, rest) ← readItem (skipBlanks rest)
        match skipBlanks rest with
        | ',' :: rest =>
          let (fields, rest) ← readFields readItem fuel rest
          some ((name, value) :: fields, rest)
        | '\x7d' :: rest => some ([(name, value)], rest)
        | _ => none
      | _ => none
    | _ => none

def readList (readItem : List Char → Option (Value × List Char)) (text : List Char) :
    Option (List Value × List Char) :=
  match skipBlanks text with
  | ']' :: rest => some ([], rest)
  | _ => readItems readItem text.length text

def readObject (readItem : List Char → Option (Value × List Char)) (text : List Char) :
    Option (List (String × Value) × List Char) :=
  match skipBlanks text with
  | '\x7d' :: rest => some ([], rest)
  | _ => readFields readItem text.length text

def readValue : Nat → List Char → Option (Value × List Char)
  | depth, text =>
    match text with
    | 'n' :: 'u' :: 'l' :: 'l' :: rest => some (.null, rest)
    | 't' :: 'r' :: 'u' :: 'e' :: rest => some (.bool true, rest)
    | 'f' :: 'a' :: 'l' :: 's' :: 'e' :: rest => some (.bool false, rest)
    | '"' :: rest => (readText [] rest).map fun (held, rest) => (.text held, rest)
    | '-' :: rest => (readNumeral true rest).map fun (held, rest) => (.number held, rest)
    | '[' :: rest =>
      match depth with
      | 0 => none
      | depth + 1 => (readList (readValue depth) rest).map fun (items, rest) => (.list items, rest)
    | '\x7b' :: rest =>
      match depth with
      | 0 => none
      | depth + 1 =>
        (readObject (readValue depth) rest).map fun (fields, rest) => (.ofFields fields, rest)
    | _ => (readNumeral false text).map fun (held, rest) => (.number held, rest)

def read? (text : List Char) : Option Value :=
  match readValue (nestingLimit - 1) (skipBlanks text) with
  | some (value, rest) => if skipBlanks rest = [] then some value else none
  | none => none

def readFields? (text : List Char) : Option (List (String × Value)) :=
  match skipBlanks text with
  | '\x7b' :: rest =>
    match readObject (readValue (nestingLimit - 2)) rest with
    | some (fields, rest) => if skipBlanks rest = [] then some fields else none
    | none => none
  | _ => none

end Metronome.Json
