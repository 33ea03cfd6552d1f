import Metronome.Decimal.Layout
import Metronome.Value.Basic

namespace Metronome.Value

open Metronome.Decimal (Layout)

/-- Doubles keep a decimal place, and have an exponent below 0.00001 and from 10^16 on; a tie goes
to the even digit. -/
def floatLayout : Layout := ⟨some (-5, 16), ".0", .even⟩

def hexDigit (n : Nat) : Char :=
  if n < 10 then Char.ofNat (48 + n) else Char.ofNat (87 + n)

def escapedChar (c : Char) : List Char :=
  match c with
  | '"' => ['\\', '"']
  | '\\' => ['\\', '\\']
  | '\n' => ['\\', 'n']
  | '\r' => ['\\', 'r']
  | '\t' => ['\\', 't']
  | '\x08' => ['\\', 'b']
  | '\x0c' => ['\\', 'f']
  | c =>
    if c.toNat < 0x20 then ['\\', 'u', '0', '0', hexDigit (c.toNat / 16), hexDigit (c.toNat % 16)]
    else [c]

def writeText (text : String) : String :=
  String.ofList ('"' :: text.toList.flatMap escapedChar ++ ['"'])

def writeNumeral : Numeral → String
  | .int value => toString value
  | .float value => floatLayout.write value

mutual

def write : Value → String
  | null => "null"
  | bool value => if value then "true" else "false"
  | number value => writeNumeral value
  | text value => writeText value
  | list items => "[" ++ writeItems items ++ "]"
  | object fields => "\x7b" ++ writeFields fields ++ "\x7d"

def writeItems : List Value → String
  | [] => ""
  | [item] => write item
  | item :: items => write item ++ "," ++ writeItems items

def writeFields : List (String × Value) → String
  | [] => ""
  | [(name, value)] => writeText name ++ ":" ++ write value
  | (name, value) :: fields => writeText name ++ ":" ++ write value ++ "," ++ writeFields fields

end

def display : Value → String
  | text value => value
  | value => value.write

end Metronome.Value
