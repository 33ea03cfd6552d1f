import Metronome.Decimal.Reading
import Metronome.Text.Blank
import Metronome.Text.Quoted
import Metronome.Value.Operators

namespace Metronome.Script

open Metronome.Text

inductive Token where
  | word (name : String)
  | number (value : Numeral)
  | text (value : String)
  | operator (op : Operator)
  | assign

inductive TokenFault where
  | unexpectedCharacter (c : Char)
  | unterminatedText
  | invalidNumber (literal : String)
  deriving DecidableEq

def TokenFault.message : TokenFault → String
  | unexpectedCharacter c => "unexpected character `" ++ String.ofList [c] ++ "`"
  | unterminatedText => "unterminated string"
  | invalidNumber literal => "invalid number `" ++ literal ++ "`"

namespace Token

/-- Whether a value can stand for the token, so that an operator may follow. -/
def isOperand : Token → Bool
  | word _ => true
  | number _ => true
  | text _ => true
  | operator _ => false
  | assign => false

def describe : Token → String
  | word name => "`" ++ name ++ "`"
  | number value => "`" ++ Value.writeNumeral value ++ "`"
  | text value => quoted value
  | operator op => "`" ++ op.symbol ++ "`"
  | assign => "`=`"

/-- A literal of digits and points, perhaps after a minus sign: a whole number if it is one of 64
bits, otherwise a finite double. -/
def numeral? (literal : List Char) : Option Numeral :=
  let (negative, digits) := Decimal.splitSign literal
  let whole : Int := Decimal.ofDigits digits
  let signed := if negative then -whole else whole
  if digits.all Char.isDigit && Numeral.inSigned signed then some (.int signed)
  else
    match Decimal.float? literal with
    | some value => if value.isFinite then some (.float value) else none
    | none => none

def isNumberPart (c : Char) : Bool :=
  c.isDigit || c == '.'

def isWordStart (c : Char) : Bool :=
  isLetter c || c == '_'

def isWordPart (c : Char) : Bool :=
  isLetter c || isNumber c || c == '_'

def scanText (held : List Char) : List Char → Option (List Char × List Char)
  | [] => none
  | '"' :: rest => some (held.reverse, rest)
  | ['\\'] => none
  | '\\' :: c :: rest =>
    scanText ((if c = 'n' then '\n' else if c = 't' then '\t' else c) :: held) rest
  | c :: rest => scanText (c :: held) rest

def scanOperator (c : Char) (rest : List Char) : Except TokenFault (Token × List Char) :=
  match c, rest with
  | '=', '=' :: rest => .ok (operator .eq, rest)
  | '!', '=' :: rest => .ok (operator .ne, rest)
  | '<', '=' :: rest => .ok (operator .le, rest)
  | '>', '=' :: rest => .ok (operator .ge, rest)
  | '=', rest => .ok (assign, rest)
  | '<', rest => .ok (operator .lt, rest)
  | '>', rest => .ok (operator .gt, rest)
  | '+', rest => .ok (operator .add, rest)
  | '-', rest => .ok (operator .sub, rest)
  | '*', rest => .ok (operator .mul, rest)
  | '/', rest => .ok (operator .div, rest)
  | _, _ => .error (.unexpectedCharacter c)

/-- A minus sign belongs to the number that it touches unless it touches an operand before it. -/
def startsNumber (afterOperand : Bool) (c : Char) (rest : List Char) : Bool :=
  c.isDigit || (c == '-' && (rest.head?.any Char.isDigit) && !afterOperand)

def scanOne (afterOperand : Bool) (c : Char) (rest : List Char) :
    Except TokenFault (Token × List Char) :=
  if startsNumber afterOperand c rest then
    let literal := c :: rest.takeWhile isNumberPart
    match numeral? literal with
    | some value => .ok (number value, rest.dropWhile isNumberPart)
    | none => .error (.invalidNumber (String.ofList literal))
  else if isWordStart c then
    .ok (word (String.ofList (c :: rest.takeWhile isWordPart)), rest.dropWhile isWordPart)
  else if c = '"' then
    match scanText [] rest with
    | some (held, rest) => .ok (text (String.ofList held), rest)
    | none => .error .unterminatedText
  else scanOperator c rest

theorem length_dropWhile_le (drop : Char → Bool) (text : List Char) :
    (text.dropWhile drop).length ≤ text.length :=
  (List.dropWhile_suffix drop).length_le

theorem length_of_scanText {held text read rest : List Char}
    (scanned : scanText held text = some (read, rest)) : rest.length ≤ text.length := by
  fun_induction scanText held text with
  | case1 => cases scanned
  | case2 held after => simp_all
  | case3 => cases scanned
  | case4 held c after ih => have := ih scanned; simp; omega
  | case5 held c after _ _ _ ih => have := ih scanned; simp; omega

theorem length_of_scanOperator {c : Char} {text rest : List Char} {token : Token}
    (scanned : scanOperator c text = .ok (token, rest)) : rest.length ≤ text.length := by
  unfold scanOperator at scanned
  split at scanned <;> cases scanned <;> simp

theorem length_of_scanOne {afterOperand : Bool} {c : Char} {text rest : List Char} {token : Token}
    (scanned : scanOne afterOperand c text = .ok (token, rest)) : rest.length ≤ text.length := by
  unfold scanOne at scanned
  split at scanned
  · dsimp only at scanned
    split at scanned
    · cases scanned; exact length_dropWhile_le _ _
    · cases scanned
  · split at scanned
    · cases scanned; exact length_dropWhile_le _ _
    · split at scanned
      · split at scanned
        · rename_i read after found
          cases scanned
          exact length_of_scanText found
        · cases scanned
      · exact length_of_scanOperator scanned

/-- The tokens of a text that follows an operand or does not. -/
def scanFrom (afterOperand : Bool) (text : List Char) : Except TokenFault (List Token) :=
  match text with
  | [] => .ok []
  | c :: rest =>
    if isBlank c then scanFrom false rest
    else
      match _scanned : scanOne afterOperand c rest with
      | .error fault => .error fault
      | .ok (token, rest) =>
        match scanFrom token.isOperand rest with
        | .error fault => .error fault
        | .ok tokens => .ok (token :: tokens)
termination_by text.length
decreasing_by
  · simp
  · have := length_of_scanOne _scanned
    simp only [List.length_cons]
    omega

def scan (text : List Char) : Except TokenFault (List Token) :=
  scanFrom false text

end Token

end Metronome.Script
