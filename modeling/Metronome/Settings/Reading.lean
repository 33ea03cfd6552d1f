import Metronome.Decimal.Reading
import Metronome.Files
import Metronome.Settings.Basic
import Metronome.Text.Lines
import Metronome.Value.Reading

namespace Metronome.Settings

open Metronome.Decimal (nearestFloat ofDigits digitValue)

inductive Scalar where
  | int (value : Int)
  | float (value : Float)
  | bool (value : Bool)

def isSpace (c : Char) : Bool :=
  c == ' ' || c == '\t'

def isVisible (c : Char) : Bool :=
  c == '\t' || (0x20 ≤ c.toNat && c.toNat != 0x7F)

def skipSpaces (text : List Char) : List Char :=
  text.dropWhile isSpace

def atLineEnd (text : List Char) : Bool :=
  match skipSpaces text with
  | [] => true
  | '#' :: comment => comment.all isVisible
  | _ => false

def isBareKey (c : Char) : Bool :=
  c.isAlphanum || c == '_' || c == '-'

def codePoint? (digits : List Char) : Option Char := do
  let values ← digits.mapM Json.hexValue?
  Json.charOf? (values.foldl (fun n d => 16 * n + d) 0)

def keyEscapes : List (Char × Char) :=
  [('b', '\x08'), ('t', '\t'), ('n', '\n'), ('f', '\x0c'), ('r', '\r'), ('"', '"'), ('\\', '\\')]

def readQuotedKey (held : List Char) : List Char → Option (String × List Char)
  | [] => none
  | '"' :: rest => some (String.ofList held.reverse, rest)
  | '\\' :: 'u' :: a :: b :: c :: d :: rest =>
    match codePoint? [a, b, c, d] with
    | some character => readQuotedKey (character :: held) rest
    | none => none
  | '\\' :: 'U' :: a :: b :: c :: d :: e :: f :: g :: h :: rest =>
    match codePoint? [a, b, c, d, e, f, g, h] with
    | some character => readQuotedKey (character :: held) rest
    | none => none
  | '\\' :: c :: rest =>
    match keyEscapes.lookup c with
    | some character => readQuotedKey (character :: held) rest
    | none => none
  | c :: rest => if isVisible c then readQuotedKey (c :: held) rest else none

def readKey : List Char → Option (String × List Char)
  | '"' :: rest => readQuotedKey [] rest
  | '\'' :: rest =>
    match rest.dropWhile (fun c => isVisible c && c != '\'') with
    | '\'' :: after =>
      some (String.ofList (rest.takeWhile fun c => isVisible c && c != '\''), after)
    | _ => none
  | text =>
    let name := text.takeWhile isBareKey
    if name = [] then none else some (String.ofList name, text.dropWhile isBareKey)

/-- A row of digits, in which an underscore stands between two of them, without underscores. -/
def groupedDigits? (isDigit : Char → Bool) : List Char → Option (List Char)
  | [] => none
  | [c] => if isDigit c then some [c] else none
  | c :: '_' :: rest =>
    if isDigit c then (groupedDigits? isDigit rest).map (c :: ·) else none
  | c :: rest => if isDigit c then (groupedDigits? isDigit rest).map (c :: ·) else none

def decimalDigits? (text : List Char) : Option (List Char) :=
  match groupedDigits? Char.isDigit text with
  | some digits => if digits.head? = some '0' ∧ digits.length > 1 then none else some digits
  | none => none

def signedScalar? (value : Int) : Option Scalar :=
  if Numeral.inSigned value then some (.int value) else none

def inBase? (base : Nat) (text : List Char) : Option Scalar := do
  let isDigit (c : Char) := (Json.hexValue? c).any (· < base)
  let digits ← groupedDigits? isDigit text
  let value : Nat := digits.foldl (fun n c => base * n + (Json.hexValue? c).getD 0) 0
  signedScalar? value

def exponent? (text : List Char) : Option Int := do
  let (negative, digits) := Decimal.splitSign text
  let digits ← groupedDigits? Char.isDigit digits
  let size : Int := ofDigits digits
  return if negative then -size else size

def isExponentMark (c : Char) : Bool :=
  c == 'e' || c == 'E'

def unsignedScalar? (negative : Bool) (text : List Char) : Option Scalar := do
  let mantissa := text.takeWhile (!isExponentMark ·)
  let marked := text.dropWhile (!isExponentMark ·)
  let whole := mantissa.takeWhile (· != '.')
  let pointed := mantissa.dropWhile (· != '.')
  let digits ← decimalDigits? whole
  if marked = [] && pointed = [] then
    let value : Int := ofDigits digits
    signedScalar? (if negative then -value else value)
  else
    let fraction ← if pointed = [] then some [] else groupedDigits? Char.isDigit (pointed.drop 1)
    let exponent ← if marked = [] then some 0 else exponent? (marked.drop 1)
    let size := nearestFloat (ofDigits (digits ++ fraction)) (exponent - fraction.length)
    if size.isInf && !negative then none
    else return .float (if negative then -size else size)

def number? (text : List Char) : Option Scalar :=
  let (negative, body) := Decimal.splitSign text
  if body = "inf".toList then some (.float (if negative then -(1.0 / 0.0) else 1.0 / 0.0))
  else if body = "nan".toList then some (.float (0.0 / 0.0))
  else unsignedScalar? negative body

def scalar? (text : List Char) : Option Scalar :=
  if text = "true".toList then some (.bool true)
  else if text = "false".toList then some (.bool false)
  else
    match text with
    | '0' :: 'x' :: digits => inBase? 16 digits
    | '0' :: 'o' :: digits => inBase? 8 digits
    | '0' :: 'b' :: digits => inBase? 2 digits
    | _ => number? text

namespace Scalar

def nat? : Scalar → Option Nat
  | int value => if 0 ≤ value then some value.toNat else none
  | _ => none

def float? : Scalar → Option Float
  | int value => some (Float.ofInt value)
  | float value => some value
  | bool _ => none

def bool? : Scalar → Option Bool
  | bool value => some value
  | _ => none

end Scalar

/-- Gives a setting a value of its kind. -/
def set? (settings : Settings) (name : String) (value : Scalar) : Option Settings :=
  match name with
  | "tick_budget" => value.nat?.map ({ settings with tickBudget := · })
  | "max_tick_length_ms" => value.float?.map ({ settings with maxTickLength := · })
  | "max_ticks" => value.nat?.map ({ settings with maxTicks := some · })
  | "max_marshal_depth" => value.nat?.map ({ settings with maxMarshalDepth := · })
  | "speed" => value.float?.map ({ settings with speed := · })
  | "pause_on_entry" => value.bool?.map ({ settings with pauseOnEntry := · })
  | _ => none

def endsScalar (c : Char) : Bool :=
  isSpace c || c == '#'

def readEntry (line : List Char) : Option (String × Scalar) := do
  let (name, rest) ← readKey line
  match skipSpaces rest with
  | '=' :: rest =>
    let rest := skipSpaces rest
    let value ← scalar? (rest.takeWhile (!endsScalar ·))
    if atLineEnd (rest.dropWhile (!endsScalar ·)) then some (name, value) else none
  | _ => none

def readLines (settings : Settings) (given : List String) : List (List Char) → Option Settings
  | [] => some settings
  | line :: lines =>
    if atLineEnd line then readLines settings given lines
    else
      match readEntry (skipSpaces line) with
      | none => none
      | some (name, value) =>
        if given.contains name then none
        else
          match settings.set? name value with
          | none => none
          | some settings => readLines settings (name :: given) lines

def read? (text : List Char) : Option Settings :=
  let text := match text with
    | '\ufeff' :: rest => rest
    | _ => text
  readLines .default [] (Text.textLines text)

inductive LoadError where
  | unreadable (path : String) (error : FileError)
  | malformed
  | invalid (fault : SettingsFault)

def LoadError.message : LoadError → String
  | unreadable path error => "failed to read config file " ++ path ++ ": " ++ error.message
  | malformed => "invalid config: malformed settings"
  | invalid fault => fault.message

def checked (settings : Settings) : Except LoadError Settings :=
  match settings.fault? with
  | some fault => .error (.invalid fault)
  | none => .ok settings

def ofText (text : List Char) : Except LoadError Settings :=
  match read? text with
  | some settings => settings.checked
  | none => .error .malformed

def load (files : Files) (path : String) : Except LoadError Settings :=
  match files.text path with
  | .error error => .error (.unreadable path error)
  | .ok text => ofText text.toList

end Metronome.Settings
