namespace Metronome

/-- A number is whole or a double; the two are told apart even where they are equal. -/
inductive Numeral where
  | int (value : Int)
  | float (value : Float)

inductive Value where
  | null
  | bool (value : Bool)
  | number (value : Numeral)
  | text (value : String)
  | list (items : List Value)
  | object (fields : List (String × Value))

instance : Inhabited Value := ⟨.null⟩

namespace Numeral

def inSigned (n : Int) : Bool :=
  -(Nat.pow 2 63 : Int) ≤ n && n < Nat.pow 2 63

def inUnsigned (n : Int) : Bool :=
  0 ≤ n && n < Nat.pow 2 64

def toFloat : Numeral → Float
  | int value => Float.ofInt value
  | float value => value

def signed? : Numeral → Option Int
  | int value => if inSigned value then some value else none
  | float _ => none

def unsigned? : Numeral → Option Nat
  | int value => if inUnsigned value then some value.toNat else none
  | float _ => none

def same : Numeral → Numeral → Bool
  | int left, int right => left == right
  | float left, float right => left == right
  | _, _ => false

end Numeral

namespace Value

def ofInt (value : Int) : Value := .number (.int value)

def ofNat (value : Nat) : Value := .number (.int value)

def ofFloat? (value : Float) : Option Value :=
  if value.isFinite then some (.number (.float value)) else none

def float? : Value → Option Float
  | number value => some value.toFloat
  | _ => none

def signed? : Value → Option Int
  | number value => value.signed?
  | _ => none

def unsigned? : Value → Option Nat
  | number value => value.unsigned?
  | _ => none

def bool? : Value → Option Bool
  | bool value => some value
  | _ => none

def text? : Value → Option String
  | text value => some value
  | _ => none

def list? : Value → Option (List Value)
  | list items => some items
  | _ => none

def isNull : Value → Bool
  | null => true
  | _ => false

def isText : Value → Bool
  | text _ => true
  | _ => false

def field? (name : String) : Value → Option Value
  | object fields => (fields.find? (·.1 == name)).map (·.2)
  | _ => none

mutual

/-- Equality of values, in which a whole number never equals a double. -/
def same : Value → Value → Bool
  | null, null => true
  | bool left, bool right => left == right
  | number left, number right => left.same right
  | text left, text right => left == right
  | list left, list right => sameItems left right
  | object left, object right => sameFields left right
  | _, _ => false

def sameItems : List Value → List Value → Bool
  | [], [] => true
  | left :: lefts, right :: rights => same left right && sameItems lefts rights
  | _, _ => false

def sameFields : List (String × Value) → List (String × Value) → Bool
  | [], [] => true
  | (leftName, left) :: lefts, (rightName, right) :: rights =>
    leftName == rightName && same left right && sameFields lefts rights
  | _, _ => false

end

def insertField (name : String) (value : Value) :
    List (String × Value) → List (String × Value)
  | [] => [(name, value)]
  | (other, held) :: rest =>
    if name = other then (name, value) :: rest
    else if name < other then (name, value) :: (other, held) :: rest
    else (other, held) :: insertField name value rest

/-- The object with these fields; of equal names the last one counts. -/
def ofFields (fields : List (String × Value)) : Value :=
  .object (fields.foldl (fun held (name, value) => insertField name value held) [])

/-- What counts as true in a condition: all but null, false, zero and the empty text. -/
def truthy : Value → Bool
  | null => false
  | bool value => value
  | number value => value.toFloat != 0.0
  | text value => !value.isEmpty
  | list _ => true
  | object _ => true

end Value

end Metronome
