import Metronome.Value.Basic

namespace Metronome.Value

mutual

/-- How deeply lists and objects are nested in a value; a scalar has depth zero. -/
def depth : Value → Nat
  | null => 0
  | bool _ => 0
  | number _ => 0
  | text _ => 0
  | list items => depthItems items + 1
  | object fields => depthFields fields + 1

def depthItems : List Value → Nat
  | [] => 0
  | item :: items => max (depth item) (depthItems items)

def depthFields : List (String × Value) → Nat
  | [] => 0
  | (_, value) :: fields => max (depth value) (depthFields fields)

end

mutual

/-- The value with every list and object nested deeper than `limit` replaced by null. -/
def truncate (limit : Nat) : Value → Value
  | list items =>
    match limit with
    | 0 => null
    | limit + 1 => list (truncateItems limit items)
  | object fields =>
    match limit with
    | 0 => null
    | limit + 1 => object (truncateFields limit fields)
  | scalar => scalar

def truncateItems (limit : Nat) : List Value → List Value
  | [] => []
  | item :: items => truncate limit item :: truncateItems limit items

def truncateFields (limit : Nat) : List (String × Value) → List (String × Value)
  | [] => []
  | (name, value) :: fields => (name, truncate limit value) :: truncateFields limit fields

end

end Metronome.Value
