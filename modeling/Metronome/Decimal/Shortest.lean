import Metronome.Decimal.Binary64

namespace Metronome.Decimal

structure Expansion where
  digits : Nat
  exponent : Int
  deriving DecidableEq

/-- Four times a magnitude and the ends of the interval that rounds to it, over one denominator. -/
structure Interval where
  value : Nat
  low : Nat
  high : Nat
  denominator : Nat
  closed : Bool

def Dyadic.interval (d : Dyadic) : Interval :=
  let scale := if d.exponent ≥ 0 then Nat.pow 2 d.exponent.toNat else 1
  let below := if d.narrowBelow then 1 else 2
  { value := 4 * d.mantissa * scale
    low := (4 * d.mantissa - below) * scale
    high := (4 * d.mantissa + 2) * scale
    denominator := 4 * (if d.exponent ≥ 0 then 1 else Nat.pow 2 (-d.exponent).toNat)
    closed := d.mantissa % 2 == 0 }

def Interval.holds (i : Interval) (numerator denominator : Nat) : Bool :=
  let point := numerator * i.denominator
  if i.closed then i.low * denominator ≤ point && point ≤ i.high * denominator
  else i.low * denominator < point && point < i.high * denominator

def leadingExponent (numerator denominator : Nat) : Int :=
  (digitCount (numerator * Nat.pow 10 400 / denominator) : Int) - 401

inductive Tie
  | even | up
  deriving DecidableEq

/-- The better of the value's two neighbours on the grid of multiples of `10 ^ exponent`, of those
that read back. -/
def Interval.onGrid (i : Interval) (tie : Tie) (exponent : Int) : Option Expansion :=
  let up := if exponent ≥ 0 then Nat.pow 10 exponent.toNat else 1
  let down := if exponent ≥ 0 then 1 else Nat.pow 10 (-exponent).toNat
  let below := i.value * down / (i.denominator * up)
  let remainder := i.value * down % (i.denominator * up)
  let first := i.holds (below * up) down
  let second := i.holds ((below + 1) * up) down
  if first && second then
    let unit := i.denominator * up
    if 2 * remainder < unit || (2 * remainder = unit && tie = .even && below % 2 = 0) then
      some ⟨below, exponent⟩
    else some ⟨below + 1, exponent⟩
  else if first then some ⟨below, exponent⟩
  else if second then some ⟨below + 1, exponent⟩
  else none

/-- The first grid that holds a neighbour, from coarse to fine. -/
def Interval.firstGrid (i : Interval) (tie : Tie) (exponent : Int) : Nat → Option Expansion
  | 0 => none
  | grids + 1 =>
    match i.onGrid tie exponent with
    | some decimal => some decimal
    | none => i.firstGrid tie (exponent - 1) grids

def Expansion.strip (d : Expansion) : Nat → Expansion
  | 0 => d
  | fuel + 1 =>
    if d.digits ≠ 0 ∧ d.digits % 10 = 0 then
      Expansion.strip ⟨d.digits / 10, d.exponent + 1⟩ fuel
    else d

def shortest (tie : Tie) (d : Dyadic) : Expansion :=
  if d.mantissa = 0 then ⟨0, 0⟩
  else
    let i := d.interval
    match i.firstGrid tie (leadingExponent i.value i.denominator) 17 with
    | some decimal => decimal.strip 20
    | none => ⟨0, 0⟩

end Metronome.Decimal
