namespace Metronome.Decimal

/-- A finite double: `mantissa * 2 ^ exponent`, with its sign. -/
structure Dyadic where
  negative : Bool
  mantissa : Nat
  exponent : Int
  deriving DecidableEq

def Dyadic.ofFloat (x : Float) : Dyadic :=
  let bits : Nat := x.toBits.toNat
  let negative := bits / Nat.pow 2 63 == 1
  let field : Nat := bits / Nat.pow 2 52 % Nat.pow 2 11
  let fraction : Nat := bits % Nat.pow 2 52
  if field = 0 then ⟨negative, fraction, -1074⟩
  else ⟨negative, Nat.pow 2 52 + fraction, (field : Int) - 1075⟩

/-- The doubles next to a power of two are closer below it than above it. -/
def Dyadic.narrowBelow (d : Dyadic) : Bool :=
  d.mantissa == Nat.pow 2 52 && d.exponent > -1074

def Dyadic.fraction (d : Dyadic) : Nat × Nat :=
  if d.exponent ≥ 0 then (d.mantissa * Nat.pow 2 d.exponent.toNat, 1)
  else (d.mantissa, Nat.pow 2 (-d.exponent).toNat)

/-- The whole number nearest to a fraction; a half goes to the even neighbour. -/
def roundHalfEven (numerator denominator : Nat) : Nat :=
  let below := numerator / denominator
  let twice := 2 * (numerator % denominator)
  if twice < denominator then below
  else if twice > denominator then below + 1
  else if below % 2 = 0 then below else below + 1

def roundHalfUp (numerator denominator : Nat) : Nat :=
  (2 * numerator + denominator) / (2 * denominator)

def nearestWhole (x : Float) : Nat :=
  if x.isNaN then 0
  else if x.isInf then Nat.pow 2 64 - 1
  else
    let (numerator, denominator) := (Dyadic.ofFloat x).fraction
    min (roundHalfUp numerator denominator) (Nat.pow 2 64 - 1)

def digitCount (n : Nat) : Nat :=
  (Nat.toDigits 10 n).length

def nearestFloat (digits : Nat) (exponent : Int) : Float :=
  let size := exponent + digitCount digits
  if digits = 0 || size < -400 then 0.0
  else if size > 400 then 1.0 / 0.0
  else if exponent ≥ 0 then Float.ofScientific digits false exponent.toNat
  else Float.ofScientific digits true (-exponent).toNat

end Metronome.Decimal
