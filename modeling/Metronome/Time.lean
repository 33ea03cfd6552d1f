import Metronome.Decimal.Binary64

namespace Metronome

abbrev Duration := Nat

abbrev Instant := Nat

namespace Duration

def perSecond : Nat := Nat.pow 10 9

def perMillisecond : Nat := Nat.pow 10 6

/-- The longest duration: as many seconds as 64 bits count, and the last nanosecond of one. -/
def longest : Duration := Nat.pow 2 64 * perSecond - 1

def ofSeconds? (seconds : Float) : Option Duration :=
  if !seconds.isFinite || seconds < 0.0 then none
  else
    let (numerator, denominator) := (Decimal.Dyadic.ofFloat seconds).fraction
    let nanoseconds := Decimal.roundHalfEven (numerator * perSecond) denominator
    if nanoseconds ≤ longest then some nanoseconds else none

end Duration

def Instant.latest : Instant := Nat.pow 2 63 * Duration.perSecond - 1

end Metronome
