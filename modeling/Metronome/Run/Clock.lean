import Metronome.Time

namespace Metronome.Run

/-- The one tick that a host fires next; a tick of an earlier run has no effect. -/
structure PendingTick where
  run : Nat
  delay : Duration
  deriving DecidableEq, Repr

structure Clock where
  speed : Float
  slowest : Float

namespace Clock

def clampSpeed (speed : Float) : Float :=
  if speed < 0.0 then 0.0 else if speed > 1.0 then 1.0 else speed

/-- Sets the speed to the nearest one that there is; no number leaves it as it is. -/
def setSpeed (clock : Clock) (speed : Float) : Clock :=
  if speed.isNaN then clock else { clock with speed := clampSpeed speed }

def ofSettings (speed slowest : Float) : Clock :=
  setSpeed ⟨1.0, if slowest > 0.0 then slowest else 0.0⟩ speed

/-- The slowest tick, times the square of what the speed lacks to 1. -/
def tickLengthFor (clock : Clock) (speed : Float) : Duration :=
  let speed := if speed.isNaN then 0.0 else clampSpeed speed
  let slowness := 1.0 - speed
  let milliseconds := clock.slowest * slowness * slowness
  Decimal.nearestWhole (milliseconds * 1000000.0)

def tickLength (clock : Clock) : Duration :=
  clock.tickLengthFor clock.speed

def atMaxSpeed (clock : Clock) : Bool :=
  clock.tickLength == 0

def nextTick (clock : Clock) (run : Nat) : PendingTick :=
  ⟨run, clock.tickLength⟩

end Clock

end Metronome.Run
