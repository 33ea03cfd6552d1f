import Metronome.Interpreter

namespace Metronome.Run

abbrev Queue := List Callback

structure Timer where
  /-- Absent if no clock ever shows it. -/
  due : Option Instant
  number : Nat
  callback : Callback

structure Timers where
  pending : List Timer
  nextNumber : Nat

namespace Timer

def dueAfter (now : Instant) (delay : Duration) : Option Instant :=
  if now + delay ≤ Instant.latest then some (now + delay) else none

def isDue (now : Instant) (timer : Timer) : Bool :=
  timer.due.any (· ≤ now)

/-- How long a timer still has to wait. -/
def remaining (now : Instant) (timer : Timer) : Duration :=
  match timer.due with
  | some due => due - now
  | none => Duration.longest

/-- Whether one due timer is released no later than another. -/
def precedes (left right : Timer) : Bool :=
  let l := left.due.getD 0
  let r := right.due.getD 0
  l < r || (l == r && left.number ≤ right.number)

end Timer

namespace Timers

def empty : Timers := ⟨[], 0⟩

def register (timers : Timers) (now : Instant) (delay : Duration) (callback : Callback) :
    Timers :=
  ⟨timers.pending ++ [⟨Timer.dueAfter now delay, timers.nextNumber, callback⟩],
    timers.nextNumber + 1⟩

/-- The timers that are due, the earliest first, and of those that are due together the one that
was registered first. -/
def due (timers : Timers) (now : Instant) : List Timer :=
  (timers.pending.filter (Timer.isDue now)).mergeSort Timer.precedes

def release (timers : Timers) (now : Instant) (queue : Queue) : Timers × Queue :=
  ({ timers with pending := timers.pending.filter (!Timer.isDue now ·) },
    queue ++ (timers.due now).map (·.callback))

def nextDueIn (timers : Timers) (now : Instant) : Option Duration :=
  (timers.pending.map (Timer.remaining now)).min?

def clear (timers : Timers) : Timers :=
  { timers with pending := [] }

end Timers

end Metronome.Run
