import Metronome.Run.Scheduler

namespace Metronome.Run

inductive Turn where
  | ended
  | rest
  | stuck
  | fire (tick : PendingTick) (wait : Duration)

/-- Takes the turn that is next: while the program only waits for a timer, so does its tick. -/
def Scheduler.turn {σ φ : Type} [Interpreter σ] (s : Scheduler σ φ) (now : Instant) :
    Scheduler σ φ × Turn :=
  if !s.isRunning then (s, .ended)
  else if s.isAtRest then (s, .rest)
  else
    match s.takePending with
    | (s, none) => (s, .stuck)
    | (s, some tick) => (s, .fire tick (max ((s.idleWait now).getD 0) tick.delay))

end Metronome.Run
