import Metronome.Front.Inbox
import Metronome.Run.Turn

namespace Metronome.Front

open Metronome.Debug (Command)
open Metronome.Run

inductive Wait where
  | command
  | tick (tick : PendingTick) (due : Instant)
  | over

structure CommandLoop (σ φ : Type) where
  scheduler : Scheduler σ φ
  wait : Wait

variable {σ φ : Type} [Interpreter σ]

namespace CommandLoop

def enter (s : Scheduler σ φ) (now : Instant) : CommandLoop σ φ :=
  match s.turn now with
  | (s, .ended) | (s, .stuck) => ⟨s, .over⟩
  | (s, .rest) => ⟨s, .command⟩
  | (s, .fire tick wait) => ⟨s, .tick tick (now + wait)⟩

/-- Goes on with what came, at the time when it came. A tick that is waited for fires when nothing
came, though a command may have brought the run to rest in the meantime. -/
def receive (loop : CommandLoop σ φ) (receipt : Receipt) (now : Instant) : CommandLoop σ φ :=
  match loop.wait, receipt with
  | .over, _ => loop
  | .command, .command command => enter (loop.scheduler.apply command) now
  | .command, .nothing => loop
  | .tick _ _, .command command =>
    let scheduler := loop.scheduler.apply command
    ⟨scheduler, if scheduler.isRunning then loop.wait else .over⟩
  | .tick tick _, .nothing => enter (loop.scheduler.onTick tick now now) now
  | _, .closed => ⟨loop.scheduler.stop, .over⟩

def receiveAll (loop : CommandLoop σ φ) (receipts : List (Receipt × Instant)) : CommandLoop σ φ :=
  receipts.foldl (fun loop (receipt, now) => loop.receive receipt now) loop

/-- Goes on with all that a closed inbox holds, and then with its being closed. -/
def wind (loop : CommandLoop σ φ) (commands : List Command) (now : Instant) : CommandLoop σ φ :=
  loop.receiveAll (commands.map (fun command => (.command command, now)) ++ [(.closed, now)])

end CommandLoop

end Metronome.Front
