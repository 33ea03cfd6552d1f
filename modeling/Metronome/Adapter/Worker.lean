import Metronome.Front.CommandLoop
import Metronome.Script.Machine

namespace Metronome.Adapter

open Metronome.Debug (Command)
open Metronome.Front
open Metronome.Run

abbrev SessionScheduler := Scheduler Script.Machine Unit

inductive Work where
  | start (scheduler : SessionScheduler) (program : Script.Loaded)
  | loop (running : CommandLoop Script.Machine Unit)

structure Worker where
  work : Work
  inbox : Inbox
  now : Instant

/-- When a worker can go on. -/
inductive Readiness where
  | now
  | due (time : Instant)
  | blocked
  | over

namespace Work

def takeEvents : Work → Work × List HostEvent
  | start scheduler program =>
    (start { scheduler with notices := #[] } program,
      scheduler.notices.toList.filterMap Notice.event?)
  | loop running =>
    (loop { running with scheduler := { running.scheduler with notices := #[] } },
      running.scheduler.notices.toList.filterMap Notice.event?)

end Work

namespace Worker

def new (settings : Settings) (breakpoints : List Nat) (program : Script.Loaded) (now : Instant) :
    Worker :=
  ⟨.start ((Scheduler.new settings (some finishWhenIdle)).setBreakpoints breakpoints) program,
    .empty, now⟩

def send (worker : Worker) (command : Command) : Worker :=
  { worker with inbox := worker.inbox.put command }

def readiness (worker : Worker) : Readiness :=
  match worker.work with
  | .start _ _ => .now
  | .loop running =>
    match running.wait, worker.inbox.take.1 with
    | .over, _ => .over
    | .command, .nothing => .blocked
    | .tick _ due, .nothing => .due due
    | _, _ => .now

def begun (worker : Worker) (now : Instant) : CommandLoop Script.Machine Unit :=
  match worker.work with
  | .start scheduler program =>
    .enter (scheduler.start program.machine program.text.lineMap now now) now
  | .loop running => running

def step (worker : Worker) (now : Instant) : Worker :=
  match worker.work with
  | .start _ _ => { worker with work := .loop (worker.begun now), now }
  | .loop running =>
    let (receipt, inbox) := worker.inbox.take
    { work := .loop (running.receive receipt now), inbox, now }

/-- Closes the inbox and goes on until the run is over. -/
def finish (worker : Worker) (now : Instant) : Worker :=
  { work := .loop ((worker.begun now).wind worker.inbox.waiting now)
    inbox := ⟨[], false⟩
    now }

end Worker

end Metronome.Adapter
