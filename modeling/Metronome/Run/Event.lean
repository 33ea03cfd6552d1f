import Metronome.Debug.Controller

namespace Metronome.Run

open Metronome.Debug (PauseState StopReason)

inductive Outcome where
  | completed
  | failed (message : String) (line : Option Nat)
  | timedOut (ticks : Nat)
  | stopped
  deriving DecidableEq, Repr

def Outcome.text : Outcome → String
  | completed => "completed"
  | failed message (some line) => "failed on line " ++ toString line ++ ": " ++ message
  | failed message none => "failed: " ++ message
  | timedOut ticks => "timed out after " ++ toString ticks ++ " ticks"
  | stopped => "stopped"

inductive HostEvent where
  | output (line : String)
  | selected (line : Nat)
  | annotated (line : Option Nat) (message : String)
  | stopped (reason : StopReason) (state : PauseState)
  | pauseChanged (state : PauseState)
  | finished (outcome : Outcome)
  deriving DecidableEq, Repr

/-- What happens in a run: an event for the host, or a request for a callback and its answer. -/
inductive Notice where
  | told (event : HostEvent)
  | polled (callback : Option Callback)

def Notice.event? : Notice → Option HostEvent
  | told event => some event
  | polled _ => none

end Metronome.Run
