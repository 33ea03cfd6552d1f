import Metronome.Adapter.Message
import Metronome.Files
import Metronome.Run.Event

namespace Metronome.Adapter

open Metronome.Debug (Command StopReason)
open Metronome.Run

def outputEvent (category text : String) (line : Option Nat) : Content :=
  let fields := [("category", Value.text category), ("output", .text (text ++ "\n"))]
  .event "output" (some (.ofFields (fields ++ (line.map fun n => ("line", Value.ofNat n)).toList)))

def stoppedEvent (reason : StopReason) : Content :=
  .event "stopped" (some (.ofFields
    [("reason", .text reason.name), ("threadId", .ofNat 1), ("allThreadsStopped", .bool true)]))

def terminatedEvent : Content := .event "terminated" none

def eventsOf : HostEvent → List Content
  | .output line => [outputEvent "stdout" line none]
  | .annotated line message => [outputEvent "stderr" message line]
  | .stopped reason _ => [stoppedEvent reason]
  | .finished (.timedOut ticks) =>
    [outputEvent "console" (Outcome.timedOut ticks).text none, terminatedEvent]
  | .finished _ => [terminatedEvent]
  | .selected _ | .pauseChanged _ => []

def lineAfter (line : Option Nat) : HostEvent → Option Nat
  | .selected shown => some shown
  | .stopped _ state => state.line.or line
  | .finished _ => none
  | .output _ | .annotated _ _ | .pauseChanged _ => line

def capabilities : Value :=
  .ofFields
    [("supportsConfigurationDoneRequest", .bool true), ("supportsStepBack", .bool false),
      ("supportsFunctionBreakpoints", .bool false),
      ("supportsConditionalBreakpoints", .bool false), ("supportsSetVariable", .bool false)]

def threads : Value :=
  .ofFields [("threads", .list [.ofFields [("id", .ofNat 1), ("name", .text "main")]])]

def verified (lines : List Nat) : Value :=
  .ofFields [("breakpoints", .list (lines.map fun line =>
    .ofFields [("verified", .bool true), ("line", .ofNat line)]))]

def steerBody : Command → Option Value
  | .resume => some (.ofFields [("allThreadsContinued", .bool true)])
  | _ => none

def fileName (path : String) : String :=
  match (Files.names path).getLast? with
  | none | some ".." => "program"
  | some name => name

def stackOf (path : String) (line : Nat) : Value :=
  let source := Value.ofFields [("name", .text (fileName path)), ("path", .text path)]
  .ofFields
    [("stackFrames", .list [.ofFields
        [("id", .ofNat 1), ("name", .text "main"), ("line", .ofNat line), ("column", .ofNat 1),
          ("source", source)]]),
      ("totalFrames", .ofNat 1)]

def emptyStack : Value :=
  .ofFields [("stackFrames", .list []), ("totalFrames", .ofNat 0)]

end Metronome.Adapter
