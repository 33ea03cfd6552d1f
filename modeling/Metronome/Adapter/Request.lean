import Metronome.Debug.Stepping
import Metronome.Value.Basic

namespace Metronome.Adapter

open Metronome.Debug (Command)

inductive Request where
  | capabilities
  | launch (arguments : Value)
  | setBreakpoints (lines : List Nat)
  | configurationDone
  | threads
  | stackTrace
  | steer (command : Command)
  | setSpeed (speed : Option Float)
  | disconnect
  | unsupported

/-- The lines of the breakpoints that a client asks for; what is no line is left out. -/
def requestedLines (arguments : Value) : List Nat :=
  let places := ((arguments.field? "breakpoints").bind Value.list?).getD []
  (places.filterMap fun place => (place.field? "line").bind Value.unsigned?).filter (0 < ·)

def Request.read (name : String) (arguments : Value) : Request :=
  match name with
  | "initialize" => .capabilities
  | "launch" => .launch arguments
  | "setBreakpoints" => .setBreakpoints (requestedLines arguments)
  | "configurationDone" => .configurationDone
  | "threads" => .threads
  | "stackTrace" => .stackTrace
  | "continue" => .steer .resume
  | "next" => .steer .stepOver
  | "stepIn" => .steer .stepIn
  | "stepOut" => .steer .stepOut
  | "pause" => .steer .pause
  | "setSpeed" => .setSpeed ((arguments.field? "speed").bind Value.float?)
  | "disconnect" => .disconnect
  | _ => .unsupported

end Metronome.Adapter
