namespace Metronome.Debug

inductive StepMode
  | run | stepIn | stepOver | stepOut
  deriving DecidableEq, Repr

def StepMode.name : StepMode → String
  | run => "run"
  | stepIn => "stepIn"
  | stepOver => "stepOver"
  | stepOut => "stepOut"

inductive StopReason
  | entry | breakpoint | step | pause
  deriving DecidableEq, Repr

def StopReason.name : StopReason → String
  | entry => "entry"
  | breakpoint => "breakpoint"
  | step => "step"
  | pause => "pause"

inductive Command where
  | pause
  | resume
  | stepIn
  | stepOver
  | stepOut
  | toggleBreakpoint (line : Nat)
  | setBreakpoints (lines : List Nat)
  | setSpeed (speed : Float)
  | stop

end Metronome.Debug
