import Metronome.Interpreter

namespace Metronome.Playback

inductive Act where
  | nextCallback
  | giveBack (value : Value)
  | setTimeout (callback : Callback) (delay : Duration)
  | output (line : String)
  | fail (error : StepError)

/-- What an interpreter shows between two steps, and what the next one does. -/
structure Frame where
  position : Option Nat
  depth : Nat
  top : Option TopFrame
  safe : Bool
  acts : List Act

/-- A recording, the frame that is shown, and where to go on after the last one. -/
structure Tape where
  frames : Array Frame
  index : Nat
  jump : Option Nat

def perform {σ : Type} (state : σ) : List Act → Native (Stepped σ)
  | [] => .done ⟨state, none⟩
  | .nextCallback :: acts => .nextCallback fun _ => perform state acts
  | .giveBack value :: acts => .giveBack value (perform state acts)
  | .setTimeout callback delay :: acts => .setTimeout callback delay (perform state acts)
  | .output line :: acts => .output line (perform state acts)
  | .fail error :: _ => .done ⟨state, some error⟩

namespace Tape

def current? (tape : Tape) : Option Frame :=
  tape.frames[tape.index]?

def next (tape : Tape) : Tape :=
  let index := tape.index + 1
  { tape with index := if index < tape.frames.size then index else tape.jump.getD index }

instance : Interpreter Tape where
  step tape :=
    match tape.current? with
    | none => .done ⟨tape, none⟩
    | some frame => perform tape.next frame.acts
  position tape := tape.current?.bind (·.position)
  depth tape := (tape.current?.map (·.depth)).getD 0
  top tape := tape.current?.bind (·.top)
  isSafe tape := tape.current?.any (·.safe)
  isComplete tape := tape.current?.isNone

end Tape

end Metronome.Playback
