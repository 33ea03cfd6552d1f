import Metronome.Interpreter
import Metronome.Script.Program

namespace Metronome.Script

/-- How far a statement has come. -/
inductive Phase
  | ready
  | waiting
  | done
  deriving DecidableEq

inductive CallState where
  | ready (arguments : List Value)
  | running
  | returned (value : Value)

inductive Frame where
  /-- The statements still to run, and where the block stands when there is none. -/
  | block (rest : List Node) (origin : Option Nat)
  | action (place : Place) (action : Action) (phase : Phase)
  | poll (place : Place) (phase : Phase)
  | loop (place : Place) (condition : Expr) (body : List Node) (done : Bool)
  | branch (place : Place) (condition : Expr) (body : List Node) (phase : Phase)
  | call (name : String) (offset : Option Nat) (state : CallState)

namespace Frame

/-- The next step takes the frame off the stack. -/
def isDone : Frame → Bool
  | block rest _ => rest.isEmpty
  | action _ _ phase => phase == .done
  | poll _ phase => phase == .done
  | loop _ _ _ done => done
  | branch _ _ _ phase => phase == .done
  | call _ _ (.returned _) => true
  | call _ _ _ => false

def position : Frame → Option Nat
  | block (node :: _) _ => some node.place.offset
  | block [] origin => origin
  | action place _ _ => some place.offset
  | poll place _ => some place.offset
  | loop place _ _ _ => some place.offset
  | branch place _ _ _ => some place.offset
  | call _ offset _ => offset

def kind : Frame → NodeKind
  | block _ _ => .block
  | call _ _ _ => .call
  | _ => .other

def isBlock : Frame → Bool
  | block _ _ => true
  | _ => false

def ofNode : Node → Frame
  | .action place act => action place act .ready
  | .poll place => poll place .ready
  | .loop place condition body => loop place condition body false
  | .branch place condition body => branch place condition body .ready

end Frame

end Metronome.Script
