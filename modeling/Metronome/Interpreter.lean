import Metronome.Time
import Metronome.Value.Basic

namespace Metronome

structure Callback where
  name : String
  arguments : List Value

/-- A computation that asks the host for native functions on its way to a result. -/
inductive Native (α : Type) where
  | done (result : α)
  | nextCallback (resume : Option Callback → Native α)
  | giveBack (value : Value) (rest : Native α)
  | setTimeout (callback : Callback) (delay : Duration) (rest : Native α)
  | output (line : String) (rest : Native α)

structure Natives (ν : Type) where
  nextCallback : ν → Option Callback × ν
  giveBack : Value → ν → ν
  setTimeout : Callback → Duration → ν → ν
  output : String → ν → ν

namespace Native

def run {α ν : Type} (natives : Natives ν) : Native α → ν → α × ν
  | done result, host => (result, host)
  | nextCallback resume, host =>
    let (callback, host) := natives.nextCallback host
    (resume callback).run natives host
  | giveBack value rest, host => rest.run natives (natives.giveBack value host)
  | setTimeout callback delay rest, host => rest.run natives (natives.setTimeout callback delay host)
  | output line rest, host => rest.run natives (natives.output line host)

def map {α β : Type} (f : α → β) : Native α → Native β
  | done result => done (f result)
  | nextCallback resume => nextCallback fun callback => (resume callback).map f
  | giveBack value rest => giveBack value (rest.map f)
  | setTimeout callback delay rest => setTimeout callback delay (rest.map f)
  | output line rest => output line (rest.map f)

theorem run_map {α β ν : Type} (natives : Natives ν) (f : α → β) (computation : Native α)
    (host : ν) :
    (computation.map f).run natives host =
      (f (computation.run natives host).1, (computation.run natives host).2) := by
  induction computation generalizing host with
  | done result => rfl
  | nextCallback resume ih => exact ih _ _
  | giveBack value rest ih => exact ih _
  | setTimeout callback delay rest ih => exact ih _
  | output line rest ih => exact ih _

end Native

inductive NodeKind
  | call | block | other
  deriving DecidableEq, Repr

structure TopFrame where
  kind : NodeKind
  /-- The next step only takes it off the stack. -/
  done : Bool
  deriving DecidableEq, Repr

/-- A step that failed, and the byte of the text that it failed at, if that is known. -/
structure StepError where
  message : String
  offset : Option Nat
  deriving DecidableEq, Repr

structure Stepped (σ : Type) where
  state : σ
  error : Option StepError

def Stepped.map {σ τ : Type} (f : σ → τ) (stepped : Stepped σ) : Stepped τ :=
  ⟨f stepped.state, stepped.error⟩

class Interpreter (σ : Type) where
  step : σ → Native (Stepped σ)
  /-- The byte of the text at which the top of the stack stands. -/
  position : σ → Option Nat
  depth : σ → Nat
  top : σ → Option TopFrame
  /-- Whether the next step only tidies up after the current statement. -/
  isSafe : σ → Bool
  isComplete : σ → Bool

instance {σ τ : Type} [Interpreter σ] [Interpreter τ] : Interpreter (σ ⊕ τ) where
  step
    | .inl state => (Interpreter.step state).map (Stepped.map .inl)
    | .inr state => (Interpreter.step state).map (Stepped.map .inr)
  position := Sum.elim Interpreter.position Interpreter.position
  depth := Sum.elim Interpreter.depth Interpreter.depth
  top := Sum.elim Interpreter.top Interpreter.top
  isSafe := Sum.elim Interpreter.isSafe Interpreter.isSafe
  isComplete := Sum.elim Interpreter.isComplete Interpreter.isComplete

end Metronome
