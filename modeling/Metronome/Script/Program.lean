import Metronome.Value.Operators

namespace Metronome.Script

/-- An operand. There is no call among them, nor in an `Expr`, so evaluation has no error for a call
that it comes upon. -/
inductive Primary where
  | literal (value : Value)
  | variable (name : String)

inductive Expr where
  | primary (operand : Primary)
  | binary (left : Primary) (op : Operator) (right : Primary)

structure Call where
  name : String
  arguments : List Primary

/-- Where the value of a statement comes from. Only here a call stands for a value, and the statement
starts it as a step of its own. -/
inductive Rhs where
  | expr (value : Expr)
  | call (call : Call)

inductive Action where
  | print (value : Rhs)
  | set (name : String) (value : Rhs)
  | call (call : Call)
  | ret (value : Option Rhs)
  | timeout (callback : String) (delay : Primary) (arguments : List Primary)

/-- Where a statement starts: its byte in the text, and its line, counted from one. -/
structure Place where
  offset : Nat
  line : Nat
  deriving DecidableEq, Repr

inductive Node where
  | action (place : Place) (action : Action)
  | poll (place : Place)
  | loop (place : Place) (condition : Expr) (body : List Node)
  | branch (place : Place) (condition : Expr) (body : List Node)

def Node.place : Node → Place
  | action place _ => place
  | poll place => place
  | loop place _ _ => place
  | branch place _ _ => place

structure Function where
  name : String
  parameters : List String
  body : List Node
  offset : Nat

structure Program where
  body : List Node
  functions : List Function

def findFunction (functions : List Function) (name : String) : Option Function :=
  functions.find? (·.name == name)

end Metronome.Script
