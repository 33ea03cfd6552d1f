import Metronome.Interpreter
import Metronome.Source

namespace Metronome.Debug

structure Cursor where
  /-- The user's line, if the program is in the user's code. -/
  line : Option Nat
  depth : Nat
  top : Option TopFrame
  deriving DecidableEq, Repr

namespace Cursor

variable {σ : Type} [Interpreter σ]

def lineOf (program : σ) (lines : LineMap) : Option Nat :=
  (Interpreter.position program).bind lines.userLine

/-- The stack of a program, put down to a line that is already known. -/
def withLine (program : σ) (line : Option Nat) : Cursor :=
  ⟨line, Interpreter.depth program, Interpreter.top program⟩

def capture (program : σ) (lines : LineMap) : Cursor :=
  withLine program (lineOf program lines)

def inUserCode (cursor : Cursor) : Bool :=
  cursor.line.isSome

def isDone (cursor : Cursor) : Bool :=
  cursor.top.any (·.done)

def isKind (cursor : Cursor) (kind : NodeKind) : Bool :=
  cursor.top.any (·.kind == kind)

end Cursor

end Metronome.Debug
