namespace Metronome.Debug

/-- The depths with a call, the deepest first, and the depth after the last step. -/
structure CallDepths where
  marks : List Nat
  current : Nat
  deriving DecidableEq, Repr

namespace CallDepths

def empty : CallDepths := ⟨[], 0⟩

/-- Takes in the stack after a step: marks deeper than it are dropped. The depth is that of a stack, which
a script's machine keeps within its limit. -/
def record (depths : CallDepths) (depth : Nat) (call : Bool) : CallDepths :=
  let kept := depths.marks.dropWhile (depth < ·)
  ⟨if call && kept.head? != some depth then depth :: kept else kept, depth⟩

def seenAt (depths : CallDepths) (depth : Nat) : Bool :=
  depths.marks.contains depth

/-- The deepest call below the current frame, or zero. -/
def stepOutTarget (depths : CallDepths) : Nat :=
  (depths.marks.find? fun depth => 1 ≤ depth && depth < depths.current).getD 0

end CallDepths

end Metronome.Debug
