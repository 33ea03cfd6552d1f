import Metronome.Value.Writing

namespace Metronome

inductive Operator
  | add | sub | mul | div | eq | ne | lt | le | gt | ge
  deriving DecidableEq, Repr

def Operator.symbol : Operator → String
  | add => "+"
  | sub => "-"
  | mul => "*"
  | div => "/"
  | eq => "=="
  | ne => "!="
  | lt => "<"
  | le => "<="
  | gt => ">"
  | ge => ">="

inductive OperandFault
  | mismatch (op : Operator) (left right : Value)
  | divisionByZero
  | notFinite

namespace Value

def kindName : Value → String
  | null => "null"
  | bool _ => "a boolean"
  | number _ => "a number"
  | text _ => "a string"
  | list _ => "a list"
  | object _ => "an object"

end Value

def OperandFault.message : OperandFault → String
  | mismatch op left right =>
    "cannot apply `" ++ op.symbol ++ "` to " ++ left.kindName ++ " and " ++ right.kindName
  | divisionByZero => "division by zero"
  | notFinite => "result is not a finite number"

namespace Value

/-- Equality of the `==` operator: numbers are compared as doubles, whatever they are. -/
def equal (left right : Value) : Bool :=
  match left.float?, right.float? with
  | some l, some r => l == r
  | _, _ => left.same right

def orderOfFloats (left right : Float) : Option Ordering :=
  if left < right then some .lt
  else if left == right then some .eq
  else if right < left then some .gt
  else none

/-- The order of two numbers, compared as doubles, or of two texts, by code points. -/
def order? : Value → Value → Option Ordering
  | number left, number right => orderOfFloats left.toFloat right.toFloat
  | text left, text right =>
    some (if left < right then .lt else if left = right then .eq else .gt)
  | _, _ => none

def comparisonHolds (op : Operator) (order : Ordering) : Bool :=
  match op with
  | .lt => order.isLT
  | .le => order.isLE
  | .gt => order.isGT
  | _ => order.isGE

/-- The whole result of an operator on whole numbers, if there is one that fits. The least number of 64
bits divided by minus one is left out of account: a program that comes to this division breaks off
without any result, and nothing is claimed of what stands here for it. -/
def exactResult (op : Operator) (left right : Int) : Except OperandFault (Option Int) :=
  let fitting (n : Int) := if Numeral.inSigned n then some n else none
  match op with
  | .add => .ok (fitting (left + right))
  | .sub => .ok (fitting (left - right))
  | .mul => .ok (fitting (left * right))
  | .div =>
    if right = 0 then .error .divisionByZero
    else .ok (if left % right = 0 then fitting (left / right) else none)
  | _ => .ok none

def finiteResult (result : Float) : Except OperandFault Value :=
  match ofFloat? result with
  | some value => .ok value
  | none => .error .notFinite

def floatResult (op : Operator) (left right : Value) : Except OperandFault Value :=
  match left.float?, right.float? with
  | some l, some r =>
    match op with
    | .add => finiteResult (l + r)
    | .sub => finiteResult (l - r)
    | .mul => finiteResult (l * r)
    | .div => if r == 0.0 then .error .divisionByZero else finiteResult (l / r)
    | _ => .error (.mismatch op left right)
  | _, _ => .error (.mismatch op left right)

/-- Arithmetic stays whole while the exact result is a whole number of 64 bits. -/
def arithmetic (op : Operator) (left right : Value) : Except OperandFault Value :=
  match left.signed?, right.signed? with
  | some l, some r =>
    match exactResult op l r with
    | .error fault => .error fault
    | .ok (some result) => .ok (ofInt result)
    | .ok none => floatResult op left right
  | _, _ => floatResult op left right

def apply (op : Operator) (left right : Value) : Except OperandFault Value :=
  match op with
  | .eq => .ok (bool (left.equal right))
  | .ne => .ok (bool (!left.equal right))
  | .lt | .le | .gt | .ge =>
    match left.order? right with
    | some order => .ok (bool (comparisonHolds op order))
    | none => .error (.mismatch op left right)
  | .add =>
    if left.isText || right.isText then .ok (text (left.display ++ right.display))
    else arithmetic op left right
  | .sub | .mul | .div => arithmetic op left right

end Value

end Metronome
