import Metronome.Script.Program
import Metronome.Script.Token

namespace Metronome.Script

inductive Wanted
  | assign | value | variableName | functionName | parameterName
  deriving DecidableEq

def Wanted.describe : Wanted → String
  | assign => "`=`"
  | value => "a value"
  | variableName => "a variable name"
  | functionName => "a function name"
  | parameterName => "a parameter name"

/-- Why a line cannot stand in a program. -/
inductive Fault where
  | lexical (fault : TokenFault)
  | noStatement
  | unknownStatement (name : String)
  | expected (wanted : Wanted) (found : Option Token)
  | reservedValue (word : String)
  | excess (token : Token)
  | callInCondition
  | returnOutside
  | nestedFunction
  | duplicateFunction (name : String)
  | unopenedEnd
  | unclosed (keyword : String)

def Fault.message : Fault → String
  | lexical fault => fault.message
  | noStatement => "expected a statement"
  | unknownStatement name => "unknown statement `" ++ name ++ "`"
  | expected wanted none => "expected " ++ wanted.describe
  | expected wanted (some found) => "expected " ++ wanted.describe ++ ", found " ++ found.describe
  | reservedValue word => "unexpected `" ++ word ++ "`"
  | excess token => "unexpected " ++ token.describe
  | callInCondition => "`call` is not allowed here"
  | returnOutside => "`return` outside of a function"
  | nestedFunction => "functions can only be defined at the top level"
  | duplicateFunction name => "function `" ++ name ++ "` is already defined"
  | unopenedEnd => "`end` without an open block"
  | unclosed keyword => "`" ++ keyword ++ "` is missing its `end`"

def reservedWords : List String :=
  ["print", "set", "call", "return", "while", "if", "func", "end", "timeout", "poll", "true",
    "false", "null", "rem"]

def isReserved (word : String) : Bool :=
  reservedWords.contains word

abbrev Reader (α : Type) := List Token → Except Fault (α × List Token)

def readEnd : List Token → Except Fault Unit
  | [] => .ok ()
  | token :: _ => .error (.excess token)

def readAssign : Reader Unit
  | .assign :: rest => .ok ((), rest)
  | tokens => .error (.expected .assign tokens.head?)

def readName (wanted : Wanted) : Reader String
  | .word name :: rest =>
    if isReserved name then .error (.expected wanted (some (.word name))) else .ok (name, rest)
  | tokens => .error (.expected wanted tokens.head?)

def readPrimary : Reader Primary
  | .number value :: rest => .ok (.literal (.number value), rest)
  | .text value :: rest => .ok (.literal (.text value), rest)
  | .word name :: rest =>
    if name = "true" then .ok (.literal (.bool true), rest)
    else if name = "false" then .ok (.literal (.bool false), rest)
    else if name = "null" then .ok (.literal .null, rest)
    else if isReserved name then .error (.reservedValue name)
    else .ok (.variable name, rest)
  | tokens => .error (.expected .value tokens.head?)

def primaryOf (token : Token) : Except Fault Primary :=
  (readPrimary [token]).map (·.1)

def readArguments (tokens : List Token) : Except Fault (List Primary) :=
  tokens.mapM primaryOf

def readCall (tokens : List Token) : Except Fault Call := do
  let (name, rest) ← readName .functionName tokens
  let arguments ← readArguments rest
  return ⟨name, arguments⟩

def readExpr (tokens : List Token) : Except Fault (Expr × List Token) := do
  let (left, rest) ← readPrimary tokens
  match rest with
  | .operator op :: rest =>
    let (right, rest) ← readPrimary rest
    return (.binary left op right, rest)
  | rest => return (.primary left, rest)

def readRhs (tokens : List Token) : Except Fault Rhs := do
  match tokens with
  | .word "call" :: rest => return .call (← readCall rest)
  | tokens =>
    let (value, rest) ← readExpr tokens
    readEnd rest
    return .expr value

def readCondition (tokens : List Token) : Except Fault Expr := do
  match tokens with
  | .word "call" :: _ => throw .callInCondition
  | tokens =>
    let (value, rest) ← readExpr tokens
    readEnd rest
    return value

inductive Opener where
  | loop (condition : Expr)
  | branch (condition : Expr)
  | function (name : String) (parameters : List String)

def Opener.keyword : Opener → String
  | loop _ => "while"
  | branch _ => "if"
  | function _ _ => "func"

inductive Statement where
  | action (action : Action)
  | poll
  | opening (opener : Opener)
  | closing

/-- What decides about a line besides its tokens. -/
structure Context where
  inFunction : Bool
  atTop : Bool
  defined : String → Bool

def readFunction (context : Context) (tokens : List Token) : Except Fault Statement := do
  if !context.atTop then throw .nestedFunction
  let (name, rest) ← readName .functionName tokens
  if context.defined name then throw (.duplicateFunction name)
  let parameters ← rest.mapM fun token => (readName .parameterName [token]).map (·.1)
  return .opening (.function name parameters)

def readReturn (context : Context) (tokens : List Token) : Except Fault Statement := do
  if !context.inFunction then throw .returnOutside
  if tokens.isEmpty then return .action (.ret none)
  return .action (.ret (some (← readRhs tokens)))

def readSet (tokens : List Token) : Except Fault Statement := do
  let (name, rest) ← readName .variableName tokens
  let ((), rest) ← readAssign rest
  return .action (.set name (← readRhs rest))

def readTimeout (tokens : List Token) : Except Fault Statement := do
  let (callback, rest) ← readName .functionName tokens
  let (delay, rest) ← readPrimary rest
  let arguments ← readArguments rest
  return .action (.timeout callback delay arguments)

def readStatement (context : Context) (keyword : String) (tokens : List Token) :
    Except Fault Statement := do
  match keyword with
  | "print" => return .action (.print (← readRhs tokens))
  | "set" => readSet tokens
  | "call" => return .action (.call (← readCall tokens))
  | "return" => readReturn context tokens
  | "timeout" => readTimeout tokens
  | "poll" => readEnd tokens; return .poll
  | "while" => return .opening (.loop (← readCondition tokens))
  | "if" => return .opening (.branch (← readCondition tokens))
  | "func" => readFunction context tokens
  | "end" => readEnd tokens; return .closing
  | keyword => throw (.unknownStatement keyword)

def Statement.ofTokens (context : Context) : List Token → Except Fault Statement
  | .word keyword :: tokens => readStatement context keyword tokens
  | _ => .error .noStatement

end Metronome.Script
