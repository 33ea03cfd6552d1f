import Metronome.Script.LogicalLine
import Metronome.Script.Statement

namespace Metronome.Script

structure OpenBlock where
  opener : Opener
  place : Place
  body : List Node

def OpenBlock.isFunction (block : OpenBlock) : Bool :=
  match block.opener with
  | .function _ _ => true
  | _ => false

/-- What has been read of a program. -/
structure Draft where
  body : List Node
  blocks : List OpenBlock
  functions : List Function

def Draft.empty : Draft := ⟨[], [], []⟩

/-- A text that is no program, the line that shows it, counted from one, and the reason. -/
structure ParseError where
  line : Nat
  fault : Fault

def ParseError.message (error : ParseError) : String :=
  error.fault.message

def ParseError.text (error : ParseError) : String :=
  "line " ++ toString error.line ++ ": " ++ error.message

namespace Draft

def context (draft : Draft) : Context where
  inFunction := draft.blocks.any OpenBlock.isFunction
  atTop := draft.blocks.isEmpty
  defined name := (findFunction draft.functions name).isSome

def add (draft : Draft) (node : Node) : Draft :=
  match draft.blocks with
  | [] => { draft with body := draft.body ++ [node] }
  | block :: blocks =>
    { draft with blocks := { block with body := block.body ++ [node] } :: blocks }

def close (draft : Draft) : Except Fault Draft :=
  match draft.blocks with
  | [] => .error .unopenedEnd
  | block :: blocks =>
    let outer := { draft with blocks := blocks }
    match block.opener with
    | .loop condition => .ok (outer.add (.loop block.place condition block.body))
    | .branch condition => .ok (outer.add (.branch block.place condition block.body))
    | .function name parameters =>
      let function : Function := ⟨name, parameters, block.body, block.place.offset⟩
      .ok { outer with functions := outer.functions ++ [function] }

def addStatement (draft : Draft) (place : Place) : Statement → Except Fault Draft
  | .action action => .ok (draft.add (.action place action))
  | .poll => .ok (draft.add (.poll place))
  | .opening opener => .ok { draft with blocks := ⟨opener, place, []⟩ :: draft.blocks }
  | .closing => draft.close

def addContent (draft : Draft) (place : Place) (content : List Char) : Except Fault Draft := do
  match Token.scan content with
  | .error fault => throw (.lexical fault)
  | .ok tokens =>
    let statement ← Statement.ofTokens draft.context tokens
    draft.addStatement place statement

def addLine (draft : Draft) (line : LogicalLine) : Except ParseError Draft :=
  if isComment line.content then .ok draft
  else
    let place : Place := ⟨line.offset, line.first + 1⟩
    (draft.addContent place line.content).mapError (⟨place.line, ·⟩)

def addLines (draft : Draft) : List LogicalLine → Except ParseError Draft
  | [] => .ok draft
  | line :: lines =>
    match draft.addLine line with
    | .error error => .error error
    | .ok draft => draft.addLines lines

def finish (draft : Draft) : Except ParseError Program :=
  match draft.blocks with
  | [] => .ok ⟨draft.body, draft.functions⟩
  | block :: _ => .error ⟨block.place.line, .unclosed block.opener.keyword⟩

end Draft

def parse (text : List Char) : Except ParseError Program := do
  let draft ← Draft.empty.addLines (logicalLines text)
  draft.finish

end Metronome.Script
