import Metronome.Front.Prompt
import Metronome.Text.Lines

namespace Metronome.Front

open Metronome.Debug (PauseState StopReason)
open Metronome.Run (HostEvent)

inductive Stream
  | output | message
  deriving DecidableEq, Repr

structure Shown where
  stream : Stream
  text : String
  deriving DecidableEq, Repr

def reasonTitle : StopReason → String
  | .entry => "Entry"
  | .breakpoint => "Breakpoint"
  | .step => "Step"
  | .pause => "Pause"

structure Console where
  lines : List String

namespace Console

def ofSource (source : List Char) : Console :=
  ⟨(Text.textLines source).map String.ofList⟩

def stopText (console : Console) (reason : StopReason) (state : PauseState) : String :=
  match state.line with
  | none => "\n⏸  Paused (" ++ reasonTitle reason ++ ")\n"
  | some line =>
    let place := "\n🔍 Stopped at line " ++ toString line ++ " (" ++ reasonTitle reason ++
      ", depth " ++ toString (state.depth.getD 0) ++ ")\n"
    let source := if line = 0 then none else console.lines[line - 1]?
    match source with
    | some source => place ++ "    " ++ source ++ "\n"
    | none => place

def errorText (line : Option Nat) (message : String) : String :=
  match line with
  | some line => "❌ Error on line " ++ toString line ++ ": " ++ message ++ "\n"
  | none => "❌ Error: " ++ message ++ "\n"

def shown? (console : Console) : HostEvent → Option Shown
  | .output line => some ⟨.output, line ++ "\n"⟩
  | .annotated line message => some ⟨.message, errorText line message⟩
  | .stopped reason state => some ⟨.message, console.stopText reason state⟩
  | .finished outcome => some ⟨.message, "\n✅ Program finished: " ++ outcome.text ++ "\n"⟩
  | .selected _ | .pauseChanged _ => none

def transcript (console : Console) (entries : List Entry) : List Shown :=
  entries.filterMap fun
    | .told event => console.shown? event
    | .wrote text => some ⟨.message, text⟩

end Console

def textOn (stream : Stream) (shown : List Shown) : String :=
  String.join ((shown.filter (·.stream == stream)).map (·.text))

end Metronome.Front
