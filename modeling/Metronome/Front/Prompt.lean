import Metronome.Decimal.Layout
import Metronome.Decimal.Reading
import Metronome.Run.Turn
import Metronome.Text.ShellWords
import Metronome.Text.Utf8

namespace Metronome.Front

open Metronome.Debug (Breakpoints Command)
open Metronome.Run

def question : String :=
  "\nCommands: (c)ontinue, (n)ext, (s)tep in, (o)ut, (b)reak <line>, (d)elete <line>, speed <x>, (q)uit\n> "

inductive Order where
  | go (command : Command)
  | quit
  | setBreakpoint (line : Option Nat)
  | removeBreakpoint (given : String)
  | setSpeed (speed : Option Float)
  | unbalanced
  | unknown (line : String)

def orderOf (line : String) : List String → Order
  | [] => .go .stepIn
  | [word] =>
    if word ∈ ["s", "step", "stepIn"] then .go .stepIn
    else if word ∈ ["c", "continue"] then .go .resume
    else if word ∈ ["n", "next", "stepOver"] then .go .stepOver
    else if word ∈ ["o", "out", "stepOut"] then .go .stepOut
    else if word ∈ ["q", "quit"] then .quit
    else .unknown line
  | [word, argument] =>
    if word ∈ ["b", "break"] then
      .setBreakpoint ((Decimal.unsigned? argument.toList).filter (0 < ·))
    else if word ∈ ["d", "delete"] then .removeBreakpoint argument
    else if word = "speed" then .setSpeed (Decimal.float? argument.toList)
    else .unknown line
  | _ => .unknown line

def readOrder (line : List Char) : Order :=
  let line := Text.trim line
  match Text.shellWords line with
  | none => .unbalanced
  | some words => orderOf (String.ofList line) words

inductive Entry where
  | told (event : HostEvent)
  | wrote (text : String)

variable {σ φ : Type} [Interpreter σ]

/-- What an order does to a scheduler, and what is written about it. A run that leaves rest, or
stops, needs no reply. -/
def obey (s : Scheduler σ φ) : Order → Scheduler σ φ × String
  | .go command => (s.apply command, "")
  | .quit => (s.stop, "")
  | .setBreakpoint (some line) =>
    (if s.breakpoints.contains line then s else s.toggleBreakpoint line,
      "🔴 Breakpoint set at line " ++ toString line ++ "\n")
  | .setBreakpoint none => (s, "❌ Invalid line number\n")
  | .removeBreakpoint given =>
    match (Decimal.unsigned? given.toList).filter s.breakpoints.contains with
    | some line =>
      (s.toggleBreakpoint line, "⚪ Breakpoint removed from line " ++ toString line ++ "\n")
    | none => (s, "❌ No breakpoint at " ++ given ++ "\n")
  | .setSpeed (some speed) =>
    let s := s.setSpeed speed
    (s, "⏱  Speed " ++ Decimal.plain.write s.clock.speed ++ "\n")
  | .setSpeed none => (s, "❌ Invalid speed\n")
  | .unbalanced => (s, "❌ Unbalanced quotes\n")
  | .unknown line => (s, "❓ Unknown command: " ++ line ++ "\n")

structure Prompt (σ φ : Type) where
  scheduler : Scheduler σ φ
  input : List UInt8
  /-- When its last round began, or the tick of that round fired. -/
  now : Instant
  entries : Array Entry

inductive PromptEnd
  | ended
  | stuck
  | quit
  | unreadable
  deriving DecidableEq, Repr

namespace Prompt

def collect (p : Prompt σ φ) : Prompt σ φ :=
  { p with
    scheduler := { p.scheduler with notices := #[] }
    entries := p.entries ++ (p.scheduler.notices.filterMap Notice.event?).map .told }

def begin (scheduler : Scheduler σ φ) (input : List UInt8) (now : Instant) : Prompt σ φ :=
  collect ⟨scheduler, input, now, #[]⟩

def write (p : Prompt σ φ) (text : String) : Prompt σ φ :=
  if text = "" then p else { p with entries := p.entries.push (.wrote text) }

/-- Obeys a line that was read; an empty one is the end of the input. -/
def reply (p : Prompt σ φ) (line : List UInt8) : Prompt σ φ × Option PromptEnd :=
  match Text.utf8Text? line with
  | none => (p, some .unreadable)
  | some line =>
    let order := if line = [] then .quit else readOrder line
    let (scheduler, text) := obey p.scheduler order
    let p := collect { p.write text with scheduler }
    match order with
    | .quit => (p, some .quit)
    | _ => (p, none)

def ask (p : Prompt σ φ) : Prompt σ φ × Option PromptEnd :=
  let (line, rest) := Text.splitLine p.input
  reply { p.write question with input := rest } line

def fire (p : Prompt σ φ) (tick : PendingTick) (now : Instant) : Prompt σ φ :=
  collect { p with scheduler := p.scheduler.onTick tick now now, now }

/-- One turn of the run at some time; a tick that is waited for may fire late. -/
def roundAt (p : Prompt σ φ) (now : Instant) (late : Duration) : Prompt σ φ × Option PromptEnd :=
  match p.scheduler.turn now with
  | (scheduler, .ended) => ({ p with scheduler, now }, some .ended)
  | (scheduler, .stuck) => ({ p with scheduler, now }, some .stuck)
  | (scheduler, .rest) => ask { p with scheduler, now }
  | (scheduler, .fire tick wait) => (fire { p with scheduler } tick (now + wait + late), none)

/-- One turn of a run that takes no time but for its waits. -/
def round (p : Prompt σ φ) : Prompt σ φ × Option PromptEnd :=
  p.roundAt p.now 0

def run : Nat → Prompt σ φ → Prompt σ φ × Option PromptEnd
  | 0, p => (p, none)
  | fuel + 1, p =>
    match p.round with
    | (p, some reason) => (p, some reason)
    | (p, none) => p.run fuel

end Prompt

end Metronome.Front
