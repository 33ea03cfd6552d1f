import Metronome.Adapter.Service
import Metronome.CommandLine.Job
import Metronome.Front.Console

namespace Metronome.CommandLine

open Metronome.Front
open Metronome.Run

structure Finished where
  code : Nat
  output : List UInt8
  messages : String

def Finished.saying (output : String) : Finished :=
  ⟨0, Text.utf8Bytes output.toList, ""⟩

def Finished.failed (failure : Failure) : Finished :=
  ⟨1, [], failure.report⟩

def Failure.ofRead (error : Adapter.ReadError) : Failure :=
  .session error.message error.cause?

def startRun (settings : Settings) (program : Script.Loaded) (breakpoints : List Nat)
    (now : Instant) : Scheduler Script.Machine Unit :=
  ((Scheduler.new settings (some finishWhenIdle)).setBreakpoints breakpoints).start
    program.machine program.text.lineMap now now

/-- Runs a program at a prompt, for as many rounds as given at most. -/
def runJob (fuel : Nat) (settings : Settings) (program : Script.Loaded) (source : List Char)
    (breakpoints : List Nat) (input : List UInt8) : Finished :=
  let scheduler := startRun settings program breakpoints 0
  let (prompt, reason) := (Prompt.begin scheduler input 0).run fuel
  let shown := (Console.ofSource source).transcript prompt.entries.toList
  let output := Text.utf8Bytes (textOn .output shown).toList
  let messages := textOn .message shown
  if reason = some .unreadable then ⟨1, output, messages ++ Failure.input.report⟩
  else ⟨exitCode prompt.scheduler.outcome, output, messages⟩

def serveJob (files : Files) (settings : Settings) (input : List UInt8) : Finished :=
  let served := Adapter.serve (.new files settings) input 0
  match served.error with
  | none => ⟨0, served.session.output, ""⟩
  | some error => ⟨1, served.session.output, (Failure.ofRead error).report⟩

def run (fuel : Nat) (files : Files) (words : List String) (input : List UInt8) : Finished :=
  match read words with
  | .help => .saying helpText
  | .version => .saying versionText
  | .misuse => ⟨2, [], misuseText⟩
  | .run options =>
    match jobOf files options with
    | .error failure => .failed failure
    | .ok (.serve settings) => serveJob files settings input
    | .ok (.run settings program source breakpoints) =>
      runJob fuel settings program source breakpoints input

end Metronome.CommandLine
