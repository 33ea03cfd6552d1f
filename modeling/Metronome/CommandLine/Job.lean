import Metronome.CommandLine.Help
import Metronome.CommandLine.Options
import Metronome.Run.Scheduler
import Metronome.Script.Machine
import Metronome.Settings.Reading

namespace Metronome.CommandLine

open Metronome.Run

inductive Job where
  | serve (settings : Settings)
  | run (settings : Settings) (program : Script.Loaded) (source : List Char)
      (breakpoints : List Nat)

inductive Failure where
  | settings (error : Settings.LoadError)
  | noProgram
  | reading (path : String) (error : FileError)
  | parsing (path : String) (error : Script.ParseError)
  | input
  | session (message : String) (cause : Option String)

namespace Failure

def message : Failure → String
  | settings error => error.message
  | noProgram => "a program path is required unless --dap is given"
  | reading path _ => "reading " ++ path
  | parsing path _ => "parsing " ++ path
  | input => FileError.notText.message
  | session message _ => message

def cause? : Failure → Option String
  | settings (.unreadable _ error) => some error.message
  | settings _ => none
  | noProgram => none
  | reading _ error => some error.message
  | parsing _ error => some error.text
  | input => none
  | session _ cause => cause

def report (failure : Failure) : String :=
  let head := "Error: " ++ failure.message ++ "\n"
  match failure.cause? with
  | some cause => head ++ "\nCaused by:\n    " ++ cause ++ "\n"
  | none => head

end Failure

/-- The settings of the file, if one is named, in which the options override what they name. -/
def settingsOf (files : Files) (options : Options) : Except Settings.LoadError Settings := do
  let settings ← match options.config with
    | some path => Settings.load files path
    | none => .ok Settings.default
  Settings.checked { settings with
    speed := options.speed.getD settings.speed
    pauseOnEntry := options.stopOnEntry || settings.pauseOnEntry
    maxTicks := options.maxTicks.or settings.maxTicks }

def jobOf (files : Files) (options : Options) : Except Failure Job := do
  let settings ← (settingsOf files options).mapError .settings
  if options.serve then return .serve settings
  match options.program with
  | none => throw .noProgram
  | some path =>
    let source ← (files.text path).mapError (.reading path)
    let program ← (Script.load source.toList).mapError (.parsing path)
    return .run settings program source.toList options.breakpoints

def exitCode : Option Outcome → Nat
  | some (.failed _ _) => 1
  | some (.timedOut _) => 2
  | _ => 0

end Metronome.CommandLine
