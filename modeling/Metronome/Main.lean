import Metronome.CommandLine.Batch

namespace Metronome.CommandLine

open Metronome.Adapter (Message ReadError Session)
open Metronome.Front
open Metronome.Run

def fileErrorOf : IO.Error → FileError
  | .noFileOrDirectory _ _ _ => .notFound
  | .inappropriateType _ code details =>
    if code = 21 then .isDirectory else if code = 20 then .notDirectory else .other details
  | .invalidArgument _ code details => if code = 36 then .nameTooLong else .other details
  | error => .other (toString error)

def readBytes (path : String) : IO (Except FileError ByteArray) := do
  if path.contains '\x00' then return .error .zeroInName
  try
    return .ok (← IO.FS.readBinFile path)
  catch error =>
    return .error (fileErrorOf error)

def filesAt (paths : List String) : IO Files := do
  let contents ← paths.mapM fun path => return (path, ← readBytes path)
  return fun path => (contents.lookup path).getD (.error .notFound)

partial def readLine (input : IO.FS.Stream) (held : Array UInt8) : IO (List UInt8) := do
  let byte ← input.read 1
  match byte.toList with
  | [10] => return (held.push 10).toList
  | [byte] => readLine input (held.push byte)
  | _ => return held.toList

def sleep (wait : Duration) : IO Unit := do
  if 0 < wait then
    IO.sleep (min ((wait + 999999) / Duration.perMillisecond) (Nat.pow 2 32 - 1)).toUInt32

def present (shown : Shown) : IO Unit := do
  let stream ← match shown.stream with
    | .output => IO.getStdout
    | .message => IO.getStderr
  stream.putStr shown.text
  stream.flush

def showEntries {σ φ : Type} (console : Console) (prompt : Prompt σ φ) : IO (Prompt σ φ) := do
  (console.transcript prompt.entries.toList).forM present
  return { prompt with entries := #[] }

partial def converse (console : Console) (prompt : Prompt Script.Machine Unit) :
    IO (Prompt Script.Machine Unit × PromptEnd) := do
  let prompt ← showEntries console prompt
  match prompt.scheduler.turn (← IO.monoNanosNow) with
  | (scheduler, .ended) => return ({ prompt with scheduler }, .ended)
  | (scheduler, .stuck) => return ({ prompt with scheduler }, .stuck)
  | (scheduler, .fire tick wait) =>
    sleep wait
    converse console (Prompt.fire { prompt with scheduler } tick (← IO.monoNanosNow))
  | (scheduler, .rest) =>
    present ⟨.message, question⟩
    let line ← readLine (← IO.getStdin) #[]
    match Prompt.reply { prompt with scheduler } line with
    | (prompt, none) => converse console prompt
    | (prompt, some reason) => return (← showEntries console prompt, reason)

def fail (failure : Failure) : IO UInt32 := do
  IO.eprint failure.report
  return 1

def runAtPrompt (settings : Settings) (program : Script.Loaded) (source : List Char)
    (breakpoints : List Nat) : IO UInt32 := do
  let now ← IO.monoNanosNow
  let scheduler := startRun settings program breakpoints now
  let (prompt, reason) ← converse (.ofSource source) (.begin scheduler [] now)
  if reason = .unreadable then fail .input
  else return (exitCode prompt.scheduler.outcome).toUInt32

partial def nextMessage (input : IO.FS.Stream) (header : List UInt8) :
    IO (Except ReadError (Option Message)) := do
  let line ← readLine input #[]
  let header := header ++ line
  match Adapter.readHeader none header with
  | .error error => return .error error
  | .ok none => if line.isEmpty then return .ok none else nextMessage input header
  | .ok (some (length, _)) =>
    let body ← input.read length.toUSize
    if body.size < length then return .error .truncated
    match Message.decode? body.toList with
    | some message => return .ok (some message)
    | none => return .error .malformed

/-- Lets a session see the file that a message asks it to launch. -/
def withFiles (session : Session) (message : Message) : IO Session := do
  match message.content with
  | .request "launch" (some arguments) =>
    match (arguments.field? "program").bind Value.text? with
    | some path => return { session with files := ← filesAt [path] }
    | none => return session
  | _ => return session

def writeMessages (session : Session) (first : Nat) : IO Nat := do
  let output ← IO.getStdout
  for message in session.sent.extract first session.sent.size do
    output.write message.encode.toByteArray
  output.flush
  return session.sent.size

abbrev Reader := Task (Except IO.Error (Except ReadError (Option Message)))

partial def converseWithClient (input : IO.FS.Stream) (reader : Reader) (session : Session)
    (written : Nat) : IO UInt32 := do
  let written ← writeMessages session written
  let now ← IO.monoNanosNow
  if ← IO.hasFinished reader then
    match ← IO.ofExcept reader.get with
    | .error error => fail (.ofRead error)
    | .ok none =>
      let _ ← writeMessages (session.shutDown false now) written
      return 0
    | .ok (some message) =>
      match (← withFiles session message).receive message now with
      | (session, true) =>
        converseWithClient input (← IO.asTask (nextMessage input [])) session written
      | (session, false) =>
        let _ ← writeMessages session written
        return 0
  else
    match session.readiness with
    | .now => converseWithClient input reader (session.step now) written
    | .due time =>
      if time ≤ now then converseWithClient input reader (session.step now) written
      else
        sleep (min (time - now) Duration.perMillisecond)
        converseWithClient input reader session written
    | .blocked | .over =>
      let _ ← IO.wait reader
      converseWithClient input reader session written

def serveClient (settings : Settings) : IO UInt32 := do
  let input ← IO.getStdin
  let reader ← IO.asTask (nextMessage input [])
  converseWithClient input reader (.new (fun _ => .error .notFound) settings) 0

def perform (words : List String) : IO UInt32 := do
  match read words with
  | .help =>
    IO.print helpText
    return 0
  | .version =>
    IO.print versionText
    return 0
  | .misuse =>
    IO.eprint misuseText
    return 2
  | .run options =>
    let files ← filesAt (options.config.toList ++ options.program.toList)
    match jobOf files options with
    | .error failure => fail failure
    | .ok (.serve settings) => serveClient settings
    | .ok (.run settings program source breakpoints) =>
      runAtPrompt settings program source breakpoints

end Metronome.CommandLine

def main (words : List String) : IO UInt32 :=
  Metronome.CommandLine.perform words
