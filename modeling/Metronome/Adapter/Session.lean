import Metronome.Adapter.Report
import Metronome.Adapter.Request
import Metronome.Adapter.Worker

/-!
A debug session: requests of a client are answered in order, and what the program does is told in
events. The program is started once a launch has succeeded and the client has said that it is
ready; from then on requests reach it as commands.
-/
namespace Metronome.Adapter

open Metronome.Debug (Command)
open Metronome.Run

structure Launch where
  path : String
  program : Script.Loaded
  stopOnEntry : Bool
  speed : Option Float

structure Session where
  files : Files
  settings : Settings
  launch : Option Launch
  configured : Bool
  breakpoints : List Nat
  worker : Option Worker
  line : Option Nat
  sent : Array Message

/-- The program that a client asks for, or why there is none. -/
def readLaunch (files : Files) (settings : Settings) (arguments : Value) : Except String Launch :=
  match (arguments.field? "program").bind Value.text? with
  | none => .error "missing `program`"
  | some path =>
    match files.text path with
    | .error error => .error ("cannot read " ++ path ++ ": " ++ error.message)
    | .ok source =>
      match Script.load source.toList with
      | .error error => .error (path ++ ": " ++ error.text)
      | .ok program =>
        .ok { path, program
              stopOnEntry :=
                ((arguments.field? "stopOnEntry").bind Value.bool?).getD settings.pauseOnEntry
              speed := (arguments.field? "speed").bind Value.float? }

namespace Session

def new (files : Files) (settings : Settings) : Session :=
  ⟨files, settings, none, false, [], none, none, #[]⟩

def send (s : Session) (content : Content) : Session :=
  { s with sent := s.sent.push ⟨s.sent.size + 1, content.kind, content⟩ }

def tell (s : Session) (event : HostEvent) : Session :=
  (eventsOf event).foldl send { s with line := lineAfter s.line event }

def follow (s : Session) (worker : Worker) : Session :=
  let (work, events) := worker.work.takeEvents
  events.foldl tell { s with worker := some { worker with work } }

def step (s : Session) (now : Instant) : Session :=
  match s.worker with
  | some worker => s.follow (worker.step now)
  | none => s

def readiness (s : Session) : Readiness :=
  match s.worker with
  | some worker => worker.readiness
  | none => .over

/-- Sends a command to the worker; without one it is lost. -/
def command (s : Session) (command : Command) : Session :=
  { s with worker := s.worker.map (·.send command) }

/-- Creates the worker, once there is a launch and the client is ready. -/
def spawn (s : Session) (now : Instant) : Session :=
  match s.configured, s.worker, s.launch with
  | true, none, some launch =>
    let settings :=
      { s.settings with
        pauseOnEntry := launch.stopOnEntry
        speed := launch.speed.getD s.settings.speed }
    { s with worker := some (.new settings s.breakpoints launch.program now) }
  | _, _, _ => s

/-- Lets the worker come to its end, after a stop command if there is to be one. -/
def shutDown (s : Session) (stop : Bool) (now : Instant) : Session :=
  let s := if stop then s.command .stop else s
  match s.worker with
  | some worker => { s.follow (worker.finish now) with worker := none }
  | none => s

def stackTrace (s : Session) : Value :=
  match s.launch, s.line with
  | some launch, some line => stackOf launch.path line
  | _, _ => emptyStack

/-- Does what a request asks for. The answer is the body of the response, or why it failed. -/
def perform (s : Session) (request : Request) (now : Instant) :
    Session × Except String (Option Value) :=
  match request with
  | .capabilities => (s, .ok (some capabilities))
  | .launch arguments =>
    match readLaunch s.files s.settings arguments with
    | .error reason => (s, .error reason)
    | .ok launch => (spawn { s with launch := some launch } now, .ok none)
  | .setBreakpoints lines =>
    (command { s with breakpoints := lines } (.setBreakpoints lines), .ok (some (verified lines)))
  | .configurationDone => (spawn { s with configured := true } now, .ok none)
  | .threads => (s, .ok (some threads))
  | .stackTrace => (s, .ok (some s.stackTrace))
  | .steer order => (s.command order, .ok (steerBody order))
  | .setSpeed (some speed) => (s.command (.setSpeed speed), .ok none)
  | .setSpeed none => (s, .error "missing numeric `speed`")
  | .disconnect => (s, .ok none)
  | .unsupported => (s, .error "unsupported request")

def responseOf (seq : Nat) (name : String) : Except String (Option Value) → Content
  | .ok body => .response seq true name none body
  | .error reason => .response seq false name (some reason) none

/-- Answers a request. The second part says whether the client is still there. -/
def handle (s : Session) (seq : Nat) (name : String) (arguments : Option Value) (now : Instant) :
    Session × Bool :=
  let request := Request.read name (arguments.getD .null)
  let (s, answer) := s.perform request now
  let s := s.send (responseOf seq name answer)
  match request with
  | .capabilities => (s.send (.event "initialized" none), true)
  | .disconnect => (s.shutDown true now, false)
  | _ => (s, true)

def receive (s : Session) (message : Message) (now : Instant) : Session × Bool :=
  match message.content with
  | .request command arguments => s.handle message.seq command arguments now
  | _ => (s, true)

end Session

end Metronome.Adapter
