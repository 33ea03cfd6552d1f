import Metronome.Debug.Stepping

namespace Metronome.Front

open Metronome.Debug (Command)

inductive Receipt where
  | command (command : Command)
  /-- Nothing came for as long as the loop waits. -/
  | nothing
  /-- Nothing is left, and nothing will come. -/
  | closed

structure Inbox where
  waiting : List Command
  isOpen : Bool

namespace Inbox

def empty : Inbox := ⟨[], true⟩

def put (inbox : Inbox) (command : Command) : Inbox :=
  if inbox.isOpen then { inbox with waiting := inbox.waiting ++ [command] } else inbox

def close (inbox : Inbox) : Inbox :=
  { inbox with isOpen := false }

def take (inbox : Inbox) : Receipt × Inbox :=
  match inbox.waiting with
  | command :: waiting => (.command command, { inbox with waiting })
  | [] => (if inbox.isOpen then .nothing else .closed, inbox)

end Inbox

end Metronome.Front
