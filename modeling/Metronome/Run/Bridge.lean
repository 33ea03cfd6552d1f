import Metronome.Run.Event
import Metronome.Run.Timers
import Metronome.Value.Depth

namespace Metronome.Run

open Metronome.Debug (Signals)

def lateReturnWarning : String :=
  "WARNING: Function passed to onEvent() has taken too long - the return value was ignored."

def lateReturnHint : String :=
  "  (try moving the speed slider to its maximum value)"

structure Request where
  /-- A caller waits for the return value of a callback. -/
  untilReturn : Bool
  atMaxSpeed : Bool
  maxDepth : Nat
  now : Instant

structure Response where
  seenEmptyQueue : Bool
  seenReturn : Bool
  lastReturn : Option Value

def Response.fresh : Response := ⟨false, false, none⟩

def Response.signals (response : Response) (request : Request) : Signals :=
  ⟨response.seenEmptyQueue, response.seenReturn, request.untilReturn⟩

structure Bridge where
  request : Request
  queue : Queue
  timers : Timers
  response : Response
  notices : Array Notice

namespace Bridge

def tell (bridge : Bridge) (event : HostEvent) : Bridge :=
  { bridge with notices := bridge.notices.push (.told event) }

/-- Hands out the next callback, its arguments cut off at the greatest depth. -/
def nextCallback (bridge : Bridge) : Option Callback × Bridge :=
  match bridge.queue with
  | [] =>
    (none, { bridge with
      response := { bridge.response with seenEmptyQueue := true }
      notices := bridge.notices.push (.polled none) })
  | callback :: queue =>
    let handed : Callback :=
      ⟨callback.name, callback.arguments.map (Value.truncate bridge.request.maxDepth)⟩
    (some handed, { bridge with queue, notices := bridge.notices.push (.polled (some handed)) })

/-- Keeps a return value that leaves the queue empty, for only such a one can belong to a caller
who waits. -/
def keepReturn (bridge : Bridge) (value : Value) : Bridge :=
  if bridge.queue.isEmpty then
    { bridge with
      response := { bridge.response with seenReturn := true, lastReturn := some value } }
  else bridge

/-- Drops a return value that nobody waits for, with a warning unless it is null. -/
def dropReturn (bridge : Bridge) : Bridge :=
  match bridge.response.lastReturn with
  | none => bridge
  | some value =>
    let dropped := { bridge with response := { bridge.response with lastReturn := none } }
    if value.isNull then dropped
    else
      let warned := dropped.tell (.output lateReturnWarning)
      if bridge.request.atMaxSpeed then warned else warned.tell (.output lateReturnHint)

def giveBack (value : Value) (bridge : Bridge) : Bridge :=
  let kept := bridge.keepReturn value
  if bridge.request.untilReturn then kept else kept.dropReturn

theorem giveBack_eq (value : Value) (bridge : Bridge) :
    ∃ response, ∃ warnings : List String,
      bridge.giveBack value = { bridge with
        response
        notices := bridge.notices ++ (warnings.map fun line => .told (.output line)).toArray } ∧
      response.seenEmptyQueue = bridge.response.seenEmptyQueue := by
  obtain ⟨kept, same, seen⟩ : ∃ response, bridge.keepReturn value = { bridge with response } ∧
      response.seenEmptyQueue = bridge.response.seenEmptyQueue := by
    unfold keepReturn
    split
    · exact ⟨_, rfl, rfl⟩
    · exact ⟨_, rfl, rfl⟩
  unfold giveBack
  rw [same]
  dsimp only
  split
  · exact ⟨kept, [], by simp, seen⟩
  · unfold dropReturn
    split
    · exact ⟨kept, [], by simp, seen⟩
    · dsimp only
      split
      · exact ⟨{ kept with lastReturn := none }, [], by simp, seen⟩
      · split
        · exact ⟨{ kept with lastReturn := none }, [lateReturnWarning], by simp [tell], seen⟩
        · exact ⟨{ kept with lastReturn := none }, [lateReturnWarning, lateReturnHint],
            by simp [tell, ← Array.toList_inj], seen⟩

def setTimeout (callback : Callback) (delay : Duration) (bridge : Bridge) : Bridge :=
  { bridge with timers := bridge.timers.register bridge.request.now delay callback }

def natives : Natives Bridge where
  nextCallback
  giveBack
  setTimeout
  output line bridge := bridge.tell (.output line)

end Bridge

end Metronome.Run
