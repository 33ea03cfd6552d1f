import Metronome.Proofs.Requests
import Metronome.Proofs.Soundness
import Metronome.Proofs.Transcript

namespace Metronome

structure Heard where
  printed : List String
  asked : Bool

def Heard.nothing : Heard := ⟨[], false⟩

def Heard.natives : Natives Heard where
  nextCallback heard := (none, { heard with asked := true })
  giveBack _ heard := heard
  setTimeout _ _ heard := heard
  output line heard := { heard with printed := heard.printed ++ [line] }

namespace Native

def Quiet {α : Type} : Native α → Prop
  | done _ => True
  | nextCallback resume => (resume none).Quiet
  | giveBack _ _ => False
  | setTimeout _ _ rest => rest.Quiet
  | output _ rest => rest.Quiet

theorem Plain.quiet {α : Type} {computation : Native α} (plain : computation.Plain) :
    computation.Quiet := by
  induction computation with
  | done => trivial
  | nextCallback => exact plain.elim
  | giveBack => exact plain.elim
  | setTimeout callback delay rest ih => exact ih plain
  | output line rest ih => exact ih plain

theorem run_heard_nextCallback {α : Type} (resume : Option Callback → Native α) (heard : Heard) :
    (nextCallback resume).run Heard.natives heard =
      (resume none).run Heard.natives ⟨heard.printed, true⟩ := rfl

theorem run_heard_output {α : Type} (line : String) (rest : Native α) (heard : Heard) :
    (output line rest).run Heard.natives heard =
      rest.run Heard.natives ⟨heard.printed ++ [line], heard.asked⟩ := rfl

theorem run_heard {α : Type} (computation : Native α) (heard : Heard) :
    computation.run Heard.natives heard =
      ((computation.run Heard.natives .nothing).1,
        ⟨heard.printed ++ (computation.run Heard.natives .nothing).2.printed,
          heard.asked || (computation.run Heard.natives .nothing).2.asked⟩) := by
  induction computation generalizing heard with
  | done result => simp [run, Heard.nothing]
  | nextCallback resume ih =>
    rw [run_heard_nextCallback, run_heard_nextCallback, ih, ih none ⟨Heard.nothing.printed, true⟩]
    simp [Heard.nothing]
  | giveBack value rest ih => exact ih heard
  | setTimeout callback delay rest ih => exact ih heard
  | output line rest ih =>
    rw [run_heard_output, run_heard_output, ih,
      ih ⟨Heard.nothing.printed ++ [line], Heard.nothing.asked⟩]
    simp [Heard.nothing]

end Native

namespace Script

def Unasked (stack : List Frame) : Prop :=
  ∀ place, Frame.poll place .waiting ∉ stack

theorem Unasked.cons {frame : Frame} {below : List Frame} :
    Unasked (frame :: below) ↔ (∀ place, frame ≠ .poll place .waiting) ∧ Unasked below := by
  simp only [Unasked, List.mem_cons, not_or, forall_and]
  exact ⟨fun both => ⟨fun place same => both.1 place same.symm, both.2⟩,
    fun both => ⟨fun place same => both.1 place same.symm, both.2⟩⟩

theorem Unasked.handOver {below rest : List Frame} {name : String} {origin : Option Nat}
    {state : CallState} {value : Value} (unasked : Unasked below)
    (found : toCall below = .call name origin state :: rest) :
    Unasked (.call name origin (.returned value) :: rest) := by
  refine Unasked.cons.mpr ⟨by simp, fun place member => unasked place ?_⟩
  apply (List.dropWhile_suffix _).mem
  rw [show List.dropWhile _ below = toCall below from rfl, found]
  exact List.mem_cons_of_mem _ member

theorem Shift.unasked {functions : List Function} {stack after : List Frame}
    {answers : List Bool} (shift : Shift functions stack answers after)
    (alone : true ∉ answers) (unasked : Unasked stack) : Unasked after := by
  cases shift with
  | idle => exact unasked
  | handOn returns found => exact (Unasked.cons.mp (Unasked.cons.mp unasked).2).2.handOver found
  | giveUp unfinished noCall returns found => exact (Unasked.cons.mp unasked).2.handOver found
  | pollSome => simp at alone
  | @enter node =>
    have ready : ∀ place, Frame.ofNode node ≠ .poll place .waiting := by
      intro place
      cases node <;> simp [Frame.ofNode]
    simp only [Unasked.cons] at unasked ⊢
    exact ⟨ready, by simp, unasked.2⟩
  | _ =>
    simp only [Unasked.cons] at unasked ⊢
    simp [unasked]

namespace Machine

theorem step_quiet {m : Machine} (unasked : Unasked m.stack) : m.step.Quiet := by
  cases m.asks with
  | nothing plain => exact plain.quiet
  | callback stack unfinished =>
    rw [step_polling stack unfinished]
    trivial
  | @taking name offset value place below stack =>
    rw [stack] at unasked
    exact absurd (by simp) (unasked place)

def stepAlone (m : Machine) : Result × Heard :=
  m.step.run Heard.natives .nothing

end Machine

end Script

namespace Run

open Metronome.Script (Machine Shift Unasked)

theorem Bridge.run_nextCallback {α : Type} (resume : Option Callback → Native α) {bridge : Bridge}
    (empty : bridge.queue = []) :
    (Native.nextCallback resume).run natives bridge =
      (resume none).run natives { bridge with
        response := { bridge.response with seenEmptyQueue := true }
        notices := bridge.notices.push (.polled none) } := by
  simp only [Native.run, natives, nextCallback, empty]

theorem Bridge.run_quiet {α : Type} {computation : Native α} (bridge : Bridge)
    (quiet : computation.Quiet) (empty : bridge.queue = []) :
    (computation.run natives bridge).1 = (computation.run Heard.natives .nothing).1 ∧
      (computation.run natives bridge).2.queue = [] ∧
      (computation.run natives bridge).2.response.seenEmptyQueue =
        (bridge.response.seenEmptyQueue || (computation.run Heard.natives .nothing).2.asked) ∧
      transcript (computation.run natives bridge).2.notices =
        transcript bridge.notices ++
          (computation.run Heard.natives .nothing).2.printed.map .output := by
  induction computation generalizing bridge with
  | done result => simp [Native.run, Heard.nothing, empty]
  | nextCallback resume ih =>
    obtain ⟨result, queue, seen, told⟩ := ih none { bridge with
      response := { bridge.response with seenEmptyQueue := true }
      notices := bridge.notices.push (.polled none) } quiet empty
    rw [run_nextCallback resume empty, Native.run_heard_nextCallback,
      Native.run_heard (resume none) ⟨_, true⟩]
    refine ⟨result, queue, by simp [seen], ?_⟩
    rw [told, transcript_push]
    simp [Notice.recorded?, Heard.nothing]
  | giveBack value rest ih => exact quiet.elim
  | setTimeout callback delay rest ih =>
    obtain ⟨result, queue, seen, told⟩ := ih (bridge.setTimeout callback delay) quiet empty
    exact ⟨result, queue, seen, told⟩
  | output line rest ih =>
    obtain ⟨result, queue, seen, told⟩ := ih (bridge.tell (.output line)) quiet empty
    rw [show (Native.output line rest).run natives bridge =
      rest.run natives (bridge.tell (.output line)) from rfl, Native.run_heard_output,
      Native.run_heard rest ⟨_ ++ [line], _⟩]
    refine ⟨result, queue, by rw [seen]; rfl, ?_⟩
    rw [told, tell, transcript_push]
    simp [Notice.recorded?, HostEvent.isRecorded, Heard.nothing]

theorem Bridge.run_timers {α : Type} (computation : Native α) (bridge : Bridge) :
    (computation.run natives bridge).2.timers = bridge.timers ∨
      bridge.timers.nextNumber < (computation.run natives bridge).2.timers.nextNumber := by
  induction computation generalizing bridge with
  | done result => exact .inl rfl
  | nextCallback resume ih =>
    have same : (natives.nextCallback bridge).2.timers = bridge.timers := by
      simp only [natives, nextCallback]
      split <;> rfl
    have later := ih (natives.nextCallback bridge).1 (natives.nextCallback bridge).2
    rwa [same] at later
  | giveBack value rest ih =>
    have later := ih (bridge.giveBack value)
    rwa [(giveBack_keeps value bridge).2.1] at later
  | setTimeout callback delay rest ih =>
    have one_more : (bridge.setTimeout callback delay).timers.nextNumber =
        bridge.timers.nextNumber + 1 := rfl
    right
    rcases ih (bridge.setTimeout callback delay) with same | more
    · rw [show (Native.setTimeout callback delay rest).run natives bridge =
        rest.run natives (bridge.setTimeout callback delay) from rfl, same, one_more]
      omega
    · rw [one_more] at more
      exact Nat.lt_of_succ_lt more
  | output line rest ih => exact ih (bridge.tell (.output line))

end Run

end Metronome
