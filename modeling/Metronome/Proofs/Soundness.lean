import Metronome.Proofs.Operation
import Metronome.Proofs.Region

namespace Metronome

namespace Script

/-- A machine whose stack has its shape and whose code is the user's, but for polls. -/
structure Machine.Sound (lines : LineMap) (m : Machine) : Prop where
  stacked : Stacked m.stack
  bodied : Bodied m.stack
  stack : TameStack lines m.stack
  functions : TameFunctions lines m.functions

theorem Accepted.sound {loaded : Loaded} (accepted : Accepted loaded) :
    loaded.machine.Sound loaded.text.lineMap := by
  obtain ⟨program, same, body, functions⟩ := accepted.program
  rw [same]
  refine ⟨List.isChain_singleton _, fun _ _ _ => by simp [Machine.ofProgram], ?_, functions⟩
  intro frame member
  rw [List.mem_singleton.mp member]
  exact body

theorem Machine.lineOf_cons {m : Machine} {frame : Frame} {below : List Frame}
    (stack : m.stack = frame :: below) (lines : LineMap) :
    Debug.Cursor.lineOf m lines = frame.position.bind lines.userLine := by
  change (m.stack.head?.bind Frame.position).bind lines.userLine = _
  rw [stack]
  rfl

theorem load_any {source : List Char} {check : Loaded → Bool}
    (read : (load source).toOption.any check = true) :
    ∃ loaded, load source = .ok loaded ∧ check loaded = true := by
  cases same : load source with
  | ok loaded =>
    rw [same] at read
    exact ⟨loaded, rfl, read⟩
  | error problem =>
    rw [same] at read
    cases read

theorem Machine.Sound.step {lines : LineMap} {m : Machine} {answers : List Bool}
    {r : Machine.Result} (sound : m.Sound lines) (yields : m.step.Yields answers r)
    (fine : r.error = none) : r.state.Sound lines := by
  obtain ⟨shift, functions⟩ := Machine.step_shift yields fine
  exact ⟨shift.stacked sound.stacked, shift.bodied sound.stacked,
    shift.tame sound.functions sound.stack,
    functions ▸ sound.functions⟩

end Script

namespace Run

open Metronome.Debug (Breakpoints Controller Cursor)
open Metronome.Script (Accepted Loaded Machine Shift)

namespace Bridge

theorem giveBack_keeps (value : Value) (bridge : Bridge) :
    (bridge.giveBack value).queue = bridge.queue ∧
      (bridge.giveBack value).timers = bridge.timers ∧
      (bridge.giveBack value).response.seenEmptyQueue = bridge.response.seenEmptyQueue := by
  obtain ⟨response, warnings, same, seen⟩ := bridge.giveBack_eq value
  rw [same]
  exact ⟨rfl, rfl, seen⟩

theorem run_yields {α : Type} (computation : Native α) (bridge : Bridge) :
    ∃ answers, computation.Yields answers (computation.run natives bridge).1 ∧
      (computation.run natives bridge).2.queue.length + answers.count true = bridge.queue.length ∧
      (computation.run natives bridge).2.response.seenEmptyQueue =
        (bridge.response.seenEmptyQueue || answers.contains false) := by
  induction computation generalizing bridge with
  | done result => exact ⟨[], .done result, rfl, by simp [Native.run]⟩
  | nextCallback resume ih =>
    cases waiting : bridge.queue with
    | nil =>
      obtain ⟨answers, yields, queue, seen⟩ := ih none { bridge with
        response := { bridge.response with seenEmptyQueue := true }
        notices := bridge.notices.push (.polled none) }
      have asked : natives.nextCallback bridge = (none, { bridge with
          response := { bridge.response with seenEmptyQueue := true }
          notices := bridge.notices.push (.polled none) }) := by
        simp only [natives, nextCallback, waiting]
      simp only [Native.run, asked]
      exact ⟨false :: answers, .nextCallback none yields, by simpa [waiting] using queue,
        by simp [seen]⟩
    | cons callback queue =>
      let handed : Callback :=
        ⟨callback.name, callback.arguments.map (Value.truncate bridge.request.maxDepth)⟩
      obtain ⟨answers, yields, length, seen⟩ := ih (some handed) { bridge with
        queue, notices := bridge.notices.push (.polled (some handed)) }
      have asked : natives.nextCallback bridge = (some handed, { bridge with
          queue, notices := bridge.notices.push (.polled (some handed)) }) := by
        simp only [natives, nextCallback, waiting, handed]
      simp only [Native.run, asked]
      refine ⟨true :: answers, .nextCallback (some handed) yields, ?_, by simp [seen]⟩
      simp only [List.count_cons_self, List.length_cons] at length ⊢
      omega
  | giveBack value rest ih =>
    obtain ⟨answers, yields, queue, seen⟩ := ih (bridge.giveBack value)
    obtain ⟨sameQueue, -, sameSeen⟩ := giveBack_keeps value bridge
    rw [sameQueue] at queue
    rw [sameSeen] at seen
    exact ⟨answers, .giveBack value yields, queue, seen⟩
  | setTimeout callback delay rest ih =>
    obtain ⟨answers, yields, queue, seen⟩ := ih _
    exact ⟨answers, .setTimeout callback delay yields, queue, seen⟩
  | output line rest ih =>
    obtain ⟨answers, yields, queue, seen⟩ := ih (bridge.tell (.output line))
    exact ⟨answers, .output line yields, queue, seen⟩

end Bridge

namespace Progress

theorem Took.shift {request : Request} {p q : Progress Machine} (took : Took request p q)
    (fine : (p.stepped request).1.error = none) :
    ∃ answers, Shift p.live.program.functions p.live.program.stack answers q.live.program.stack ∧
      q.live.queue.length + answers.count true = p.live.queue.length ∧
      q.live.response.seenEmptyQueue =
        (p.live.response.seenEmptyQueue || answers.contains false) := by
  obtain ⟨answers, yields, queue, seen⟩ := Bridge.run_yields p.live.program.step
    ⟨request, p.live.queue, p.live.timers, p.live.response,
      (p.noteLine request.atMaxSpeed p.line).notices⟩
  refine ⟨answers, ?_, took.queue ▸ queue, took.response ▸ seen⟩
  rw [took.program]
  exact (Machine.step_shift yields fine).1

end Progress

structure Invariant (holds : LineMap → Machine → Prop) : Prop where
  accepted : ∀ {loaded : Loaded}, Accepted loaded → holds loaded.text.lineMap loaded.machine
  step : ∀ {lines : LineMap} {m : Machine} {answers : List Bool} {r : Machine.Result},
    holds lines m → m.step.Yields answers r → r.error = none → holds lines r.state

theorem sound_invariant : Invariant fun lines m => m.Sound lines :=
  ⟨fun accepted => accepted.sound, fun sound yields fine => sound.step yields fine⟩

def Operation.Given {φ : Type} (operation : Operation Machine φ) : Prop :=
  ∀ program lines began ended, operation = .start program lines began ended →
    ∃ loaded, Accepted loaded ∧ program = loaded.machine ∧ lines = loaded.text.lineMap

/-- The states of a scheduler that any operations lead to. -/
inductive Reachable {φ : Type} : Scheduler Machine φ → Prop where
  | new (settings : Settings) (finish : Option (FinishRule φ)) : Reachable (.new settings finish)
  | perform {s : Scheduler Machine φ} {operation : Operation Machine φ} (before : Reachable s)
      (given : operation.Given) : Reachable (s.perform operation)

theorem Reachable.performAll {φ : Type} {s : Scheduler Machine φ}
    {operations : List (Operation Machine φ)} (reachable : Reachable s)
    (given : ∀ operation ∈ operations, operation.Given) : Reachable (s.performAll operations) := by
  induction operations generalizing s with
  | nil => exact reachable
  | cons operation operations ih =>
    obtain ⟨first, rest⟩ := List.forall_mem_cons.mp given
    exact ih (.perform reachable first) rest

theorem Operation.Given.load {φ : Type} {source : List Char} {loaded : Loaded}
    (read : Script.load source = .ok loaded) (began ended : Instant) :
    (Operation.start loaded.machine loaded.text.lineMap began ended : Operation Machine φ).Given := by
  rintro program lines began ended ⟨⟩
  exact ⟨loaded, .polling read, rfl, rfl⟩

theorem Reachable.loading {φ : Type} {source : List Char} {loaded : Loaded}
    (read : Script.load source = .ok loaded) {s : Scheduler Machine φ} (reachable : Reachable s)
    {operations : List (Operation Machine φ)}
    (only : ∀ program lines began ended, .start program lines began ended ∈ operations →
      program = loaded.machine ∧ lines = loaded.text.lineMap) : Reachable (s.performAll operations) := by
  refine reachable.performAll fun operation member program lines began ended same => ?_
  subst same
  obtain ⟨rfl, rfl⟩ := only program lines began ended member
  exact ⟨loaded, .polling read, rfl, rfl⟩

namespace Invariant

variable {φ : Type} {holds : LineMap → Machine → Prop}

theorem judged (invariant : Invariant holds) {request : Request} {p q : Progress Machine}
    (fine : (p.stepped request).1.error = none) (took : Progress.Took request p q)
    (before : holds p.live.lines p.live.program) : holds q.live.lines q.live.program := by
  obtain ⟨answers, yields, -⟩ := Bridge.run_yields p.live.program.step
    ⟨request, p.live.queue, p.live.timers, p.live.response,
      (p.noteLine request.atMaxSpeed p.line).notices⟩
  rw [took.program, took.lines]
  exact invariant.step before yields fine

theorem pass (invariant : Invariant holds) {breakpoints : Breakpoints} {request : Request}
    {budget : Nat} {p q : Progress Machine} {ending : Option Ending}
    (passed : p.pass breakpoints request budget = (q, ending))
    (unfailed : ∀ error line, ending ≠ some (.failed error line))
    (before : holds p.live.lines p.live.program) : holds q.live.lines q.live.program := by
  have spec := Progress.pass_spec breakpoints request budget p
  rw [passed] at spec
  cases spec with
  | stopped => exact before
  | exhausted => exact before
  | complete => exact before
  | arrived _ _ after =>
    rw [after.program, after.lines]
    exact before
  | failed => exact absurd rfl (unfailed _ _)
  | stepped _ _ fine after => exact invariant.judged fine after.toTook before

theorem reaches (invariant : Invariant holds) {breakpoints : Breakpoints} {request : Request}
    {budget : Nat} {p q : Progress Machine}
    (reaches : Progress.Reaches breakpoints request budget p q)
    (before : holds p.live.lines p.live.program) : holds q.live.lines q.live.program :=
  reaches.keeps (fun p => holds p.live.lines p.live.program) before
    fun _ _ before goesOn => invariant.pass goesOn (fun _ _ => by simp) before

theorem burst (invariant : Invariant holds) {live : Live Machine} {breakpoints : Breakpoints}
    {request : Request} {budget : Nat} (before : holds live.lines live.program)
    (unfailed : ∀ error line, (live.burst breakpoints request budget).2 ≠ .failed error line) :
    holds (live.burst breakpoints request budget).1.live.lines
      (live.burst breakpoints request budget).1.live.program :=
  live.burst_keeps (fun p => holds p.live.lines p.live.program) before
    (fun _ _ _ passed fine before => invariant.pass passed fine before) unfailed

theorem given (invariant : Invariant holds) {operation : Operation Machine φ}
    (given : operation.Given) {program : Machine} {lines : LineMap} {began ended : Instant}
    (starts : operation = .start program lines began ended) : holds lines program := by
  obtain ⟨loaded, accepted, rfl, rfl⟩ := given program lines began ended starts
  exact invariant.accepted accepted

theorem bursts (invariant : Invariant holds) {s : Scheduler Machine φ}
    {operation : Operation Machine φ} {live : Live Machine} {request : Request}
    (before : ∀ live, s.live = some live → holds live.lines live.program)
    (given : operation.Given) (runs : Bursts s operation live request) :
    holds live.lines live.program := by
  cases runs with
  | @tick live _ _ _ here => exact before live here
  | @dispatch live _ _ here => exact before live here
  | start => exact invariant.given given rfl

theorem reachable (invariant : Invariant holds) {s : Scheduler Machine φ} (reachable : Reachable s)
    {live : Live Machine} (here : s.live = some live) : holds live.lines live.program := by
  induction reachable generalizing live with
  | new => cases here
  | perform before given ih =>
    cases Scheduler.perform_live here with
    | keeps before program lines =>
      rw [program, lines]
      exact ih before
    | starts same program lines =>
      rw [program, lines]
      exact invariant.given given same
    | bursts runs leaves =>
      rw [leaves.program, leaves.lines]
      exact invariant.burst (invariant.bursts (fun _ => ih) given runs) leaves.fine

end Invariant

theorem Progress.pass_sound {breakpoints : Breakpoints} {request : Request} {budget : Nat}
    {p q : Progress Machine} {ending : Option Ending}
    (passed : p.pass breakpoints request budget = (q, ending))
    (unfailed : ∀ error line, ending ≠ some (.failed error line))
    (sound : p.live.program.Sound p.live.lines) : q.live.program.Sound q.live.lines :=
  sound_invariant.pass passed unfailed sound

theorem Bursts.sound {φ : Type} {s : Scheduler Machine φ} {operation : Operation Machine φ}
    {live : Live Machine} {request : Request}
    (sound : ∀ live, s.live = some live → live.program.Sound live.lines)
    (given : operation.Given) (runs : Bursts s operation live request) :
    live.program.Sound live.lines :=
  sound_invariant.bursts sound given runs

theorem Reachable.sound {φ : Type} {s : Scheduler Machine φ} (reachable : Reachable s)
    {live : Live Machine} (here : s.live = some live) : live.program.Sound live.lines :=
  sound_invariant.reachable reachable here

theorem Reachable.silent {φ : Type} {s : Scheduler Machine φ} (reachable : Reachable s) :
    s.Silent := by
  induction reachable with
  | new =>
    intro live here
    cases here
  | perform _ _ ih => exact ih.perform _

end Run

end Metronome
