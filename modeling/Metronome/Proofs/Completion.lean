import Metronome.Proofs.Conservation
import Metronome.Proofs.Housed
import Metronome.Proofs.Pace
import Metronome.Proofs.StepIn
import Metronome.Proofs.Transcript
import Metronome.Proofs.Wrapping

/-!
Completion of idle runs. A run is completed when its program has asked for a callback in vain and no
timer is set; if the user's text does not ask for callbacks itself, the program then stands in the
generated loop, and nothing of the user's is left to do.
-/
namespace Metronome

namespace Script

/-- A machine that takes callbacks in the generated loop only. -/
structure Machine.Homed (outer inner : Place) (m : Machine) : Prop where
  stack : Housed outer inner m.stack
  functions : ∀ function ∈ m.functions, anyPolls function.body = false

theorem Machine.Homed.step {outer inner : Place} {m : Machine} {answers : List Bool}
    {r : Machine.Result} (homed : m.Homed outer inner) (yields : m.step.Yields answers r)
    (fine : r.error = none) : r.state.Homed outer inner := by
  obtain ⟨shift, functions⟩ := Machine.step_shift yields fine
  exact ⟨homed.stack.shift shift homed.functions, functions ▸ homed.functions⟩

theorem Machine.Homed.incomplete {outer inner : Place} {m : Machine} (homed : m.Homed outer inner) :
    Interpreter.isComplete m = false := by
  change m.stack.isEmpty = false
  simpa using homed.stack.ne_nil

theorem homed_ofProgram {program : Program} (silent : program.polls = false) (outer inner : Place) :
    (Machine.ofProgram ⟨program.body ++ [callbackLoop outer inner], program.functions⟩).Homed
      outer inner := by
  simp only [Program.polls, Bool.or_eq_false_iff, List.any_eq_false, Bool.not_eq_true] at silent
  exact ⟨(Wrapper.ahead silent.1).housed, silent.2⟩

end Script

namespace Run

open Metronome.Debug (Breakpoints Command Controller)
open Metronome.Script (Housed Machine Phase Place Program callbackLoop load_any)

variable {outer inner : Place}

namespace Progress

/-- A burst that was told that no callback waits has just come from the poll that was told so. -/
structure Homed (outer inner : Place) (p : Progress Machine) : Prop where
  program : p.live.program.Homed outer inner
  asked : p.live.response.seenEmptyQueue = true →
    ∃ place below, p.live.program.stack = .poll place .done :: below

theorem pass_homed {breakpoints : Breakpoints} {request : Request} {budget : Nat}
    {p q : Progress Machine} {ending : Option Ending}
    (passed : p.pass breakpoints request budget = (q, ending))
    (unfailed : ∀ error line, ending ≠ some (.failed error line)) (homed : p.Homed outer inner) :
    q.Homed outer inner := by
  have spec := pass_spec breakpoints request budget p
  rw [passed] at spec
  cases spec with
  | stopped => exact homed
  | exhausted => exact homed
  | complete => exact homed
  | arrived _ _ after =>
    refine ⟨after.program ▸ homed.program, ?_⟩
    rw [after.program, after.response]
    exact homed.asked
  | failed => exact absurd rfl (unfailed _ _)
  | stepped proceeds _ fine after =>
    obtain ⟨answers, yields, -, seen⟩ := Bridge.run_yields p.live.program.step
      ⟨request, p.live.queue, p.live.timers, p.live.response,
        (p.noteLine request.atMaxSpeed p.line).notices⟩
    -- A burst that goes on has not been told yet, so only this step can have been.
    have untold : p.live.response.seenEmptyQueue = false := by
      have goesOn := proceeds.goesOn
      simp only [Controller.shouldStop, Response.signals, Bool.or_eq_false_iff] at goesOn
      exact goesOn.1.2
    rw [untold, Bool.false_or] at seen
    refine ⟨after.program ▸ homed.program.step yields fine, fun told => ?_⟩
    rw [after.response] at told
    rw [after.program]
    obtain ⟨place, -, below, -, -, done⟩ := (Machine.step_shift yields fine).1.asked (seen ▸ told)
    exact ⟨place, below, done⟩

end Progress

theorem burst_homed {live : Live Machine} {breakpoints : Breakpoints} {request : Request}
    {budget : Nat} (homed : live.program.Homed outer inner)
    (unfailed : ∀ error line, (live.burst breakpoints request budget).2 ≠ .failed error line) :
    (live.burst breakpoints request budget).1.Homed outer inner :=
  live.burst_keeps (fun p => p.Homed outer inner) ⟨homed, fun told => by cases told⟩
    (fun _ _ _ passed fine before => Progress.pass_homed passed fine before) unfailed

/-- A run with nothing left to do: no callback waits, no timer is set, and the program asks for
callbacks in the generated loop, after the user's statements and outside of all calls. -/
structure Live.Idle (outer inner : Place) (live : Live Machine) : Prop where
  queue : live.queue = []
  timers : live.timers.pending = []
  stack : live.program.stack = [.poll inner .done, .block [] (some outer.offset),
    .loop outer .always [.poll inner] false, .block [] none]

namespace Scheduler

variable {σ φ : Type} [Interpreter σ]

theorem checkFinished_completes {s : Scheduler σ Unit} {live : Live σ} (here : s.live = some live)
    (idle : s.finish = some finishWhenIdle) (incomplete : Interpreter.isComplete live.program = false)
    (gone : s.checkFinished.live = none) (completed : s.checkFinished.outcome = some .completed) :
    (statusOf live).idle = true ∧ (statusOf live).paused = false := by
  unfold checkFinished at gone completed
  simp only [here, incomplete, Bool.false_eq_true, if_false] at gone completed
  split at completed
  · rw [endRun_outcome, here] at completed
    cases completed
  · rename_i ticks
    rw [if_neg ticks] at gone
    unfold consult at gone
    simp only [idle, finishWhenIdle] at gone
    by_cases rests : ((statusOf live).idle && !(statusOf live).paused) = true
    · simpa using rests
    · rw [if_neg rests] at gone
      exact absurd (here.symm.trans gone) (by simp)

/-- A tick that completes a run by the rule for idle ones finds nothing in the queue or the timers,
after a burst that was told so. -/
theorem closeTick_completes {s : Scheduler σ Unit} {live : Live σ} {now : Instant}
    (idle : s.finish = some finishWhenIdle) (incomplete : Interpreter.isComplete live.program = false)
    (gone : (s.closeTick live now).live = none)
    (completed : (s.closeTick live now).outcome = some .completed) :
    live.response.seenEmptyQueue = true ∧ live.queue = [] ∧ live.timers.pending = [] ∧
      live.controller.isAtRest = false := by
  let released : Live σ := { live with
    timers := (live.timers.release now live.queue).1
    queue := (live.timers.release now live.queue).2 }
  obtain ⟨notices, reported, same⟩ := reportStop_eq { s with live := some released }
  have reports : (reportStop { s with live := some released }).live =
      some { released with controller := released.controller.takeStopReason.1 } := by rw [same]; rfl
  have kept : (reportStop { s with live := some released }).finish = some finishWhenIdle := by
    rw [same]
    exact idle
  obtain ⟨spent, awake⟩ := checkFinished_completes reports kept incomplete gone completed
  simp only [statusOf, Bool.and_eq_true, List.isEmpty_iff] at spent
  obtain ⟨⟨told, queue⟩, timers⟩ := spent
  have split : live.queue = [] ∧ (live.timers.due now).map (·.callback) = [] :=
    List.append_eq_nil_iff.mp queue
  have due : live.timers.pending.filter (Timer.isDue now) = [] := by
    have sorted : live.timers.due now = [] := by simpa using split.2
    exact List.nil_perm.mp (sorted ▸ (List.mergeSort_perm _ _))
  have parts := List.filter_append_perm (Timer.isDue now) live.timers.pending
  rw [due, show live.timers.pending.filter (fun timer => !Timer.isDue now timer) = [] from timers]
    at parts
  exact ⟨told, split.1, List.nil_perm.mp parts, awake⟩

theorem settle_completes {s : Scheduler Machine Unit} {atMaxSpeed : Bool} {ended : Instant}
    {live : Live Machine} {breakpoints : Breakpoints} {request : Request} {budget : Nat}
    (idle : s.finish = some finishWhenIdle) (homed : live.program.Homed outer inner)
    (gone : (s.settle atMaxSpeed ended (live.burst breakpoints request budget)).live = none)
    (completed : (s.settle atMaxSpeed ended (live.burst breakpoints request budget)).outcome =
      some .completed) :
    (live.burst breakpoints request budget).1.live.Idle outer inner := by
  have after : (∀ error line, (live.burst breakpoints request budget).2 ≠ .failed error line) →
      (live.burst breakpoints request budget).1.Homed outer inner := burst_homed homed
  generalize live.burst breakpoints request budget = result at gone completed after ⊢
  obtain ⟨p, ending⟩ := result
  have fine : ∀ error line, ending ≠ .failed error line := by
    rintro error line rfl
    have failed : (s.settle atMaxSpeed ended (p, .failed error line)).outcome =
        some (.failed error.message (failureLine p.live error line)) := failRun_outcome rfl error line
    rw [failed] at completed
    cases completed
  have homed := after fine
  rw [settle_closes s atMaxSpeed ended p fine] at gone completed
  obtain ⟨lastSelected, same⟩ := shown_live atMaxSpeed p
  rw [same] at gone completed
  have incomplete : Interpreter.isComplete { p.live with lastSelected }.program = false :=
    homed.program.incomplete
  have kept : { s with notices := s.notices ++ (shown atMaxSpeed p).2 }.finish =
      some finishWhenIdle := idle
  obtain ⟨told, queue, timers, -⟩ := closeTick_completes kept incomplete gone completed
  obtain ⟨place, below, top⟩ := homed.asked told
  exact ⟨queue, timers, top ▸ homed.program.stack.asks top⟩

omit [Interpreter σ] in
theorem apply_gone {s : Scheduler σ φ} {live : Live σ} {command : Command}
    (here : s.live = some live) (gone : (s.apply command).live = none) : command = .stop := by
  have stepped : ∀ mode, (s.beginStep mode).live ≠ none := by
    intro mode
    unfold beginStep
    rw [here]
    simp
  cases command with
  | pause =>
    simp only [apply, pause, here] at gone
    split at gone
    · rw [reportStop_live] at gone
      cases gone
    · exact absurd (here.symm.trans gone) (by simp)
  | resume =>
    simp only [apply, resume, here] at gone
    split at gone
    · simp at gone
    · exact absurd (here.symm.trans gone) (by simp)
  | stepIn => exact absurd gone (stepped _)
  | stepOver => exact absurd gone (stepped _)
  | stepOut =>
    simp only [apply, stepOut] at gone
    split at gone
    · exact absurd gone (stepped _)
    · exact absurd (here.symm.trans gone) (by simp)
  | stop => rfl
  | _ => exact absurd (here.symm.trans gone) (by simp)

theorem dispatch_not_completes {s : Scheduler σ φ} {live : Live σ} {callback : Callback}
    {now : Instant} (here : s.live = some live) (gone : (s.dispatch callback now).1.live = none) :
    (s.dispatch callback now).1.outcome ≠ some .completed := by
  cases paused : live.controller.isPaused with
  | true =>
    simp [dispatch, here, paused] at gone
  | false =>
    rw [dispatch_answers callback now here paused] at gone ⊢
    generalize (live.called callback).burst s.breakpoints (s.dispatchRequest now)
      s.settings.tickBudget = result at gone ⊢
    obtain ⟨p, ending⟩ := result
    cases ending with
    | failed error line =>
      have failed : (s.answer (p, .failed error line)).1.outcome =
          some (.failed error.message (failureLine p.live error line)) := failRun_outcome rfl error line
      rw [failed]
      simp
    | _ =>
      unfold answer at gone
      rw [reportStop_live] at gone
      cases gone

theorem tick_completes {s : Scheduler Machine Unit} {tick : PendingTick} {began ended : Instant}
    {live : Live Machine} (here : s.live = some live) (idle : s.finish = some finishWhenIdle)
    (homed : live.program.Homed outer inner) (gone : (s.onTick tick began ended).live = none)
    (completed : (s.onTick tick began ended).outcome = some .completed) :
    ∃ live request, Bursts s (.tick tick began ended) live request ∧
      (live.burst s.breakpoints request s.settings.tickBudget).1.live.Idle outer inner := by
  have kept : s.scheduled.finish = some finishWhenIdle := idle
  by_cases current : tick.run = s.runNumber
  · cases steps : live.controller.beginTick.2 with
    | true =>
      rw [onTick_steps began ended here current steps] at gone completed
      exact ⟨live.ticked, s.tickRequest began, .tick here current steps,
        settle_completes kept homed gone completed⟩
    | false =>
      rw [onTick_rests began ended here current steps] at gone completed
      have incomplete : Interpreter.isComplete live.ticked.program = false := homed.incomplete
      obtain ⟨-, -, -, awake⟩ := closeTick_completes kept incomplete gone completed
      rw [Live.ticked, beginTick_rests steps] at awake
      rw [(beginTick_steps awake).1] at steps
      cases steps
  · rw [onTick_stale began ended (.inr current), here] at gone
    cases gone

theorem perform_completes {s : Scheduler Machine Unit} {operation : Operation Machine Unit}
    (idle : s.finish = some finishWhenIdle)
    (homed : operation.opens = false →
      ∀ live, s.live = some live → live.program.Homed outer inner)
    (given : ∀ program lines began ended, operation = .start program lines began ended →
      program.Homed outer inner)
    (running : s.isRunning = true ∨ operation.opens = true)
    (gone : (s.perform operation).isRunning = false)
    (completed : (s.perform operation).outcome = some .completed) :
    ∃ live request, Bursts s operation live request ∧
      (live.burst s.breakpoints request s.settings.tickBudget).1.live.Idle outer inner := by
  have gone : (s.perform operation).live = none := by simpa [isRunning] using gone
  have runs : operation.opens = false → ∃ live, s.live = some live := fun others =>
    Option.isSome_iff_exists.mp (running.resolve_right (by simp [others]))
  cases operation with
  | install rule =>
    obtain ⟨live, here⟩ := runs rfl
    exact absurd (here.symm.trans gone) (by simp)
  | start program lines began ended =>
    cases entry : s.settings.pauseOnEntry with
    | true =>
      rw [perform, start_waits program lines began ended entry] at gone
      cases gone
    | false =>
      rw [perform, start_steps program lines began ended entry] at gone completed
      have kept : (s.opened program lines).scheduled.finish = some finishWhenIdle :=
        (opened_keeps s program lines).2.2.2.trans idle
      exact ⟨_, _, .start entry,
        settle_completes kept (given program lines began ended rfl) gone completed⟩
  | take =>
    obtain ⟨live, here⟩ := runs rfl
    exact absurd (here.symm.trans gone) (by simp)
  | tick tick began ended =>
    obtain ⟨live, here⟩ := runs rfl
    exact tick_completes here idle (homed rfl live here) gone completed
  | dispatch callback now =>
    obtain ⟨live, here⟩ := runs rfl
    exact absurd completed (dispatch_not_completes here gone)
  | command command =>
    obtain ⟨live, here⟩ := runs rfl
    obtain rfl := apply_gone here gone
    rw [perform, apply, stop, endRun_outcome, here] at completed
    cases completed
  | reset => cases completed

end Scheduler

theorem Scheduler.homed_start {φ : Type} (s : Scheduler Machine φ) {program : Machine}
    (lines : LineMap) (began ended : Instant) (homed : program.Homed outer inner) :
    ∀ live, (s.start program lines began ended).live = some live →
      live.program.Homed outer inner := by
  intro next there
  cases entry : s.settings.pauseOnEntry with
  | true =>
    rw [start_waits program lines began ended entry] at there
    cases there
    exact homed
  | false =>
    have leaves := perform_leaves (.start entry) there
    have begins : (Live.start program lines false).ticked.program.Homed outer inner := homed
    exact leaves.program ▸ (burst_homed begins leaves.fine).program

theorem Scheduler.homed_perform {φ : Type} {s : Scheduler Machine φ} {operation : Operation Machine φ}
    (homed : ∀ live, s.live = some live → live.program.Homed outer inner)
    (one : operation.opens = false) :
    ∀ live, (s.perform operation).live = some live → live.program.Homed outer inner := by
  intro next there
  cases perform_live there with
  | keeps here program => exact program ▸ homed _ here
  | starts start =>
    rw [start] at one
    cases one
  | bursts runs leaves =>
    obtain ⟨before, -, here, same, -⟩ := runs.origin one
    have begins := homed before here
    rw [← same] at begins
    exact leaves.program ▸ (burst_homed begins leaves.fine).program

theorem Scheduler.homed_performAll {φ : Type} {s : Scheduler Machine φ}
    {operations : List (Operation Machine φ)}
    (homed : ∀ live, s.live = some live → live.program.Homed outer inner)
    (one : ∀ operation ∈ operations, operation.opens = false) :
    ∀ live, (s.performAll operations).live = some live → live.program.Homed outer inner := by
  induction operations generalizing s with
  | nil => exact homed
  | cons operation operations ih =>
    obtain ⟨first, rest⟩ := List.forall_mem_cons.mp one
    exact ih (homed_perform homed first) rest

/-- The program of an accepted text that does not ask for callbacks itself, and whose last line is
finished, is completed by the rule for idle runs only when nothing is left to do: whatever is done in
its run, the operation that completes it ends with a burst after which no callback waits, no timer
is set, all the user's statements are over and the program is in the generated loop. -/
theorem completes_when_idle {source : List Char} {program : Program}
    (finished : Script.isUnfinished source = false) (read : Script.parse source = .ok program)
    (silent : program.polls = false) :
    ∃ loaded outer inner, Script.load source = .ok loaded ∧
      loaded.machine =
        .ofProgram ⟨program.body ++ [callbackLoop outer inner], program.functions⟩ ∧
      ∀ (s : Scheduler Machine Unit) (began ended : Instant)
        (operations before : List (Operation Machine Unit)) (operation : Operation Machine Unit),
        (∀ operation ∈ operations, operation.opens = false) →
        before ++ [operation] = .start loaded.machine loaded.text.lineMap began ended :: operations →
        let t := s.performAll before
        t.finish = some finishWhenIdle → (t.isRunning = true ∨ operation.opens = true) →
        (t.perform operation).isRunning = false →
        (t.perform operation).outcome = some .completed →
        ∃ live request, Bursts t operation live request ∧
          (live.burst t.breakpoints request t.settings.tickBudget).1.live.Idle outer inner := by
  rw [Script.load_wrapped finished, read]
  refine ⟨_, _, _, rfl, rfl, ?_⟩
  intro s began ended operations before operation one same t idle running gone completed
  have begins := Script.homed_ofProgram silent
    ⟨Text.byteLength (Script.ended source), (Text.physicalLines source).length + 1⟩
    ⟨Text.byteLength (Script.ended source) + 13, (Text.physicalLines source).length + 2⟩
  cases before with
  | nil =>
    obtain ⟨rfl, -⟩ := List.cons.inj same
    refine t.perform_completes idle (fun one => by cases one) ?_ running gone completed
    intro program lines began ended same
    cases same
    exact begins
  | cons first between =>
    obtain ⟨rfl, rest⟩ := List.cons.inj same
    rw [← rest] at one
    obtain ⟨others, last⟩ := List.forall_mem_append.mp one
    have first := s.homed_start (ProgramText.wrap source Script.pollLoop).lineMap began ended begins
    have homed := Scheduler.homed_performAll first others
    refine t.perform_completes idle (fun _ => homed) ?_ running gone completed
    intro program lines began ended same
    rw [same] at last
    exact absurd (last _ (List.mem_singleton_self _)) (by simp [Operation.opens])

def completing : Scheduler Machine Unit :=
  .new .default (some finishWhenIdle)

def installing (loaded : Script.Loaded) : List (Operation Machine Unit) :=
  [.start loaded.machine loaded.text.lineMap 0 0, .install finishWhenIdle]

/-- The second tick calls the function, and completes the run. -/
theorem delaying_completes_when_idle : ∃ program loaded outer inner,
    Script.isUnfinished delaying = false ∧ Script.parse delaying = .ok program ∧
      program.polls = false ∧ Script.load delaying = .ok loaded ∧
      let t := completing.performAll (installing loaded)
      t.isRunning = true ∧ (t.perform (.tick ⟨1, 0⟩ 0 0)).outcome = some .completed ∧
        ∃ live request, Bursts t (.tick ⟨1, 0⟩ 0 0) live request ∧
          (live.burst t.breakpoints request t.settings.tickBudget).1.live.Idle outer inner := by
  have finished : Script.isUnfinished delaying = false := by decide +kernel
  have parsed : (Script.parse delaying).toOption.any (fun program => !program.polls) = true := by
    decide +kernel
  have ran : (Script.load delaying).toOption.any (fun loaded =>
      let t := completing.performAll (installing loaded)
      t.isRunning && !(t.perform (.tick ⟨1, 0⟩ 0 0)).isRunning &&
        decide ((t.perform (.tick ⟨1, 0⟩ 0 0)).outcome = some .completed)) = true := by
    decide +kernel
  obtain ⟨program, parsed, quiet⟩ := (Option.any_eq_true _ _).mp parsed
  have read : Script.parse delaying = .ok program := by
    cases result : Script.parse delaying with
    | ok other => simpa [result, Except.toOption] using parsed
    | error => simp [result, Except.toOption] at parsed
  have silent : program.polls = false := by simpa using quiet
  obtain ⟨loaded, accepted, holds⟩ := load_any ran
  simp only [Bool.and_eq_true, Bool.not_eq_true', decide_eq_true_eq] at holds
  obtain ⟨⟨running, ended⟩, completed⟩ := holds
  obtain ⟨other, outer, inner, same, -, completes⟩ := completes_when_idle finished read silent
  obtain rfl : other = loaded := by
    rw [same] at accepted
    exact Except.ok.inj accepted
  refine ⟨program, other, outer, inner, finished, read, silent, accepted, running, completed, ?_⟩
  have others : ∀ operation ∈ [.install finishWhenIdle, .tick ⟨1, 0⟩ 0 0],
      (operation : Operation Machine Unit).opens = false := by simp [Operation.opens]
  exact completes completing 0 0 _ (installing other) _ others rfl rfl (.inl running) ended completed

def asking : List Char := "poll\nprint 1\n".toList

def printsNext (stack : List Script.Frame) : Bool :=
  match stack with
  | [.poll _ .done, .block (.action _ (.print _) :: _) none] => true
  | _ => false

/-- The run is completed by the rule for idle ones before the user's last statement. -/
theorem asking_completes_early : ∃ loaded, Script.load asking = .ok loaded ∧
    let start := .start loaded.machine loaded.text.lineMap 0 0
    (completing.perform start).outcome = some .completed ∧
      ∃ live request, Bursts completing start live request ∧
        printsNext (live.burst completing.breakpoints request
          completing.settings.tickBudget).1.live.program.stack = true := by
  have computed : (Script.load asking).toOption.any (fun loaded =>
      let start := .start loaded.machine loaded.text.lineMap 0 0
      decide ((completing.perform start).outcome = some .completed) &&
        (completing.burstOf start).any fun (live, request) =>
          printsNext (live.burst completing.breakpoints request
            completing.settings.tickBudget).1.live.program.stack) = true := by
    decide +kernel
  obtain ⟨loaded, read, holds⟩ := load_any computed
  simp only [Bool.and_eq_true, decide_eq_true_eq, Option.any_eq_true] at holds
  obtain ⟨completed, ⟨live, request⟩, found, early⟩ := holds
  exact ⟨loaded, read, completed, live, request, bursts_iff.mpr found, early⟩

end Run

end Metronome
