import Metronome.Proofs.Arrival
import Metronome.Proofs.HostView
import Metronome.Proofs.Setup
import Metronome.Proofs.StepIn

/-!
Stops in ticks. The place of a stop is written at an arrival, while the burst unwinds, and when a
step operation ends; whichever wrote it last, the program stands there when the burst is over, unless
it stands outside the user's text. So a run that goes on from a stop is not held by a breakpoint at
the place where it stands, and takes a step.
-/
namespace Metronome

open Metronome.Debug (Breakpoints Command Controller Cursor ExecState)

def Debug.Command.goesOn : Command → Bool
  | .resume => true
  | .stepIn => true
  | .stepOver => true
  | .stepOut => true
  | _ => false

namespace Run

open Metronome.Script (Frame Loaded Machine load_any)

namespace Progress

/-- The program stands at the last stop, or outside the user's text. -/
def AtStop {σ : Type} [Interpreter σ] (p : Progress σ) : Prop :=
  ∀ line, p.line = some line →
    p.live.controller.stopPoint = some ⟨line, Interpreter.depth p.live.program⟩

structure Halts {σ : Type} [Interpreter σ] (p : Progress σ) : Prop where
  entered : p.live.controller.entryPending = false
  place : p.AtStop ∨ p.burst.unwinding = true ∧ p.live.response.seenEmptyQueue = false

section

variable {σ : Type} [Interpreter σ] {breakpoints : Breakpoints} {request : Request} {budget : Nat}
  {p q : Progress σ}

theorem AtStop.of_outside (outside : p.line = none) : p.AtStop := by
  intro line here
  rw [outside] at here
  cases here

theorem Arrived.halts (arrives : (p.arrival breakpoints).2.2 = true)
    (after : Arrived breakpoints request p q) : q.Halts := by
  obtain ⟨place, here, -, -, reaches⟩ := arrival_arrives arrives
  have controller := after.controller
  rw [reaches] at controller
  refine ⟨by rw [controller]; rfl, .inl fun line there => ?_⟩
  rw [Progress.line, after.program, after.lines] at there
  cases here.symm.trans there
  rw [controller, after.program]
  rfl

/-- A burst that comes to rest with a step does so where the program stands. -/
theorem Judged.atStop (after : Judged request p q) (rests : (p.judged request).2.2 = true) :
    q.AtStop := by
  intro line here
  rw [after.controller_eq, if_pos rests, here]
  rfl

end

variable {breakpoints : Breakpoints} {request : Request} {budget : Nat} {p q : Progress Machine}

theorem Judged.outside (guarded : p.Guarded) (unwinds : p.burst.unwinding = true)
    (proceeds : p.Proceeds request budget) (fine : (p.stepped request).1.error = none)
    (after : Judged request p q) (found : q.live.response.seenEmptyQueue = true) :
    q.line = none := by
  obtain ⟨answers, shift, -, seen⟩ := after.toTook.shift fine
  rw [proceeds.unasked, Bool.false_or, found] at seen
  obtain ⟨place, phase, below, unfinished, polls, polled⟩ := shift.asked seen.symm
  have same : q.line = p.line := by
    rw [Progress.line, Progress.line, Script.Machine.lineOf_cons polls,
      Script.Machine.lineOf_cons polled, after.lines]
    rfl
  rw [same]
  apply (guarded.loose unwinds).resolve_left
  rw [Script.Machine.isSafe_cons polls]
  simpa [Frame.isDone, Frame.isBlock] using unfinished

theorem Halts.judged (halts : p.Halts) (guarded : p.Guarded) (proceeds : p.Proceeds request budget)
    (fine : (p.stepped request).1.error = none) (after : Judged request p q)
    (active : (p.judged request).2.2 = false) (rests : p.live.controller.isAtRest = true) :
    q.Halts := by
  have unwinds := proceeds.unwinds (guarded.reached rests)
  have goesOn : q.burst.unwinding = true := by
    have stopping := guarded.stopping_flags unwinds q.live.program
    have paused : p.refreshed.state = .paused .run := by
      rw [p.refreshed_state]
      simpa [Controller.isAtRest] using rests
    rw [after.rests_eq, stopping] at active
    simpa [Controller.staysDeep, Controller.mode, paused] using active
  refine ⟨after.entryPending.trans halts.entered, ?_⟩
  cases found : q.live.response.seenEmptyQueue with
  | true => exact .inl (.of_outside (Judged.outside guarded unwinds proceeds fine after found))
  | false => exact .inr ⟨goesOn, rfl⟩

theorem Reaches.halts {live : Live Machine}
    (reaches : Reaches breakpoints request budget (begin live) p)
    (active : live.controller.isAtRest = false) (rests : p.live.controller.isAtRest = true) :
    p.Halts := by
  induction reaches with
  | here =>
    have stays : (begin live).live.controller.isAtRest = false := active
    rw [rests] at stays
    cases stays
  | @pass p q before goesOn ih =>
    obtain ⟨proceeds, ⟨arrives, after⟩ | ⟨-, fine, after, stays⟩⟩ := pass_none goesOn
    · exact Arrived.halts arrives after
    · have rested : p.live.controller.isAtRest = true :=
        (Controller.isAtRest_congr (after.state_active stays)).symm.trans rests
      have guarded : p.Guarded := (begin_guarded active).reaches before
      exact (ih rested).judged guarded proceeds fine after stays rested

theorem pass_atStop {ending : Ending} (kept : p.Kept)
    (halts : p.live.controller.isAtRest = true → p.Halts) (tick : request.untilReturn = false)
    (passed : p.pass breakpoints request budget = (q, some ending))
    (unfailed : ∀ error line, ending ≠ .failed error line)
    (rests : q.live.controller.isAtRest = true) :
    q.live.controller.entryPending = false ∧ q.AtStop := by
  rcases pass_some passed with
    ⟨rfl, -, -⟩ | ⟨-, passesBy, ⟨error, line, failed⟩ | ⟨-, -, after, resting⟩⟩
  · obtain ⟨entered, atStop | ⟨unwinds, unasked⟩⟩ := halts rests
    · exact ⟨entered, atStop⟩
    · have empty := complete_of_unwinding (not_proceeds passed unfailed) tick unwinds unasked
      refine ⟨entered, .of_outside ?_⟩
      change (q.live.program.stack.head?.bind Frame.position).bind _ = none
      rw [empty]
      rfl
  · exact absurd failed (unfailed error line)
  · refine ⟨?_, after.atStop resting⟩
    rw [after.entryPending, Bool.eq_false_iff]
    intro entry
    obtain ⟨done, reached⟩ := kept.patient.flags kept.guarded entry passesBy q.live.program
    rw [after.rests_eq, Controller.stopping, done, reached] at resting
    simp at resting

end Progress

open Progress

variable {φ : Type} {s : Scheduler Machine φ} {operation : Operation Machine φ}

theorem burst_told {σ : Type} [Interpreter σ] {live : Live σ} {breakpoints : Breakpoints}
    {request : Request} {budget : Nat} {q : Progress σ} {ending : Ending}
    (silent : live.controller.stopReason = none) (active : live.controller.isAtRest = false)
    (ends : live.burst breakpoints request budget = (q, ending))
    (fine : ∀ error line, ending ≠ .failed error line) :
    q.live.controller.stopReason.isSome = q.live.controller.isAtRest := by
  have begins : Progress.Rests live.controller [] (begin live) := .first silent active
  have tracked := (tracks_rests breakpoints request budget live.controller).burst begins
  rw [ends] at tracked
  cases tracked with
  | holds _ rests => exact rests.told
  | lost => exact absurd rfl (fine _ _)

theorem Bursts.atStop {live : Live Machine} {request : Request} {q : Progress Machine}
    {ending : Ending} (reachable : Reachable s) (given : operation.Given)
    (runs : Bursts s operation live request) (tick : request.untilReturn = false)
    (ends : live.burst s.breakpoints request s.settings.tickBudget = (q, ending))
    (fine : ∀ error line, ending ≠ .failed error line)
    (rests : q.live.controller.isAtRest = true) :
    q.live.controller.entryPending = false ∧ q.AtStop := by
  have uncut := runs.uncut reachable given
  unfold Live.burst at ends
  rw [ends] at uncut
  obtain ⟨p, reaches, ⟨cut, -⟩ | last⟩ := passes_spec ends
  · exact absurd cut uncut
  · exact pass_atStop (runs.kept reachable given reaches) (reaches.halts runs.active) tick last fine
      rests

def Operation.ticks {σ φ : Type} : Operation σ φ → Bool
  | .tick _ _ _ => true
  | .start _ _ _ _ => true
  | _ => false

def Operation.awakens {σ φ : Type} : Operation σ φ → Bool
  | .start _ _ _ _ => true
  | .command c => c.goesOn
  | _ => false

section

variable {σ φ : Type} [Interpreter σ] {s : Scheduler σ φ} {operation : Operation σ φ}

omit [Interpreter σ] in
theorem Operation.opens_of_asleep {operation : Operation σ φ} (asleep : operation.awakens = false) :
    operation.opens = false := by
  cases operation with
  | start => cases asleep
  | _ => rfl

omit [Interpreter σ] in
theorem Bursts.ticking {live : Live σ} {request : Request} (runs : Bursts s operation live request)
    (ticks : operation.ticks = true) : request.untilReturn = false := by
  cases runs with
  | dispatch => cases ticks
  | _ => rfl

namespace Scheduler

theorem checkFinished_incomplete {live : Live σ} (there : s.checkFinished.live = some live) :
    Interpreter.isComplete live.program = false := by
  rcases checkFinished_live s with gone | kept
  · rw [gone] at there
    cases there
  · rw [there] at kept
    rw [Bool.eq_false_iff]
    intro complete
    simp only [checkFinished, ← kept, complete, if_true, endRun_live] at there
    cases there

theorem perform_incomplete {live next : Live σ} {request : Request}
    (runs : Bursts s operation live request) (ticks : operation.ticks = true)
    (there : (s.perform operation).live = some next) :
    Interpreter.isComplete next.program = false := by
  have settles : ∀ {t : Scheduler σ φ} {atMaxSpeed : Bool} {ended : Instant}
      {result : Progress σ × Ending}, (t.settle atMaxSpeed ended result).live = some next →
        Interpreter.isComplete next.program = false := by
    intro t atMaxSpeed ended result settled
    have fine := (settle_leaves settled).fine
    obtain ⟨q, ending⟩ := result
    rw [settle_closes t atMaxSpeed ended q fine] at settled
    exact checkFinished_incomplete settled
  cases runs with
  | tick here current steps =>
    rw [perform, onTick_steps _ _ here current steps] at there
    exact settles there
  | dispatch => cases ticks
  | start steps =>
    rw [perform, start_steps _ _ _ _ steps] at there
    exact settles there

theorem perform_idles {live next : Live σ} (here : s.live = some live)
    (rests : live.controller.isAtRest = true) (asleep : operation.awakens = false)
    (there : (s.perform operation).live = some next) : live.Idled next := by
  have same : s.live = some next → live.Idled next := by
    intro kept
    cases here.symm.trans kept
    exact ⟨rfl, rfl, .inl rfl⟩
  cases operation with
  | install => exact same there
  | start => cases asleep
  | take => exact same there
  | tick tick began ended =>
    obtain ⟨other, found, idled | ⟨-, steps, -⟩⟩ := onTick_live there
    · cases here.symm.trans found
      exact idled
    · cases here.symm.trans found
      have active := beginTick_active steps
      rw [Controller.isAtRest_congr (begun_state _), rests] at active
      cases active
  | dispatch callback now =>
    simp only [perform, dispatch, here, Controller.paused_of_rest rests, if_true,
      Option.some.injEq] at there
    subst there
    exact ⟨rfl, rfl, .inl rfl⟩
  | command command =>
    cases command with
    | pause =>
      apply same
      simpa only [perform, apply, pause, here, Controller.pause, rests, if_true,
        Bool.false_eq_true, if_false] using there
    | resume | stepIn | stepOver | stepOut => cases asleep
    | stop =>
      have gone : s.stop.live = none := endRun_live s .stopped
      rw [perform, apply, gone] at there
      cases there
    | _ => exact same there
  | reset =>
    have gone : s.reset.live = none := endRun_live s .stopped
    rw [perform, gone] at there
    cases there

theorem perform_still {next : Live σ} (silent : s.Silent)
    (rests : ∀ live, s.live = some live → live.controller.isAtRest = true)
    (asleep : operation.awakens = false) (there : (s.perform operation).live = some next) :
    ∃ live, s.live = some live ∧ next.program = live.program ∧ next.lines = live.lines ∧
      next.controller = live.controller := by
  cases here : s.live with
  | none =>
    rw [(perform_inert here (Operation.opens_of_asleep asleep)).gone] at there
    cases there
  | some live =>
    have idled := perform_idles here (rests live here) asleep there
    refine ⟨live, rfl, idled.program, idled.lines, ?_⟩
    rcases idled.controller with same | told
    · exact same
    · exact told.trans (Controller.takeStopReason_silent (silent live here))

theorem performAll_still {between : List (Operation σ φ)} {next : Live σ} (silent : s.Silent)
    (rests : ∀ live, s.live = some live → live.controller.isAtRest = true)
    (asleep : ∀ other ∈ between, other.awakens = false)
    (there : (s.performAll between).live = some next) :
    ∃ live, s.live = some live ∧ next.program = live.program ∧ next.lines = live.lines ∧
      next.controller = live.controller := by
  induction between generalizing s with
  | nil => exact ⟨next, there, rfl, rfl, rfl⟩
  | cons operation later ih =>
    obtain ⟨first, rest⟩ := List.forall_mem_cons.mp asleep
    have stays : ∀ live, (s.perform operation).live = some live →
        live.controller.isAtRest = true := by
      intro live found
      obtain ⟨before, here, -, -, controller⟩ := perform_still silent rests first found
      rw [controller]
      exact rests before here
    obtain ⟨middle, found, program, lines, controller⟩ :=
      ih (silent.perform operation) stays rest there
    obtain ⟨live, here, sameProgram, sameLines, sameController⟩ :=
      perform_still silent rests first found
    exact ⟨live, here, program.trans sameProgram, lines.trans sameLines,
      controller.trans sameController⟩

omit [Interpreter σ] in
theorem apply_goesOn {command : Command} {live : Live σ} (here : s.live = some live)
    (rests : live.controller.isAtRest = true) (on : command.goesOn = true) :
    ∃ state, state ≠ .paused .run ∧
      (s.apply command).live =
        some { live with controller := live.controller.enterState state } := by
  have paused := Controller.paused_of_rest rests
  have stepped : ∀ mode, ∃ state, state ≠ .paused .run ∧ (s.beginStep mode).live =
      some { live with controller := live.controller.enterState state } := by
    intro mode
    obtain ⟨state, active, enters⟩ := step_enters live.controller mode
    refine ⟨state, active, ?_⟩
    simp only [beginStep, here, reportPauseState_live, enters]
  cases command with
  | resume =>
    refine ⟨.running, by simp, ?_⟩
    simp only [apply, resume, here, paused, if_true, reportPauseState_live]
    rfl
  | stepIn => exact stepped _
  | stepOver => exact stepped _
  | stepOut =>
    have any : s.live.any (·.controller.isPaused) = true := by simp [here, paused]
    rw [apply, stepOut, if_pos any]
    exact stepped _
  | _ => cases on

end Scheduler

structure Live.Stands (live : Live σ) : Prop where
  incomplete : Interpreter.isComplete live.program = false
  rests : live.controller.isAtRest = true
  entered : live.controller.entryPending = false
  atStop : (begin live).AtStop

theorem Live.Stands.congr {live next : Live σ} (stands : live.Stands)
    (program : next.program = live.program) (lines : next.lines = live.lines)
    (controller : next.controller = live.controller) : next.Stands where
  incomplete := program ▸ stands.incomplete
  rests := controller ▸ stands.rests
  entered := controller ▸ stands.entered
  atStop line here := by
    have stop := stands.atStop line
    simp only [Progress.line, begin] at here stop ⊢
    rw [program, lines] at here
    rw [program, controller]
    exact stop here

theorem Live.Stands.deeds {live : Live σ} (stands : live.Stands) (state : ExecState)
    (breakpoints : Breakpoints) (request : Request) {budget : Nat} (affords : 1 ≤ budget) :
    ∃ p deed later,
      (Live.ticked { live with controller := live.controller.enterState state }).deeds breakpoints
        request budget = (p, deed) :: later ∧ deed ≠ .arrives ∧ p.live.program = live.program := by
  let on : Live σ := Live.ticked { live with controller := live.controller.enterState state }
  obtain ⟨stepOutDepth, same⟩ := beginTick_eq (live.controller.enterState state)
  have controller : on.controller = { live.controller.enterState state with stepOutDepth } := same
  have proceeds : (begin on).Proceeds request budget :=
    ⟨by simp [Controller.shouldStop, Response.signals, begin, Debug.Burst.fresh], .inl affords,
      stands.incomplete⟩
  have passesBy : ((begin on).arrival breakpoints).2.2 = false := by
    rw [Bool.eq_false_iff]
    intro arrives
    obtain ⟨line, here, -, pending | ⟨-, left⟩, -⟩ := arrival_arrives arrives
    · rw [show (begin on).live.controller = on.controller from rfl, controller] at pending
      have entered : live.controller.entryPending = true := pending
      rw [stands.entered] at entered
      cases entered
    · apply left
      rw [show (begin on).live.controller = on.controller from rfl, controller]
      exact congrArg (Option.map (·.line)) (stands.atStop line here)
  obtain ⟨fuel, more⟩ : ∃ fuel, limit on budget = fuel + 1 :=
    ⟨limit on budget - 1, by unfold limit; omega⟩
  change ∃ p deed later, on.deeds breakpoints request budget = (p, deed) :: later ∧ _
  rw [Live.deeds, more, Progress.deeds, deed_proceeds proceeds, passesBy]
  cases ((begin on).stepped request).1.error with
  | none => exact ⟨_, .steps, _, rfl, by decide, rfl⟩
  | some error => exact ⟨_, .fails, _, rfl, by decide, rfl⟩

end

theorem Bursts.stands {live next : Live Machine} {request : Request} {q : Progress Machine}
    {ending : Ending} (reachable : Reachable s) (given : operation.Given)
    (runs : Bursts s operation live request) (ticks : operation.ticks = true)
    (ends : live.burst s.breakpoints request s.settings.tickBudget = (q, ending))
    (rests : q.live.controller.isAtRest = true) (there : (s.perform operation).live = some next) :
    next.Stands := by
  have leaves := Scheduler.perform_leaves runs there
  rw [ends] at leaves
  obtain ⟨entered, atStop⟩ :=
    runs.atStop reachable given (runs.ticking ticks) ends leaves.fine rests
  refine ⟨Scheduler.perform_incomplete runs ticks there, ?_, ?_, fun line here => ?_⟩
  · rw [leaves.controller]
    exact rests
  · rw [leaves.controller]
    exact entered
  · simp only [Progress.line, begin] at here ⊢
    rw [leaves.program, leaves.lines] at here
    rw [leaves.program, leaves.controller]
    exact atStop line here

theorem Scheduler.goes_on {t : Scheduler Machine φ} {live : Live Machine} (silent : t.Silent)
    (here : t.live = some live) (stands : live.Stands) (affords : 1 ≤ t.settings.tickBudget)
    {between : List (Operation Machine φ)} (asleep : ∀ other ∈ between, other.awakens = false)
    (lives : (t.performAll between).isRunning = true) {command : Command}
    (on : command.goesOn = true) {tick : PendingTick} {began ended : Instant}
    (current : tick.run = ((t.performAll between).apply command).runNumber) :
    ∃ p deed later,
      ((t.performAll between).apply command).deeds (.tick tick began ended) = (p, deed) :: later ∧
        deed ≠ .arrives ∧ p.live.program = live.program := by
  obtain ⟨next, there⟩ := Option.isSome_iff_exists.mp lives
  have rests : ∀ other, t.live = some other → other.controller.isAtRest = true := by
    intro other found
    cases here.symm.trans found
    exact stands.rests
  obtain ⟨first, found, program, lines, controller⟩ := performAll_still silent rests asleep there
  cases here.symm.trans found
  have still := stands.congr program lines controller
  obtain ⟨state, active, goes⟩ := apply_goesOn there still.rests on
  have awake : (next.controller.enterState state).isAtRest = false := by
    simpa [Controller.isAtRest, Controller.enterState] using active
  have steps := (beginTick_steps awake).1
  have budget : ((t.performAll between).apply command).settings = t.settings :=
    (perform_settings _ (.command command)).trans (performAll_settings t between)
  rw [deeds_burst (.tick goes current steps), ← program]
  apply still.deeds
  rw [budget]
  exact affords

/-- When the host is told of a stop in a tick, the program stands where the host is told, at the
same depth, or it stands outside the user's text or is over. If the run is live, then it takes a step
when it goes on from there, whatever was done at rest, breakpoints set among it. -/
theorem stop_told_where_program_stands (reachable : Reachable s) (given : operation.Given)
    (ticks : operation.ticks = true) :
    ∃ told, (s.perform operation).transcript = s.transcript ++ told ∧
      ∀ reason state, .stopped reason state ∈ told →
        ∃ (live : Live Machine) (request : Request) (q : Progress Machine) (ending : Ending),
          Bursts s operation live request ∧
          live.burst s.breakpoints request s.settings.tickBudget = (q, ending) ∧
          (∀ line, q.line = some line →
            state.line = some line ∧ state.depth = some (Interpreter.depth q.live.program)) ∧
          ∀ next, (s.perform operation).live = some next →
            next.program = q.live.program ∧ next.lines = q.live.lines ∧
            ∀ (between : List (Operation Machine φ)) (command : Command) (tick : PendingTick)
              (began ended : Instant), (∀ other ∈ between, other.awakens = false) →
              command.goesOn = true → 1 ≤ s.settings.tickBudget →
              let t := (s.perform operation).performAll between
              let u := t.perform (.command command)
              t.isRunning = true → tick.run = u.runNumber →
                ∃ p deed later, u.deeds (.tick tick began ended) = (p, deed) :: later ∧
                  deed ≠ .arrives ∧ p.live.program = next.program := by
  obtain ⟨told, same, tells⟩ := Scheduler.perform_tells operation reachable.silent
  refine ⟨told, same, fun reason state member => ?_⟩
  cases tells _ member with
  | noStop stop => cases stop
  | pause pauses =>
    rw [pauses] at ticks
    cases ticks
  | @burst live request q ending _ runs ends fine left =>
    have rests : q.live.controller.isAtRest = true := by
      rw [← burst_told (runs.silent reachable.silent) runs.active ends fine, left]
      rfl
    obtain ⟨-, atStop⟩ := runs.atStop reachable given (runs.ticking ticks) ends fine rests
    refine ⟨live, request, q, ending, runs, ends, fun line here => ?_, fun next there => ?_⟩
    · simp [Controller.pauseState, atStop line here]
    · have leaves := Scheduler.perform_leaves runs there
      rw [ends] at leaves
      refine ⟨leaves.program, leaves.lines, ?_⟩
      intro between command tick began ended asleep on affords t u lives current
      exact Scheduler.goes_on (reachable.silent.perform operation) there
        (runs.stands reachable given ticks ends rests there)
        (by rw [Scheduler.perform_settings]; exact affords) asleep lives on current

/-- The run stops at the call, where the program stands, and takes a step when it goes on with more
breakpoints than before. -/
theorem watching_goes_on : ∃ loaded, Script.load calling = .ok loaded ∧
    let s := watching.perform (.start loaded.machine loaded.text.lineMap 0 0)
    let u := (s.perform (.command (.setBreakpoints [2, 4, 5]))).perform (.command .resume)
    s.transcript = [.stopped .breakpoint ⟨true, true, .run, some 4, some 2⟩] ∧
      ∃ next, s.live = some next ∧ Cursor.lineOf next.program next.lines = some 4 ∧
        Interpreter.depth next.program = 2 ∧
        ∃ p deed later, u.deeds (.tick ⟨1, 0⟩ 0 0) = (p, deed) :: later ∧ deed ≠ .arrives ∧
          p.live.program = next.program := by
  have computed : (Script.load calling).toOption.any (fun loaded =>
      let s := watching.perform (.start loaded.machine loaded.text.lineMap 0 0)
      let t := s.perform (.command (.setBreakpoints [2, 4, 5]))
      s.transcript == [.stopped .breakpoint ⟨true, true, .run, some 4, some 2⟩] &&
        t.isRunning && (t.perform (.command .resume)).runNumber == 1 &&
        s.live.any fun next => Cursor.lineOf next.program next.lines == some 4) = true := by
    decide +kernel
  obtain ⟨loaded, read, holds⟩ := load_any computed
  simp only [Bool.and_eq_true, beq_iff_eq, Option.any_eq_true] at holds
  obtain ⟨⟨⟨transcript, lives⟩, number⟩, next, there, stands⟩ := holds
  obtain ⟨told, same, stops⟩ := stop_told_where_program_stands watching_reachable
    (.load read 0 0) rfl
  have silent : watching.transcript = [] := rfl
  rw [silent, List.nil_append, transcript] at same
  obtain ⟨live, request, q, ending, runs, ends, place, goes⟩ :=
    stops _ _ (same ▸ List.mem_singleton_self _)
  obtain ⟨program, lines, leaves⟩ := goes next there
  have here : q.line = some 4 := by rw [Progress.line, ← program, ← lines, stands]
  obtain ⟨-, depth⟩ := place 4 here
  refine ⟨loaded, read, transcript, next, there, stands, ?_, ?_⟩
  · rw [program]
    exact (Option.some.inj depth).symm
  · exact leaves [.command (.setBreakpoints [2, 4, 5])] .resume ⟨1, 0⟩ 0 0
      (by simp [Operation.awakens, Command.goesOn]) rfl (by decide) lives number.symm

end Run

end Metronome
