import Metronome.Proofs.Highlight
import Metronome.Proofs.Standstill

namespace Metronome

open Metronome.Debug (Breakpoints Controller Cursor StopReason)

namespace Script

theorem Shift.stays {functions : List Function} {stack below : List Frame} {frame : Frame}
    {answers : List Bool} (shift : Shift functions stack answers (frame :: below))
    (stacked : Stacked stack) (unfinished : frame.isDone = false) (noBlock : frame.isBlock = false) :
    frame.position = stack.head?.bind Frame.position ∨
      ∃ place phase name arguments rest, stack = .poll place phase :: rest ∧
        frame :: below = .call name none (.ready arguments) :: .poll place .waiting :: rest := by
  generalize same : frame :: below = after at shift ⊢
  cases shift with
  | idle => cases same
  | leave node =>
    subst same
    cases (List.isChain_cons_cons.mp stacked).1 with
    | block => cases noBlock
    | _ => cases node
  | leaveBlock noCall =>
    subst same
    cases (List.isChain_cons_cons.mp stacked).1 with
    | block node => cases node
    | loop | branch => exact .inl rfl
    | body => exact absurd rfl (noCall _ _ _)
  | drop noAction noPoll =>
    subst same
    cases (List.isChain_cons_cons.mp stacked).1 with
    | block node => cases node
    | action => exact absurd rfl (noAction _ _ _)
    | poll => exact absurd rfl (noPoll _ _)
  | @enter node =>
    cases same
    cases node <;> exact .inl rfl
  | call =>
    cases same
    exact .inl rfl
  | pollSome => exact .inr ⟨_, _, _, _, _, rfl, rfl⟩
  | loopOn | branchOn | begin =>
    cases same
    cases noBlock
  | _ =>
    cases same
    cases unfinished

end Script

namespace Run

open Metronome.Script (Frame Loaded Machine Stacked load_any)

namespace Progress

section

variable {σ : Type} [Interpreter σ] {breakpoints : Breakpoints} {request : Request} {budget : Nat}
  {p q : Progress σ} {ending : Option Ending}

def stopLine (p : Progress σ) : Option Nat :=
  p.live.controller.stopPoint.map (·.line)

def ShowsStop (p : Progress σ) : Prop :=
  ∀ line, p.stopLine = some line → p.live.lastSelected = some line

structure JustArrived (request : Request) (budget : Nat) (p : Progress σ) : Prop where
  fast : request.atMaxSpeed = true
  here : p.line = p.stopLine
  busy : p.burst.unwinding = true → p.Proceeds request budget

theorem Arrived.shows (proceeds : p.Proceeds request budget)
    (arrives : (p.arrival breakpoints).2.2 = true) (after : Arrived breakpoints request p q)
    (passed : p.pass breakpoints request budget = (q, ending)) :
    q.ShowsStop ∨ q.JustArrived request budget := by
  obtain ⟨line, here, -, -, reaches⟩ := arrival_arrives arrives
  have place : q.stopLine = some line := by
    rw [stopLine, after.controller, reaches]
    rfl
  have remembers := pass_remembers proceeds passed
  rw [here, Option.some_or] at remembers
  cases shows : p.live.controller.isPaused || !request.atMaxSpeed with
  | true =>
    rw [shows, if_pos rfl] at remembers
    exact .inl fun other found => by rw [remembers, ← place, found]
  | false =>
    simp only [Bool.or_eq_false_iff, Bool.not_eq_false'] at shows
    refine .inr ⟨shows.2, ?_, fun unwinds => ⟨?_, .inr unwinds, ?_⟩⟩
    · rw [place, Progress.line, after.program, after.lines]
      exact here
    · have quiet := proceeds.goesOn
      simp only [Controller.shouldStop, Bool.or_eq_false_iff] at quiet ⊢
      rw [after.response, unwinds]
      simp [quiet.1.2, quiet.2]
    · rw [after.program]
      exact proceeds.incomplete

theorem refreshed_stopLine (unwinds : p.burst.unwinding = true) :
    p.refreshed.stopPoint.map (·.line) = p.line.or p.stopLine := by
  have same : p.cursor.line = p.line := rfl
  unfold refreshed Controller.refreshStopPoint
  rw [same, unwinds]
  cases p.line with
  | none => rfl
  | some line => rfl

theorem Judged.shows (shows : p.ShowsStop ∨ p.JustArrived request budget)
    (proceeds : p.Proceeds request budget) (rests : p.live.controller.isAtRest = true)
    (unwinds : p.burst.unwinding = true) (after : Judged request p q)
    (active : (p.judged request).2.2 = false)
    (passed : p.pass breakpoints request budget = (q, ending)) : q.ShowsStop := by
  have place : q.stopLine = p.line.or p.stopLine := by
    rw [stopLine, after.controller_active active, ← refreshed_stopLine unwinds]
    rfl
  have remembers := pass_remembers proceeds passed
  rw [Controller.paused_of_rest rests, Bool.true_or, if_pos rfl] at remembers
  intro line found
  rw [place] at found
  rw [remembers]
  cases here : p.line with
  | some other =>
    rw [here] at found
    exact found
  | none =>
    rw [here, Option.none_or] at found
    rcases shows with shows | arrived
    · exact shows line found
    · rw [← arrived.here, here] at found
      cases found

theorem Reaches.shows {live : Live σ} (reaches : Reaches breakpoints request budget (begin live) p)
    (active : live.controller.isAtRest = false) (rests : p.live.controller.isAtRest = true) :
    p.ShowsStop ∨ p.JustArrived request budget := by
  induction reaches with
  | here =>
    have stays : (begin live).live.controller.isAtRest = false := active
    rw [rests] at stays
    cases stays
  | @pass p q before goesOn ih =>
    obtain ⟨proceeds, ⟨arrives, after⟩ | ⟨-, fine, after, stays⟩⟩ := pass_none goesOn
    · exact Arrived.shows proceeds arrives after goesOn
    · have rested : p.live.controller.isAtRest = true :=
        (Controller.isAtRest_congr (after.state_active stays)).symm.trans rests
      have guarded : p.Guarded := (begin_guarded active).reaches before
      exact .inl (Judged.shows (ih rested) proceeds rested
        (proceeds.unwinds (guarded.reached rested)) after stays goesOn)

theorem Reaches.hushed {live : Live σ} (reaches : Reaches breakpoints request budget (begin live) p)
    (silent : live.controller.stopReason = none) (active : p.live.controller.isAtRest = false) :
    p.live.controller.stopReason = none := by
  induction reaches with
  | here => exact silent
  | @pass p q before goesOn ih =>
    obtain ⟨-, ⟨arrives, after⟩ | ⟨-, -, after, stays⟩⟩ := pass_none goesOn
    · obtain ⟨line, -, -, -, reaches⟩ := arrival_arrives arrives
      rw [after.controller, reaches] at active
      cases active
    · rw [Controller.isAtRest_congr (after.state_active stays)] at active
      rw [after.controller_active stays, ← ih active, ← p.refreshed_stopReason]
      rfl

theorem flags_outside (outside : p.line = none) (program : σ) :
    p.live.controller.stopping (p.flags program) = p.live.controller.stopping p.burst := by
  simp [flags, Debug.Burst.noted, seen, Cursor.withLine, Cursor.inUserCode, outside,
    Controller.stopping]

end

variable {breakpoints : Breakpoints} {request : Request} {budget : Nat} {p q : Progress Machine}

/-- A poll of the user's has just handed out a callback, which stands nowhere in the text. -/
def HandsOut (p : Progress Machine) : Prop :=
  ∃ name arguments place below, p.live.program.stack =
      .call name none (.ready arguments) :: .poll place .waiting :: below ∧
    p.live.lines.Holds place.offset

theorem Took.stands (stacked : Stacked p.live.program.stack)
    (fine : (p.stepped request).1.error = none) (took : Took request p q)
    (busy : Interpreter.isSafe q.live.program = false) :
    q.line = p.line ∨ q.line = none ∧ (p.line.isSome = true → q.HandsOut) := by
  obtain ⟨frame, below, stack, unfinished, noBlock⟩ := Script.Machine.unsafe_cons busy
  obtain ⟨answers, shift, -⟩ := took.shift fine
  rw [stack] at shift
  have there : q.line = frame.position.bind q.live.lines.userLine :=
    Script.Machine.lineOf_cons stack _
  rcases shift.stays stacked unfinished noBlock with
    same | ⟨place, phase, name, arguments, rest, polls, same⟩
  · left
    rw [there, same, took.lines]
    rfl
  · right
    refine ⟨?_, fun user => ⟨name, arguments, place, rest, stack.trans same, ?_⟩⟩
    · rw [there, (List.cons.inj same).1]
      rfl
    · rw [Progress.line, Script.Machine.lineOf_cons polls] at user
      rw [took.lines]
      exact user

/-- If a stop is in reach outside the user's text and the burst does not unwind for it, then a
callback has just been handed out. -/
def Bides (p : Progress Machine) : Prop :=
  p.live.controller.stopping p.burst = true → p.burst.unwinding = false → p.line = none → p.HandsOut

theorem Judged.handsOut (bides : p.Bides) (stacked : Stacked p.live.program.stack)
    (fine : (p.stepped request).1.error = none) (after : Judged request p q)
    (stopping : p.live.controller.stopping (p.flags q.live.program) = true)
    (still : q.burst.unwinding = false) (outside : q.line = none) :
    q.HandsOut ∧ p.burst.unwinding = false := by
  have unwinding := after.unwinding
  rw [still, stopping, if_pos rfl, outside] at unwinding
  obtain ⟨busy, calm⟩ := Bool.or_eq_false_iff.mp unwinding.symm
  simp only [Option.isNone_none, Bool.and_true] at calm
  refine ⟨?_, calm⟩
  have user : p.line.isSome = true := by
    by_contra none
    rw [Option.not_isSome_iff_eq_none] at none
    have reached : p.live.controller.stopping p.burst = true := by
      rw [← flags_outside none q.live.program]
      exact stopping
    obtain ⟨name, arguments, place, rest, top, -⟩ := bides reached calm none
    obtain ⟨frame, below, stack, -, noBlock⟩ := Script.Machine.unsafe_cons busy
    obtain ⟨answers, shift, -⟩ := after.toTook.shift fine
    rw [stack, top] at shift
    cases shift with
    | leave node => cases node
    | begin => cases noBlock
  rcases after.toTook.stands stacked fine busy with same | ⟨-, handsOut⟩
  · rw [← same, outside] at user
    cases user
  · exact handsOut user

theorem Reaches.bides {live : Live Machine}
    (reaches : Reaches breakpoints request budget (begin live) p)
    (sound : live.program.Sound live.lines) : p.Bides ∧ p.live.program.Sound p.live.lines := by
  induction reaches with
  | here =>
    refine ⟨fun stopping => ?_, sound⟩
    simp [Controller.stopping, begin, Debug.Burst.fresh] at stopping
  | @pass p q before goesOn ih =>
    obtain ⟨bides, sound⟩ := ih
    refine ⟨?_, pass_sound goesOn (fun _ _ => by simp) sound⟩
    obtain ⟨-, ⟨arrives, after⟩ | ⟨-, fine, after, stays⟩⟩ := pass_none goesOn
    · obtain ⟨line, here, -⟩ := arrival_arrives arrives
      intro _ _ outside
      rw [Progress.line, after.program, after.lines] at outside
      cases here.symm.trans outside
    · intro stopping still outside
      rw [Controller.stopping_congr (after.state_active stays), after.burst_eq] at stopping
      exact (after.handsOut bides sound.stacked fine stopping still outside).1

inductive Marks (request : Request) (q : Progress Machine) : Prop where
  | shown (shows : q.ShowsStop)
  | owed (fast : request.atMaxSpeed = true) (reached : q.burst.reachedBreak = true)
      (here : q.line = q.stopLine)
  | outside (handsOut : q.HandsOut) (reason : q.live.controller.stopReason = some .step)

theorem Judged.marks (hushed : p.live.controller.isAtRest = false →
      p.live.controller.stopReason = none) (guarded : p.Guarded) (bides : p.Bides)
    (stacked : Stacked p.live.program.stack) (proceeds : p.Proceeds request budget)
    (fine : (p.stepped request).1.error = none) (after : Judged request p q)
    (resting : (p.judged request).2.2 = true) {ending : Option Ending}
    (passed : p.pass breakpoints request budget = (q, ending)) : q.Marks request := by
  have rests := resting
  rw [after.rests_eq] at rests
  simp only [Bool.and_eq_true, Bool.not_eq_true'] at rests
  obtain ⟨⟨stopping, still⟩, -⟩ := rests
  cases here : q.line with
  | none =>
    obtain ⟨handsOut, calm⟩ := after.handsOut bides stacked fine stopping still here
    have active : p.live.controller.isAtRest = false := by
      rw [Bool.eq_false_iff]
      intro atRest
      rw [proceeds.unwinds (guarded.reached atRest)] at calm
      cases calm
    refine .outside handsOut ?_
    rw [after.controller_eq, if_pos resting]
    change some (p.refreshed.stopReason.getD .step) = some .step
    rw [p.refreshed_stopReason, hushed active]
    rfl
  | some line =>
    have unwinding := after.unwinding
    rw [still, stopping, if_pos rfl] at unwinding
    have busy := (Bool.or_eq_false_iff.mp unwinding.symm).1
    have same : q.line = p.line := by
      rcases after.toTook.stands stacked fine busy with same | ⟨outside, -⟩
      · exact same
      · rw [outside] at here
        cases here
    have paused : p.live.controller.isPaused = true := (Bool.and_eq_true_iff.mp stopping).1
    have remembers := pass_remembers proceeds passed
    rw [paused, Bool.true_or, if_pos rfl, ← same, here, Option.some_or] at remembers
    refine .shown fun other found => ?_
    rw [stopLine, after.atStop resting line here] at found
    rw [remembers, ← found]
    rfl

end Progress

open Progress

theorem burst_marks {live : Live Machine} {breakpoints : Breakpoints} {request : Request}
    {budget : Nat} {q : Progress Machine} {ending : Ending}
    (sound : live.program.Sound live.lines) (silent : live.controller.stopReason = none)
    (active : live.controller.isAtRest = false)
    (ends : live.burst breakpoints request budget = (q, ending)) (uncut : ending ≠ .cutOff)
    (fine : ∀ error line, ending ≠ .failed error line)
    (rests : q.live.controller.isAtRest = true) : q.Marks request := by
  unfold Live.burst at ends
  obtain ⟨p, reaches, ⟨cut, -⟩ | last⟩ := passes_spec ends
  · exact absurd cut uncut
  · have guarded : p.Guarded := (begin_guarded active).reaches reaches
    obtain ⟨bides, sound⟩ := reaches.bides sound
    rcases pass_some last with
      ⟨rfl, -, -⟩ | ⟨proceeds, -, ⟨error, line, failed⟩ | ⟨-, steps, after, resting⟩⟩
    · rcases reaches.shows active rests with shows | arrived
      · exact .shown shows
      · exact .owed arrived.fast (guarded.reached rests) arrived.here
    · exact absurd failed (fine error line)
    · exact after.marks (reaches.hushed silent) guarded bides sound.stacked proceeds steps resting
        last

def GoesOnUnstopped (before after : List HostEvent) : Prop :=
  GoesOn (fun event => event.isStop = false) before after

def StopsAt (shown : Option Nat) (stops before after : List HostEvent) : Prop :=
  ∃ earlier, GoesOnUnstopped before earlier ∧ highlight earlier = shown ∧
    GoesOnUnstopped (earlier ++ stops) after

theorem StopsAt.before {shown : Option Nat} {stop : HostEvent}
    {first before later after : List HostEvent} (stops : StopsAt shown [stop] first after)
    (isStop : stop.isStop = true) (told : after = before ++ stop :: later)
    (fresh : first <+: before) : highlight before = shown := by
  obtain ⟨earlier, ⟨quiet, rfl, unstopped⟩, shows, ⟨rest, same, nothing⟩⟩ := stops
  obtain ⟨more, rfl⟩ := fresh
  rw [told] at same
  simp only [List.append_assoc, List.append_cancel_left_eq, List.singleton_append] at same
  rcases List.append_eq_append_iff.mp same with ⟨between, rfl, tail⟩ | ⟨between, rfl, tail⟩
  · cases between with
    | nil => simpa using shows
    | cons event between =>
      have quiet : event.isStop = false := unstopped event (by simp)
      rw [← (List.cons.inj tail).1, isStop] at quiet
      cases quiet
  · cases between with
    | nil => simpa using shows
    | cons event between =>
      have quiet : stop.isStop = false := nothing stop (by simp [(List.cons.inj tail).2])
      rw [isStop] at quiet
      cases quiet

namespace Scheduler

variable {σ φ : Type}

theorem reportStop_tells {s : Scheduler σ φ} {live : Live σ} (here : s.live = some live) :
    GoesOnUnstopped (s.events ++ stopEvents live.controller) s.reportStop.events := by
  unfold reportStop stopEvents
  rw [here]
  dsimp only [Controller.takeStopReason]
  cases live.controller.stopReason with
  | some reason =>
    dsimp only
    rw [← events_tell]
    exact reportPauseState_log (fun _ => rfl) (tell { s with live := some _ } _)
  | none =>
    dsimp only
    rw [List.append_nil]
    exact reportPauseState_log (fun _ => rfl) { s with live := some _ }

theorem endRun_unstopped (s : Scheduler σ φ) (outcome : Outcome) :
    GoesOnUnstopped s.events (s.endRun outcome).events := by
  unfold endRun
  split
  · exact .refl _
  · have ended : GoesOnUnstopped s.events
        (tell { s with live := (none : Option (Live σ)), pending := none }
          (.finished outcome)).events :=
      ⟨[.finished outcome], events_tell _ _, by simp [HostEvent.isStop]⟩
    exact ended.trans (reportPauseState_log (fun _ => rfl) _)

theorem opened_unstopped (s : Scheduler σ φ) (program : σ) (lines : LineMap) :
    GoesOnUnstopped s.events (s.opened program lines).events :=
  (s.endRun_unstopped .stopped).trans (reportPauseState_log (fun _ => rfl) _)

variable [Interpreter σ]

theorem checkFinished_unstopped (s : Scheduler σ φ) :
    GoesOnUnstopped s.events s.checkFinished.events := by
  unfold checkFinished
  split
  · exact .refl _
  · split
    · exact s.endRun_unstopped _
    · split
      · exact s.endRun_unstopped _
      · unfold consult
        split
        · exact .refl _
        · dsimp only
          split
          · exact endRun_unstopped { s with finish := some _ } _
          · exact .refl _

theorem closeTick_tells (s : Scheduler σ φ) (live : Live σ) (now : Instant) :
    GoesOnUnstopped (s.events ++ stopEvents live.controller) (s.closeTick live now).events := by
  have reports := reportStop_tells (s := { s with live := some { live with
    timers := (live.timers.release now live.queue).1
    queue := (live.timers.release now live.queue).2 } }) rfl
  exact reports.trans (checkFinished_unstopped _)

theorem inner_unstopped {σ φ : Type} (s : Scheduler σ φ) {more : Array Notice}
    (inner : Inner more) : GoesOnUnstopped s.events (Run.events (s.notices ++ more)) :=
  inner.goesOn (fun _ => rfl) (fun _ => rfl) s.notices

theorem settle_stopsAt {s : Scheduler σ φ} {q : Progress σ} {ending : Ending}
    (atMaxSpeed : Bool) (ended : Instant) (inner : Inner q.notices)
    (shown : q.Highlighted s.events) (fine : ∀ error line, ending ≠ .failed error line) :
    StopsAt (Scheduler.shown atMaxSpeed q).1.lastSelected (stopEvents q.live.controller) s.events
      (s.settle atMaxSpeed ended (q, ending)).events := by
  rw [settle_closes s atMaxSpeed ended q fine]
  refine ⟨_, s.inner_unstopped (shown_inner atMaxSpeed inner), ?_, ?_⟩
  · rw [events_append]
    exact shown_highlights atMaxSpeed shown
  · have closes := closeTick_tells
      { s with notices := s.notices ++ (Scheduler.shown atMaxSpeed q).2 }
      (Scheduler.shown atMaxSpeed q).1 ended
    obtain ⟨lastSelected, same⟩ := shown_live atMaxSpeed q
    rw [same] at closes ⊢
    exact closes

omit [Interpreter σ] in
theorem answer_stopsAt {s : Scheduler σ φ} {q : Progress σ} {ending : Ending}
    (inner : Inner q.notices) (shown : q.Highlighted s.events)
    (fine : ∀ error line, ending ≠ .failed error line) :
    StopsAt q.live.lastSelected (stopEvents q.live.controller) s.events
      (s.answer (q, ending)).1.events := by
  have reports := reportStop_tells (s := s.afterBurst { q with live := { q.live with
    response := { q.live.response with lastReturn := none } } }) rfl
  have tells : StopsAt q.live.lastSelected (stopEvents q.live.controller) s.events
      (reportStop (s.afterBurst { q with live := { q.live with
        response := { q.live.response with lastReturn := none } } })).events := by
    refine ⟨_, s.inner_unstopped inner, ?_, reports⟩
    rw [events_append]
    exact shown
  cases ending with
  | failed error line => exact absurd rfl (fine error line)
  | _ => exact tells

def showing (s : Scheduler σ φ) (operation : Operation σ φ) (q : Progress σ) : Live σ :=
  if operation.ticks then (shown s.clock.atMaxSpeed q).1 else q.live

end Scheduler

theorem Bursts.stopsAt {σ φ : Type} [Interpreter σ] {s : Scheduler σ φ} {operation : Operation σ φ}
    {live : Live σ} {request : Request} {q : Progress σ} {ending : Ending} (shown : s.Highlighted)
    (runs : Bursts s operation live request)
    (ends : live.burst s.breakpoints request s.settings.tickBudget = (q, ending))
    (fine : ∀ error line, ending ≠ .failed error line) :
    StopsAt (s.showing operation q).lastSelected (stopEvents q.live.controller) s.events
      (s.perform operation).events := by
  have inner := burst_inner live s.breakpoints request s.settings.tickBudget
  have highlights : ∀ before, highlight before = live.lastSelected →
      (live.burst s.breakpoints request s.settings.tickBudget).1.Highlighted before :=
    fun _ => burst_highlighted _ _ _
  rw [ends] at inner highlights
  cases runs with
  | @tick live _ _ _ here current steps =>
    have remembered := shown.remembers here
    rw [Scheduler.perform, Scheduler.onTick_steps _ _ here current steps, ends]
    exact Scheduler.settle_stopsAt (s := s.scheduled) _ _ inner (highlights _ remembered) fine
  | dispatch here running =>
    have remembered := shown.remembers here
    rw [Scheduler.perform, Scheduler.dispatch_answers _ _ here running, ends]
    exact Scheduler.answer_stopsAt inner (highlights _ remembered) fine
  | @start program lines _ _ steps =>
    have remembered := (shown.opens program lines).remembers (s.opened_live program lines)
    rw [Scheduler.perform, Scheduler.start_steps _ _ _ _ steps, ends]
    obtain ⟨earlier, unstopped, shows, after⟩ :=
      Scheduler.settle_stopsAt (s := (s.opened program lines).scheduled) s.clock.atMaxSpeed _ inner
        (highlights _ remembered) fine
    exact ⟨earlier, (s.opened_unstopped program lines).trans unstopped, shows, after⟩

theorem Scheduler.showing_tick {σ φ : Type} [Interpreter σ] {s : Scheduler σ φ}
    {operation : Operation σ φ} (ticks : operation.ticks = true) (q : Progress σ) :
    (s.showing operation q).lastSelected =
      if q.burst.reachedBreak && s.clock.atMaxSpeed then q.line.or q.live.lastSelected
      else q.live.lastSelected := by
  rw [showing, if_pos ticks, shown]
  split
  · exact Live.select_remembers _ _ _
  · rfl

variable {φ : Type} {s : Scheduler Machine φ} {operation : Operation Machine φ}

theorem Reachable.highlighted (reachable : Reachable s) : s.Highlighted := by
  induction reachable with
  | new => rfl
  | perform _ _ ih => exact ih.perform _

theorem Bursts.marks {live : Live Machine} {request : Request} {q : Progress Machine}
    {ending : Ending} (reachable : Reachable s) (given : operation.Given)
    (runs : Bursts s operation live request)
    (ends : live.burst s.breakpoints request s.settings.tickBudget = (q, ending))
    (fine : ∀ error line, ending ≠ .failed error line)
    (rests : q.live.controller.isAtRest = true) : q.Marks request := by
  have uncut : (live.burst s.breakpoints request s.settings.tickBudget).2 ≠ .cutOff := by
    unfold Live.burst
    exact runs.uncut reachable given
  rw [ends] at uncut
  exact burst_marks (runs.sound (fun _ here => reachable.sound here) given)
    (runs.silent reachable.silent) runs.active ends uncut fine rests

/-- When the host is told of a stop on a line that no command to pause has made, that line is the last
one that it was shown in the run. There are two exceptions. A dispatch at full speed does not show the
line of the breakpoint or the entry at which it has just arrived, where the program stands; and a step
operation may end where a poll of the user's has handed out a callback, outside the text, when the
place of an older stop is told. -/
theorem stop_told_highlighted (reachable : Reachable s) (given : operation.Given)
    {before after : List HostEvent} {reason : StopReason} {state : Debug.PauseState} {line : Nat}
    (told : (s.perform operation).events = before ++ .stopped reason state :: after)
    (fresh : s.events <+: before) (other : reason ≠ .pause) (place : state.line = some line) :
    highlight before = some line ∨
      ∃ (live : Live Machine) (request : Request) (q : Progress Machine) (ending : Ending),
        Bursts s operation live request ∧
        live.burst s.breakpoints request s.settings.tickBudget = (q, ending) ∧
        (operation.ticks = false ∧ s.clock.atMaxSpeed = true ∧ q.burst.reachedBreak = true ∧
            q.line = some line ∨
          reason = .step ∧ q.HandsOut) := by
  have member : .stopped reason state ∈ s.stopsOf operation := by
    obtain ⟨more, same, stops⟩ :=
      (Scheduler.perform_adds operation reachable.silent).events (s.perform_prefix operation)
    obtain ⟨earlier, rfl⟩ := fresh
    rw [told, List.append_assoc, List.append_cancel_left_eq] at same
    rw [← stops, ← same]
    exact List.mem_filter.mpr ⟨by simp, rfl⟩
  cases Scheduler.stopsOf_tells reachable.silent member with
  | noStop stop => cases stop
  | pause => exact absurd rfl other
  | @burst live request q ending _ runs ends fine left =>
    have rests : q.live.controller.isAtRest = true := by
      rw [← burst_told (runs.silent reachable.silent) runs.active ends fine, left]
      rfl
    have stopsAt := runs.stopsAt reachable.highlighted ends fine
    rw [stopEvents, left] at stopsAt
    rw [stopsAt.before rfl told fresh]
    have stop : q.stopLine = some line := place
    -- The line was shown, or a dispatch that has just arrived owes it, or a step ended outside.
    cases runs.marks reachable given ends fine rests with
    | shown shows =>
      left
      cases ticks : operation.ticks with
      | false =>
        rw [Scheduler.showing, ticks]
        exact shows line stop
      | true =>
        rw [Scheduler.showing_tick ticks, shows line stop]
        obtain ⟨-, atStop⟩ := runs.atStop reachable given (runs.ticking ticks) ends fine rests
        cases here : q.line with
        | none => simp
        | some now =>
          have same : q.stopLine = some now := by
            rw [stopLine, atStop now here]
            rfl
          rw [← same, stop]
          simp
    | owed fast reached here =>
      rw [runs.speed] at fast
      rw [stop] at here
      cases ticks : operation.ticks with
      | false => exact .inr ⟨live, request, q, ending, runs, ends, .inl ⟨rfl, fast, reached, here⟩⟩
      | true =>
        left
        rw [Scheduler.showing_tick ticks, reached, fast, here]
        rfl
    | outside handsOut steps =>
      have same : reason = .step := by
        rw [steps] at left
        exact (Option.some.inj left).symm
      exact .inr ⟨live, request, q, ending, runs, ends, .inr ⟨same, handsOut⟩⟩

/-- The first tick at full speed shows the line of the breakpoint before it tells of the stop. -/
theorem watching_highlights : ∃ loaded, Script.load calling = .ok loaded ∧
    let start : Operation Machine Unit := .start loaded.machine loaded.text.lineMap 0 0
    let state : Debug.PauseState := ⟨true, true, .run, some 4, some 2⟩
    ∃ before after, (watching.perform start).events = before ++ .stopped .breakpoint state :: after ∧
      watching.events <+: before ∧ StopReason.breakpoint ≠ .pause ∧ highlight before = some 4 := by
  have computed : (Script.load calling).toOption.any (fun loaded =>
      (watching.perform (.start loaded.machine loaded.text.lineMap 0 0)).events ==
        [.pauseChanged ⟨true, false, .run, none, none⟩, .selected 4, .selected 4] ++
          .stopped .breakpoint ⟨true, true, .run, some 4, some 2⟩ ::
            [.pauseChanged ⟨true, true, .run, some 4, some 2⟩]) = true := by
    decide +kernel
  obtain ⟨loaded, read, holds⟩ := load_any computed
  have told := beq_iff_eq.mp holds
  have fresh : watching.events <+: [.pauseChanged ⟨true, false, .run, none, none⟩, .selected 4,
      .selected 4] := List.nil_prefix
  refine ⟨loaded, read, _, _, told, fresh, by decide, ?_⟩
  rcases stop_told_highlighted watching_reachable (.load read 0 0) told fresh (by decide) rfl with
    shown | ⟨-, -, -, -, -, -, ⟨dispatch, -⟩ | ⟨steps, -⟩⟩
  · exact shown
  · cases dispatch
  · cases steps

def printingTwice : List Char := "print 1\nprint 2\nfunc f\nend\n".toList

def breakingLate (loaded : Loaded) : Scheduler Machine Unit :=
  Scheduler.performAll (.new { Settings.default with tickBudget := 1 } none)
    [.start loaded.machine loaded.text.lineMap 0 0, .command (.setBreakpoints [1])]

/-- The dispatch tells of a stop on the line, and no line has been shown. -/
theorem breakingLate_shows_nothing : ∃ loaded, Script.load printingTwice = .ok loaded ∧
    let s := breakingLate loaded
    let state : Debug.PauseState := ⟨true, true, .run, some 1, some 2⟩
    (s.perform (.dispatch ⟨"f", []⟩ 0)).events =
        s.events ++ .stopped .breakpoint state :: [.pauseChanged state] ∧
      state.line = some 1 ∧ highlight s.events = none := by
  have computed : (Script.load printingTwice).toOption.any (fun loaded =>
      let s := breakingLate loaded
      let state : Debug.PauseState := ⟨true, true, .run, some 1, some 2⟩
      (s.perform (.dispatch ⟨"f", []⟩ 0)).events ==
          s.events ++ .stopped .breakpoint state :: [.pauseChanged state] &&
        highlight s.events == none) = true := by
    decide +kernel
  obtain ⟨loaded, read, holds⟩ := load_any computed
  simp only [Bool.and_eq_true, beq_iff_eq] at holds
  exact ⟨loaded, read, holds.1, rfl, holds.2⟩

end Run

end Metronome
