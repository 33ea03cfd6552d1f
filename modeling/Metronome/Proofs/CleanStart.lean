import Metronome.Proofs.HostView
import Metronome.Proofs.Setup
import Metronome.Proofs.TickTokens

/-!
A start leaves nothing of earlier runs. Two schedulers that are set up alike and start the same
program go on alike under the same operations, but for the numbers of their runs: a start rebuilds
whatever else a scheduler holds, or the end of the run before has brought it back. `Mirrors` is kept
by every operation, with one lemma for each function of the scheduler.
-/
namespace Metronome.Run

open Metronome.Debug (Command)
open Metronome.Script (Loaded Machine load_any)

/-- Numbers of runs that correspond: from the first ones on they are in step, and older ones are
older. -/
structure Renumbering (first second : Nat) (number : Nat → Nat) : Prop where
  inStep : ∀ n, number (first + n) = second + n
  older : ∀ n, n < first → number n < second

namespace Renumbering

variable {first second : Nat} {number : Nat → Nat}

theorem here (numbers : Renumbering first second number) : number first = second :=
  numbers.inStep 0

theorem next (numbers : Renumbering first second number) :
    Renumbering (first + 1) (second + 1) number where
  inStep n := by
    rw [Nat.add_assoc, numbers.inStep, Nat.add_assoc]
  older n less := by
    rcases Nat.lt_succ_iff_lt_or_eq.mp less with older | rfl
    · exact Nat.lt_succ_of_lt (numbers.older n older)
    · rw [numbers.here]
      exact Nat.lt_succ_self second

theorem current (numbers : Renumbering first second number) {n : Nat} :
    number n = second ↔ n = first := by
  constructor
  · intro same
    rcases Nat.lt_or_ge n first with less | more
    · have older := numbers.older n less
      omega
    · obtain ⟨k, rfl⟩ := Nat.exists_eq_add_of_le more
      have later := numbers.inStep k
      omega
  · rintro rfl
    exact numbers.here

end Renumbering

def PendingTick.renumbered (number : Nat → Nat) (tick : PendingTick) : PendingTick :=
  { tick with run := number tick.run }

def Operation.renumbered {σ φ : Type} (number : Nat → Nat) : Operation σ φ → Operation σ φ
  | .tick token began ended => .tick (token.renumbered number) began ended
  | operation => operation

namespace FinishRule

variable {φ : Type}

/-- The same rule, whose decisions do not depend on what it remembers. -/
structure Same (rule other : FinishRule φ) : Prop where
  decide : other.decide = rule.decide
  stateless : ∀ memory others status,
    (rule.decide memory status).2 = (rule.decide others status).2

def Agree (rule other : FinishRule φ) : Prop :=
  ∃ alike : φ → φ → Prop, alike rule.memory other.memory ∧
    ∀ memory others status, alike memory others →
      (other.decide others status).2 = (rule.decide memory status).2 ∧
        alike (rule.decide memory status).1 (other.decide others status).1

theorem Agree.refl (rule : FinishRule φ) : rule.Agree rule :=
  ⟨Eq, rfl, fun memory others status same => by cases same; exact ⟨rfl, rfl⟩⟩

theorem Same.agree {rule other : FinishRule φ} (same : rule.Same other) : rule.Agree other := by
  refine ⟨fun _ _ => True, trivial, fun memory others status _ => ⟨?_, trivial⟩⟩
  rw [same.decide]
  exact same.stateless others memory status

end FinishRule

variable {σ φ : Type}

namespace Scheduler

structure Alike (before after : Array Notice) (s t : Scheduler σ φ) : Prop where
  settings : t.settings = s.settings
  clock : t.clock = s.clock
  breakpoints : t.breakpoints = s.breakpoints
  finish : Option.Rel FinishRule.Agree s.finish t.finish
  reported : t.reported = s.reported
  told : ∃ notices, s.notices = before ++ notices ∧ t.notices = after ++ notices

structure Mirrors (number : Nat → Nat) (before after : Array Notice) (s t : Scheduler σ φ) : Prop
    extends Alike before after s t where
  live : t.live = s.live
  outcome : t.outcome = s.outcome
  pending : t.pending = s.pending.map (PendingTick.renumbered number)
  numbers : Renumbering s.runNumber t.runNumber number

namespace Mirrors

variable {number : Nat → Nat} {before after : Array Notice} {s t : Scheduler σ φ}
  (mirrors : Mirrors number before after s t)

include mirrors

theorem relive (live : Option (Live σ)) :
    Mirrors number before after { s with live } { t with live } :=
  { mirrors with live := rfl }

theorem decided (outcome : Option Outcome) :
    Mirrors number before after { s with outcome } { t with outcome } :=
  { mirrors with outcome := rfl }

theorem cleared :
    Mirrors number before after { s with live := (none : Option (Live σ)), pending := none }
      { t with live := (none : Option (Live σ)), pending := none } :=
  { mirrors with live := rfl, pending := rfl }

theorem ruled {rule other : FinishRule φ} (agree : rule.Agree other) :
    Mirrors number before after { s with finish := some rule } { t with finish := some other } :=
  { mirrors with finish := .some agree }

theorem tell (event : HostEvent) : Mirrors number before after (s.tell event) (t.tell event) := by
  obtain ⟨notices, left, right⟩ := mirrors.told
  refine { mirrors with told := ⟨notices.push (.told event), ?_, ?_⟩ }
  · rw [Scheduler.tell, left, Array.append_push]
  · rw [Scheduler.tell, right, Array.append_push]

theorem takesDown (live : Live σ) (more : Array Notice) :
    Mirrors number before after { s with live := some live, notices := s.notices ++ more }
      { t with live := some live, notices := t.notices ++ more } := by
  obtain ⟨notices, left, right⟩ := mirrors.told
  refine { mirrors with live := rfl, told := ⟨notices ++ more, ?_, ?_⟩ }
  · rw [left, Array.append_assoc]
  · rw [right, Array.append_assoc]

theorem scheduled : Mirrors number before after s.scheduled t.scheduled := by
  refine { mirrors with pending := ?_ }
  change some (t.clock.nextTick t.runNumber) =
    some ((s.clock.nextTick s.runNumber).renumbered number)
  rw [mirrors.clock, ← mirrors.numbers.here]
  rfl

theorem reportPauseState : Mirrors number before after s.reportPauseState t.reportPauseState := by
  have same : t.pauseState = s.pauseState := by simp only [pauseState, mirrors.live]
  unfold Scheduler.reportPauseState
  rw [same, mirrors.reported]
  split
  · exact mirrors
  · exact { mirrors.tell (.pauseChanged s.pauseState) with reported := rfl }

theorem reportStop : Mirrors number before after s.reportStop t.reportStop := by
  unfold Scheduler.reportStop
  rw [mirrors.live]
  split
  · exact mirrors
  · dsimp only
    split
    · exact ((mirrors.relive _).tell _).reportPauseState
    · exact (mirrors.relive _).reportPauseState

theorem endRun (outcome : Outcome) :
    Mirrors number before after (s.endRun outcome) (t.endRun outcome) := by
  unfold Scheduler.endRun
  rw [mirrors.live]
  split
  · exact mirrors
  · exact ((mirrors.cleared.tell _).decided (some outcome)).reportPauseState

theorem failRun (error : StepError) (line : Option Nat) :
    Mirrors number before after (s.failRun error line) (t.failRun error line) := by
  unfold Scheduler.failRun
  rw [mirrors.live]
  split
  · exact mirrors
  · exact ((mirrors.tell _).tell _).endRun _

theorem beginStep (mode : Debug.StepMode) :
    Mirrors number before after (s.beginStep mode) (t.beginStep mode) := by
  unfold Scheduler.beginStep
  rw [mirrors.live]
  split
  · exact mirrors
  · exact (mirrors.relive _).reportPauseState

theorem apply (command : Command) :
    Mirrors number before after (s.apply command) (t.apply command) := by
  cases command with
  | pause =>
    rw [Scheduler.apply, Scheduler.apply, pause, pause, mirrors.live]
    split
    · exact mirrors
    · dsimp only
      split
      · exact (mirrors.relive _).reportStop
      · exact mirrors
  | resume =>
    rw [Scheduler.apply, Scheduler.apply, resume, resume, mirrors.live]
    split
    · exact mirrors
    · split
      · exact (mirrors.relive _).reportPauseState
      · exact mirrors
  | stepIn => exact mirrors.beginStep _
  | stepOver => exact mirrors.beginStep _
  | stepOut =>
    rw [Scheduler.apply, Scheduler.apply, stepOut, stepOut, mirrors.live]
    split
    · exact mirrors.beginStep _
    · exact mirrors
  | toggleBreakpoint line =>
    exact { mirrors with breakpoints := congrArg (·.toggle line) mirrors.breakpoints }
  | setBreakpoints lines => exact { mirrors with breakpoints := rfl }
  | setSpeed speed => exact { mirrors with clock := congrArg (·.setSpeed speed) mirrors.clock }
  | stop => exact mirrors.endRun _

theorem consult (live : Live σ) :
    Mirrors number before after (s.consult live) (t.consult live) := by
  have agree := mirrors.finish
  unfold Scheduler.consult
  generalize s.finish = rule at agree ⊢
  generalize t.finish = other at agree ⊢
  cases agree with
  | none => exact mirrors
  | @some rule other agree =>
    obtain ⟨alike, now, always⟩ := agree
    obtain ⟨same, next⟩ := always rule.memory other.memory (statusOf live) now
    have agree : FinishRule.Agree
        { rule with memory := (rule.decide rule.memory (statusOf live)).1 }
        { other with memory := (other.decide other.memory (statusOf live)).1 } :=
      ⟨alike, next, always⟩
    have remembers := mirrors.ruled agree
    dsimp only
    rw [same]
    cases (rule.decide rule.memory (statusOf live)).2 with
    | none => exact remembers
    | some outcome => exact remembers.endRun outcome

variable [Interpreter σ]

theorem checkFinished : Mirrors number before after s.checkFinished t.checkFinished := by
  unfold Scheduler.checkFinished
  rw [mirrors.live, mirrors.settings]
  split
  · exact mirrors
  · split
    · exact mirrors.endRun _
    · split
      · exact mirrors.endRun _
      · exact mirrors.consult _

theorem closeTick (live : Live σ) (now : Instant) :
    Mirrors number before after (s.closeTick live now) (t.closeTick live now) :=
  (mirrors.relive _).reportStop.checkFinished

theorem settle (atMaxSpeed : Bool) (ended : Instant) (result : Progress σ × Ending) :
    Mirrors number before after (s.settle atMaxSpeed ended result)
      (t.settle atMaxSpeed ended result) := by
  obtain ⟨p, ending⟩ := result
  have noted : ∀ notices live, Mirrors number before after
      (Scheduler.closeTick { s with notices := s.notices ++ notices } live ended)
      (Scheduler.closeTick { t with notices := t.notices ++ notices } live ended) :=
    fun notices live => checkFinished (reportStop (mirrors.takesDown _ notices))
  cases ending with
  | failed error line => exact (mirrors.takesDown p.live p.notices).failRun error line
  | _ => exact noted _ _

theorem onTick (tick : PendingTick) (began ended : Instant) :
    Mirrors number before after (s.onTick tick began ended)
      (t.onTick (tick.renumbered number) began ended) := by
  -- A token is current in both or stale in both, since the numbers correspond.
  by_cases stale : s.live = none ∨ tick.run ≠ s.runNumber
  · have others : t.live = none ∨ (tick.renumbered number).run ≠ t.runNumber := by
      rw [mirrors.live]
      exact stale.imp_right (mt mirrors.numbers.current.mp)
    rw [onTick_stale began ended stale, onTick_stale began ended others]
    exact mirrors
  · obtain ⟨running, same⟩ := not_or.mp stale
    obtain ⟨live, here⟩ := Option.ne_none_iff_exists'.mp running
    have there : t.live = some live := mirrors.live.trans here
    have current : tick.run = s.runNumber := not_not.mp same
    have others : (tick.renumbered number).run = t.runNumber := mirrors.numbers.current.mpr current
    cases steps : live.controller.beginTick.2 with
    | true =>
      rw [onTick_steps began ended here current steps, onTick_steps began ended there others steps,
        tickRequest, tickRequest, mirrors.clock, mirrors.settings, mirrors.breakpoints]
      exact mirrors.scheduled.settle _ _ _
    | false =>
      rw [onTick_rests began ended here current steps, onTick_rests began ended there others steps]
      exact mirrors.scheduled.closeTick _ _

omit [Interpreter σ] in
theorem answer (result : Progress σ × Ending) :
    Mirrors number before after (s.answer result).1 (t.answer result).1 ∧
      (t.answer result).2 = (s.answer result).2 := by
  obtain ⟨p, ending⟩ := result
  have noted : ∀ live, Mirrors number before after
      (Scheduler.afterBurst s { p with live }).reportStop
      (Scheduler.afterBurst t { p with live }).reportStop :=
    fun live => (mirrors.takesDown live p.notices).reportStop
  cases ending with
  | failed error line => exact ⟨(mirrors.takesDown p.live p.notices).failRun error line, rfl⟩
  | _ => exact ⟨noted _, rfl⟩

theorem dispatch (callback : Callback) (now : Instant) :
    Mirrors number before after (s.dispatch callback now).1 (t.dispatch callback now).1 ∧
      (t.dispatch callback now).2 = (s.dispatch callback now).2 := by
  cases here : s.live with
  | none =>
    simp only [Scheduler.dispatch, mirrors.live, here]
    exact ⟨mirrors, trivial⟩
  | some live =>
    have there : t.live = some live := mirrors.live.trans here
    cases paused : live.controller.isPaused with
    | true =>
      simp only [Scheduler.dispatch, here, there, paused, if_true]
      exact ⟨{ mirrors with live := rfl }, trivial⟩
    | false =>
      rw [dispatch_answers callback now here paused, dispatch_answers callback now there paused,
        dispatchRequest, dispatchRequest, mirrors.clock, mirrors.settings, mirrors.breakpoints]
      exact mirrors.answer _

end Mirrors

section

variable {number : Nat → Nat} {before after : Array Notice} {s t : Scheduler σ φ}

theorem reportPauseState_scheduled (s : Scheduler σ φ) :
    s.reportPauseState.scheduled = s.scheduled.reportPauseState := by
  have same : s.scheduled.pauseState = s.pauseState := rfl
  unfold reportPauseState
  rw [same, show s.scheduled.reported = s.reported from rfl]
  split <;> rfl

theorem Alike.opened (alike : Alike before after s.stop t.stop)
    (numbers : Renumbering (s.runNumber + 1) (t.runNumber + 1) number) (program : σ)
    (lines : LineMap) :
    Mirrors number before after (s.opened program lines).scheduled
      (t.opened program lines).scheduled := by
  rw [Scheduler.opened, Scheduler.opened, reportPauseState_scheduled, reportPauseState_scheduled,
    stop_number, stop_number, alike.settings]
  apply Mirrors.reportPauseState
  refine { alike with live := rfl, outcome := rfl, pending := ?_, numbers := numbers }
  change some (t.stop.clock.nextTick (t.runNumber + 1)) =
    some ((s.stop.clock.nextTick (s.runNumber + 1)).renumbered number)
  rw [alike.clock, ← numbers.here]
  rfl

variable [Interpreter σ]

theorem Alike.start (alike : Alike before after s.stop t.stop)
    (numbers : Renumbering (s.runNumber + 1) (t.runNumber + 1) number) (program : σ)
    (lines : LineMap) (began ended : Instant) :
    Mirrors number before after (s.start program lines began ended)
      (t.start program lines began ended) := by
  have opened := alike.opened numbers program lines
  have settings : t.settings = s.settings := by
    rw [← (endRun_keeps t .stopped).1, ← (endRun_keeps s .stopped).1]
    exact alike.settings
  cases entry : s.settings.pauseOnEntry with
  | true =>
    rw [start_opened, start_opened, settings, if_pos entry, if_pos entry]
    exact opened
  | false =>
    obtain ⟨-, clock, breakpoints, -⟩ := endRun_keeps s .stopped
    obtain ⟨-, clocks, others, -⟩ := endRun_keeps t .stopped
    have sameClock : t.clock = s.clock := clocks.symm.trans (alike.clock.trans clock)
    have samePoints : t.breakpoints = s.breakpoints :=
      others.symm.trans (alike.breakpoints.trans breakpoints)
    rw [start_steps program lines began ended entry,
      start_steps program lines began ended (settings ▸ entry), tickRequest, tickRequest, sameClock,
      samePoints, settings]
    exact opened.settle _ _ _

/-- Every operation keeps two schedulers going on alike. -/
theorem Mirrors.perform (mirrors : Mirrors number before after s t) (operation : Operation σ φ) :
    Mirrors number before after (s.perform operation)
      (t.perform (operation.renumbered number)) := by
  cases operation with
  | install rule => exact mirrors.ruled (.refl rule)
  | start program lines began ended =>
    have stopped := mirrors.endRun .stopped
    have numbers := stopped.numbers
    rw [show (s.endRun .stopped).runNumber = s.runNumber from s.stop_number,
      show (t.endRun .stopped).runNumber = t.runNumber from t.stop_number] at numbers
    exact stopped.toAlike.start numbers.next program lines began ended
  | take => exact { mirrors with pending := rfl }
  | tick tick began ended => exact mirrors.onTick tick began ended
  | dispatch callback now => exact (mirrors.dispatch callback now).1
  | command command => exact mirrors.apply command
  | reset =>
    exact { mirrors.endRun .stopped with breakpoints := rfl, outcome := rfl, pending := rfl }

theorem Mirrors.performAll (mirrors : Mirrors number before after s t)
    (operations : List (Operation σ φ)) :
    Mirrors number before after (s.performAll operations)
      (t.performAll (operations.map (Operation.renumbered number))) := by
  induction operations generalizing s t with
  | nil => exact mirrors
  | cons operation operations ih => exact ih (mirrors.perform operation)

end

variable [Interpreter σ]

structure SeenAlike (number : Nat → Nat) (s t : Scheduler σ φ) : Prop where
  live : t.live = s.live
  clock : t.clock = s.clock
  breakpoints : t.breakpoints = s.breakpoints
  outcome : t.outcome = s.outcome
  pending : t.pending = s.pending.map (PendingTick.renumbered number)
  runNumber : t.runNumber = number s.runNumber
  answers : ∀ callback now, (t.dispatch callback now).2 = (s.dispatch callback now).2

/-- Whatever program two schedulers start and whatever is done then, the hosts are told the same
after the end of the runs before, and cannot tell the schedulers apart. -/
def StartAlike (s t : Scheduler σ φ) : Prop :=
  ∀ (program : σ) (lines : LineMap) (began ended : Instant) (number : Nat → Nat),
    Renumbering (s.runNumber + 1) (t.runNumber + 1) number → ∀ operations : List (Operation σ φ),
      let u := (s.start program lines began ended).performAll operations
      let v := (t.start program lines began ended).performAll
        (operations.map (Operation.renumbered number))
      SeenAlike number u v ∧
        ∃ told, u.events = s.stop.events ++ told ∧ v.events = t.stop.events ++ told

theorem Mirrors.seenAlike {number : Nat → Nat} {before after : Array Notice} {s t : Scheduler σ φ}
    (mirrors : Mirrors number before after s t) : SeenAlike number s t where
  live := mirrors.live
  clock := mirrors.clock
  breakpoints := mirrors.breakpoints
  outcome := mirrors.outcome
  pending := mirrors.pending
  runNumber := mirrors.numbers.here.symm
  answers callback now := (mirrors.dispatch callback now).2

omit [Interpreter σ] in
theorem UpToDate.stop_idle {s : Scheduler σ φ} (known : s.UpToDate) : s.stop.reported = .idle := by
  have stopped : s.stop.UpToDate := known.ends .stopped
  have gone : s.stop.live = none := endRun_live s .stopped
  rw [stopped.current, pauseState, gone]

theorem startAlike_of {s t : Scheduler σ φ} (settings : t.settings = s.settings)
    (clock : t.clock = s.clock) (breakpoints : t.breakpoints = s.breakpoints)
    (finish : Option.Rel FinishRule.Agree s.finish t.finish) (known : s.UpToDate)
    (others : t.UpToDate) : StartAlike s t := by
  intro program lines began ended number numbers operations u v
  have stopped := endRun_keeps s .stopped
  have stops := endRun_keeps t .stopped
  have alike : Alike s.stop.notices t.stop.notices s.stop t.stop := {
    settings := stops.1.trans (settings.trans stopped.1.symm)
    clock := stops.2.1.trans (clock.trans stopped.2.1.symm)
    breakpoints := stops.2.2.1.trans (breakpoints.trans stopped.2.2.1.symm)
    finish := by rw [stop, stop, stopped.2.2.2, stops.2.2.2]; exact finish
    reported := others.stop_idle.trans known.stop_idle.symm
    told := ⟨#[], Array.append_empty.symm, Array.append_empty.symm⟩ }
  have mirrors := (alike.start numbers program lines began ended).performAll operations
  obtain ⟨notices, left, right⟩ := mirrors.told
  refine ⟨mirrors.seenAlike, Run.events notices, ?_, ?_⟩
  · rw [events, show u.notices = _ from left, events_append, events]
  · rw [events, show v.notices = _ from right, events_append, events]

theorem reset_startAlike {s t : Scheduler σ φ} (settings : t.settings = s.settings)
    (clock : t.clock = s.clock) (breakpoints : t.breakpoints = .empty)
    (finish : Option.Rel FinishRule.Agree s.finish t.finish) (known : s.UpToDate)
    (others : t.UpToDate) : StartAlike s.reset t := by
  have stopped := endRun_keeps s .stopped
  refine startAlike_of (settings.trans stopped.1.symm) (clock.trans stopped.2.1.symm) breakpoints ?_
    (known.perform .reset) others
  rw [show s.reset.finish = s.finish from stopped.2.2.2]
  exact finish

end Scheduler

theorem FinishRule.Same.agrees {rule other : Option (FinishRule φ)}
    (same : Option.Rel FinishRule.Same rule other) : Option.Rel FinishRule.Agree rule other := by
  cases same with
  | none => exact .none
  | some same => exact .some same.agree

open Scheduler (StartAlike startAlike_of reset_startAlike)

variable [Interpreter σ]

/-- A start leaves nothing of earlier runs. Take two schedulers with the same settings, and let them
have the same speed, the same breakpoints and the same rule, one that remembers nothing. Whatever
they did before, they start any program alike. And a reset brings a scheduler back to a new one that
was only given its speed. -/
theorem start_forgets (settings : Settings) (first second : Option (FinishRule φ))
    (earlier others : List (Operation σ φ)) :
    let s : Scheduler σ φ := (Scheduler.new settings first).performAll earlier
    let t : Scheduler σ φ := (Scheduler.new settings second).performAll others
    let fresh : Scheduler σ φ :=
      (Scheduler.new settings second).performAll (earlier.filter Operation.paces)
    (t.clock.speed = s.clock.speed →
      (∀ line, t.breakpoints.contains line = s.breakpoints.contains line) →
        Option.Rel FinishRule.Same s.finish t.finish → StartAlike s t) ∧
      fresh.clock = s.clock ∧ fresh.breakpoints = .empty ∧
      (Option.Rel FinishRule.Same s.finish second → StartAlike s.reset fresh) := by
  intro s t fresh
  have known : s.UpToDate := (new_upToDate settings first).performAll earlier
  have setup : ∀ rule (operations : List (Operation σ φ)),
      ((Scheduler.new settings rule).performAll operations).settings = settings :=
    fun rule operations => Scheduler.performAll_settings _ operations
  have paced : fresh = { Scheduler.new settings second with clock := s.clock } := by
    rw [show fresh = _ from Scheduler.performAll_paces _ _,
      show s.clock = _ from Scheduler.performAll_clock _ _]
    rfl
  have clock : fresh.clock = s.clock := by rw [paced]
  have none : fresh.breakpoints = .empty := by
    rw [paced]
    rfl
  have rule : fresh.finish = second := by
    rw [paced]
    rfl
  refine ⟨fun speed points finish => ?_, clock, none, fun finish => ?_⟩
  · have clocks : t.clock = s.clock := by
      apply Clock.ext speed
      rw [Scheduler.performAll_slowest, Scheduler.performAll_slowest]
      rfl
    have breakpoints : t.breakpoints = s.breakpoints :=
      (Scheduler.performAll_ascending .empty others).ext
        (Scheduler.performAll_ascending .empty earlier) points
    exact startAlike_of ((setup second others).trans (setup first earlier).symm) clocks breakpoints
      (FinishRule.Same.agrees finish) known ((new_upToDate settings second).performAll others)
  · apply reset_startAlike ((setup second _).trans (setup first earlier).symm) clock none _ known
    · exact (new_upToDate settings second).performAll _
    · rw [rule]
      exact FinishRule.Same.agrees finish

def failing (loaded : Loaded) : List (Operation Machine Unit) :=
  [.start loaded.machine loaded.text.lineMap 0 0, .dispatch ⟨"f", []⟩ 0,
    .command (.setBreakpoints [2])]

/-- After a failed run a start goes on as after none: it stops at the breakpoint. -/
theorem failing_starts_anew : ∃ loaded, Script.load misnaming = .ok loaded ∧
    let calls : List (Operation Machine Unit) := [.dispatch ⟨"f", []⟩ 0]
    let idle : Scheduler Machine Unit := .new .default none
    let s := idle.performAll (failing loaded)
    let t := idle.performAll [.command (.toggleBreakpoint 2)]
    let u := (s.start loaded.machine loaded.text.lineMap 0 0).performAll calls
    let v := (t.start loaded.machine loaded.text.lineMap 0 0).performAll calls
    s.outcome = some (.failed "`x` is not defined" (some 2)) ∧ t.outcome = none ∧
      Scheduler.SeenAlike (fun run => run - 1) u v ∧
      (∃ told, u.events = s.stop.events ++ told ∧ v.events = told ∧
        .stopped .breakpoint ⟨true, true, .run, some 2, some 7⟩ ∈ told) ∧
      StartAlike s.reset idle := by
  have computed : (Script.load misnaming).toOption.any (fun loaded =>
      let idle : Scheduler Machine Unit := .new .default none
      let s := idle.performAll (failing loaded)
      let t := idle.performAll [.command (.toggleBreakpoint 2)]
      let v := (t.start loaded.machine loaded.text.lineMap 0 0).performAll [.dispatch ⟨"f", []⟩ 0]
      s.outcome == some (.failed "`x` is not defined" (some 2)) && s.finish.isNone &&
        s.runNumber == 1 &&
        v.events.contains (.stopped .breakpoint ⟨true, true, .run, some 2, some 7⟩)) = true := by
    decide +kernel
  obtain ⟨loaded, read, holds⟩ := load_any computed
  simp only [Bool.and_eq_true, beq_iff_eq, Option.isNone_iff_eq_none,
    List.contains_iff_mem] at holds
  obtain ⟨⟨⟨outcome, ruleless⟩, number⟩, stops⟩ := holds
  obtain ⟨anew, -, -, resets⟩ := start_forgets .default none none (failing loaded)
    [.command (.toggleBreakpoint 2)]
  have numbers : Renumbering 2 1 (fun run => run - 1) := {
    inStep := fun n => by omega
    older := fun n less => by omega }
  have begins := anew
    (by rw [Scheduler.performAll_clock, Scheduler.performAll_clock]; rfl)
    (fun line => by rw [Scheduler.performAll_breakpoints, Scheduler.performAll_breakpoints]; rfl)
    (by rw [ruleless]; exact .none)
  obtain ⟨seen, told, first, second⟩ := begins loaded.machine loaded.text.lineMap 0 0
    (fun run => run - 1) (by rw [number]; exact numbers) [.dispatch ⟨"f", []⟩ 0]
  have alone : Scheduler.events _ = told := second
  subst alone
  exact ⟨loaded, read, outcome, rfl, seen, ⟨_, first, rfl, stops⟩,
    resets (by rw [ruleless]; exact .none)⟩

end Metronome.Run
