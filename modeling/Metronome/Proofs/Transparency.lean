import Metronome.Proofs.Alone

namespace Metronome.Run

open Metronome.Debug (Breakpoints Command Controller Cursor)
open Metronome.Script (Accepted Loaded Machine Shift Unasked)

/-- A machine that steps on its own: what it has printed, the user's line that ran last, and the
message and the line of the step that failed. -/
structure Alone where
  program : Machine
  printed : List String
  lastLine : Option Nat
  failure : Option (String × Option Nat)

namespace Alone

def step (lines : LineMap) (a : Alone) : Alone :=
  match a.failure with
  | some _ => a
  | none =>
    let line := Cursor.lineOf a.program lines
    let (stepped, heard) := a.program.stepAlone
    { program := stepped.state
      printed := a.printed ++ heard.printed
      lastLine := line.or a.lastLine
      failure := stepped.error.map fun error =>
        (error.message, ((error.offset.bind lines.userLine).or line).or (line.or a.lastLine)) }

def after (loaded : Loaded) : Nat → Alone
  | 0 => ⟨loaded.machine, [], none, none⟩
  | n + 1 => (after loaded n).step loaded.text.lineMap

theorem step_failed {lines : LineMap} {a : Alone} {failure : String × Option Nat}
    (failed : a.failure = some failure) : a.step lines = a := by
  unfold step
  rw [failed]

theorem step_printed (lines : LineMap) (a : Alone) : a.printed <+: (a.step lines).printed := by
  unfold step
  split
  · exact List.prefix_rfl
  · exact List.prefix_append _ _

theorem after_printed {loaded : Loaded} {n m : Nat} (le : n ≤ m) :
    (after loaded n).printed <+: (after loaded m).printed := by
  induction le with
  | refl => exact List.prefix_rfl
  | step _ ih => exact ih.trans (step_printed _ _)

theorem after_failed {loaded : Loaded} {n m : Nat} {failure : String × Option Nat}
    (failed : (after loaded n).failure = some failure) (le : n ≤ m) :
    after loaded m = after loaded n := by
  induction le with
  | refl => rfl
  | step _ ih =>
    rw [after, ih]
    exact step_failed failed

end Alone

/-- A live run that has come as far as its program alone after some steps. The line that ran last
may already be the one that runs next. -/
structure Follows (loaded : Loaded) (n : Nat) (live : Live Machine) : Prop where
  program : live.program = (Alone.after loaded n).program
  lines : live.lines = loaded.text.lineMap
  queue : live.queue = []
  timers : live.timers.nextNumber = 0 → live.timers = .empty
  unasked : Unasked live.program.stack
  lastLine : (Cursor.lineOf live.program live.lines).or live.lastLine =
    (Cursor.lineOf live.program live.lines).or (Alone.after loaded n).lastLine
  fine : (Alone.after loaded n).failure = none

def TellsAlone (loaded : Loaded) (start now : Nat) (notices : Array Notice) : Prop :=
  ∃ lines, transcript notices = lines.map .output ∧
    (Alone.after loaded now).printed = (Alone.after loaded start).printed ++ lines

theorem TellsAlone.of_transcript {loaded : Loaded} {start now : Nat}
    {notices other : Array Notice} (tells : TellsAlone loaded start now notices)
    (same : transcript other = transcript notices) : TellsAlone loaded start now other := by
  obtain ⟨lines, told, printed⟩ := tells
  exact ⟨lines, same.trans told, printed⟩

namespace Progress

theorem stepped_alone (request : Request) {p : Progress Machine} (empty : p.live.queue = [])
    (unasked : Unasked p.live.program.stack) :
    (p.stepped request).1 = p.live.program.stepAlone.1 ∧
      (p.stepped request).2.queue = [] ∧
      (p.stepped request).2.response.seenEmptyQueue =
        (p.live.response.seenEmptyQueue || p.live.program.stepAlone.2.asked) ∧
      transcript (p.stepped request).2.notices =
        transcript p.notices ++ p.live.program.stepAlone.2.printed.map .output := by
  obtain ⟨result, queue, seen, told⟩ := Bridge.run_quiet
    ⟨request, p.live.queue, p.live.timers, p.live.response,
      (p.noteLine request.atMaxSpeed p.line).notices⟩
    (Machine.step_quiet unasked) empty
  rw [transcript_noteLine] at told
  exact ⟨result, queue, seen, told⟩

theorem stepped_timers (request : Request) (p : Progress Machine)
    (fresh : p.live.timers.nextNumber = 0 → p.live.timers = .empty) :
    (p.stepped request).2.timers.nextNumber = 0 → (p.stepped request).2.timers = .empty := by
  intro unused
  rcases Bridge.run_timers p.live.program.step ⟨request, p.live.queue, p.live.timers,
    p.live.response, (p.noteLine request.atMaxSpeed p.line).notices⟩ with same | more
  · have kept : (p.stepped request).2.timers = p.live.timers := same
    rw [kept] at unused ⊢
    exact fresh unused
  · have grown : p.live.timers.nextNumber < (p.stepped request).2.timers.nextNumber := more
    omega

theorem Took.shift_alone {request : Request} {p q : Progress Machine} (took : Took request p q)
    (fine : (p.stepped request).1.error = none) (empty : p.live.queue = []) :
    ∃ answers, Shift p.live.program.functions p.live.program.stack answers q.live.program.stack ∧
      true ∉ answers := by
  obtain ⟨answers, shift, queue, -⟩ := took.shift fine
  refine ⟨answers, shift, ?_⟩
  rw [← List.count_eq_zero]
  rw [empty, List.length_nil] at queue
  omega

theorem Took.unasked {request : Request} {p q : Progress Machine} (took : Took request p q)
    (fine : (p.stepped request).1.error = none) (empty : p.live.queue = [])
    (unasked : Unasked p.live.program.stack) : Unasked q.live.program.stack := by
  obtain ⟨answers, shift, alone⟩ := took.shift_alone fine empty
  exact shift.unasked alone unasked

theorem after_step {loaded : Loaded} {n : Nat} {p : Progress Machine}
    (follows : Follows loaded n p.live) :
    Alone.after loaded (n + 1) =
      { program := p.live.program.stepAlone.1.state
        printed := (Alone.after loaded n).printed ++ p.live.program.stepAlone.2.printed
        lastLine := p.line.or p.live.lastLine
        failure := p.live.program.stepAlone.1.error.map fun error =>
          (error.message,
            ((error.offset.bind p.live.lines.userLine).or p.line).or
              (p.line.or p.live.lastLine)) } := by
  have noted : p.line.or p.live.lastLine = p.line.or (Alone.after loaded n).lastLine :=
    follows.lastLine
  rw [Alone.after, Alone.step, follows.fine, noted, line, follows.lines, ← follows.program]

theorem Took.tells {loaded : Loaded} {start n : Nat} {request : Request} {p q : Progress Machine}
    (took : Took request p q) (follows : Follows loaded n p.live)
    (tells : TellsAlone loaded start n p.notices) :
    TellsAlone loaded start (n + 1) q.notices := by
  obtain ⟨lines, told, printed⟩ := tells
  obtain ⟨-, -, -, more⟩ := stepped_alone request follows.queue follows.unasked
  refine ⟨lines ++ p.live.program.stepAlone.2.printed, ?_, ?_⟩
  · rw [took.notices, more, told, List.map_append]
  · rw [after_step follows, printed, List.append_assoc]

theorem Judged.follows {loaded : Loaded} {n : Nat} {request : Request} {p q : Progress Machine}
    (took : Judged request p q) (fine : (p.stepped request).1.error = none)
    (follows : Follows loaded n p.live) : Follows loaded (n + 1) q.live := by
  obtain ⟨result, queue, -, -⟩ := stepped_alone request follows.queue follows.unasked
  have next := after_step follows
  have fineAlone : p.live.program.stepAlone.1.error = none := result ▸ fine
  refine ⟨?_, took.lines.trans follows.lines, took.queue.trans queue, ?_,
    took.toTook.unasked fine follows.queue follows.unasked, ?_, ?_⟩
  · rw [took.program, result, next]
  · rw [took.timers]
    exact stepped_timers request p follows.timers
  · rw [took.lastLine, next]
  · rw [next, fineAlone]
    rfl

theorem Arrived.follows {loaded : Loaded} {n : Nat} {breakpoints : Breakpoints} {request : Request}
    {p q : Progress Machine} (after : Arrived breakpoints request p q)
    (follows : Follows loaded n p.live) : Follows loaded n q.live := by
  refine ⟨after.program.trans follows.program, after.lines.trans follows.lines,
    after.queue.trans follows.queue, after.timers ▸ follows.timers, after.program ▸ follows.unasked,
    ?_, follows.fine⟩
  have noted : p.line.or p.live.lastLine = p.line.or (Alone.after loaded n).lastLine :=
    follows.lastLine
  rw [after.lastLine, after.program, after.lines, noted, line]
  cases Cursor.lineOf p.live.program p.live.lines <;> rfl

end Progress

inductive Stands (loaded : Loaded) (start : Nat) (q : Progress Machine) : Option Ending → Prop where
  | going {n : Nat} {ending : Option Ending} (follows : Follows loaded n q.live)
      (tells : TellsAlone loaded start n q.notices)
      (fine : ∀ error line, ending ≠ some (.failed error line)) : Stands loaded start q ending
  | failed {n : Nat} {error : StepError} {line : Option Nat}
      (failure : (Alone.after loaded n).failure =
        some (error.message, Scheduler.failureLine q.live error line))
      (tells : TellsAlone loaded start n q.notices) :
      Stands loaded start q (some (.failed error line))

namespace Progress

theorem pass_stands {loaded : Loaded} {start n : Nat} {breakpoints : Breakpoints}
    {request : Request} {budget : Nat} {p q : Progress Machine} {ending : Option Ending}
    (follows : Follows loaded n p.live) (tells : TellsAlone loaded start n p.notices)
    (passed : p.pass breakpoints request budget = (q, ending)) : Stands loaded start q ending := by
  have spec := pass_spec breakpoints request budget p
  rw [passed] at spec
  cases spec with
  | stopped => exact .going follows tells (by simp)
  | exhausted => exact .going follows tells (by simp)
  | complete => exact .going follows tells (by simp)
  | arrived _ _ after =>
    refine .going (after.follows follows) (tells.of_transcript ?_) (by simp)
    rw [after.notices, transcript_noteLine]
  | failed _ _ fails after =>
    obtain ⟨result, -, -, -⟩ := stepped_alone request follows.queue follows.unasked
    rw [result] at fails
    refine .failed (n := n + 1) ?_ (after.tells follows tells)
    rw [after_step follows, fails, Scheduler.failureLine, after.lines, after.lastLine]
    rfl
  | stepped _ _ fine after =>
    exact .going (after.follows fine follows) (after.toTook.tells follows tells)
      (by split <;> simp)

end Progress

theorem burst_stands {loaded : Loaded} {n : Nat} {live : Live Machine} {breakpoints : Breakpoints}
    {request : Request} {budget : Nat} (follows : Follows loaded n live) :
    Stands loaded n (live.burst breakpoints request budget).1
      (some (live.burst breakpoints request budget).2) := by
  generalize ran : live.burst breakpoints request budget = result
  obtain ⟨q, ending⟩ := result
  unfold Live.burst at ran
  obtain ⟨r, reaches, last⟩ := Progress.passes_spec ran
  have begins : Follows loaded n (Progress.begin live).live :=
    ⟨follows.program, follows.lines, follows.queue, follows.timers, follows.unasked,
      follows.lastLine, follows.fine⟩
  have sofar : ∃ m, Follows loaded m r.live ∧ TellsAlone loaded n m r.notices := by
    refine reaches.keeps (fun r => ∃ m, Follows loaded m r.live ∧
      TellsAlone loaded n m r.notices) ⟨n, begins, [], rfl, by simp⟩ ?_
    rintro r s ⟨m, follows, tells⟩ passed
    cases Progress.pass_stands follows tells passed with
    | going follows tells => exact ⟨_, follows, tells⟩
  obtain ⟨m, followsNow, tells⟩ := sofar
  rcases last with ⟨rfl, rfl⟩ | passed
  · exact .going followsNow tells (by simp)
  · exact Progress.pass_stands followsNow tells passed

def Scheduler.Untimed {σ φ : Type} (s : Scheduler σ φ) : Prop :=
  ∀ live, s.live = some live → live.timers.nextNumber = 0

theorem Scheduler.onTick_untimed {σ φ : Type} [Interpreter σ] {s : Scheduler σ φ} {tick : PendingTick}
    {live : Live σ} (began ended : Instant) (here : s.live = some live)
    (current : tick.run = s.runNumber) (steps : live.controller.beginTick.2 = true)
    (unused : (live.ticked.burst s.breakpoints (s.tickRequest began)
      s.settings.tickBudget).1.live.timers.nextNumber = 0) :
    (s.onTick tick began ended).Untimed := by
  rw [Scheduler.onTick_steps began ended here current steps]
  generalize live.ticked.burst s.breakpoints (s.tickRequest began) s.settings.tickBudget = result
    at unused ⊢
  obtain ⟨p, ending⟩ := result
  intro after there
  have fine := (Scheduler.settle_leaves there).fine
  rw [Scheduler.settle_closes _ _ _ _ fine] at there
  obtain ⟨lastSelected, same⟩ := Scheduler.shown_live s.clock.atMaxSpeed p
  rcases Scheduler.closeTick_live { s.scheduled with
    notices := s.scheduled.notices ++ (Scheduler.shown s.clock.atMaxSpeed p).2 }
    (Scheduler.shown s.clock.atMaxSpeed p).1 ended with gone | kept
  · rw [gone] at there
    cases there
  · rw [kept, same] at there
    cases there
    exact unused

def Operation.IsUndisturbed {σ φ : Type} : Operation σ φ → Prop
  | .start _ _ _ _ => False
  | .dispatch _ _ => False
  | .reset => False
  | _ => True

/-- One run of a machine in a scheduler: ticks and commands in any order, without a dispatch and
without a timeout. -/
inductive Session (loaded : Loaded) {φ : Type} (s₀ : Scheduler Machine φ) :
    Scheduler Machine φ → Prop where
  | start (began ended : Instant)
      (untimed : (s₀.start loaded.machine loaded.text.lineMap began ended).Untimed) :
      Session loaded s₀ (s₀.start loaded.machine loaded.text.lineMap began ended)
  | perform {s : Scheduler Machine φ} {operation : Operation Machine φ}
      (before : Session loaded s₀ s) (undisturbed : operation.IsUndisturbed)
      (untimed : (s.perform operation).Untimed) : Session loaded s₀ (s.perform operation)

def HostEvent.output? : HostEvent → Option String
  | .output line => some line
  | _ => none

def HostEvent.failure? : HostEvent → Option (String × Option Nat)
  | .annotated line message => some (message, line)
  | _ => none

def Scheduler.since {φ : Type} (s₀ s : Scheduler Machine φ) : List HostEvent :=
  s.transcript.drop s₀.transcript.length

def programLines (events : List HostEvent) : List String :=
  if (events.filterMap HostEvent.failure?).isEmpty then events.filterMap HostEvent.output?
  else (events.filterMap HostEvent.output?).dropLast

def Scheduler.FailedSince {φ : Type} (s₀ s : Scheduler Machine φ) (message : String)
    (line : Option Nat) : Prop :=
  s.outcome = some (.failed message line) ∧ .annotated line message ∈ s₀.since s

inductive Stood (loaded : Loaded) {φ : Type} (s₀ s : Scheduler Machine φ) : Prop where
  | going {n : Nat} {events : List HostEvent} (told : s.transcript = s₀.transcript ++ events)
      (printed : events.filterMap HostEvent.output? = (Alone.after loaded n).printed)
      (fine : events.filterMap HostEvent.failure? = [])
      (follows : ∀ live, s.live = some live → Follows loaded n live)
  | failed {n : Nat} {events : List HostEvent} {failure : String × Option Nat} {report : String}
      (gone : s.live = none) (told : s.transcript = s₀.transcript ++ events)
      (failed : (Alone.after loaded n).failure = some failure)
      (printed : events.filterMap HostEvent.output? = (Alone.after loaded n).printed ++ [report])
      (annotated : events.filterMap HostEvent.failure? = [failure])

theorem filterMap_output (lines : List String) :
    (lines.map HostEvent.output).filterMap HostEvent.output? = lines := by
  simp [List.filterMap_map, Function.comp_def, HostEvent.output?]

theorem filterMap_failure (lines : List String) :
    (lines.map HostEvent.output).filterMap HostEvent.failure? = [] := by
  simp [List.filterMap_map, Function.comp_def, HostEvent.failure?]

theorem mute_output {events : List HostEvent} (mute : ∀ event ∈ events, event.isMute = true) :
    events.filterMap HostEvent.output? = [] ∧ events.filterMap HostEvent.failure? = [] := by
  simp only [List.filterMap_eq_nil_iff]
  constructor <;> intro event member <;> have quiet := mute event member <;>
    cases event <;> simp_all [HostEvent.isMute, HostEvent.output?, HostEvent.failure?]

theorem Stood.mute {loaded : Loaded} {φ : Type} {s₀ s t : Scheduler Machine φ}
    (stood : Stood loaded s₀ s) (told : GoesOnMute s.transcript t.transcript)
    (keeps : ∀ live, t.live = some live →
      ∃ before controller, s.live = some before ∧ live = { before with controller }) :
    Stood loaded s₀ t := by
  obtain ⟨more, told, mute⟩ := told
  obtain ⟨noOutput, noFailure⟩ := mute_output mute
  cases stood with
  | @going n events toldBefore printed fine follows =>
    have toldAll : t.transcript = s₀.transcript ++ (events ++ more) := by
      rw [told, toldBefore, List.append_assoc]
    refine .going toldAll
      (by rw [List.filterMap_append, printed, noOutput, List.append_nil])
      (by rw [List.filterMap_append, fine, noFailure, List.append_nil]) ?_
    intro live here
    obtain ⟨before, controller, hereBefore, rfl⟩ := keeps live here
    have same := follows before hereBefore
    exact ⟨same.program, same.lines, same.queue, same.timers, same.unasked, same.lastLine,
      same.fine⟩
  | @failed n events failure report gone toldBefore failed printed annotated =>
    have toldAll : t.transcript = s₀.transcript ++ (events ++ more) := by
      rw [told, toldBefore, List.append_assoc]
    refine .failed ?_ toldAll failed
      (by rw [List.filterMap_append, printed, noOutput, List.append_nil])
      (by rw [List.filterMap_append, annotated, noFailure, List.append_nil])
    cases here : t.live with
    | none => rfl
    | some live =>
      obtain ⟨before, -, hereBefore, -⟩ := keeps live here
      rw [gone] at hereBefore
      cases hereBefore

theorem Follows.relive {loaded : Loaded} {n : Nat} {live other : Live Machine}
    (follows : Follows loaded n live) (program : other.program = live.program)
    (lines : other.lines = live.lines) (queue : other.queue = live.queue)
    (timers : other.timers = live.timers) (lastLine : other.lastLine = live.lastLine) :
    Follows loaded n other := by
  refine ⟨program.trans follows.program, lines.trans follows.lines, queue.trans follows.queue,
    timers ▸ follows.timers, program ▸ follows.unasked, ?_, follows.fine⟩
  rw [program, lines, lastLine]
  exact follows.lastLine

theorem release_empty (now : Instant) (queue : Queue) :
    Timers.empty.release now queue = (.empty, queue) := by
  simp [Timers.release, Timers.due, Timers.empty]

theorem closeTick_stood {loaded : Loaded} {φ : Type} {s₀ s : Scheduler Machine φ}
    {live : Live Machine} {ended : Instant} {n : Nat} {events : List HostEvent}
    (told : s.transcript = s₀.transcript ++ events)
    (printed : events.filterMap HostEvent.output? = (Alone.after loaded n).printed)
    (fine : events.filterMap HostEvent.failure? = []) (follows : Follows loaded n live)
    (untimed : (s.closeTick live ended).Untimed) : Stood loaded s₀ (s.closeTick live ended) := by
  obtain ⟨more, toldMore, mute⟩ := Scheduler.closeTick_mute s live ended
  obtain ⟨noOutput, noFailure⟩ := mute_output mute
  have toldAll : (s.closeTick live ended).transcript = s₀.transcript ++ (events ++ more) := by
    rw [toldMore, told, List.append_assoc]
  refine .going toldAll
    (by rw [List.filterMap_append, printed, noOutput, List.append_nil])
    (by rw [List.filterMap_append, fine, noFailure, List.append_nil]) ?_
  intro after here
  rcases Scheduler.closeTick_live s live ended with gone | kept
  · rw [gone] at here
    cases here
  · have unused := untimed after here
    rw [kept] at here
    cases here
    have empty : live.timers = .empty := follows.timers unused
    refine follows.relive rfl rfl ?_ ?_ rfl
    · rw [empty, release_empty]
    · rw [empty, release_empty]

theorem settle_stood {loaded : Loaded} {φ : Type} {s₀ s : Scheduler Machine φ}
    {atMaxSpeed : Bool} {ended : Instant} {n : Nat} {events : List HostEvent}
    {result : Progress Machine × Ending} (told : s.transcript = s₀.transcript ++ events)
    (printed : events.filterMap HostEvent.output? = (Alone.after loaded n).printed)
    (fine : events.filterMap HostEvent.failure? = [])
    (stands : Stands loaded n result.1 (some result.2))
    (untimed : (s.settle atMaxSpeed ended result).Untimed) :
    Stood loaded s₀ (s.settle atMaxSpeed ended result) := by
  obtain ⟨p, ending⟩ := result
  generalize last : some ending = ends at stands
  cases stands with
  | @going m _ follows tells unfailed =>
    subst last
    rw [Scheduler.settle_closes s atMaxSpeed ended p fun error line same =>
      unfailed error line (congrArg some same)] at untimed ⊢
    obtain ⟨lines, toldLines, printedLines⟩ := tells
    obtain ⟨lastSelected, same⟩ := Scheduler.shown_live atMaxSpeed p
    have toldBurst : Scheduler.transcript { s with
        notices := s.notices ++ (Scheduler.shown atMaxSpeed p).2 } =
        s₀.transcript ++ (events ++ lines.map .output) := by
      change transcript (s.notices ++ _) = _
      rw [transcript_append, Scheduler.transcript_shown, toldLines, ← List.append_assoc, ← told]
      rfl
    have shown : Follows loaded m (Scheduler.shown atMaxSpeed p).1 := by
      rw [same]
      exact follows.relive rfl rfl rfl rfl rfl
    refine closeTick_stood toldBurst ?_ ?_ shown untimed
    · rw [List.filterMap_append, printed, printedLines, filterMap_output]
    · rw [List.filterMap_append, fine, filterMap_failure]
      rfl
  | @failed m error line failure tells =>
    cases last
    obtain ⟨lines, toldLines, printedLines⟩ := tells
    have here : (s.afterBurst p).live = some p.live := rfl
    have toldBurst : (s.afterBurst p).transcript =
        s₀.transcript ++ (events ++ lines.map .output) := by
      change transcript (s.notices ++ p.notices) = _
      rw [transcript_append, toldLines, ← List.append_assoc, ← told]
      rfl
    have report := Scheduler.transcript_failRun here error line
    rw [toldBurst, List.append_assoc] at report
    have outputs : (events ++ lines.map HostEvent.output).filterMap HostEvent.output? =
        (Alone.after loaded m).printed := by
      rw [List.filterMap_append, printed, printedLines, filterMap_output]
    have failures : (events ++ lines.map HostEvent.output).filterMap HostEvent.failure? = [] := by
      rw [List.filterMap_append, fine, filterMap_failure]
      rfl
    refine .failed (Scheduler.failRun_live _ _ _) report failure (by
      rw [List.filterMap_append, outputs]
      rfl) (by
      rw [List.filterMap_append, failures]
      rfl)

theorem onTick_stood {loaded : Loaded} {φ : Type} {s₀ s : Scheduler Machine φ}
    {tick : PendingTick} {began ended : Instant} (stood : Stood loaded s₀ s)
    (untimed : (s.onTick tick began ended).Untimed) :
    Stood loaded s₀ (s.onTick tick began ended) := by
  cases stood with
  | failed gone =>
    rw [Scheduler.onTick_stale began ended (.inl gone)]
    exact .failed gone ‹_› ‹_› ‹_› ‹_›
  | @going n events told printed fine follows =>
    cases here : s.live with
    | none =>
      rw [Scheduler.onTick_stale began ended (.inl here)]
      exact .going told printed fine follows
    | some live =>
      have ticked : Follows loaded n live.ticked :=
        (follows live here).relive rfl rfl rfl rfl rfl
      have toldSame : s.scheduled.transcript = s₀.transcript ++ events := told
      by_cases current : tick.run = s.runNumber
      · cases steps : live.controller.beginTick.2 with
        | true =>
          rw [Scheduler.onTick_steps began ended here current steps] at untimed ⊢
          exact settle_stood toldSame printed fine (burst_stands ticked) untimed
        | false =>
          rw [Scheduler.onTick_rests began ended here current steps] at untimed ⊢
          exact closeTick_stood toldSame printed fine ticked untimed
      · rw [Scheduler.onTick_stale began ended (.inr current)]
        exact .going told printed fine follows

theorem Follows.start {loaded : Loaded} (accepted : Accepted loaded) (pauseOnEntry : Bool) :
    Follows loaded 0 (Live.start loaded.machine loaded.text.lineMap pauseOnEntry) := by
  obtain ⟨program, same, -, -⟩ := accepted.program
  have unasked : Unasked loaded.machine.stack := by
    rw [same]
    intro place member
    cases List.mem_singleton.mp member
  exact ⟨rfl, rfl, rfl, fun _ => rfl, unasked, rfl, rfl⟩

theorem opened_stood {loaded : Loaded} {φ : Type} (accepted : Accepted loaded)
    (s₀ : Scheduler Machine φ) :
    Stood loaded s₀ (s₀.opened loaded.machine loaded.text.lineMap) := by
  have mute : GoesOnMute s₀.transcript (s₀.opened loaded.machine loaded.text.lineMap).transcript := by
    rw [Scheduler.opened, Scheduler.transcript_reportPauseState]
    exact Scheduler.endRun_goes (fun _ => rfl) s₀ .stopped
  obtain ⟨events, told, mute⟩ := mute
  obtain ⟨noOutput, noFailure⟩ := mute_output mute
  refine .going (n := 0) told noOutput noFailure fun live here => ?_
  rw [Scheduler.opened_live] at here
  cases here
  exact .start accepted _

theorem Session.stood {loaded : Loaded} {φ : Type} {s₀ s : Scheduler Machine φ}
    (accepted : Accepted loaded) (session : Session loaded s₀ s) : Stood loaded s₀ s := by
  induction session with
  | start began ended untimed =>
    have opened := opened_stood accepted s₀
    rw [Scheduler.start_opened] at untimed ⊢
    split
    · exact opened.mute (.refl _) fun live here => ⟨live, live.controller, here, rfl⟩
    · rename_i running
      rw [if_neg running] at untimed
      exact onTick_stood opened untimed
  | @perform s operation before undisturbed untimed stood =>
    cases operation with
    | start => exact undisturbed.elim
    | dispatch => exact undisturbed.elim
    | reset => exact undisturbed.elim
    | install rule =>
      exact stood.mute (.refl _) fun live here => ⟨live, live.controller, here, rfl⟩
    | take => exact stood.mute (.refl _) fun live here => ⟨live, live.controller, here, rfl⟩
    | tick tick began ended => exact onTick_stood stood untimed
    | command command =>
      refine stood.mute (Scheduler.apply_mute s command) fun live here => ?_
      obtain ⟨before, controller, there, next, -⟩ := Scheduler.apply_minds here
      exact ⟨before, controller, there, next⟩

theorem Stood.alone {loaded : Loaded} {φ : Type} {s₀ s : Scheduler Machine φ}
    (stood : Stood loaded s₀ s) :
    ∃ n, programLines (s₀.since s) = (Alone.after loaded n).printed ∧
      ∀ message line, s₀.FailedSince s message line →
        (Alone.after loaded n).failure = some (message, line) := by
  cases stood with
  | @going n events told printed fine follows =>
    have since : s₀.since s = events := by
      rw [Scheduler.since, told, List.drop_left]
    refine ⟨n, ?_, ?_⟩
    · rw [since, programLines, fine]
      exact printed
    · rintro message line ⟨-, annotated⟩
      rw [since] at annotated
      have member : (message, line) ∈ events.filterMap HostEvent.failure? :=
        List.mem_filterMap.mpr ⟨_, annotated, rfl⟩
      rw [fine] at member
      cases member
  | @failed n events failure report gone told failed printed annotated =>
    have since : s₀.since s = events := by
      rw [Scheduler.since, told, List.drop_left]
    refine ⟨n, ?_, ?_⟩
    · rw [since, programLines, annotated, printed]
      exact List.dropLast_concat
    · rintro message line ⟨-, member⟩
      rw [since] at member
      have same : (message, line) ∈ events.filterMap HostEvent.failure? :=
        List.mem_filterMap.mpr ⟨_, member, rfl⟩
      rw [annotated, List.mem_singleton] at same
      rw [failed, same]

/-- Any two sessions of one accepted source print lines of which one is a part of the other, and both
are a part of what the machine prints alone. After a failure in one of them the other prints no
more, and fails only with the same message on the same line. -/
theorem sessions_agree {loaded : Loaded} {φ ψ : Type} {s₀ s : Scheduler Machine φ}
    {t₀ t : Scheduler Machine ψ} (accepted : Accepted loaded) (left : Session loaded s₀ s)
    (right : Session loaded t₀ t) :
    (programLines (s₀.since s) <+: programLines (t₀.since t) ∨
        programLines (t₀.since t) <+: programLines (s₀.since s)) ∧
      (∃ n, programLines (s₀.since s) <+: (Alone.after loaded n).printed) ∧
      (∃ n, programLines (t₀.since t) <+: (Alone.after loaded n).printed) ∧
      ∀ message line, s₀.FailedSince s message line →
        programLines (t₀.since t) <+: programLines (s₀.since s) ∧
          ∀ other place, t₀.FailedSince t other place → other = message ∧ place = line := by
  obtain ⟨n, printed, failed⟩ := (left.stood accepted).alone
  obtain ⟨m, printedToo, failedToo⟩ := (right.stood accepted).alone
  rw [printed, printedToo]
  refine ⟨(le_total n m).imp Alone.after_printed Alone.after_printed, ⟨n, List.prefix_rfl⟩,
    ⟨m, List.prefix_rfl⟩, fun message line fails => ?_⟩
  have here := failed message line fails
  rcases le_total n m with le | le
  · rw [Alone.after_failed here le]
    refine ⟨List.prefix_rfl, fun other place failsToo => ?_⟩
    have there := failedToo other place failsToo
    rw [Alone.after_failed here le, here] at there
    cases there
    exact ⟨rfl, rfl⟩
  · refine ⟨Alone.after_printed le, fun other place failsToo => ?_⟩
    have there := failedToo other place failsToo
    rw [Alone.after_failed there le, there] at here
    cases here
    exact ⟨rfl, rfl⟩

def greeting : List Char := "print \"hello\"\nprint name\n".toList

def resumed (loaded : Loaded) : Live Machine :=
  { Live.start loaded.machine loaded.text.lineMap true with
    controller := (Controller.start true).resume }

theorem load_greeting : ∃ loaded, Script.load greeting = .ok loaded ∧
    ∀ fast, ((resumed loaded).ticked.burst .empty ⟨false, fast, 5, 0⟩ 10000).1.live.timers.nextNumber
      = 0 := by
  have read : (match Script.load greeting with
    | .ok loaded => decide (∀ fast, ((resumed loaded).ticked.burst .empty ⟨false, fast, 5, 0⟩
        10000).1.live.timers.nextNumber = 0)
    | .error _ => false) = true := by decide +kernel
  cases same : Script.load greeting with
  | ok loaded =>
    rw [same] at read
    exact ⟨loaded, rfl, of_decide_eq_true read⟩
  | error problem =>
    rw [same] at read
    cases read

def greeter : Scheduler Machine Unit :=
  .new { Settings.default with pauseOnEntry := true } none

/-- A session that runs to the failure and one that stays at the entry. -/
theorem greeting_sessions_agree : ∃ (loaded : Loaded) (s t : Scheduler Machine Unit),
    Script.load greeting = .ok loaded ∧ Session loaded greeter s ∧ Session loaded greeter t ∧
      (programLines (greeter.since s) <+: programLines (greeter.since t) ∨
          programLines (greeter.since t) <+: programLines (greeter.since s)) ∧
        (∃ n, programLines (greeter.since s) <+: (Alone.after loaded n).printed) ∧
        (∃ n, programLines (greeter.since t) <+: (Alone.after loaded n).printed) ∧
        ∀ message line, greeter.FailedSince s message line →
          programLines (greeter.since t) <+: programLines (greeter.since s) ∧
            ∀ other place, greeter.FailedSince t other place →
              other = message ∧ place = line := by
  obtain ⟨loaded, read, unused⟩ := load_greeting
  have entered : Session loaded greeter
      (greeter.start loaded.machine loaded.text.lineMap 0 0) := by
    refine .start 0 0 fun live here => ?_
    cases here
    rfl
  have going : Session loaded greeter
      ((greeter.start loaded.machine loaded.text.lineMap 0 0).perform (.command .resume)) := by
    refine .perform entered trivial fun live here => ?_
    cases here
    rfl
  have failed : Session loaded greeter
      (((greeter.start loaded.machine loaded.text.lineMap 0 0).perform
        (.command .resume)).perform (.tick ⟨1, 0⟩ 0 0)) :=
    .perform going trivial (Scheduler.onTick_untimed 0 0 rfl rfl rfl (unused _))
  exact ⟨loaded, _, _, read, failed, entered, sessions_agree (.polling read) failed entered⟩

end Metronome.Run
