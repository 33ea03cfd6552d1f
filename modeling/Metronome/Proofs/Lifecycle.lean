import Metronome.Proofs.Deeds
import Metronome.Proofs.Entry
import Metronome.Proofs.HostLog

namespace Metronome.Run

open Metronome.Debug (Breakpoints Command)
open Metronome.Script (Loaded Machine load_any)

def HostEvent.isFinish : HostEvent → Bool
  | .finished _ => true
  | _ => false

def GoesOnUnfinished (before after : List HostEvent) : Prop :=
  GoesOn (fun event => event.isFinish = false) before after

def Finishes (outcome : Outcome) (before after : List HostEvent) : Prop :=
  ∃ earlier, GoesOnUnfinished before earlier ∧
    GoesOn (fun event => event.isView = true) (earlier ++ [.finished outcome]) after

theorem GoesOnUnfinished.finishes {outcome : Outcome} {first second third : List HostEvent}
    (goesOn : GoesOnUnfinished first second) (finishes : Finishes outcome second third) :
    Finishes outcome first third := by
  obtain ⟨earlier, before, after⟩ := finishes
  exact ⟨earlier, goesOn.trans before, after⟩

variable {σ φ : Type}

def Operation.resets : Operation σ φ → Bool
  | .reset => true
  | _ => false

namespace Scheduler

/-- What a function of the scheduler can make of a live run: it goes on with the tick that was
pending, or it ends. -/
inductive Lasts (s t : Scheduler σ φ) : Prop where
  | on (running : t.live.isSome = true) (number : t.runNumber = s.runNumber)
      (pending : t.pending = s.pending) (told : GoesOnUnfinished s.events t.events)
  | ended {outcome : Outcome} (gone : t.live = none) (number : t.runNumber = s.runNumber)
      (unscheduled : t.pending = none) (ended : t.outcome = some outcome)
      (told : Finishes outcome s.events t.events)

theorem Lasts.refl {s : Scheduler σ φ} (running : s.live.isSome = true) : Lasts s s :=
  .on running rfl rfl (.refl _)

theorem Lasts.after {s t u : Scheduler σ φ} (lasts : Lasts t u)
    (number : t.runNumber = s.runNumber) (pending : t.pending = s.pending)
    (told : GoesOnUnfinished s.events t.events) : Lasts s u := by
  cases lasts with
  | on running same kept goesOn =>
    exact .on running (same.trans number) (kept.trans pending) (told.trans goesOn)
  | ended gone same unscheduled ended finishes =>
    exact .ended gone (same.trans number) unscheduled ended (told.finishes finishes)

theorem endRun_lasts {s : Scheduler σ φ} {live : Live σ} (here : s.live = some live)
    (outcome : Outcome) : Lasts s (s.endRun outcome) := by
  obtain ⟨notices, reported, same⟩ := endRun_eq here outcome
  have told : Finishes outcome s.events (s.endRun outcome).events := by
    refine ⟨s.events, .refl _, ?_⟩
    unfold endRun
    rw [here]
    dsimp only
    rw [← events_tell]
    exact reportPauseState_log (fun _ => rfl) _
  rw [same] at told ⊢
  exact .ended rfl rfl rfl rfl told

theorem reportPauseState_lasts {s : Scheduler σ φ} (running : s.live.isSome = true) :
    Lasts s s.reportPauseState := by
  have told : GoesOnUnfinished s.events s.reportPauseState.events :=
    reportPauseState_log (fun _ => rfl) s
  obtain ⟨notices, reported, same⟩ := s.reportPauseState_eq
  rw [same] at told ⊢
  exact .on running rfl rfl told

theorem reportStop_lasts {s : Scheduler σ φ} (running : s.live.isSome = true) :
    Lasts s s.reportStop := by
  have told : GoesOnUnfinished s.events s.reportStop.events :=
    reportStop_log (fun _ => rfl) (fun _ _ => rfl) s
  obtain ⟨notices, reported, same⟩ := s.reportStop_eq
  rw [same] at told ⊢
  exact .on (by simpa using running) rfl rfl told

theorem tell_unfinished (s : Scheduler σ φ) {event : HostEvent} (other : event.isFinish = false) :
    GoesOnUnfinished s.events (s.tell event).events :=
  ⟨[event], events_tell s event, by simpa using other⟩

theorem failRun_lasts {s : Scheduler σ φ} {live : Live σ} (here : s.live = some live)
    (error : StepError) (line : Option Nat) : Lasts s (s.failRun error line) := by
  unfold failRun
  rw [here]
  dsimp only
  exact (endRun_lasts (s := (s.tell (.output _)).tell (.annotated _ _)) here _).after rfl rfl
    ((tell_unfinished s rfl).trans (tell_unfinished _ rfl))

variable [Interpreter σ]

theorem checkFinished_lasts {s : Scheduler σ φ} (running : s.live.isSome = true) :
    Lasts s s.checkFinished := by
  obtain ⟨live, here⟩ := Option.isSome_iff_exists.mp running
  unfold checkFinished
  rw [here]
  dsimp only
  split
  · exact endRun_lasts here _
  · split
    · exact endRun_lasts here _
    · unfold consult
      split
      · exact .refl running
      · rename_i rule _
        dsimp only
        split
        · exact (endRun_lasts (s := { s with finish := some _ }) here _).after rfl rfl (.refl _)
        · exact .on running rfl rfl (.refl _)

theorem closeTick_lasts (s : Scheduler σ φ) (live : Live σ) (now : Instant) :
    Lasts s (s.closeTick live now) := by
  have reports : Lasts s (reportStop { s with live := some { live with
      timers := (live.timers.release now live.queue).1
      queue := (live.timers.release now live.queue).2 } }) :=
    (reportStop_lasts (s := { s with live := some _ }) rfl).after rfl rfl (.refl _)
  cases reports with
  | on running number pending told =>
    exact (checkFinished_lasts running).after number pending told
  | ended gone =>
    rw [reportStop_live] at gone
    cases gone

theorem inner_unfinished {σ φ : Type} (s : Scheduler σ φ) {more : Array Notice}
    (inner : Inner more) : GoesOnUnfinished s.events (Run.events (s.notices ++ more)) :=
  inner.goesOn (fun _ => rfl) (fun _ => rfl) s.notices

theorem settle_lasts (s : Scheduler σ φ) (atMaxSpeed : Bool) (ended : Instant)
    {result : Progress σ × Ending} (inner : Inner result.1.notices) :
    Lasts s (s.settle atMaxSpeed ended result) := by
  obtain ⟨p, ending⟩ := result
  have closes : Lasts s (closeTick { s with notices := s.notices ++ (shown atMaxSpeed p).2 }
      (shown atMaxSpeed p).1 ended) :=
    (closeTick_lasts { s with notices := _ } _ _).after rfl rfl
      (inner_unfinished s (shown_inner atMaxSpeed inner))
  cases ending with
  | failed error line =>
    exact (failRun_lasts (s := s.afterBurst p) rfl error line).after rfl rfl
      (inner_unfinished s inner)
  | _ => exact closes

omit [Interpreter σ] in
theorem answer_lasts (s : Scheduler σ φ) {result : Progress σ × Ending}
    (inner : Inner result.1.notices) : Lasts s (s.answer result).1 := by
  obtain ⟨p, ending⟩ := result
  cases ending with
  | failed error line =>
    exact (failRun_lasts (s := s.afterBurst p) rfl error line).after rfl rfl
      (inner_unfinished s inner)
  | _ =>
    exact (reportStop_lasts (s := s.afterBurst { p with live := { p.live with
      response := { p.live.response with lastReturn := none } } }) rfl).after rfl rfl
        (inner_unfinished s inner)

theorem onTick_lasts {s : Scheduler σ φ} {tick : PendingTick} {live : Live σ}
    (began ended : Instant) (here : s.live = some live) (current : tick.run = s.runNumber) :
    Lasts s.scheduled (s.onTick tick began ended) := by
  cases steps : live.controller.beginTick.2 with
  | true =>
    rw [onTick_steps began ended here current steps]
    exact settle_lasts _ _ _ (burst_inner _ _ _ _)
  | false =>
    rw [onTick_rests began ended here current steps]
    exact closeTick_lasts _ _ _

theorem dispatch_lasts {s : Scheduler σ φ} {live : Live σ} (callback : Callback) (now : Instant)
    (here : s.live = some live) : Lasts s (s.dispatch callback now).1 := by
  cases paused : live.controller.isPaused with
  | true =>
    simp only [dispatch, here, paused, if_true]
    exact .on rfl rfl rfl (.refl _)
  | false =>
    rw [dispatch_answers callback now here paused]
    exact answer_lasts s (burst_inner _ _ _ _)

omit [Interpreter σ] in
theorem apply_lasts {s : Scheduler σ φ} (command : Command) (running : s.live.isSome = true) :
    Lasts s (s.apply command) := by
  obtain ⟨live, here⟩ := Option.isSome_iff_exists.mp running
  have stepped : ∀ mode, Lasts s (s.beginStep mode) := by
    intro mode
    simp only [beginStep, here]
    exact (reportPauseState_lasts (s := { s with live := some _ }) rfl).after rfl rfl (.refl _)
  cases command with
  | pause =>
    simp only [apply, pause, here]
    split
    · exact (reportStop_lasts (s := { s with live := some _ }) rfl).after rfl rfl (.refl _)
    · exact .refl running
  | resume =>
    simp only [apply, resume, here]
    split
    · exact (reportPauseState_lasts (s := { s with live := some _ }) rfl).after rfl rfl (.refl _)
    · exact .refl running
  | stepIn => exact stepped _
  | stepOver => exact stepped _
  | stepOut =>
    rw [apply, stepOut]
    split
    · exact stepped _
    · exact .refl running
  | stop => exact endRun_lasts here _
  | _ => exact .on running rfl rfl (.refl _)

/-- What an operation can do without a run, unless it opens one: nothing is told, no tick is
scheduled, and the last outcome is known until it is reset. -/
structure Inert (operation : Operation σ φ) (s t : Scheduler σ φ) : Prop where
  gone : t.live = none
  number : t.runNumber = s.runNumber
  unscheduled : s.pending = none → t.pending = none
  notices : t.notices = s.notices
  known : operation.resets = false → t.outcome = s.outcome

theorem perform_inert {s : Scheduler σ φ} {operation : Operation σ φ} (gone : s.live = none)
    (one : operation.opens = false) : Inert operation s (s.perform operation) := by
  have same : Inert operation s s := ⟨gone, rfl, id, rfl, fun _ => rfl⟩
  have ends : ∀ outcome, s.endRun outcome = s := by
    intro outcome
    simp only [endRun, gone]
  cases operation with
  | start program lines began ended => cases one
  | install rule => exact ⟨gone, rfl, id, rfl, fun _ => rfl⟩
  | take => exact ⟨gone, rfl, fun _ => rfl, rfl, fun _ => rfl⟩
  | tick tick began ended =>
    rw [perform, onTick_stale began ended (.inl gone)]
    exact same
  | dispatch callback now =>
    simp only [perform, dispatch, gone]
    exact same
  | command command =>
    have stepped : ∀ mode, s.beginStep mode = s := by
      intro mode
      simp only [beginStep, gone]
    cases command with
    | pause =>
      simp only [perform, apply, pause, gone]
      exact same
    | resume =>
      simp only [perform, apply, resume, gone]
      exact same
    | stepIn =>
      rw [perform, apply, stepIn, stepped]
      exact same
    | stepOver =>
      rw [perform, apply, stepOver, stepped]
      exact same
    | stepOut =>
      simp only [perform, apply, stepOut, gone]
      exact same
    | stop =>
      rw [perform, apply, stop, ends]
      exact same
    | _ => exact ⟨gone, rfl, id, rfl, fun _ => rfl⟩
  | reset =>
    rw [perform, reset, stop, ends]
    exact ⟨gone, rfl, fun _ => rfl, rfl, fun known => by cases known⟩

omit [Interpreter σ] in
theorem burstOf_gone {s : Scheduler σ φ} {operation : Operation σ φ} (gone : s.live = none)
    (one : operation.opens = false) : s.burstOf operation = none := by
  cases operation with
  | start program lines began ended => cases one
  | tick tick began ended => simp only [burstOf, gone, Option.bind_none]
  | dispatch callback now => simp only [burstOf, gone, Option.bind_none]
  | _ => rfl

/-- Where a run stands since a log: it goes on without an end, or it has ended and told so once. Its
outcome is known unless it may have been forgotten. -/
inductive Fate (forgotten : Prop) (first : List HostEvent) (s : Scheduler σ φ) : Prop where
  | runs (running : s.live.isSome = true) (told : GoesOnUnfinished first s.events)
  | ended {outcome : Outcome} (gone : s.live = none) (told : Finishes outcome first s.events)
      (known : forgotten ∨ s.outcome = some outcome)

omit [Interpreter σ] in
theorem Lasts.fate {forgotten : Prop} {first : List HostEvent} {s t : Scheduler σ φ}
    (lasts : Lasts s t) (told : GoesOnUnfinished first s.events) : Fate forgotten first t := by
  cases lasts with
  | on running _ _ goesOn => exact .runs running (told.trans goesOn)
  | ended gone _ _ ended finishes => exact .ended gone (told.finishes finishes) (.inr ended)

variable {forgotten : Prop} {first : List HostEvent} {s : Scheduler σ φ}
  {operation : Operation σ φ}

inductive Takes (s : Scheduler σ φ) (operation : Operation σ φ) : Prop where
  | lasts {t : Scheduler σ φ} (told : t.events = s.events) (number : t.runNumber = s.runNumber)
      (pending : ∀ tick, t.pending = some tick → s.pending = some tick ∨ tick.run = s.runNumber)
      (lasts : Lasts t (s.perform operation))
  | resets (resets : operation.resets = true) (gone : (s.perform operation).live = none)
      (number : (s.perform operation).runNumber = s.runNumber)
      (unscheduled : (s.perform operation).pending = none)
      (told : Finishes .stopped s.events (s.perform operation).events)

theorem perform_takes (running : s.live.isSome = true) (one : operation.opens = false) :
    Takes s operation := by
  obtain ⟨live, here⟩ := Option.isSome_iff_exists.mp running
  have kept : Lasts s (s.perform operation) → Takes s operation :=
    .lasts rfl rfl fun tick pending => .inl pending
  cases operation with
  | start program lines began ended => cases one
  | install rule => exact kept (.on running rfl rfl (.refl _))
  | take => exact .lasts (t := s.takePending.1) rfl rfl nofun (.refl running)
  | tick tick began ended =>
    by_cases current : tick.run = s.runNumber
    · refine .lasts (t := s.scheduled) rfl rfl (fun next pending => .inr ?_)
        (onTick_lasts began ended here current)
      cases pending
      rfl
    · refine kept ?_
      rw [perform, onTick_stale began ended (.inr current)]
      exact .refl running
  | dispatch callback now => exact kept (dispatch_lasts callback now here)
  | command command => exact kept (apply_lasts command running)
  | reset =>
    have gone : s.stop.live = none := endRun_live s .stopped
    cases endRun_lasts here .stopped with
    | on running =>
      rw [endRun_live] at running
      cases running
    | ended _ number _ ended finishes =>
      obtain ⟨notices, reported, same⟩ := endRun_eq here .stopped
      rw [same] at ended
      cases ended
      exact .resets rfl gone number rfl finishes

/-- An operation that opens no run lets the live one go on, or ends it. -/
theorem perform_fate (running : s.live.isSome = true) (told : GoesOnUnfinished first s.events)
    (one : operation.opens = false) (resets : operation.resets = true → forgotten) :
    Fate forgotten first (s.perform operation) := by
  cases perform_takes running one with
  | lasts same _ _ lasts => exact lasts.fate (same ▸ told)
  | resets forgets gone _ _ finishes =>
    exact .ended gone (told.finishes finishes) (.inl (resets forgets))

theorem Fate.perform (fate : Fate forgotten first s) (one : operation.opens = false)
    (resets : operation.resets = true → forgotten) :
    Fate forgotten first (s.perform operation) := by
  cases fate with
  | runs running told => exact perform_fate running told one resets
  | ended gone told known =>
    have inert := perform_inert gone one
    have same : (s.perform operation).events = s.events := by rw [events, inert.notices, events]
    refine .ended inert.gone (same ▸ told) ?_
    cases forgets : operation.resets with
    | true => exact .inl (resets forgets)
    | false => exact known.imp_right (inert.known forgets).trans

theorem Fate.performAll {operations : List (Operation σ φ)} (fate : Fate forgotten first s)
    (one : ∀ operation ∈ operations, operation.opens = false)
    (resets : ∀ operation ∈ operations, operation.resets = true → forgotten) :
    Fate forgotten first (s.performAll operations) := by
  induction operations generalizing s with
  | nil => exact fate
  | cons operation operations ih =>
    obtain ⟨first, rest⟩ := List.forall_mem_cons.mp one
    obtain ⟨forgets, others⟩ := List.forall_mem_cons.mp resets
    exact ih (fate.perform first forgets) rest others

theorem opened_unfinished {σ φ : Type} (s : Scheduler σ φ) (program : σ) (lines : LineMap) :
    GoesOnUnfinished s.stop.events (s.opened program lines).events :=
  reportPauseState_log (fun _ => rfl) _

theorem start_fate (program : σ) (lines : LineMap) (began ended : Instant) :
    Fate forgotten s.stop.events (s.start program lines began ended) := by
  have told := s.opened_unfinished program lines
  have here := opened_live s program lines
  rw [start_opened]
  split
  · exact .runs (by simp [here]) told
  · exact (onTick_lasts began ended here rfl).fate told

theorem stop_finishes {σ φ : Type} (s : Scheduler σ φ) :
    s.live = none ∧ s.stop.events = s.events ∨
      s.live.isSome = true ∧
        GoesOn (fun event => event.isView = true) (s.events ++ [.finished .stopped])
          s.stop.events := by
  cases here : s.live with
  | none =>
    refine .inl ⟨rfl, ?_⟩
    simp only [stop, endRun, here]
  | some live =>
    refine .inr ⟨rfl, ?_⟩
    simp only [stop, endRun, here]
    rw [← events_tell]
    exact reportPauseState_log (fun _ => rfl) _

/-- What is left when a run has failed: no run, no tick to come, and nothing in a queue. -/
structure Cleared (s : Scheduler σ φ) : Prop where
  gone : s.isRunning = false
  unscheduled : s.pending = none
  emptied : s.queueLength = 0

end Scheduler

variable [Interpreter σ]

theorem Progress.tracks_fine (breakpoints : Breakpoints) (request : Request) (budget : Nat) :
    Tracks breakpoints request budget
      (fun (done : List (Progress σ × Deed)) _ => ∀ deed ∈ done, deed.2 ≠ .fails)
      (fun _ => True) where
  arrives before _ _ _ := by simpa [or_imp, forall_and] using before
  steps before _ _ _ := by simpa [or_imp, forall_and] using before
  fails _ _ _ := trivial

theorem burst_fails {live : Live σ} {breakpoints : Breakpoints} {request : Request} {budget : Nat}
    {p : Progress σ} (fails : (p, .fails) ∈ live.deeds breakpoints request budget) :
    ∃ error line, (live.burst breakpoints request budget).2 = .failed error line := by
  have none : ∀ deed ∈ ([] : List (Progress σ × Deed)), deed.2 ≠ .fails := by simp
  have tracked : Progress.Tracked (fun (done : List (Progress σ × Deed)) _ =>
      ∀ deed ∈ done, deed.2 ≠ .fails) (fun _ => True)
      ([] ++ live.deeds breakpoints request budget) (live.burst breakpoints request budget) :=
    (Progress.tracks_fine breakpoints request budget).burst none
  rw [List.nil_append] at tracked
  generalize live.burst breakpoints request budget = result at tracked ⊢
  cases tracked with
  | holds _ none => exact absurd rfl (none _ fails)
  | lost => exact ⟨_, _, rfl⟩

theorem Bursts.lasts {s : Scheduler σ φ} {operation : Operation σ φ} {live : Live σ}
    {request : Request} (runs : Bursts s operation live request) :
    ∃ t, Scheduler.Lasts t (s.perform operation) := by
  cases runs with
  | tick here current => exact ⟨_, Scheduler.onTick_lasts _ _ here current⟩
  | dispatch here => exact ⟨_, Scheduler.dispatch_lasts _ _ here⟩
  | @start program lines began ended steps =>
    refine ⟨(s.opened program lines).scheduled, ?_⟩
    rw [Scheduler.perform, Scheduler.start_opened, if_neg (by simp [steps])]
    exact Scheduler.onTick_lasts began ended (Scheduler.opened_live s program lines) rfl

theorem Scheduler.fails_clears {s : Scheduler σ φ} {operation : Operation σ φ} {p : Progress σ}
    (fails : (p, .fails) ∈ s.deeds operation) : (s.perform operation).Cleared := by
  cases quiet : s.burstOf operation with
  | none =>
    rw [deeds_quiet quiet] at fails
    cases fails
  | some burst =>
    obtain ⟨live, request⟩ := burst
    have runs := bursts_iff.mpr quiet
    rw [deeds_burst runs] at fails
    obtain ⟨error, line, failed⟩ := burst_fails fails
    have gone : (s.perform operation).live = none := by
      rw [Option.eq_none_iff_forall_ne_some]
      intro next there
      exact (perform_leaves runs there).fine error line failed
    obtain ⟨t, lasts⟩ := runs.lasts
    cases lasts with
    | on running =>
      rw [gone] at running
      cases running
    | ended _ _ unscheduled =>
      exact ⟨by simp [isRunning, gone], unscheduled, by simp [queueLength, gone]⟩

/-- Each run that a start opens ends once. The start tells first of the end of the run that it
replaces. From there the log tells of no end while the run is live; when an operation has ended it,
its last part tells of that once, with the outcome that is known until it is reset, and then only
shows the debugger's state. Each operation takes its part in this: it lets a live run go on or ends
it, and without a run it runs nothing and tells nothing. A step that fails leaves no run, no tick and
no queue. -/
theorem run_ends_once (s : Scheduler σ φ) (program : σ) (lines : LineMap) (began ended : Instant)
    {operations : List (Operation σ φ)} (one : ∀ operation ∈ operations, operation.opens = false) :
    let start := .start program lines began ended
    (∃ first,
      (s.live = none ∧ first = s.events ∨ s.live.isSome = true ∧
        GoesOn (fun event => event.isView = true) (s.events ++ [.finished .stopped]) first) ∧
      (s.performAll (start :: operations)).Fate
        (∃ operation ∈ operations, operation.resets = true) first) ∧
    (∀ before operation after, operations = before ++ operation :: after →
      let t := s.performAll (start :: before)
      (t.live.isSome = true → (t.perform operation).Fate (operation.resets = true) t.events) ∧
      (t.live = none → (t.perform operation).live = none ∧ t.deeds operation = [] ∧
        (t.perform operation).events = t.events ∧
        (operation.resets = false → (t.perform operation).outcome = t.outcome))) ∧
    ∀ before operation after, start :: operations = before ++ operation :: after →
      let t := s.performAll before
      ∀ p, (p, .fails) ∈ t.deeds operation → (t.perform operation).Cleared := by
  intro start
  refine ⟨⟨s.stop.events, s.stop_finishes, ?_⟩, ?_, fun _ _ _ _ _ => Scheduler.fails_clears⟩
  · exact (Scheduler.start_fate program lines began ended).performAll one
      fun operation member resets => ⟨operation, member, resets⟩
  · rintro before operation after rfl t
    obtain ⟨-, first, -⟩ := List.forall_mem_append.mp one |>.imp_right List.forall_mem_cons.mp
    refine ⟨fun running => Scheduler.perform_fate running (.refl _) first id, fun gone => ?_⟩
    have inert := Scheduler.perform_inert gone first
    refine ⟨inert.gone, Scheduler.deeds_quiet (Scheduler.burstOf_gone gone first), ?_, inert.known⟩
    rw [Scheduler.events, inert.notices, Scheduler.events]

def misnaming : List Char := "func f\n  print x\nend\n".toList

def callingOn : List (Operation Machine Unit) :=
  [.dispatch ⟨"f", []⟩ 0, .dispatch ⟨"f", []⟩ 0, .tick ⟨1, 0⟩ 0 0, .command .stop]

/-- The run ends in the first dispatch. The host is told of that once, and of nothing afterwards. -/
theorem misnaming_ends_once : ∃ loaded, Script.load misnaming = .ok loaded ∧
    let idle : Scheduler Machine Unit := .new .default none
    let start := .start loaded.machine loaded.text.lineMap 0 0
    (∀ operation ∈ callingOn, operation.opens = false) ∧
      (∃ deed ∈ (idle.performAll [start]).deeds (.dispatch ⟨"f", []⟩ 0), deed.2 = .fails) ∧
      ((idle.performAll [start]).perform (.dispatch ⟨"f", []⟩ 0)).Cleared ∧
      (idle.performAll (start :: callingOn)).outcome =
        some (.failed "`x` is not defined" (some 2)) ∧
      (idle.performAll (start :: callingOn)).Fate
        (∃ operation ∈ callingOn, operation.resets = true) [] := by
  have computed : (Script.load misnaming).toOption.any (fun loaded =>
      let idle : Scheduler Machine Unit := .new .default none
      let start := .start loaded.machine loaded.text.lineMap 0 0
      ((idle.performAll [start]).deeds (.dispatch ⟨"f", []⟩ 0)).any (·.2 == .fails) &&
        (idle.performAll (start :: callingOn)).outcome ==
          some (.failed "`x` is not defined" (some 2))) = true := by
    decide +kernel
  obtain ⟨loaded, read, holds⟩ := load_any computed
  simp only [Bool.and_eq_true, beq_iff_eq, List.any_eq_true] at holds
  obtain ⟨⟨⟨p, deed⟩, member, fails⟩, outcome⟩ := holds
  have one : ∀ operation ∈ callingOn, operation.opens = false := by
    simp [callingOn, Operation.opens]
  obtain ⟨⟨first, since, fate⟩, -, clears⟩ :=
    run_ends_once (.new .default none) loaded.machine loaded.text.lineMap 0 0 one
  have empty : first = [] := since.elim (·.2) fun running => by cases running.1
  subst empty
  cases fails
  exact ⟨loaded, read, one, ⟨_, member, rfl⟩, clears [_] _ _ rfl p member, outcome, fate⟩

end Metronome.Run
