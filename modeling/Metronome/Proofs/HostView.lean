import Metronome.Proofs.Announcement
import Metronome.Proofs.Lifecycle

namespace Metronome.Run

open Metronome.Debug (Breakpoints Command Controller PauseState)
open Metronome.Script (Loaded Machine load_any)

def HostEvent.view? : HostEvent → Option PauseState
  | .pauseChanged state => some state
  | _ => none

/-- States that were shown one after the other, each a new one, and the last of them. -/
structure Shows (states : List PauseState) (last : PauseState) : Prop where
  ends : states.getLast? = some last
  changes : states.IsChain (· ≠ ·)

theorem Shows.concat {states : List PauseState} {last : PauseState} (shows : Shows states last)
    {next : PauseState} (new : next ≠ last) : Shows (states ++ [next]) next where
  ends := List.getLast?_concat
  changes := by
    refine shows.changes.append (.singleton next) fun state final other first => ?_
    rw [shows.ends] at final
    cases final
    cases first
    exact new.symm

variable {σ φ : Type}

namespace Scheduler

def views (s : Scheduler σ φ) : List PauseState :=
  .idle :: s.events.filterMap HostEvent.view?

def Recorded (s : Scheduler σ φ) : Prop :=
  Shows s.views s.reported

structure UpToDate (s : Scheduler σ φ) : Prop where
  recorded : s.Recorded
  current : s.reported = s.pauseState

theorem views_goesOn {s t : Scheduler σ φ}
    (goesOn : Run.GoesOn (fun event => event.view? = none) s.events t.events) :
    t.views = s.views := by
  obtain ⟨told, same, none⟩ := goesOn
  rw [views, same, List.filterMap_append, List.filterMap_eq_nil_iff.mpr none, List.append_nil]
  rfl

namespace Recorded

variable {s : Scheduler σ φ} (recorded : s.Recorded)

include recorded

theorem tells {event : HostEvent} (other : event.view? = none) : (s.tell event).Recorded := by
  have same : (s.tell event).views = s.views :=
    views_goesOn ⟨[event], events_tell s event, by simpa using other⟩
  rw [Recorded, same]
  exact recorded

theorem takesDown {more : Array Notice} (inner : Inner more) :
    Recorded { s with notices := s.notices ++ more } := by
  have same : views { s with notices := s.notices ++ more } = s.views :=
    views_goesOn (inner.goesOn (fun _ => rfl) (fun _ => rfl) _)
  rw [Recorded, same]
  exact recorded

theorem reports : s.reportPauseState.UpToDate := by
  unfold reportPauseState
  split
  · rename_i same
    exact ⟨recorded, same.symm⟩
  · rename_i new
    refine ⟨?_, rfl⟩
    have shown : views { s.tell (.pauseChanged s.pauseState) with reported := s.pauseState } =
        s.views ++ [s.pauseState] := by
      change PauseState.idle :: (s.tell (.pauseChanged s.pauseState)).events.filterMap _ = _
      rw [events_tell, List.filterMap_append]
      rfl
    rw [Recorded, shown]
    exact recorded.concat new

theorem stops (running : s.live.isSome = true) : s.reportStop.UpToDate := by
  obtain ⟨live, here⟩ := Option.isSome_iff_exists.mp running
  unfold reportStop
  rw [here]
  dsimp only
  split
  · exact (tells (s := { s with live := some _ }) recorded rfl).reports
  · exact reports (s := { s with live := some _ }) recorded

theorem ends {live : Live σ} (here : s.live = some live) (outcome : Outcome) :
    (s.endRun outcome).UpToDate := by
  unfold endRun
  rw [here]
  exact reports (s := { tell { s with live := none, pending := none } _ with outcome := _ })
    (tells (s := { s with live := none, pending := none }) recorded rfl)

theorem fails {live : Live σ} (here : s.live = some live) (error : StepError)
    (line : Option Nat) : (s.failRun error line).UpToDate := by
  unfold failRun
  rw [here]
  exact ends (s := (s.tell _).tell _) ((recorded.tells rfl).tells rfl) here _

end Recorded

namespace UpToDate

variable {s : Scheduler σ φ}

theorem ends (current : s.UpToDate) (outcome : Outcome) : (s.endRun outcome).UpToDate := by
  cases here : s.live with
  | none =>
    simp only [endRun, here]
    exact current
  | some live => exact current.recorded.ends here outcome

theorem opens (current : s.UpToDate) (program : σ) (lines : LineMap) :
    (s.opened program lines).UpToDate :=
  Recorded.reports (current.ends .stopped).recorded

theorem applies (current : s.UpToDate) (command : Command) :
    (s.apply command).UpToDate := by
  have stepped : ∀ mode, (s.beginStep mode).UpToDate := by
    intro mode
    unfold beginStep
    split
    · exact current
    · exact Recorded.reports (s := { s with live := some _ }) current.recorded
  cases command with
  | pause =>
    rw [apply, pause]
    split
    · exact current
    · dsimp only
      split
      · exact Recorded.stops (s := { s with live := some _ }) current.recorded rfl
      · exact current
  | resume =>
    rw [apply, resume]
    split
    · exact current
    · split
      · exact Recorded.reports (s := { s with live := some _ }) current.recorded
      · exact current
  | stepIn => exact stepped _
  | stepOver => exact stepped _
  | stepOut =>
    rw [apply, stepOut]
    split
    · exact stepped _
    · exact current
  | stop => exact current.ends .stopped
  | _ => exact ⟨current.recorded, current.current⟩

variable [Interpreter σ]

theorem checks (current : s.UpToDate) : s.checkFinished.UpToDate := by
  unfold checkFinished
  split
  · exact current
  · split
    · exact current.ends _
    · split
      · exact current.ends _
      · unfold consult
        split
        · exact current
        · have kept : ∀ finish : Option (FinishRule φ), UpToDate { s with finish } :=
            fun _ => ⟨current.recorded, current.current⟩
          dsimp only
          split
          · exact (kept _).ends _
          · exact kept _

end UpToDate

variable [Interpreter σ] {s : Scheduler σ φ}

theorem Recorded.closes (recorded : s.Recorded) (live : Live σ) (now : Instant) :
    (s.closeTick live now).UpToDate :=
  (Recorded.stops (s := { s with live := some _ }) recorded rfl).checks

theorem Recorded.settles (recorded : s.Recorded) (atMaxSpeed : Bool) (ended : Instant)
    {result : Progress σ × Ending} (inner : Inner result.1.notices) :
    (s.settle atMaxSpeed ended result).UpToDate := by
  obtain ⟨p, ending⟩ := result
  have closes := (recorded.takesDown (shown_inner atMaxSpeed inner)).closes
    (shown atMaxSpeed p).1 ended
  cases ending with
  | failed error line =>
    exact Recorded.fails (s := s.afterBurst p) (recorded.takesDown inner) rfl error line
  | _ => exact closes

omit [Interpreter σ] in
theorem Recorded.answers (recorded : s.Recorded) {result : Progress σ × Ending}
    (inner : Inner result.1.notices) : (s.answer result).1.UpToDate := by
  obtain ⟨p, ending⟩ := result
  cases ending with
  | failed error line =>
    exact Recorded.fails (s := s.afterBurst p) (recorded.takesDown inner) rfl error line
  | _ => exact Recorded.stops (s := s.afterBurst { p with live := _ }) (recorded.takesDown inner) rfl

namespace UpToDate

theorem ticks (current : s.UpToDate) (tick : PendingTick) (began ended : Instant) :
    (s.onTick tick began ended).UpToDate := by
  by_cases stale : s.live = none ∨ tick.run ≠ s.runNumber
  · rw [onTick_stale began ended stale]
    exact current
  · obtain ⟨running, same⟩ := not_or.mp stale
    obtain ⟨live, here⟩ := Option.ne_none_iff_exists'.mp running
    have last : tick.run = s.runNumber := not_not.mp same
    have scheduled : s.scheduled.Recorded := current.recorded
    cases steps : live.controller.beginTick.2 with
    | true =>
      rw [onTick_steps began ended here last steps]
      exact scheduled.settles _ _ (burst_inner _ _ _ _)
    | false =>
      rw [onTick_rests began ended here last steps]
      exact scheduled.closes _ _

theorem dispatches (current : s.UpToDate) (callback : Callback) (now : Instant) :
    (s.dispatch callback now).1.UpToDate := by
  cases here : s.live with
  | none =>
    simp only [dispatch, here]
    exact current
  | some live =>
    cases paused : live.controller.isPaused with
    | true =>
      simp only [dispatch, here, paused, if_true]
      refine ⟨current.recorded, current.current.trans ?_⟩
      simp only [pauseState, here]
    | false =>
      rw [dispatch_answers callback now here paused]
      exact current.recorded.answers (burst_inner _ _ _ _)

theorem starts (current : s.UpToDate) (program : σ) (lines : LineMap) (began ended : Instant) :
    (s.start program lines began ended).UpToDate := by
  have opened := current.opens program lines
  rw [start_opened]
  split
  · exact ⟨opened.recorded, opened.current⟩
  · exact opened.ticks _ _ _

theorem perform (current : s.UpToDate) (operation : Operation σ φ) :
    (s.perform operation).UpToDate := by
  cases operation with
  | install rule => exact ⟨current.recorded, current.current⟩
  | start program lines began ended => exact current.starts program lines began ended
  | take => exact ⟨current.recorded, current.current⟩
  | tick tick began ended => exact current.ticks tick began ended
  | dispatch callback now => exact current.dispatches callback now
  | command command => exact current.applies command
  | reset =>
    have stopped : s.stop.UpToDate := current.ends .stopped
    exact ⟨stopped.recorded, stopped.current⟩

theorem performAll (current : s.UpToDate) (operations : List (Operation σ φ)) :
    (s.performAll operations).UpToDate := by
  induction operations generalizing s with
  | nil => exact current
  | cons operation operations ih => exact ih (current.perform operation)

end UpToDate

end Scheduler

theorem GoesOn.prefix {allowed : HostEvent → Prop} {before after : List HostEvent}
    (goesOn : GoesOn allowed before after) : before <+: after := by
  obtain ⟨told, same, -⟩ := goesOn
  exact ⟨told, same.symm⟩

theorem Finishes.prefix {outcome : Outcome} {before after : List HostEvent}
    (finishes : Finishes outcome before after) : before <+: after := by
  obtain ⟨earlier, unfinished, views⟩ := finishes
  exact unfinished.prefix.trans ((List.prefix_append _ _).trans views.prefix)

theorem AddsStops.events {s t : Scheduler σ φ} {stops : List HostEvent}
    (adds : AddsStops stops s.transcript t.transcript) (goesOn : s.events <+: t.events) :
    AddsStops stops s.events t.events := by
  obtain ⟨told, same⟩ := goesOn
  obtain ⟨recorded, more, filtered⟩ := adds
  have kept : recorded = told.filter HostEvent.isRecorded := by
    rw [Scheduler.transcript, Scheduler.transcript, transcript_eq_filter, transcript_eq_filter] at more
    rw [Scheduler.events, Scheduler.events] at same
    rw [← same, List.filter_append] at more
    exact (List.append_cancel_left more).symm
  refine ⟨told, same.symm, ?_⟩
  rw [← filtered, kept, List.filter_filter]
  refine List.filter_congr fun event _ => ?_
  cases event <;> rfl

def comesToRest : List Controller → Nat
  | before :: after :: later =>
    (if !before.isAtRest && after.isAtRest then 1 else 0) + comesToRest (after :: later)
  | _ => 0

theorem comesToRest_concat (earlier : List Controller) (before after : Controller) :
    comesToRest (earlier ++ [before, after]) =
      comesToRest (earlier ++ [before]) + if !before.isAtRest && after.isAtRest then 1 else 0 := by
  induction earlier with
  | nil => simp [comesToRest]
  | cons first earlier ih =>
    cases earlier with
    | nil => simp [comesToRest]
    | cons second earlier =>
      simp only [List.cons_append, comesToRest] at ih ⊢
      rw [ih, Nat.add_assoc]

/-- Stops that are told of as often as controllers come to rest, each with the state of a debugger at
rest. -/
structure TellsRests (stops : List HostEvent) (controllers : List Controller) : Prop where
  counted : stops.length = comesToRest controllers
  atRest : ∀ reason state, .stopped reason state ∈ stops → state.paused = true ∧ state.mode = .run

theorem stopEvents_rests {c : Controller} (told : c.stopReason.isSome = c.isAtRest)
    {controllers : List Controller} (counted : comesToRest controllers = if c.isAtRest then 1 else 0) :
    TellsRests (stopEvents c) controllers where
  counted := by
    rw [counted, ← told, stopEvents]
    cases c.stopReason <;> rfl
  atRest reason state member := by
    obtain ⟨left, here, same⟩ := mem_stopEvents member
    cases same
    have rests : c.isAtRest = true := by rw [← told, here]; rfl
    have paused : c.state = .paused .run := by simpa [Controller.isAtRest] using rests
    simp [Controller.pauseState, Controller.isPaused, Controller.mode, paused]

/-- The controllers that a burst goes through: the first one, the one before each deed, and the one
that is left. If a step fails, no run is left that could come to rest. -/
def controllersThrough {σ : Type} (first : Controller) (done : List (Progress σ × Deed)) :
    Progress σ × Ending → List Controller
  | (_, .failed _ _) => []
  | (q, _) => first :: done.map (·.1.live.controller) ++ [q.live.controller]

theorem controllersThrough_fine {σ : Type} {first : Controller} {done : List (Progress σ × Deed)}
    {q : Progress σ} {ending : Ending} (fine : ∀ error line, ending ≠ .failed error line) :
    controllersThrough first done (q, ending) =
      first :: done.map (·.1.live.controller) ++ [q.live.controller] := by
  cases ending with
  | failed error line => exact absurd rfl (fine error line)
  | _ => rfl

variable [Interpreter σ]

def Live.controllers (live : Live σ) (breakpoints : Breakpoints) (request : Request)
    (budget : Nat) : List Controller :=
  controllersThrough live.controller (live.deeds breakpoints request budget)
    (live.burst breakpoints request budget)

namespace Progress

structure Rests (first : Controller) (done : List (Progress σ × Deed)) (p : Progress σ) : Prop where
  counted : comesToRest (first :: done.map (·.1.live.controller) ++ [p.live.controller]) =
    if p.live.controller.isAtRest then 1 else 0
  told : p.live.controller.stopReason.isSome = p.live.controller.isAtRest

omit [Interpreter σ] in
theorem Rests.first {live : Live σ} (silent : live.controller.stopReason = none)
    (active : live.controller.isAtRest = false) : Rests live.controller [] (begin live) where
  counted := by simp [begin, comesToRest, active]
  told := by simp [begin, silent, active]

omit [Interpreter σ] in
theorem Rests.concat {first : Controller} {done : List (Progress σ × Deed)} {p q : Progress σ}
    {deed : Deed} (rests : Rests first done p)
    (stays : p.live.controller.isAtRest = true → q.live.controller.isAtRest = true)
    (told : q.live.controller.stopReason.isSome = q.live.controller.isAtRest) :
    Rests first (done ++ [(p, deed)]) q where
  counted := by
    have split : first :: (done ++ [(p, deed)]).map (·.1.live.controller) ++ [q.live.controller] =
        (first :: done.map (·.1.live.controller)) ++ [p.live.controller, q.live.controller] := by
      simp
    rw [split, comesToRest_concat, rests.counted]
    cases before : p.live.controller.isAtRest with
    | false => simp
    | true => simp [stays before]
  told := told

theorem tracks_rests (breakpoints : Breakpoints) (request : Request) (budget : Nat)
    (first : Controller) :
    Tracks (σ := σ) breakpoints request budget (Rests first) (fun _ => True) where
  arrives rests _ arrives after := by
    obtain ⟨line, -, -, -, stops⟩ := arrival_arrives arrives
    have there := after.controller
    rw [stops] at there
    refine rests.concat (fun _ => ?_) ?_ <;> rw [there] <;> rfl
  steps {_ p q} rests _ _ after := by
    cases resting : (p.judged request).2.2 with
    | true =>
      have there := after.controller_eq
      rw [resting, if_pos rfl] at there
      refine rests.concat (fun _ => ?_) ?_ <;> rw [there] <;> rfl
    | false =>
      have same := Controller.isAtRest_congr (after.state_active resting)
      have reason : q.live.controller.stopReason = p.live.controller.stopReason := by
        rw [after.controller_active resting, ← p.refreshed_stopReason]
        rfl
      exact rests.concat (fun before => same.trans before) (by rw [reason, same, rests.told])
  fails _ _ _ := trivial

end Progress

theorem burst_tellsRests {live : Live σ} (breakpoints : Breakpoints) (request : Request)
    (budget : Nat) (silent : live.controller.stopReason = none)
    (active : live.controller.isAtRest = false) :
    TellsRests (leftStop (live.burst breakpoints request budget))
      (live.controllers breakpoints request budget) := by
  have begins : Progress.Rests live.controller [] (Progress.begin live) := .first silent active
  have tracked := (Progress.tracks_rests breakpoints request budget live.controller).burst begins
  rw [List.nil_append] at tracked
  rw [Live.controllers]
  generalize live.burst breakpoints request budget = result at tracked ⊢
  cases tracked with
  | lost =>
    rw [leftStop, controllersThrough]
    exact ⟨rfl, fun _ _ told => absurd told List.not_mem_nil⟩
  | @holds q ending fine rests =>
    rw [leftStop_fine fine, controllersThrough_fine fine]
    exact stopEvents_rests rests.told rests.counted

omit [Interpreter σ] in
theorem Minds.stays {operation : Operation σ φ} {c next : Controller} (minds : Minds operation c next)
    (other : operation ≠ .command .pause) (rests : next.isAtRest = true) : c.isAtRest = true := by
  cases minds with
  | same => exact rests
  | told => exact rests
  | paused pauses => exact absurd pauses other
  | enters state active =>
    have entered : (c.enterState state).state = .paused .run := by
      simpa [Controller.isAtRest] using rests
    exact absurd entered active

namespace Scheduler

def controllers (s : Scheduler σ φ) (operation : Operation σ φ) : List Controller :=
  match s.burstOf operation with
  | some (live, request) => live.controllers s.breakpoints request s.settings.tickBudget
  | none =>
    match s.live, (s.perform operation).live with
    | some before, some after => [before.controller, after.controller]
    | _, _ => []

variable {s : Scheduler σ φ} {operation : Operation σ φ}

theorem pause_tellsRests (silent : s.Silent) :
    TellsRests (s.stopsOf (.command .pause)) (s.controllers (.command .pause)) := by
  rw [stopsOf_quiet rfl, pauseStops, controllers]
  dsimp only [burstOf]
  rw [perform, apply, pause]
  cases here : s.live with
  | none => exact ⟨by simp [comesToRest], by simp⟩
  | some live =>
    rw [Option.map_some, Option.getD_some]
    dsimp only
    unfold Controller.pause
    cases rests : live.controller.isAtRest with
    | true =>
      have none : stopEvents live.controller = [] := by rw [stopEvents, silent live here]
      simp only [if_true, Bool.false_eq_true, if_false, here]
      exact ⟨by simp [none, comesToRest, rests], by simp [none]⟩
    | false =>
      simp only [Bool.false_eq_true, if_false, if_true, reportStop_live, Option.map_some]
      exact stopEvents_rests rfl (by simp [comesToRest, rests]; rfl)

theorem quiet_tellsRests (quiet : s.burstOf operation = none)
    (other : operation ≠ .command .pause) :
    TellsRests (s.stopsOf operation) (s.controllers operation) := by
  have none : s.stopsOf operation = [] := by
    rw [stopsOf_quiet quiet]
    unfold pauseStops
    split
    · exact absurd rfl other
    · rfl
  rw [none]
  refine ⟨?_, nofun⟩
  unfold controllers
  rw [quiet]
  dsimp only
  split
  · rename_i before after here there
    have stays : after.controller.isAtRest = true → before.controller.isAtRest = true := by
      cases perform_hands there with
      | minds live _ _ minds =>
        rw [here] at live
        cases live
        exact minds.stays other
      | opens _ _ same =>
        rw [same]
        nofun
      | bursts runs =>
        rw [bursts_iff.mp runs] at quiet
        cases quiet
    cases rests : after.controller.isAtRest with
    | false => simp [comesToRest, rests]
    | true => simp [comesToRest, stays rests]
  · rfl

/-- An operation tells of a stop as often as the run comes to rest in it. -/
theorem stopsOf_tellsRests (silent : s.Silent) (operation : Operation σ φ) :
    TellsRests (s.stopsOf operation) (s.controllers operation) := by
  cases quiet : s.burstOf operation with
  | some burst =>
    obtain ⟨live, request⟩ := burst
    have runs := bursts_iff.mpr quiet
    rw [stopsOf_burst runs, controllers, quiet]
    exact burst_tellsRests _ _ _ (runs.silent silent) runs.active
  | none =>
    by_cases pauses : operation = .command .pause
    · subst pauses
      exact pause_tellsRests silent
    · exact quiet_tellsRests quiet pauses

omit [Interpreter σ] in
theorem Lasts.prefix {t : Scheduler σ φ} (lasts : Lasts s t) : s.events <+: t.events := by
  cases lasts with
  | on _ _ _ told => exact told.prefix
  | ended _ _ _ _ told => exact told.prefix

theorem perform_prefix (s : Scheduler σ φ) (operation : Operation σ φ) :
    s.events <+: (s.perform operation).events := by
  cases opens : operation.opens with
  | false =>
    cases here : s.live with
    | none =>
      have same : (s.perform operation).events = s.events := by
        rw [events, events, (perform_inert here opens).notices]
      exact same ▸ List.prefix_rfl
    | some live =>
      cases perform_takes (Option.isSome_iff_exists.mpr ⟨live, here⟩) opens with
      | lasts told _ _ lasts => exact told ▸ lasts.prefix
      | resets _ _ _ _ told => exact told.prefix
  | true =>
    cases operation with
    | start program lines began ended =>
      have stopped : s.events <+: s.stop.events := by
        rcases s.stop_finishes with ⟨-, same⟩ | ⟨-, told⟩
        · exact same ▸ List.prefix_rfl
        · exact (List.prefix_append _ _).trans told.prefix
      have fate : Fate True s.stop.events (s.start program lines began ended) :=
        s.start_fate program lines began ended
      cases fate with
      | runs _ told => exact stopped.trans told.prefix
      | ended _ told => exact stopped.trans told.prefix
    | _ => cases opens

theorem perform_tellsRests (silent : s.Silent) (operation : Operation σ φ) :
    ∃ told, (s.perform operation).events = s.events ++ told ∧
      TellsRests (told.filter HostEvent.isStop) (s.controllers operation) := by
  obtain ⟨told, same, stops⟩ := (perform_adds operation silent).events (s.perform_prefix operation)
  exact ⟨told, same, stops ▸ stopsOf_tellsRests silent operation⟩

omit [Interpreter σ] in
theorem burstOf_atRest (rests : s.isAtRest = true) (one : operation.opens = false) :
    s.burstOf operation = none := by
  rw [Option.eq_none_iff_forall_ne_some]
  rintro ⟨live, request⟩ found
  have runs := bursts_iff.mpr found
  cases runs with
  | @tick live _ _ _ here _ steps =>
    have active := beginTick_active steps
    obtain ⟨stepOutDepth, same⟩ := beginTick_eq live.controller
    rw [same] at active
    have still : live.controller.isAtRest = true := by simpa [isAtRest, here] using rests
    exact absurd (still.symm.trans active) nofun
  | @dispatch live _ _ here running =>
    have still : live.controller.isAtRest = true := by simpa [isAtRest, here] using rests
    exact absurd (still.symm.trans (Controller.awake running)) nofun
  | start => cases one

theorem perform_atRest (rests : s.isAtRest = true) (one : operation.opens = false)
    {live next : Live σ} (here : s.live = some live)
    (there : (s.perform operation).live = some next) : next.program = live.program := by
  cases perform_hands there with
  | minds first program =>
    rw [here] at first
    cases first
    exact program
  | opens starts =>
    rw [starts] at one
    cases one
  | bursts runs =>
    have found := bursts_iff.mp runs
    rw [burstOf_atRest rests one] at found
    cases found

end Scheduler

omit [Interpreter σ] in
theorem new_upToDate (settings : Settings) (finish : Option (FinishRule φ)) :
    (Scheduler.new settings finish : Scheduler σ φ).UpToDate where
  recorded := ⟨rfl, .singleton _⟩
  current := rfl

/-- A host knows the debugger from the events. What it was last shown is the debugger's state, that of the
live run's controller, and it is never shown the same state twice in a row. It is told of a stop as often as a run comes to rest that
is still live when the burst or the command is over, each time with the state of a debugger at rest.
At rest the program takes no step until another run is started. -/
theorem host_knows_debugger (settings : Settings) (finish : Option (FinishRule φ))
    (operations : List (Operation σ φ)) :
    let s : Scheduler σ φ := (Scheduler.new settings finish).performAll operations
    Shows s.views s.pauseState ∧
      (∀ live, s.live = some live → s.pauseState = ⟨true, live.controller.isPaused,
        live.controller.mode, live.controller.stopPoint.map (·.line),
        live.controller.stopPoint.map (·.depth)⟩) ∧
      (∀ operation, ∃ told, (s.perform operation).events = s.events ++ told ∧
        TellsRests (told.filter HostEvent.isStop) (s.controllers operation)) ∧
      (s.isAtRest = true → ∀ operation, operation.opens = false → s.deeds operation = [] ∧
        ∀ live next, s.live = some live → (s.perform operation).live = some next →
          next.program = live.program) := by
  have silent : (Scheduler.new settings finish : Scheduler σ φ).Silent := by
    intro live here
    cases here
  intro s
  obtain ⟨recorded, current⟩ := (new_upToDate settings finish).performAll operations
  refine ⟨current ▸ recorded, fun live here => Scheduler.pauseState_live here,
    Scheduler.perform_tellsRests (silent.performAll operations), ?_⟩
  intro rests operation one
  exact ⟨Scheduler.deeds_quiet (Scheduler.burstOf_atRest rests one),
    fun _ _ => Scheduler.perform_atRest rests one⟩

def breakingInside (loaded : Loaded) : List (Operation Machine Unit) :=
  [.command (.setBreakpoints [2]), .start loaded.machine loaded.text.lineMap 0 0]

/-- The run comes to rest in a dispatch, and stays there in a tick. -/
theorem breaking_knows_debugger : ∃ loaded, Script.load misnaming = .ok loaded ∧
    let s := Scheduler.performAll (.new .default none) (breakingInside loaded)
    let dispatch := .dispatch ⟨"f", []⟩ 0
    comesToRest (s.controllers dispatch) = 1 ∧
      (∃ told, (s.perform dispatch).events = s.events ++ told ∧
        (told.filter HostEvent.isStop).length = 1) ∧
      (s.perform dispatch).pauseState = ⟨true, true, .run, some 2, some 7⟩ ∧
      Shows (s.perform dispatch).views (s.perform dispatch).pauseState ∧
      (s.perform dispatch).isAtRest = true ∧ (s.perform dispatch).deeds (.tick ⟨1, 0⟩ 0 0) = [] := by
  have computed : (Script.load misnaming).toOption.any (fun loaded =>
      let s := Scheduler.performAll (.new .default none) (breakingInside loaded)
      comesToRest (s.controllers (.dispatch ⟨"f", []⟩ 0)) == 1 &&
        (s.perform (.dispatch ⟨"f", []⟩ 0)).pauseState == ⟨true, true, .run, some 2, some 7⟩ &&
        (s.perform (.dispatch ⟨"f", []⟩ 0)).isAtRest) = true := by
    decide +kernel
  obtain ⟨loaded, read, holds⟩ := load_any computed
  simp only [Bool.and_eq_true, beq_iff_eq] at holds
  obtain ⟨⟨once, shown⟩, rests⟩ := holds
  obtain ⟨told, same, tells⟩ := (host_knows_debugger .default none (breakingInside loaded)).2.2.1
    (.dispatch ⟨"f", []⟩ 0)
  have knows := host_knows_debugger .default none
    (breakingInside loaded ++ [.dispatch ⟨"f", []⟩ 0])
  rw [Scheduler.performAll_concat] at knows
  obtain ⟨shows, -, -, still⟩ := knows
  exact ⟨loaded, read, once, ⟨told, same, tells.counted.trans once⟩, shown, shows, rests,
    (still rests (.tick ⟨1, 0⟩ 0 0) rfl).1⟩

end Metronome.Run
