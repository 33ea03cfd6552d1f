import Metronome.Proofs.HostView

namespace Metronome.Run

open Metronome.Debug (Breakpoints Command Controller Cursor)

def HostEvent.highlights : Option Nat → HostEvent → Option Nat
  | _, .selected line => some line
  | _, .finished _ => none
  | shown, _ => shown

/-- The line that a host shows: the last one that it was told to show since a run has ended. -/
def highlight (events : List HostEvent) : Option Nat :=
  events.foldl HostEvent.highlights none

def HostEvent.isPlain : HostEvent → Bool
  | .selected _ => false
  | .finished _ => false
  | _ => true

theorem highlight_append (before after : List HostEvent) :
    highlight (before ++ after) = after.foldl HostEvent.highlights (highlight before) :=
  List.foldl_append

theorem foldl_plain {told : List HostEvent} (plain : ∀ event ∈ told, event.isPlain = true)
    (shown : Option Nat) : told.foldl HostEvent.highlights shown = shown := by
  induction told with
  | nil => rfl
  | cons event told ih =>
    obtain ⟨first, rest⟩ := List.forall_mem_cons.mp plain
    cases event with
    | selected | finished => cases first
    | _ => exact ih rest

def GoesOnPlainly (before after : List HostEvent) : Prop :=
  GoesOn (fun event => event.isPlain = true) before after

theorem GoesOnPlainly.highlight {before after : List HostEvent}
    (goesOn : GoesOnPlainly before after) : highlight after = highlight before := by
  obtain ⟨told, rfl, plain⟩ := goesOn
  rw [highlight_append, foldl_plain plain]

theorem highlight_selected (before : List HostEvent) (line : Nat) :
    highlight (before ++ [.selected line]) = some line :=
  highlight_append _ _

theorem highlight_finished (before : List HostEvent) (outcome : Outcome) :
    highlight (before ++ [.finished outcome]) = none :=
  highlight_append _ _

theorem events_polled (notices : Array Notice) (callback : Option Callback) :
    events (notices.push (.polled callback)) = events notices :=
  (events_push _ _).trans (List.append_nil _)

namespace Bridge

theorem tell_goesOn (bridge : Bridge) (line : String) :
    GoesOnPlainly (events bridge.notices) (events (bridge.tell (.output line)).notices) :=
  ⟨[.output line], events_push _ _, by simp [HostEvent.isPlain]⟩

theorem giveBack_goesOn (value : Value) (bridge : Bridge) :
    GoesOnPlainly (events bridge.notices) (events (bridge.giveBack value).notices) := by
  obtain ⟨response, warnings, same, -⟩ := bridge.giveBack_eq value
  rw [same]
  refine ⟨warnings.map .output, ?_, by simp [HostEvent.isPlain]⟩
  simp [events, List.filterMap_map, Function.comp_def, Notice.event?]

theorem run_goesOn {α : Type} (computation : Native α) (bridge : Bridge) :
    GoesOnPlainly (events bridge.notices) (events (computation.run natives bridge).2.notices) := by
  induction computation generalizing bridge with
  | done result => exact .refl _
  | nextCallback resume ih =>
    cases waiting : bridge.queue with
    | nil =>
      simp only [Native.run, natives, nextCallback, waiting]
      rw [← events_polled bridge.notices none]
      exact ih none _
    | cons callback queue =>
      simp only [Native.run, natives, nextCallback, waiting]
      rw [← events_polled bridge.notices (some _)]
      exact ih _ _
  | giveBack value rest ih => exact (giveBack_goesOn value bridge).trans (ih _)
  | setTimeout callback delay rest ih => exact ih _
  | output line rest ih => exact (tell_goesOn bridge line).trans (ih _)

end Bridge

variable {σ φ : Type}

section

variable [Interpreter σ]

theorem Live.select_remembers (live : Live σ) (force : Bool) (notices : Array Notice) :
    (live.select force notices).1.lastSelected =
      (Cursor.lineOf live.program live.lines).or live.lastSelected := by
  unfold select
  split
  · rename_i outside
    rw [outside]
    rfl
  · rename_i line here
    rw [here]
    split
    · rfl
    · rename_i known
      simp only [Bool.or_eq_true, bne_iff_ne, not_or, not_not] at known
      exact known.2

theorem Live.select_highlights (live : Live σ) (force : Bool) {before : List HostEvent}
    {notices : Array Notice} (shown : highlight (before ++ events notices) = live.lastSelected) :
    highlight (before ++ events (live.select force notices).2) =
      (live.select force notices).1.lastSelected := by
  unfold select
  split
  · exact shown
  · split
    · rw [events_push, ← List.append_assoc]
      exact highlight_selected _ _
    · exact shown

namespace Progress

def Highlighted (before : List HostEvent) (p : Progress σ) : Prop :=
  highlight (before ++ events p.notices) = p.live.lastSelected

variable {before : List HostEvent} {breakpoints : Breakpoints} {request : Request}
  {budget : Nat} {p q : Progress σ} {ending : Option Ending}

theorem noteLine_remembers (p : Progress σ) (atMaxSpeed : Bool) :
    (p.noteLine atMaxSpeed p.line).live.lastSelected =
      if p.live.controller.isPaused || !atMaxSpeed then p.line.or p.live.lastSelected
      else p.live.lastSelected := by
  unfold noteLine
  cases here : p.line with
  | none => simp
  | some line =>
    simp only [Option.isNone_some, Bool.false_eq_true, if_false]
    split
    · refine (Live.select_remembers { p.live with lastLine := some line } false _).trans ?_
      rw [show Cursor.lineOf p.live.program p.live.lines = some line from here]
    · rfl

theorem noteLine_highlights (shown : p.Highlighted before) (atMaxSpeed : Bool) :
    (p.noteLine atMaxSpeed p.line).Highlighted before := by
  unfold noteLine
  split
  · exact shown
  · dsimp only
    split
    · exact Live.select_highlights { p.live with lastLine := p.line } false shown
    · exact shown

theorem step_selected (p : Progress σ) (request : Request) (cursor : Cursor) :
    (p.step request cursor).1.live.lastSelected = p.live.lastSelected := by
  unfold step stepProgram afterStep
  dsimp only
  split
  · rfl
  · rfl

theorem pass_selected (proceeds : p.Proceeds request budget)
    (passed : p.pass breakpoints request budget = (q, ending)) :
    q.live.lastSelected = (p.noteLine request.atMaxSpeed p.line).live.lastSelected := by
  have stops := proceeds.not_stopsNow
  unfold stopsNow at stops
  simp only [Bool.or_eq_false_iff] at stops
  rw [show q = (p.pass breakpoints request budget).1 by rw [passed]]
  unfold pass
  dsimp only
  rw [if_neg (by simp [stops.1]), if_neg (by simp [stops.2]), if_neg (by simp [proceeds.incomplete])]
  split
  · rfl
  · exact step_selected _ _ _

theorem pass_remembers (proceeds : p.Proceeds request budget)
    (passed : p.pass breakpoints request budget = (q, ending)) :
    q.live.lastSelected =
      if p.live.controller.isPaused || !request.atMaxSpeed then p.line.or p.live.lastSelected
      else p.live.lastSelected :=
  (pass_selected proceeds passed).trans (p.noteLine_remembers _)

theorem stepped_plain (request : Request) (p : Progress σ) :
    GoesOnPlainly (events (p.noteLine request.atMaxSpeed p.line).notices)
      (events (p.stepped request).2.notices) :=
  Bridge.run_goesOn _ _

theorem pass_highlighted (shown : p.Highlighted before)
    (passed : p.pass breakpoints request budget = (q, ending)) : q.Highlighted before := by
  have noted := noteLine_highlights shown request.atMaxSpeed
  have ran : highlight (before ++ events (p.stepped request).2.notices) =
      highlight (before ++ events (p.noteLine request.atMaxSpeed p.line).notices) := by
    obtain ⟨told, same, plain⟩ := stepped_plain request p
    exact GoesOnPlainly.highlight ⟨told, by rw [same, List.append_assoc], plain⟩
  have spec := pass_spec breakpoints request budget p
  rw [passed] at spec
  cases spec with
  | stopped => exact shown
  | exhausted => exact shown
  | complete => exact shown
  | arrived proceeds _ after =>
    rw [Highlighted, after.notices, pass_selected proceeds passed]
    exact noted
  | failed proceeds _ _ after | stepped proceeds _ _ after =>
    rw [Highlighted, after.notices, pass_selected proceeds passed, ran]
    exact noted

theorem Reaches.highlighted (reaches : Reaches breakpoints request budget p q)
    (shown : p.Highlighted before) : q.Highlighted before :=
  reaches.keeps (Highlighted before) shown fun _ _ shown goesOn => pass_highlighted shown goesOn

end Progress

theorem burst_highlighted {live : Live σ} {before : List HostEvent} (breakpoints : Breakpoints)
    (request : Request) (budget : Nat) (shown : highlight before = live.lastSelected) :
    (live.burst breakpoints request budget).1.Highlighted before := by
  have begins : (Progress.begin live).Highlighted before := by
    rw [Progress.Highlighted, show (Progress.begin live).notices = #[] from rfl, events_empty,
      List.append_nil]
    exact shown
  generalize ran : live.burst breakpoints request budget = result
  obtain ⟨q, ending⟩ := result
  unfold Live.burst at ran
  obtain ⟨p, reaches, ⟨-, rfl⟩ | last⟩ := Progress.passes_spec ran
  · exact reaches.highlighted begins
  · exact Progress.pass_highlighted (reaches.highlighted begins) last

end

theorem shown_highlights [Interpreter σ] {before : List HostEvent} (atMaxSpeed : Bool)
    {p : Progress σ} (shown : p.Highlighted before) :
    highlight (before ++ events (Scheduler.shown atMaxSpeed p).2) =
      (Scheduler.shown atMaxSpeed p).1.lastSelected := by
  unfold Scheduler.shown
  split
  · exact p.live.select_highlights true shown
  · exact shown

namespace Scheduler

def Highlighted (s : Scheduler σ φ) : Prop :=
  highlight s.events = s.live.bind (·.lastSelected)

namespace Highlighted

variable {s t : Scheduler σ φ}

theorem tells (shown : s.Highlighted)
    (plain : GoesOnPlainly s.events t.events)
    (kept : t.live.bind (·.lastSelected) = s.live.bind (·.lastSelected)) : t.Highlighted := by
  rw [Highlighted, plain.highlight, kept]
  exact shown

theorem remembers (shown : s.Highlighted) {live : Live σ} (here : s.live = some live) :
    highlight s.events = live.lastSelected := by
  rw [shown, here]
  rfl

theorem reports (shown : s.Highlighted) : s.reportPauseState.Highlighted :=
  shown.tells (reportPauseState_log (fun _ => rfl) s) (by rw [reportPauseState_live])

theorem stops (shown : s.Highlighted) : s.reportStop.Highlighted := by
  refine shown.tells (reportStop_log (fun _ => rfl) (fun _ _ => rfl) s) ?_
  rw [reportStop_live]
  cases s.live <;> rfl

theorem ends (shown : s.Highlighted) (outcome : Outcome) : (s.endRun outcome).Highlighted := by
  unfold endRun
  split
  · exact shown
  · refine reports ?_
    change highlight (tell { s with live := none, pending := none } (.finished outcome)).events = none
    rw [events_tell]
    exact highlight_finished _ _

theorem fails (shown : s.Highlighted) (error : StepError) (line : Option Nat) :
    (s.failRun error line).Highlighted := by
  unfold failRun
  split
  · exact shown
  · have plainly : ∀ {t : Scheduler σ φ} {event : HostEvent}, t.Highlighted →
        event.isPlain = true → (t.tell event).Highlighted := fun {t event} shown plain =>
      shown.tells ⟨[event], events_tell t event, by simpa using plain⟩ rfl
    exact ends (plainly (plainly shown rfl) rfl) _

theorem opens (shown : s.Highlighted) (program : σ) (lines : LineMap) :
    (s.opened program lines).Highlighted := by
  refine reports ?_
  have stopped : highlight s.stop.events = s.stop.live.bind (·.lastSelected) := shown.ends .stopped
  rw [stop, endRun_live] at stopped
  exact stopped

theorem applies (shown : s.Highlighted) (command : Command) : (s.apply command).Highlighted := by
  have minds : ∀ {live : Live σ} {c : Controller}, s.live = some live →
      Highlighted { s with live := some { live with controller := c } } := by
    intro live c here
    refine shown.tells (.refl _) ?_
    rw [here]
    rfl
  have stepped : ∀ mode, (s.beginStep mode).Highlighted := by
    intro mode
    unfold beginStep
    split
    · exact shown
    · rename_i live here
      exact reports (minds here)
  cases command with
  | pause =>
    rw [apply, pause]
    split
    · exact shown
    · rename_i live here
      dsimp only
      split
      · exact stops (minds here)
      · exact shown
  | resume =>
    rw [apply, resume]
    split
    · exact shown
    · rename_i live here
      split
      · exact reports (minds here)
      · exact shown
  | stepIn => exact stepped _
  | stepOver => exact stepped _
  | stepOut =>
    rw [apply, stepOut]
    split
    · exact stepped _
    · exact shown
  | stop => exact shown.ends .stopped
  | _ => exact shown

variable [Interpreter σ]

theorem checks (shown : s.Highlighted) : s.checkFinished.Highlighted := by
  unfold checkFinished
  split
  · exact shown
  · split
    · exact shown.ends _
    · split
      · exact shown.ends _
      · unfold consult
        split
        · exact shown
        · dsimp only
          split
          · exact ends (s := { s with finish := some _ }) shown _
          · exact shown

theorem closes {live : Live σ} (shown : highlight s.events = live.lastSelected) (now : Instant) :
    (s.closeTick live now).Highlighted :=
  (stops (s := { s with live := some { live with
    timers := (live.timers.release now live.queue).1
    queue := (live.timers.release now live.queue).2 } }) shown).checks

theorem settles (atMaxSpeed : Bool) (ended : Instant) {result : Progress σ × Ending}
    (shown : result.1.Highlighted s.events) :
    (s.settle atMaxSpeed ended result).Highlighted := by
  obtain ⟨p, ending⟩ := result
  have closed : (closeTick { s with notices := s.notices ++ (Scheduler.shown atMaxSpeed p).2 }
      (Scheduler.shown atMaxSpeed p).1 ended).Highlighted := by
    refine closes ?_ ended
    change highlight (Run.events (s.notices ++ _)) = _
    rw [events_append]
    exact shown_highlights atMaxSpeed shown
  cases ending with
  | failed error line =>
    refine fails (s := s.afterBurst p) ?_ error line
    change highlight (Run.events (s.notices ++ p.notices)) = p.live.lastSelected
    rw [events_append]
    exact shown
  | _ => exact closed

omit [Interpreter σ] in
theorem answers {result : Progress σ × Ending} (shown : result.1.Highlighted s.events) :
    (s.answer result).1.Highlighted := by
  obtain ⟨p, ending⟩ := result
  have told : highlight (Run.events (s.notices ++ p.notices)) = p.live.lastSelected := by
    rw [events_append]
    exact shown
  cases ending with
  | failed error line => exact fails (s := s.afterBurst p) told error line
  | _ => exact stops (s := s.afterBurst { p with live := _ }) told

theorem ticks (shown : s.Highlighted) (tick : PendingTick) (began ended : Instant) :
    (s.onTick tick began ended).Highlighted := by
  by_cases stale : s.live = none ∨ tick.run ≠ s.runNumber
  · rw [onTick_stale began ended stale]
    exact shown
  · obtain ⟨running, same⟩ := not_or.mp stale
    obtain ⟨live, here⟩ := Option.ne_none_iff_exists'.mp running
    have last : tick.run = s.runNumber := not_not.mp same
    have remembered := shown.remembers here
    cases steps : live.controller.beginTick.2 with
    | true =>
      rw [onTick_steps began ended here last steps]
      exact settles _ _ (burst_highlighted _ _ _ remembered)
    | false =>
      rw [onTick_rests began ended here last steps]
      have ticked : highlight s.scheduled.events = live.ticked.lastSelected := remembered
      exact closes ticked _

theorem dispatches (shown : s.Highlighted) (callback : Callback) (now : Instant) :
    (s.dispatch callback now).1.Highlighted := by
  cases here : s.live with
  | none =>
    simp only [dispatch, here]
    exact shown
  | some live =>
    have remembered := shown.remembers here
    cases paused : live.controller.isPaused with
    | true =>
      simp only [dispatch, here, paused, if_true]
      exact remembered
    | false =>
      rw [dispatch_answers callback now here paused]
      exact answers (burst_highlighted _ _ _ remembered)

theorem perform (shown : s.Highlighted) (operation : Operation σ φ) :
    (s.perform operation).Highlighted := by
  cases operation with
  | install rule => exact shown
  | start program lines began ended =>
    have opened := shown.opens program lines
    rw [Scheduler.perform, start_opened]
    split
    · exact opened
    · exact opened.ticks _ _ _
  | take => exact shown
  | tick tick began ended => exact shown.ticks tick began ended
  | dispatch callback now => exact shown.dispatches callback now
  | command command => exact shown.applies command
  | reset => exact ends shown .stopped

end Highlighted

end Scheduler

end Metronome.Run
