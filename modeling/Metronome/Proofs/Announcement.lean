import Metronome.Proofs.HostLog

namespace Metronome.Run

open Metronome.Debug (Breakpoints Command Controller)

variable {σ φ : Type} [Interpreter σ]

def HostEvent.isStop : HostEvent → Bool
  | .stopped _ _ => true
  | _ => false

def Unstopped (notices : Array Notice) : Prop :=
  ∀ event ∈ transcript notices, event.isStop = false

theorem Inner.unstopped {notices : Array Notice} (inner : Inner notices) : Unstopped notices := by
  have goesOn : GoesOn (fun event => event.isStop = false) (events #[]) (events (#[] ++ notices)) :=
    inner.goesOn (fun _ => rfl) (fun _ => rfl) #[]
  obtain ⟨told, same, none⟩ := goesOn
  rw [Array.empty_append, events_empty, List.nil_append] at same
  intro event member
  rw [transcript_eq_filter, same] at member
  exact none event (List.mem_filter.mp member).1

def AddsStops (stops before after : List HostEvent) : Prop :=
  ∃ told, after = before ++ told ∧ told.filter HostEvent.isStop = stops

theorem AddsStops.refl (told : List HostEvent) : AddsStops [] told told :=
  ⟨[], by simp, rfl⟩

theorem AddsStops.trans {left right first second third : List HostEvent}
    (before : AddsStops left first second) (after : AddsStops right second third) :
    AddsStops (left ++ right) first third := by
  obtain ⟨told, rfl, stops⟩ := before
  obtain ⟨more, rfl, moreStops⟩ := after
  exact ⟨told ++ more, List.append_assoc _ _ _, by rw [List.filter_append, stops, moreStops]⟩

theorem GoesOn.addsNone {before after : List HostEvent}
    (goesOn : GoesOn (fun event => event.isStop = false) before after) :
    AddsStops [] before after := by
  obtain ⟨told, same, none⟩ := goesOn
  exact ⟨told, same, List.filter_eq_nil_iff.mpr fun event member => by simp [none event member]⟩

theorem stopEvents_isStop (controller : Controller) :
    (stopEvents controller).filter HostEvent.isStop = stopEvents controller := by
  unfold stopEvents
  split <;> rfl

def leftStop {σ : Type} : Progress σ × Ending → List HostEvent
  | (_, .failed _ _) => []
  | (q, _) => stopEvents q.live.controller

theorem leftStop_fine {σ : Type} {q : Progress σ} {ending : Ending}
    (fine : ∀ error line, ending ≠ .failed error line) :
    leftStop (q, ending) = stopEvents q.live.controller := by
  cases ending with
  | failed error line => exact absurd rfl (fine error line)
  | _ => rfl

namespace Scheduler

def pauseStops {σ φ : Type} (s : Scheduler σ φ) : Operation σ φ → List HostEvent
  | .command .pause => (s.live.map fun live => stopEvents live.controller.pause.1).getD []
  | _ => []

def stopsOf (s : Scheduler σ φ) (operation : Operation σ φ) : List HostEvent :=
  match s.burstOf operation with
  | some (live, request) => leftStop (live.burst s.breakpoints request s.settings.tickBudget)
  | none => s.pauseStops operation

theorem stopsOf_burst {s : Scheduler σ φ} {operation : Operation σ φ} {live : Live σ}
    {request : Request} (runs : Bursts s operation live request) :
    s.stopsOf operation =
      leftStop (live.burst s.breakpoints request s.settings.tickBudget) := by
  simp only [stopsOf, bursts_iff.mp runs]

theorem stopsOf_quiet {s : Scheduler σ φ} {operation : Operation σ φ}
    (quiet : s.burstOf operation = none) : s.stopsOf operation = s.pauseStops operation := by
  simp only [stopsOf, quiet]

theorem reportStop_adds {σ φ : Type} (s : Scheduler σ φ) :
    AddsStops ((s.live.map fun live => stopEvents live.controller).getD []) s.transcript
      s.reportStop.transcript := by
  rw [transcript_reportStop]
  refine ⟨_, rfl, ?_⟩
  cases s.live with
  | none => rfl
  | some live => exact stopEvents_isStop _

theorem endRun_adds {σ φ : Type} (s : Scheduler σ φ) (outcome : Outcome) :
    AddsStops [] s.transcript (s.endRun outcome).transcript :=
  (endRun_goes (fun _ => rfl) s outcome).addsNone

theorem closeTick_adds (s : Scheduler σ φ) (live : Live σ) (now : Instant) :
    AddsStops (stopEvents live.controller) s.transcript (s.closeTick live now).transcript := by
  have reports := reportStop_adds { s with live := some { live with
    timers := (live.timers.release now live.queue).1
    queue := (live.timers.release now live.queue).2 } }
  have adds := reports.trans (checkFinished_goes (fun _ => rfl) _).addsNone
  rwa [List.append_nil] at adds

theorem afterBurst_adds {σ φ : Type} (s : Scheduler σ φ) {q : Progress σ}
    (printed : Unstopped q.notices) : AddsStops [] s.transcript (s.afterBurst q).transcript :=
  GoesOn.addsNone ⟨_, transcript_append _ _, printed⟩

theorem failRun_adds {σ φ : Type} (s : Scheduler σ φ) (q : Progress σ) (error : StepError)
    (line : Option Nat) :
    AddsStops [] (s.afterBurst q).transcript
      ((s.afterBurst q).failRun error line).transcript :=
  ⟨_, transcript_failRun rfl error line, rfl⟩

theorem settle_adds (s : Scheduler σ φ) {q : Progress σ} (ending : Ending) (atMaxSpeed : Bool)
    (ended : Instant) (printed : Unstopped q.notices) :
    AddsStops (leftStop (q, ending)) s.transcript
      (s.settle atMaxSpeed ended (q, ending)).transcript := by
  have closes : (∀ error line, ending ≠ .failed error line) →
      AddsStops (leftStop (q, ending)) s.transcript
        (s.settle atMaxSpeed ended (q, ending)).transcript := by
    intro fine
    rw [settle_closes s atMaxSpeed ended q fine, leftStop_fine fine]
    have shows : AddsStops [] s.transcript
        (transcript { s with notices := s.notices ++ (shown atMaxSpeed q).2 }) := by
      refine GoesOn.addsNone ⟨_, transcript_append _ _, fun event member => printed event ?_⟩
      rwa [transcript_shown] at member
    have closed := closeTick_adds { s with notices := s.notices ++ (shown atMaxSpeed q).2 }
      (shown atMaxSpeed q).1 ended
    obtain ⟨lastSelected, same⟩ := shown_live atMaxSpeed q
    rw [same] at closed ⊢
    exact shows.trans closed
  cases ending with
  | failed error line => exact (afterBurst_adds s printed).trans (failRun_adds s q error line)
  | _ => exact closes fun _ _ => by simp

omit [Interpreter σ] in
theorem answer_adds (s : Scheduler σ φ) {q : Progress σ} (ending : Ending)
    (printed : Unstopped q.notices) :
    AddsStops (leftStop (q, ending)) s.transcript (s.answer (q, ending)).1.transcript := by
  cases ending with
  | failed error line => exact (afterBurst_adds s printed).trans (failRun_adds s q error line)
  | _ =>
    exact (afterBurst_adds s (q := { q with live := { q.live with
      response := { q.live.response with lastReturn := none } } }) printed).trans
        (reportStop_adds _)

theorem burst_unstopped {live : Live σ} {breakpoints : Breakpoints} {request : Request}
    {budget : Nat} {q : Progress σ} {ending : Ending}
    (ends : live.burst breakpoints request budget = (q, ending)) : Unstopped q.notices := by
  have inner := burst_inner live breakpoints request budget
  rw [ends] at inner
  exact inner.unstopped

variable {s : Scheduler σ φ} {operation : Operation σ φ}

omit [Interpreter σ] in
theorem opened_adds (program : σ) (lines : LineMap) :
    AddsStops [] s.transcript (s.opened program lines).transcript := by
  rw [opened, transcript_reportPauseState]
  exact endRun_adds s .stopped

theorem bursts_adds {live : Live σ} {request : Request} (runs : Bursts s operation live request) :
    AddsStops (leftStop (live.burst s.breakpoints request s.settings.tickBudget)) s.transcript
      (s.perform operation).transcript := by
  generalize ran : live.burst s.breakpoints request s.settings.tickBudget = result
  obtain ⟨q, ending⟩ := result
  have printed := burst_unstopped ran
  cases runs with
  | tick here current steps =>
    rw [perform, onTick_steps _ _ here current steps, ran]
    exact settle_adds s.scheduled ending s.clock.atMaxSpeed _ printed
  | dispatch here running =>
    rw [perform, dispatch_answers _ _ here running, ran]
    exact answer_adds s ending printed
  | @start program lines _ _ steps =>
    rw [perform, start_steps _ _ _ _ steps, ran]
    exact (opened_adds program lines).trans
      (settle_adds (s.opened program lines).scheduled ending s.clock.atMaxSpeed _ printed)

theorem onTick_adds {tick : PendingTick} {began ended : Instant} (silent : s.Silent)
    (quiet : s.burstOf (.tick tick began ended) = none) :
    AddsStops [] s.transcript (s.onTick tick began ended).transcript := by
  cases here : s.live with
  | none =>
    rw [onTick_stale began ended (.inl here)]
    exact .refl _
  | some live =>
    by_cases current : tick.run = s.runNumber
    · have rests : live.controller.beginTick.2 = false := by
        simpa [burstOf, here, current] using quiet
      rw [onTick_rests began ended here current rests]
      have told : stopEvents live.ticked.controller = [] := by
        rw [Live.ticked, beginTick_rests rests, stopEvents, silent live here]
      have closed := closeTick_adds s.scheduled live.ticked ended
      rw [told] at closed
      exact closed
    · rw [onTick_stale began ended (.inr current)]
      exact .refl _

theorem dispatch_adds {callback : Callback} {now : Instant}
    (quiet : s.burstOf (.dispatch callback now) = none) :
    AddsStops [] s.transcript (s.dispatch callback now).1.transcript := by
  cases here : s.live with
  | none =>
    simp only [dispatch, here]
    exact .refl _
  | some live =>
    have paused : live.controller.isPaused = true := by simpa [burstOf, here] using quiet
    simp only [dispatch, here, paused, if_true]
    exact .refl _

omit [Interpreter σ] in
theorem pause_adds (silent : s.Silent) :
    AddsStops ((s.live.map fun live => stopEvents live.controller.pause.1).getD []) s.transcript
      s.pause.transcript := by
  cases here : s.live with
  | none =>
    simp only [pause, here]
    exact .refl _
  | some live =>
    simp only [pause, here]
    split
    · exact reportStop_adds { s with live := some { live with controller := live.controller.pause.1 } }
    · rename_i rests
      have kept : live.controller.pause.1 = live.controller := by
        unfold Controller.pause at rests ⊢
        split
        · rfl
        · rename_i awake
          simp [awake] at rests
      rw [Option.map_some, Option.getD_some, kept, stopEvents, silent live here]
      exact .refl _

theorem start_adds (program : σ) (lines : LineMap) (began ended : Instant) :
    AddsStops (s.stopsOf (.start program lines began ended)) s.transcript
      (s.start program lines began ended).transcript := by
  cases steps : s.settings.pauseOnEntry with
  | true =>
    rw [stopsOf_quiet (by simp [burstOf, steps]), start_opened, if_pos steps]
    exact opened_adds program lines
  | false =>
    have runs : Bursts s (.start program lines began ended)
        (Live.start program lines false).ticked (s.tickRequest began) := .start steps
    rw [stopsOf_burst runs]
    exact bursts_adds runs

theorem perform_adds (operation : Operation σ φ) (silent : s.Silent) :
    AddsStops (s.stopsOf operation) s.transcript (s.perform operation).transcript := by
  cases quiet : s.burstOf operation with
  | some burst =>
    obtain ⟨live, request⟩ := burst
    have runs := bursts_iff.mpr quiet
    rw [stopsOf_burst runs]
    exact bursts_adds runs
  | none =>
    rw [stopsOf_quiet quiet]
    cases operation with
    | install rule => exact .refl _
    | start program lines began ended =>
      have adds := s.start_adds program lines began ended
      rwa [stopsOf_quiet quiet] at adds
    | take => exact .refl _
    | tick tick began ended => exact onTick_adds silent quiet
    | dispatch callback now => exact dispatch_adds quiet
    | command command =>
      have others : command ≠ .pause →
          AddsStops [] s.transcript (s.apply command).transcript := fun other =>
        (apply_goes (fun _ => rfl) s command fun pauses => absurd pauses other).addsNone
      cases command with
      | pause => exact pause_adds silent
      | _ => exact others (by simp)
    | reset => exact endRun_adds s .stopped

def stopsAll (s : Scheduler σ φ) : List (Operation σ φ) → List HostEvent
  | [] => []
  | operation :: operations => s.stopsOf operation ++ (s.perform operation).stopsAll operations

theorem performAll_adds (operations : List (Operation σ φ)) (silent : s.Silent) :
    AddsStops (s.stopsAll operations) s.transcript (s.performAll operations).transcript := by
  induction operations generalizing s with
  | nil => exact .refl _
  | cons operation operations ih =>
    exact (perform_adds operation silent).trans (ih (silent.perform operation))

end Scheduler

inductive Tells (s : Scheduler σ φ) (operation : Operation σ φ) : HostEvent → Prop where
  | noStop {event : HostEvent} (noStop : event.isStop = false) : Tells s operation event
  | pause {state : Debug.PauseState} (pauses : operation = .command .pause) :
      Tells s operation (.stopped .pause state)
  | burst {live : Live σ} {request : Request} {q : Progress σ} {ending : Ending}
      {reason : Debug.StopReason} (runs : Bursts s operation live request)
      (ends : live.burst s.breakpoints request s.settings.tickBudget = (q, ending))
      (fine : ∀ error line, ending ≠ .failed error line)
      (left : q.live.controller.stopReason = some reason) :
      Tells s operation (.stopped reason (q.live.controller.pauseState true))

theorem mem_stopEvents {controller : Controller} {event : HostEvent}
    (member : event ∈ stopEvents controller) : ∃ reason, controller.stopReason = some reason ∧
      event = .stopped reason (controller.pauseState true) := by
  unfold stopEvents at member
  split at member
  · rename_i reason left
    exact ⟨reason, left, List.mem_singleton.mp member⟩
  · cases member

namespace Scheduler

variable {s : Scheduler σ φ} {operation : Operation σ φ}

theorem stopsOf_tells (silent : s.Silent) {event : HostEvent}
    (member : event ∈ s.stopsOf operation) : Tells s operation event := by
  cases quiet : s.burstOf operation with
  | some burst =>
    obtain ⟨live, request⟩ := burst
    have runs := bursts_iff.mpr quiet
    rw [stopsOf_burst runs] at member
    generalize ran : live.burst s.breakpoints request s.settings.tickBudget = result at member
    obtain ⟨q, ending⟩ := result
    have fine : ∀ error line, ending ≠ .failed error line := by
      rintro error line rfl
      cases member
    rw [leftStop_fine fine] at member
    obtain ⟨reason, left, rfl⟩ := mem_stopEvents member
    exact .burst runs ran fine left
  | none =>
    rw [stopsOf_quiet quiet] at member
    unfold pauseStops at member
    split at member
    · cases here : s.live with
      | none => simp [here] at member
      | some live =>
        rw [here, Option.map_some, Option.getD_some] at member
        obtain ⟨reason, left, rfl⟩ := mem_stopEvents member
        unfold Controller.pause at left
        split at left
        · rw [silent live here] at left
          cases left
        · cases left
          exact .pause rfl
    · cases member

theorem perform_tells (operation : Operation σ φ) (silent : s.Silent) :
    GoesOn (Tells s operation) s.transcript (s.perform operation).transcript := by
  obtain ⟨told, same, stops⟩ := perform_adds operation silent
  refine ⟨told, same, fun event member => ?_⟩
  cases stop : event.isStop with
  | false => exact .noStop stop
  | true =>
    refine stopsOf_tells silent ?_
    rw [← stops]
    exact List.mem_filter.mpr ⟨member, stop⟩

end Scheduler

end Metronome.Run
