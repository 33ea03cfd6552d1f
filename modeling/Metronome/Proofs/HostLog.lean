import Metronome.Proofs.Transcript

namespace Metronome.Run

open Metronome.Debug (Breakpoints Controller PauseState)

def events (notices : Array Notice) : List HostEvent :=
  notices.toList.filterMap Notice.event?

@[simp] theorem events_empty : events #[] = [] := rfl

@[simp] theorem events_append (left right : Array Notice) :
    events (left ++ right) = events left ++ events right := by
  simp [events]

theorem events_push (notices : Array Notice) (notice : Notice) :
    events (notices.push notice) = events notices ++ notice.event?.toList := by
  cases event : notice.event? <;> simp [events, event]

theorem transcript_eq_filter (notices : Array Notice) :
    transcript notices = (events notices).filter HostEvent.isRecorded := by
  have same : Notice.recorded? = fun notice => notice.event?.filter HostEvent.isRecorded := by
    funext notice
    cases notice with
    | told event => simp [Notice.recorded?, Notice.event?, Option.filter]
    | polled callback => rfl
  rw [transcript, events, List.filter_filterMap, same]

/-- A notice of something in a burst: what the program asks for or prints, or a line that is
shown. -/
def Notice.isInner : Notice → Bool
  | .told (.output _) => true
  | .told (.selected _) => true
  | .polled _ => true
  | _ => false

def Inner (notices : Array Notice) : Prop :=
  ∀ notice ∈ notices, notice.isInner = true

theorem Inner.push {notices : Array Notice} {notice : Notice} (before : Inner notices)
    (inner : notice.isInner = true) : Inner (notices.push notice) := by
  intro other member
  rcases Array.mem_push.mp member with old | rfl
  · exact before other old
  · exact inner

namespace Bridge

theorem giveBack_inner {bridge : Bridge} (before : Inner bridge.notices) (value : Value) :
    Inner (bridge.giveBack value).notices := by
  obtain ⟨response, warnings, same, -⟩ := bridge.giveBack_eq value
  rw [same]
  intro notice member
  rcases Array.mem_append.mp member with old | warning
  · exact before notice old
  · obtain ⟨line, -, rfl⟩ := List.mem_map.mp (List.mem_toArray.mp warning)
    rfl

theorem run_inner {α : Type} (computation : Native α) (bridge : Bridge)
    (before : Inner bridge.notices) : Inner (computation.run natives bridge).2.notices := by
  induction computation generalizing bridge with
  | done result => exact before
  | nextCallback resume ih =>
    cases waiting : bridge.queue with
    | nil =>
      simp only [Native.run, natives, nextCallback, waiting]
      exact ih none _ (before.push rfl)
    | cons callback queue =>
      simp only [Native.run, natives, nextCallback, waiting]
      exact ih _ _ (before.push rfl)
  | giveBack value rest ih => exact ih _ (giveBack_inner before value)
  | setTimeout callback delay rest ih => exact ih _ before
  | output line rest ih => exact ih _ (before.push rfl)

end Bridge

variable {σ φ : Type}

section

variable [Interpreter σ]

theorem Live.select_inner (live : Live σ) (force : Bool) {notices : Array Notice}
    (before : Inner notices) : Inner (live.select force notices).2 := by
  unfold select
  split
  · exact before
  · split
    · exact before.push rfl
    · exact before

namespace Progress

variable {breakpoints : Breakpoints} {request : Request} {budget fuel : Nat} {p q : Progress σ}

theorem noteLine_inner (before : Inner p.notices) (atMaxSpeed : Bool) (line : Option Nat) :
    Inner (p.noteLine atMaxSpeed line).notices := by
  unfold noteLine
  split
  · exact before
  · dsimp only
    split
    · exact Live.select_inner _ _ before
    · exact before

theorem pass_inner {ending : Option Ending} (before : Inner p.notices)
    (passed : p.pass breakpoints request budget = (q, ending)) : Inner q.notices := by
  have noted := noteLine_inner before request.atMaxSpeed p.line
  have ran := Bridge.run_inner (Interpreter.step p.live.program)
    ⟨request, p.live.queue, p.live.timers, p.live.response,
      (p.noteLine request.atMaxSpeed p.line).notices⟩ noted
  have spec := pass_spec breakpoints request budget p
  rw [passed] at spec
  cases spec with
  | stopped => exact before
  | exhausted => exact before
  | complete => exact before
  | arrived _ _ after =>
    rw [after.notices]
    exact noted
  | failed _ _ _ after | stepped _ _ _ after =>
    rw [after.notices]
    exact ran

theorem passes_inner {ending : Ending} (before : Inner p.notices)
    (ends : p.passes breakpoints request budget fuel = (q, ending)) : Inner q.notices := by
  induction fuel generalizing p with
  | zero =>
    cases ends
    exact before
  | succ fuel ih =>
    unfold passes at ends
    split at ends
    · rename_i passed
      cases ends
      exact pass_inner before passed
    · rename_i passed
      exact ih (pass_inner before passed) ends

end Progress

theorem burst_inner (live : Live σ) (breakpoints : Breakpoints) (request : Request)
    (budget : Nat) : Inner (live.burst breakpoints request budget).1.notices := by
  have begins : Inner (Progress.begin live).notices := by
    intro notice member
    simp [Progress.begin] at member
  generalize ran : live.burst breakpoints request budget = result
  obtain ⟨q, ending⟩ := result
  unfold Live.burst at ran
  exact Progress.passes_inner begins ran

theorem shown_inner (atMaxSpeed : Bool) {p : Progress σ} (before : Inner p.notices) :
    Inner (Scheduler.shown atMaxSpeed p).2 := by
  unfold Scheduler.shown
  split
  · exact Live.select_inner _ _ before
  · exact before

end

theorem Inner.goesOn {allowed : HostEvent → Prop} {more : Array Notice} (inner : Inner more)
    (prints : ∀ line, allowed (.output line)) (shows : ∀ line, allowed (.selected line))
    (notices : Array Notice) : GoesOn allowed (events notices) (events (notices ++ more)) := by
  refine ⟨_, events_append _ _, fun event member => ?_⟩
  obtain ⟨notice, there, same⟩ := List.mem_filterMap.mp member
  have kind := inner notice (Array.mem_toList_iff.mp there)
  cases notice with
  | polled callback => cases same
  | told told =>
    cases same
    cases event with
    | output line => exact prints line
    | selected line => exact shows line
    | _ => cases kind

def HostEvent.isView : HostEvent → Bool
  | .pauseChanged _ => true
  | _ => false

namespace Scheduler

def events (s : Scheduler σ φ) : List HostEvent :=
  Run.events s.notices

theorem events_tell (s : Scheduler σ φ) (event : HostEvent) :
    (s.tell event).events = s.events ++ [event] :=
  events_push _ _

theorem events_reportPauseState (s : Scheduler σ φ) :
    s.reportPauseState.events =
      s.events ++ if s.pauseState = s.reported then [] else [.pauseChanged s.pauseState] := by
  unfold reportPauseState
  split
  · simp
  · exact events_tell _ _

variable {allowed : HostEvent → Prop} (views : ∀ state, allowed (.pauseChanged state))

include views

theorem reportPauseState_log (s : Scheduler σ φ) :
    Run.GoesOn allowed s.events s.reportPauseState.events := by
  refine ⟨_, events_reportPauseState s, fun event member => ?_⟩
  split at member
  · cases member
  · rw [List.mem_singleton.mp member]
    exact views _

theorem reportStop_log (stops : ∀ reason state, allowed (.stopped reason state))
    (s : Scheduler σ φ) : Run.GoesOn allowed s.events s.reportStop.events := by
  unfold reportStop
  split
  · exact .refl _
  · dsimp only
    split
    · refine GoesOn.trans ⟨_, events_tell { s with live := some _ } _, fun event member => ?_⟩
        (reportPauseState_log views _)
      rw [List.mem_singleton.mp member]
      exact stops _ _
    · exact reportPauseState_log views { s with live := some _ }

end Scheduler

end Metronome.Run
