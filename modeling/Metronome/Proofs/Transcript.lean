import Metronome.Proofs.Operation

namespace Metronome.Run

open Metronome.Debug (Command Controller PauseState StepMode)

def HostEvent.isRecorded : HostEvent → Bool
  | .selected _ => false
  | .pauseChanged _ => false
  | _ => true

def Notice.recorded? : Notice → Option HostEvent
  | .told event => if event.isRecorded then some event else none
  | .polled _ => none

def transcript (notices : Array Notice) : List HostEvent :=
  notices.toList.filterMap Notice.recorded?

@[simp] theorem transcript_append (left right : Array Notice) :
    transcript (left ++ right) = transcript left ++ transcript right := by
  simp [transcript]

theorem transcript_push (notices : Array Notice) (notice : Notice) :
    transcript (notices.push notice) = transcript notices ++ notice.recorded?.toList := by
  cases recorded : notice.recorded? <;> simp [transcript, recorded]

def stopEvents (controller : Controller) : List HostEvent :=
  match controller.stopReason with
  | some reason => [.stopped reason (controller.pauseState true)]
  | none => []

variable {σ φ : Type}

theorem transcript_select [Interpreter σ] (live : Live σ) (force : Bool) (notices : Array Notice) :
    transcript (live.select force notices).2 = transcript notices := by
  unfold Live.select
  split
  · rfl
  · split
    · rw [transcript_push]
      exact List.append_nil _
    · rfl

theorem Progress.transcript_noteLine [Interpreter σ] (p : Progress σ) (atMaxSpeed : Bool)
    (line : Option Nat) : transcript (p.noteLine atMaxSpeed line).notices = transcript p.notices := by
  unfold noteLine
  split
  · rfl
  · dsimp only
    split
    · exact transcript_select _ _ _
    · rfl

namespace Scheduler

def transcript (s : Scheduler σ φ) : List HostEvent :=
  Run.transcript s.notices

theorem transcript_tell (s : Scheduler σ φ) (event : HostEvent) :
    (s.tell event).transcript =
      s.transcript ++ if event.isRecorded then [event] else [] := by
  unfold tell transcript
  rw [transcript_push, Notice.recorded?]
  split <;> rfl

@[simp] theorem transcript_reportPauseState (s : Scheduler σ φ) :
    s.reportPauseState.transcript = s.transcript := by
  unfold reportPauseState
  split
  · rfl
  · exact (transcript_tell _ _).trans (List.append_nil _)

theorem transcript_reportStop (s : Scheduler σ φ) :
    s.reportStop.transcript =
      s.transcript ++ (s.live.map fun live => stopEvents live.controller).getD [] := by
  unfold reportStop
  split
  · rename_i gone
    simp [gone]
  · rename_i live here
    simp only [here, Controller.takeStopReason, stopEvents, Option.map_some, Option.getD_some]
    cases live.controller.stopReason with
    | some reason =>
      rw [transcript_reportPauseState, transcript_tell]
      rfl
    | none =>
      rw [transcript_reportPauseState]
      exact (List.append_nil _).symm

theorem transcript_endRun (s : Scheduler σ φ) (outcome : Outcome) :
    (s.endRun outcome).transcript =
      s.transcript ++ if s.live.isSome then [.finished outcome] else [] := by
  unfold endRun
  split
  · rename_i gone
    simp [gone]
  · rename_i live here
    rw [transcript_reportPauseState, here]
    exact transcript_tell _ _

theorem endRun_outcome (s : Scheduler σ φ) (outcome : Outcome) :
    (s.endRun outcome).outcome = if s.live.isSome then some outcome else s.outcome := by
  unfold endRun
  split
  · rename_i gone
    simp [gone]
  · rename_i live here
    rw [here, reportPauseState]
    split <;> rfl

def errorReport (message : String) (line : Option Nat) : String :=
  "ERROR: " ++ (match line with
    | some line => "Line " ++ toString line ++ ": "
    | none => "") ++ message

def failureLine (live : Live σ) (error : StepError) (line : Option Nat) : Option Nat :=
  ((error.offset.bind live.lines.userLine).or line).or live.lastLine

theorem transcript_failRun {s : Scheduler σ φ} {live : Live σ} (here : s.live = some live)
    (error : StepError) (line : Option Nat) :
    (s.failRun error line).transcript =
      s.transcript ++
        [.output (errorReport error.message (failureLine live error line)),
          .annotated (failureLine live error line) error.message,
          .finished (.failed error.message (failureLine live error line))] := by
  unfold failRun
  rw [here]
  dsimp only
  rw [transcript_endRun, transcript_tell, transcript_tell, List.append_assoc, List.append_assoc]
  simp only [tell, here, HostEvent.isRecorded, if_true, Option.isSome_some]
  rfl

theorem failRun_outcome {s : Scheduler σ φ} {live : Live σ} (here : s.live = some live)
    (error : StepError) (line : Option Nat) :
    (s.failRun error line).outcome =
      some (.failed error.message (failureLine live error line)) := by
  unfold failRun
  rw [here]
  dsimp only
  rw [endRun_outcome]
  simp only [tell, here, Option.isSome_some, if_true]
  rfl

end Scheduler

def HostEvent.isMute : HostEvent → Bool
  | .output _ => false
  | .annotated _ _ => false
  | _ => true

def GoesOn (allowed : HostEvent → Prop) (before after : List HostEvent) : Prop :=
  ∃ told, after = before ++ told ∧ ∀ event ∈ told, allowed event

def GoesOnMute (before after : List HostEvent) : Prop :=
  GoesOn (fun event => event.isMute = true) before after

section

variable {allowed : HostEvent → Prop}

theorem GoesOn.refl (told : List HostEvent) : GoesOn allowed told told :=
  ⟨[], by simp, by simp⟩

theorem GoesOn.trans {first second third : List HostEvent} (left : GoesOn allowed first second)
    (right : GoesOn allowed second third) : GoesOn allowed first third := by
  obtain ⟨told, rfl, kind⟩ := left
  obtain ⟨more, rfl, kindMore⟩ := right
  refine ⟨told ++ more, List.append_assoc _ _ _, ?_⟩
  intro event member
  rcases List.mem_append.mp member with first | second
  · exact kind event first
  · exact kindMore event second

theorem stopEvents_mute (controller : Controller) :
    ∀ event ∈ stopEvents controller, event.isMute = true := by
  unfold stopEvents
  split <;> simp [HostEvent.isMute]

theorem stopEvents_pause (controller : Controller) (paused : controller.pause.2 = true) :
    ∃ state, stopEvents controller.pause.1 = [.stopped .pause state] := by
  unfold Controller.pause at paused ⊢
  split
  · rename_i rests
    rw [if_pos rests] at paused
    cases paused
  · exact ⟨_, rfl⟩

namespace Scheduler

theorem reportPauseState_goes (s : Scheduler σ φ) :
    GoesOn allowed s.transcript s.reportPauseState.transcript := by
  rw [transcript_reportPauseState]
  exact .refl _

theorem reportStop_goes {s : Scheduler σ φ}
    (stops : ∀ live ∈ s.live, ∀ event ∈ stopEvents live.controller, allowed event) :
    GoesOn allowed s.transcript s.reportStop.transcript := by
  rw [transcript_reportStop]
  refine ⟨_, rfl, ?_⟩
  cases here : s.live with
  | none => simp
  | some live => exact stops live here

variable (finishes : ∀ outcome, allowed (.finished outcome))

include finishes

theorem endRun_goes (s : Scheduler σ φ) (outcome : Outcome) :
    GoesOn allowed s.transcript (s.endRun outcome).transcript := by
  rw [transcript_endRun]
  refine ⟨_, rfl, ?_⟩
  split
  · simpa using finishes outcome
  · simp

theorem checkFinished_goes [Interpreter σ] (s : Scheduler σ φ) :
    GoesOn allowed s.transcript s.checkFinished.transcript := by
  unfold checkFinished
  split
  · exact .refl _
  · split
    · exact endRun_goes finishes s _
    · split
      · exact endRun_goes finishes s _
      · unfold consult
        split
        · exact .refl _
        · dsimp only
          split
          · exact endRun_goes finishes { s with finish := some _ } _
          · exact .refl _

theorem closeTick_goes [Interpreter σ] (s : Scheduler σ φ) {live : Live σ} (now : Instant)
    (stops : ∀ event ∈ stopEvents live.controller, allowed event) :
    GoesOn allowed s.transcript (s.closeTick live now).transcript := by
  have reports : GoesOn allowed s.transcript (reportStop { s with live := some { live with
      timers := (live.timers.release now live.queue).1
      queue := (live.timers.release now live.queue).2 } }).transcript := by
    refine reportStop_goes (s := { s with live := some _ }) fun next there => ?_
    cases there
    exact stops
  exact reports.trans (checkFinished_goes finishes _)

theorem apply_goes (s : Scheduler σ φ) (command : Command)
    (pauses : command = .pause → ∀ state, allowed (.stopped .pause state)) :
    GoesOn allowed s.transcript (s.apply command).transcript := by
  have stepped : ∀ mode, GoesOn allowed s.transcript (s.beginStep mode).transcript := by
    intro mode
    unfold beginStep
    split
    · exact .refl _
    · exact reportPauseState_goes { s with live := some _ }
  cases command with
  | pause =>
    simp only [apply, pause]
    split
    · exact .refl _
    · rename_i live here
      split
      · rename_i paused
        refine reportStop_goes (s := { s with live := some _ }) fun next there => ?_
        cases there
        obtain ⟨state, same⟩ := stopEvents_pause live.controller paused
        rw [same]
        simpa using pauses rfl state
      · exact .refl _
  | resume =>
    simp only [apply, resume]
    split
    · exact .refl _
    · split
      · exact reportPauseState_goes { s with live := some _ }
      · exact .refl _
  | stepIn => exact stepped _
  | stepOver => exact stepped _
  | stepOut =>
    simp only [apply, stepOut]
    split
    · exact stepped _
    · exact .refl _
  | stop => exact endRun_goes finishes s _
  | _ => exact .refl _

end Scheduler

end

namespace Scheduler

theorem closeTick_mute [Interpreter σ] (s : Scheduler σ φ) (live : Live σ) (now : Instant) :
    GoesOnMute s.transcript (s.closeTick live now).transcript :=
  closeTick_goes (fun _ => rfl) s now (stopEvents_mute live.controller)

theorem transcript_shown [Interpreter σ] (atMaxSpeed : Bool) (p : Progress σ) :
    Run.transcript (shown atMaxSpeed p).2 = Run.transcript p.notices := by
  unfold shown
  split
  · exact transcript_select _ _ _
  · rfl

theorem apply_mute (s : Scheduler σ φ) (command : Command) :
    GoesOnMute s.transcript (s.apply command).transcript :=
  apply_goes (fun _ => rfl) s command fun _ _ => rfl

end Scheduler

end Metronome.Run
