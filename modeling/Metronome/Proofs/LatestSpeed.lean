import Metronome.Proofs.Conversation
import Metronome.Proofs.Setup

/-!
The speed of a session's program. What a client sends waits in the worker's inbox; the clock that
will be there once all of it has been taken (`Worker.pacing`) changes with what is sent, and not
when the worker goes on. So once nothing waits, the clock has the speed that was asked for last
since the program was started (`speed_follows_requests`). A speed that is asked for before that is
lost (`early_speed_is_lost`).
-/
namespace Metronome

open Metronome.Debug (Command)

namespace Run

def Clock.heed (clock : Clock) : Command → Clock
  | .setSpeed speed => clock.setSpeed speed
  | _ => clock

def latestSpeed (speeds : List Float) : Float :=
  ((speeds.filter (!·.isNaN)).getLast?.map Clock.clampSpeed).getD 1.0

theorem Clock.foldl_setSpeed (speeds : List Float) (clock : Clock) :
    (speeds.foldl setSpeed clock).speed =
      ((speeds.filter (!·.isNaN)).getLast?.map clampSpeed).getD clock.speed := by
  induction speeds generalizing clock with
  | nil => rfl
  | cons speed speeds ih =>
    rw [List.foldl_cons, ih, setSpeed, List.filter_cons]
    cases speed.isNaN with
    | true => rfl
    | false =>
      rw [Bool.not_false, if_pos rfl, List.getLast?_cons]
      cases (speeds.filter (!·.isNaN)).getLast? <;> rfl

theorem Clock.foldl_ofSettings (speed slowest : Float) (speeds : List Float) :
    (speeds.foldl setSpeed (ofSettings speed slowest)).speed = latestSpeed (speed :: speeds) :=
  foldl_setSpeed (speed :: speeds) _

theorem Scheduler.apply_clock {σ φ : Type} (s : Scheduler σ φ) (command : Command) :
    (s.apply command).clock = s.clock.heed command := by
  rw [(s.apply_setup command).clock]
  cases command <;> rfl

end Run

namespace Front.CommandLoop

open Metronome.Run Metronome.Run.Scheduler

variable {σ φ : Type} [Interpreter σ]

theorem enter_same (s : Scheduler σ φ) (now : Instant) : SameSetup s (enter s now).scheduler := by
  unfold enter turn
  cases s.isRunning with
  | false => exact .refl s
  | true =>
    cases s.isAtRest with
    | true => exact .refl s
    | false =>
      cases pending : s.pending with
      | _ =>
        simp only [takePending, pending]
        exact ⟨rfl, rfl, rfl⟩

theorem receive_command_clock {loop : CommandLoop σ φ} (goesOn : loop.wait ≠ .over)
    (command : Command) (now : Instant) :
    (loop.receive (.command command) now).scheduler.clock = loop.scheduler.clock.heed command := by
  have applied := loop.scheduler.apply_clock command
  unfold receive
  cases waits : loop.wait with
  | command => exact (enter_same _ now).clock.trans applied
  | tick tick due => exact applied
  | _ => exact absurd waits goesOn

theorem receive_nothing_clock (loop : CommandLoop σ φ) (now : Instant) :
    (loop.receive .nothing now).scheduler.clock = loop.scheduler.clock := by
  have kept := SameSetup.refl loop.scheduler
  unfold receive
  cases loop.wait with
  | tick tick due =>
    exact ((enter_same _ now).clock).trans (kept.onTick tick now now).clock
  | _ => rfl

end Front.CommandLoop

namespace Adapter

open Metronome.Run

namespace Work

def clock : Work → Clock
  | start scheduler _ => scheduler.clock
  | loop running => running.scheduler.clock

theorem takeEvents_clock (work : Work) : work.takeEvents.1.clock = work.clock := by
  cases work <;> rfl

end Work

namespace Worker

/-- The clock that will be there once everything in the inbox has been taken. -/
def pacing (worker : Worker) : Clock :=
  worker.inbox.waiting.foldl Clock.heed worker.work.clock

theorem send_pacing {worker : Worker} (listens : worker.inbox.isOpen = true) (command : Command) :
    (worker.send command).pacing = worker.pacing.heed command := by
  unfold pacing send Front.Inbox.put
  rw [if_pos listens]
  exact List.foldl_concat ..

theorem send_isOpen (worker : Worker) (command : Command) :
    (worker.send command).inbox.isOpen = worker.inbox.isOpen := by
  unfold send Front.Inbox.put
  split <;> rfl

theorem step_isOpen (worker : Worker) (now : Instant) :
    (worker.step now).inbox.isOpen = worker.inbox.isOpen := by
  obtain ⟨work, ⟨waiting, isOpen⟩, time⟩ := worker
  cases work with
  | start scheduler program => rfl
  | loop running => cases waiting <;> rfl

theorem begun_clock (scheduler : SessionScheduler) (program : Script.Loaded) (inbox : Front.Inbox)
    (time now : Instant) :
    (begun ⟨.start scheduler program, inbox, time⟩ now).scheduler.clock = scheduler.clock := by
  have starts := (Scheduler.SameSetup.refl scheduler).start program.machine program.text.lineMap
    now now
  exact (Front.CommandLoop.enter_same _ now).clock.trans starts.clock

theorem step_pacing {worker : Worker} (listens : worker.inbox.isOpen = true)
    (goesOn : worker.readiness ≠ .over) (now : Instant) :
    (worker.step now).pacing = worker.pacing := by
  obtain ⟨work, ⟨waiting, isOpen⟩, time⟩ := worker
  cases listens
  cases work with
  | start scheduler program =>
    exact congrArg (waiting.foldl Clock.heed) (begun_clock scheduler program _ time now)
  | loop running =>
    have running_on : running.wait ≠ .over := by
      intro ended
      apply goesOn
      simp only [readiness, ended]
    cases waiting with
    | nil => exact running.receive_nothing_clock now
    | cons command waiting =>
      exact congrArg (waiting.foldl Clock.heed)
        (Front.CommandLoop.receive_command_clock running_on command now)

end Worker

def Move.speed? : Move → Option Float
  | .request _ "setSpeed" arguments _ _ => ((arguments.getD .null).field? "speed").bind Value.float?
  | _ => none

theorem Move.heed_speed? (seq : Nat) (name : String) (arguments : Option Value) (files : Files)
    (now : Instant) (clock : Clock) :
    (Request.read name (arguments.getD .null)).command?.toList.foldl Clock.heed clock =
      (Move.request seq name arguments files now).speed?.toList.foldl Clock.setSpeed clock := by
  by_cases paces : name = "setSpeed"
  · subst paces
    have reads : Request.read "setSpeed" (arguments.getD .null) =
        .setSpeed (((arguments.getD .null).field? "speed").bind Value.float?) := rfl
    rw [reads, Move.speed?]
    cases ((arguments.getD .null).field? "speed").bind Value.float? <;> rfl
  · have silent : (Move.request seq name arguments files now).speed? = none := by
      unfold Move.speed?
      split
      · rename_i same
        cases same
        exact absurd rfl paces
      · rfl
    rw [silent]
    unfold Request.read
    split
    case h_12 => exact absurd rfl paces
    all_goals rfl

namespace Worker

theorem obey_pacing {worker : Worker} (listens : worker.inbox.isOpen = true) (request : Request) :
    (worker.obey request).pacing = request.command?.toList.foldl Clock.heed worker.pacing := by
  unfold obey
  cases request.command? with
  | none => rfl
  | some command => exact send_pacing listens command

theorem obey_isOpen (worker : Worker) (request : Request) :
    (worker.obey request).inbox.isOpen = worker.inbox.isOpen := by
  unfold obey
  split
  · exact worker.send_isOpen _
  · rfl

theorem heard_pacing (worker : Worker) : worker.heard.pacing = worker.pacing :=
  congrArg (worker.inbox.waiting.foldl Clock.heed) worker.work.takeEvents_clock

/-- A move changes the clock that will be there only if it is a request for a speed. -/
theorem go_pacing {worker : Worker} (listens : worker.inbox.isOpen = true) (move : Move) :
    (worker.go move).pacing = move.speed?.toList.foldl Clock.setSpeed worker.pacing ∧
      (worker.go move).inbox.isOpen = true := by
  cases move with
  | request seq name arguments files now =>
    constructor
    · rw [← Move.heed_speed?]
      exact obey_pacing listens _
    · exact (worker.obey_isOpen _).trans listens
  | work now =>
    unfold go
    dsimp only
    split
    · exact ⟨rfl, listens⟩
    · rename_i goesOn
      exact ⟨(heard_pacing _).trans (step_pacing listens goesOn now),
        (worker.step_isOpen now).trans listens⟩

theorem goAll_pacing (worker : Worker) (listens : worker.inbox.isOpen = true)
    (moves : List Move) :
    (moves.foldl go worker).pacing =
      (moves.filterMap Move.speed?).foldl Clock.setSpeed worker.pacing := by
  induction moves generalizing worker with
  | nil => rfl
  | cons move moves ih =>
    obtain ⟨paced, still⟩ := worker.go_pacing listens move
    rw [List.foldl_cons, ih _ still, paced]
    cases here : move.speed? with
    | none => rw [List.filterMap_cons_none here]; rfl
    | some speed => rw [List.filterMap_cons_some here]; rfl

end Worker

/-- Once nothing waits for the worker, the speed is the last that was asked for since the program
was started, or else that of the launch or of the settings. -/
theorem speed_follows_requests {files : Files} {settings : Settings} {before after : List Move}
    {move : Move} {worker : Worker}
    (stays : ∀ other ∈ before ++ move :: after, other.leaves = false)
    (waits : ¬Ready settings before) (ready : Ready settings (before ++ [move]))
    (here : ((Session.new files settings).goAll (before ++ move :: after)).worker = some worker)
    (taken : worker.inbox.waiting = []) :
    ∃ launch, latestLaunch settings (before ++ [move]) = some launch ∧
      worker.work.clock.speed =
        latestSpeed (launch.speed.getD settings.speed :: after.filterMap Move.speed?) := by
  obtain ⟨launch, there, carried⟩ := Session.worker_after files waits ready stays
  obtain rfl := Option.some.inj (here.symm.trans carried)
  refine ⟨launch, there, ?_⟩
  rw [← Clock.foldl_ofSettings _ settings.maxTickLength]
  have paced := Worker.goAll_pacing
    (launch.worker settings (latestLines (before ++ [move])) move.time) rfl after
  rw [Worker.pacing, taken] at paced
  exact congrArg Clock.speed paced

def speedOf (speed : Float) : Option Value :=
  some (.ofFields [("speed", .number (.float speed))])

def paced : List Move :=
  let launch := Value.ofFields [("program", .text "count"), ("speed", .number (.float 0.5))]
  [.request 1 "launch" (some launch) (onlyFile "count" counting) 0,
    .request 2 "configurationDone" none noFiles 1,
    .request 3 "setSpeed" (speedOf 7.0) noFiles 2,
    .work 3,
    .request 4 "setSpeed" (speedOf 0.25) noFiles 4,
    .work 5,
    .work 6]

theorem paced_slows_down : ∃ worker,
    ((Session.new noFiles .default).goAll paced).worker = some worker ∧
      worker.inbox.waiting = [] ∧ worker.work.clock.speed = 0.25 := by
  have stays : ∀ move ∈ paced, move.leaves = false := by decide +kernel
  have waits : ¬Ready .default (paced.take 1) := by decide +kernel
  have ready : Ready .default (paced.take 2) := by decide +kernel
  have computed : ((Session.new noFiles .default).goAll paced).worker.any
      (·.inbox.waiting.isEmpty) = true := by
    decide +kernel
  obtain ⟨worker, here, taken⟩ := (Option.any_eq_true _ _).mp computed
  rw [List.isEmpty_iff] at taken
  have split : paced = paced.take 1 ++ paced[1] :: paced.drop 2 := rfl
  rw [split] at stays here
  obtain ⟨launch, there, speed⟩ := speed_follows_requests stays waits ready here taken
  have launched : (latestLaunch .default (paced.take 2)).map (·.speed) = some (some 0.5) := by
    decide +kernel
  have asked : (paced.drop 2).filterMap Move.speed? = [7.0, 0.25] := by decide +kernel
  rw [show latestLaunch .default (paced.take 2) = some launch from there] at launched
  have half : launch.speed = some 0.5 := Option.some.inj launched
  rw [asked, half] at speed
  exact ⟨worker, here, taken, speed.trans (by decide +kernel)⟩

def early : List Move :=
  [.request 1 "launch" (launchOf "count") (onlyFile "count" counting) 0,
    .request 2 "setSpeed" (speedOf 0.5) noFiles 1,
    .request 3 "configurationDone" none noFiles 2,
    .work 3]

def Content.success? : Content → Option Bool
  | .response _ success _ _ _ => some success
  | _ => none

/-- All requests succeed and nothing waits, and yet the program runs at full speed. -/
theorem early_speed_is_lost :
    let session := (Session.new noFiles .default).goAll early
    session.sent.toList.filterMap (·.content.success?) = [true, true, true] ∧
      early.filterMap Move.speed? = [0.5] ∧
      ∃ worker, session.worker = some worker ∧ worker.inbox.waiting = [] ∧
        worker.work.clock.speed = 1.0 ∧ worker.work.clock.speed ≠ Clock.clampSpeed 0.5 := by
  have computed : ((Session.new noFiles .default).goAll early).worker.any (fun worker =>
      worker.inbox.waiting.isEmpty && decide (worker.work.clock.speed = 1.0)) = true := by
    decide +kernel
  obtain ⟨worker, here, holds⟩ := (Option.any_eq_true _ _).mp computed
  rw [Bool.and_eq_true, List.isEmpty_iff, decide_eq_true_eq] at holds
  obtain ⟨taken, full⟩ := holds
  refine ⟨by decide +kernel, by decide +kernel, worker, here, taken, full, ?_⟩
  rw [full]
  decide +kernel

end Adapter

end Metronome
