import Metronome.Proofs.FrontEnds
import Metronome.Proofs.Standstill

/-!
A command loop at rest. Where the loop waits for a command, a run at rest stays just as it is until a
command lets it go on or stops it. A `pause` may bring a run to rest while a tick is taken already:
that one tick still fires when it is due. It takes no step, but it counts, and may end the run.
-/
namespace Metronome

open Metronome.Debug (Command)
open Metronome.Script (Loaded Machine load_any)

variable {σ φ : Type}

namespace Run.Scheduler

theorem rests_live {s : Scheduler σ φ} (rests : s.isAtRest = true) :
    ∃ live, s.live = some live ∧ live.controller.isAtRest = true :=
  (Option.any_eq_true _ _).mp rests

theorem rests_running {s : Scheduler σ φ} (rests : s.isAtRest = true) : s.isRunning = true := by
  obtain ⟨live, here, -⟩ := rests_live rests
  rw [isRunning, here]
  rfl

theorem apply_asleep {s : Scheduler σ φ} {command : Command} (rests : s.isAtRest = true)
    (asleep : command.goesOn = false) :
    command = .stop ∨ (s.apply command).live = s.live := by
  obtain ⟨live, here, still⟩ := rests_live rests
  cases command with
  | stop => exact .inl rfl
  | pause =>
    right
    simp only [apply, pause, here, Debug.Controller.pause, still, if_true, Bool.false_eq_true,
      if_false]
  | resume | stepIn | stepOver | stepOut => cases asleep
  | _ => exact .inr rfl

theorem apply_rests {s : Scheduler σ φ} {command : Command}
    (rests : (s.apply command).isAtRest = true) : s.isAtRest = true ∨ command = .pause := by
  obtain ⟨next, there, still⟩ := rests_live rests
  obtain ⟨live, controller, here, rfl, minds⟩ := apply_minds there
  have before : live.controller.isAtRest = true → s.isAtRest = true := by
    intro found
    rw [isAtRest, here]
    exact found
  cases minds with
  | same => exact .inl (before still)
  | told => exact .inl (before still)
  | paused pauses => exact .inr (Operation.command.inj pauses)
  | enters state active =>
    have entered : state = .paused .run := by
      simpa [Debug.Controller.isAtRest, Debug.Controller.enterState] using still
    exact absurd entered active

variable [Interpreter σ]

theorem onTick_still {s : Scheduler σ φ} {tick : PendingTick} (rests : s.isAtRest = true)
    (current : tick.run = s.runNumber) (began ended : Instant) :
    s.deeds (.tick tick began ended) = [] ∧
      ((s.onTick tick began ended).isRunning = false ∨
        (s.onTick tick began ended).isAtRest = true ∧
          (s.onTick tick began ended).tickCount = s.tickCount + 1) := by
  obtain ⟨live, here, still⟩ := rests_live rests
  have idle : live.controller.beginTick.2 = false := by
    rw [Bool.eq_false_iff]
    intro steps
    have active := beginTick_active steps
    rw [Debug.Controller.isAtRest_congr (begun_state _), still] at active
    cases active
  refine ⟨deeds_quiet (by simp [burstOf, here, idle]), ?_⟩
  rw [onTick_rests began ended here current idle]
  rcases s.scheduled.closeTick_live live.ticked ended with gone | on
  · exact .inl (by rw [isRunning, gone]; rfl)
  · refine .inr ⟨?_, ?_⟩
    · rw [isAtRest, on, Live.ticked, beginTick_rests idle]
      exact still
    · rw [tickCount, on, tickCount, here]
      rfl

end Run.Scheduler

namespace Front

open Run

def Receipt.ends : Receipt → Bool
  | .command .stop => true
  | .closed => true
  | _ => false

def ending (receipts : List (Receipt × Instant)) : Bool :=
  receipts.any (·.1.ends)

/-- Receipts none of which lets a run at rest go on. -/
def Asleep (receipts : List (Receipt × Instant)) : Prop :=
  ∀ command ∈ received receipts, command.goesOn = false

/-- Receipts for which the loop has not to wait until a tick is due. -/
def Prompted (receipts : List (Receipt × Instant)) : Prop :=
  ∀ receipt ∈ receipts, receipt.1 ≠ .nothing

theorem Asleep.cons {receipt : Receipt} {now : Instant} {receipts : List (Receipt × Instant)}
    (asleep : Asleep ((receipt, now) :: receipts)) :
    (∀ command, receipt = .command command → command.goesOn = false) ∧ Asleep receipts := by
  refine ⟨?_, fun command member => asleep command ?_⟩
  · rintro command rfl
    exact asleep command (by simp [received, Receipt.command?])
  · cases given : receipt.command? <;> simp_all [received]

theorem Asleep.append {before after : List (Receipt × Instant)} :
    Asleep (before ++ after) ↔ Asleep before ∧ Asleep after := by
  simp only [Asleep, received, List.filterMap_append, List.forall_mem_append]

theorem prompted_or_waits (receipts : List (Receipt × Instant)) :
    Prompted receipts ∨ ∃ first moment rest,
      receipts = first ++ (.nothing, moment) :: rest ∧ Prompted first := by
  induction receipts with
  | nil => exact .inl nofun
  | cons receipt receipts ih =>
    obtain ⟨receipt, now⟩ := receipt
    cases receipt with
    | nothing => exact .inr ⟨[], now, receipts, rfl, nofun⟩
    | _ =>
      rcases ih with all | ⟨first, moment, rest, rfl, before⟩
      · exact .inl (List.forall_mem_cons.mpr ⟨nofun, all⟩)
      · exact .inr ⟨_ :: first, moment, rest, rfl, List.forall_mem_cons.mpr ⟨nofun, before⟩⟩

variable [Interpreter σ]

namespace CommandLoop

structure Stopped {σ φ : Type} (loop : CommandLoop σ φ) : Prop where
  ended : loop.wait = .over
  gone : loop.scheduler.isRunning = false
  outcome : loop.scheduler.outcome = some .stopped

structure Still {σ φ : Type} (loop later : CommandLoop σ φ) : Prop where
  wait : later.wait = loop.wait
  live : later.scheduler.live = loop.scheduler.live

def Keeps (loop : CommandLoop σ φ) (receipts : List (Receipt × Instant)) : Prop :=
  if ending receipts then (loop.receiveAll receipts).Stopped
  else loop.Still (loop.receiveAll receipts)

theorem Still.rests {σ φ : Type} {loop later : CommandLoop σ φ} (still : loop.Still later)
    (rests : loop.scheduler.isAtRest = true) : later.scheduler.isAtRest = true := by
  rw [Scheduler.isAtRest, still.live]
  exact rests

theorem Still.trans {σ φ : Type} {first second third : CommandLoop σ φ} (still : first.Still second)
    (later : second.Still third) : first.Still third :=
  ⟨later.wait.trans still.wait, later.live.trans still.live⟩

omit [Interpreter σ] in
theorem stop_stopped {s : Scheduler σ φ} (running : s.isRunning = true) :
    (⟨s.stop, .over⟩ : CommandLoop σ φ).Stopped := by
  obtain ⟨live, here⟩ := Option.isSome_iff_exists.mp running
  obtain ⟨notices, reported, same⟩ := Scheduler.endRun_eq here .stopped
  exact ⟨rfl, s.stop_gone, by rw [Scheduler.stop, same]⟩

theorem enter_gone {s : Scheduler σ φ} (gone : s.isRunning = false) (now : Instant) :
    enter s now = ⟨s, .over⟩ := by
  simp only [enter, Scheduler.turn, gone, Bool.not_false, if_true]

theorem enter_rests {s : Scheduler σ φ} (rests : s.isAtRest = true) (now : Instant) :
    enter s now = ⟨s, .command⟩ := by
  simp only [enter, Scheduler.turn, s.rests_running rests, rests, Bool.not_true, if_true,
    Bool.false_eq_true, if_false]

theorem ends_command {command : Command} :
    (Receipt.command command).ends = true ↔ command = .stop := by
  cases command with
  | stop => exact ⟨fun _ => rfl, fun _ => rfl⟩
  | _ => exact ⟨nofun, nofun⟩

theorem receive_asleep {loop : CommandLoop σ φ} {receipt : Receipt} (attended : loop.Attended)
    (rests : loop.scheduler.isAtRest = true)
    (asleep : ∀ command, receipt = .command command → command.goesOn = false)
    (waits : loop.wait = .command ∨ receipt ≠ .nothing) (now : Instant) :
    if receipt.ends then (loop.receive receipt now).Stopped
    else loop.Still (loop.receive receipt now) := by
  obtain ⟨s, wait⟩ := loop
  have running : s.isRunning = true := Scheduler.rests_running rests
  have stops := stop_stopped running
  have kept : ∀ command, receipt = .command command → receipt.ends = false →
      (s.apply command).live = s.live := by
    rintro command rfl unasked
    refine (s.apply_asleep rests (asleep command rfl)).resolve_left fun stop => ?_
    rw [ends_command.mpr stop] at unasked
    cases unasked
  cases wait with
  | command =>
    cases receipt with
    | nothing => exact ⟨rfl, rfl⟩
    | closed => exact stops
    | command command =>
      split
      · rename_i asked
        cases ends_command.mp asked
        change (enter s.stop now).Stopped
        rw [enter_gone s.stop_gone]
        exact stops
      · rename_i unasked
        have same := kept command rfl (by simpa using unasked)
        have still : (s.apply command).isAtRest = true := by
          rw [Scheduler.isAtRest, same]
          exact rests
        have waits : receive ⟨s, .command⟩ (.command command) now = ⟨s.apply command, .command⟩ :=
          enter_rests still now
        rw [waits]
        exact ⟨rfl, same⟩
  | tick tick due =>
    cases receipt with
    | nothing => exact absurd rfl (waits.resolve_left (by simp))
    | closed => exact stops
    | command command =>
      split
      · rename_i asked
        cases ends_command.mp asked
        have ended : receive ⟨s, .tick tick due⟩ (.command .stop) now = ⟨s.stop, .over⟩ := by
          simp only [receive, Scheduler.apply, s.stop_gone, Bool.false_eq_true, if_false]
        rw [ended]
        exact stops
      · rename_i unasked
        have same := kept command rfl (by simpa using unasked)
        refine ⟨?_, same⟩
        have on : (s.apply command).isRunning = true := by
          rw [Scheduler.isRunning, same]
          exact running
        simp only [receive, on, if_true]
  | _ =>
    have gone : s.isRunning = false := attended
    rw [gone] at running
    cases running

theorem receiveAll_asleep {loop : CommandLoop σ φ} {receipts : List (Receipt × Instant)}
    (attended : loop.Attended) (rests : loop.scheduler.isAtRest = true) (asleep : Asleep receipts)
    (waits : loop.wait = .command ∨ Prompted receipts) : loop.Keeps receipts := by
  induction receipts generalizing loop with
  | nil => exact ⟨rfl, rfl⟩
  | cons receipt receipts ih =>
    obtain ⟨receipt, now⟩ := receipt
    obtain ⟨first, others⟩ := asleep.cons
    have steps := receive_asleep attended rests first
      (waits.imp_right fun prompted => prompted _ (.head _)) now
    unfold Keeps
    rw [show loop.receiveAll ((receipt, now) :: receipts) =
      (loop.receive receipt now).receiveAll receipts from rfl]
    cases ends : receipt.ends with
    | true =>
      rw [if_pos ends] at steps
      rw [receiveAll_over steps.ended, if_pos (by simp [ending, ends])]
      exact steps
    | false =>
      rw [if_neg (by simp [ends])] at steps
      have keeps := ih (receive_conducts attended receipt now).1 (steps.rests rests) others
        (waits.imp steps.wait.trans fun prompted => (List.forall_mem_cons.mp prompted).2)
      unfold Keeps at keeps
      have same : ending ((receipt, now) :: receipts) = ending receipts := by simp [ending, ends]
      rw [same]
      split at keeps
      · rename_i asked
        rw [if_pos asked]
        exact keeps
      · rename_i unasked
        rw [if_neg unasked]
        exact steps.trans keeps

theorem enter_tick {s : Scheduler σ φ} {now due : Instant} {tick : PendingTick}
    (waits : (enter s now).wait = .tick tick due) : (enter s now).scheduler.isAtRest = false := by
  cases running : s.isRunning with
  | false =>
    rw [enter_gone running] at waits
    cases waits
  | true =>
    cases rests : s.isAtRest with
    | true =>
      rw [enter_rests rests] at waits
      cases waits
    | false =>
      unfold enter Scheduler.turn
      rw [running, rests]
      cases pending : s.pending with
      | _ =>
        simp only [Scheduler.takePending, pending]
        exact rests

theorem receive_tick {loop : CommandLoop σ φ} {receipt : Receipt} {now due : Instant}
    {tick : PendingTick} (waits : (loop.receive receipt now).wait = .tick tick due)
    (rests : (loop.receive receipt now).scheduler.isAtRest = true) :
    loop.wait = .tick tick due ∧ ∃ command, receipt = .command command ∧
      (loop.receive receipt now).scheduler = loop.scheduler.apply command := by
  obtain ⟨s, wait⟩ := loop
  have awake : ∀ t : Scheduler σ φ, (enter t now).wait = .tick tick due →
      (enter t now).scheduler.isAtRest ≠ true := by
    intro t fires still
    rw [enter_tick fires] at still
    cases still
  cases wait with
  | command =>
    cases receipt with
    | command command => exact absurd rests (awake _ waits)
    | _ => cases waits
  | tick other moment =>
    cases receipt with
    | nothing => exact absurd rests (awake _ waits)
    | closed => cases waits
    | command command =>
      have on := Scheduler.rests_running rests
      refine ⟨?_, command, rfl, rfl⟩
      simp only [receive] at waits on ⊢
      rw [if_pos on] at waits
      exact waits
  | _ => cases waits

/-- A run is at rest while a tick is taken only because of a pause since the tick was taken. -/
theorem rests_by_pause {s : Scheduler σ φ} {now due : Instant} {tick : PendingTick}
    {receipts : List (Receipt × Instant)}
    (waits : ((enter s now).receiveAll receipts).wait = .tick tick due)
    (rests : ((enter s now).receiveAll receipts).scheduler.isAtRest = true) :
    ∃ earlier moment later, receipts = earlier ++ (.command .pause, moment) :: later ∧
      ((enter s now).receiveAll earlier).wait = .tick tick due ∧
      ((enter s now).receiveAll earlier).scheduler.isAtRest = false ∧ Prompted later := by
  induction receipts using List.reverseRecOn with
  | nil =>
    rw [show (enter s now).receiveAll [] = enter s now from rfl] at waits rests
    rw [enter_tick waits] at rests
    cases rests
  | append_singleton receipts receipt ih =>
    obtain ⟨receipt, moment⟩ := receipt
    rw [receiveAll_concat] at waits rests
    obtain ⟨waited, command, rfl, same⟩ := receive_tick waits rests
    cases rested : ((enter s now).receiveAll receipts).scheduler.isAtRest with
    | true =>
      obtain ⟨earlier, paused, later, rfl, taken, active, prompted⟩ := ih waited rested
      refine ⟨earlier, paused, later ++ [(.command command, moment)], by simp, taken, active, ?_⟩
      exact List.forall_mem_append.mpr ⟨prompted, by simp⟩
    | false =>
      rw [same] at rests
      cases (Scheduler.apply_rests rests).resolve_left (by simp [rested])
      exact ⟨receipts, moment, [], rfl, waited, rested, nofun⟩

/-- The tick that a loop has taken fires at rest: it takes no step, and then either nothing runs or
the tick is counted and the loop waits for a command. -/
structure Fires (loop fired : CommandLoop σ φ) (tick : PendingTick) (now : Instant) : Prop where
  idle : loop.scheduler.deeds (.tick tick now now) = []
  leaves : fired.wait = .over ∧ fired.scheduler.isRunning = false ∨
    fired.wait = .command ∧ fired.scheduler.isAtRest = true ∧
      fired.scheduler.tickCount = loop.scheduler.tickCount + 1

theorem receive_fires {loop : CommandLoop σ φ} {tick : PendingTick} {due : Instant}
    (attended : loop.Attended) (waits : loop.wait = .tick tick due)
    (rests : loop.scheduler.isAtRest = true) (now : Instant) :
    loop.Fires (loop.receive .nothing now) tick now := by
  obtain ⟨s, wait⟩ := loop
  cases waits
  obtain ⟨idle, gone | ⟨still, count⟩⟩ := s.onTick_still rests attended.2 now now
  · have ended : receive ⟨s, .tick tick due⟩ .nothing now = ⟨s.onTick tick now now, .over⟩ :=
      enter_gone gone now
    exact ⟨idle, .inl (ended ▸ ⟨rfl, gone⟩)⟩
  · have stays : receive ⟨s, .tick tick due⟩ .nothing now = ⟨s.onTick tick now now, .command⟩ :=
      enter_rests still now
    exact ⟨idle, .inr (stays ▸ ⟨rfl, still, count⟩)⟩

end CommandLoop

open CommandLoop

/-- What happens to a run at rest under receipts that do not let it go on. Where the loop waits for a
command, as it does whenever a tick has brought the run to rest, no tick fires: the live run stays
just as it is, its count of ticks included, and only a stop or the end of the inbox ends it. Only
where a pause has brought the run to rest while a tick was taken may a tick fire, namely that one
tick; it takes no step, but it counts and may end the run, and after it the loop waits for a
command. -/
theorem loops_keep_rest {s : Scheduler σ φ} (attended : s.Attended) (now : Instant)
    (before during : List (Receipt × Instant)) (asleep : Asleep during) :
    let loop := (enter s now).receiveAll before
    loop.scheduler.isAtRest = true →
      loop.wait = .command ∧ loop.Keeps during ∨
      ∃ tick due, loop.wait = .tick tick due ∧
        (∃ earlier moment later, before = earlier ++ (.command .pause, moment) :: later ∧
          ((enter s now).receiveAll earlier).wait = .tick tick due ∧
          ((enter s now).receiveAll earlier).scheduler.isAtRest = false ∧ Prompted later) ∧
        (Prompted during ∧ loop.Keeps during ∨
          ∃ first moment rest, during = first ++ (.nothing, moment) :: rest ∧ Prompted first ∧
            loop.Keeps first ∧
            if ending first then (loop.receiveAll during).Stopped
            else
              let fired := loop.receiveAll (first ++ [(.nothing, moment)])
              (loop.receiveAll first).Fires fired tick moment ∧
                (fired.wait = .command → fired.Keeps rest)) := by
  intro loop rests
  have kept : loop.Attended := (receiveAll_conducts (enter_attended attended now) before).1
  cases waits : loop.wait with
  | command => exact .inl ⟨rfl, receiveAll_asleep kept rests asleep (.inl waits)⟩
  | tick tick due =>
    refine .inr ⟨tick, due, rfl, rests_by_pause waits rests, ?_⟩
    rcases prompted_or_waits during with prompted | ⟨first, moment, rest, rfl, prompted⟩
    · exact .inl ⟨prompted, receiveAll_asleep kept rests asleep (.inr prompted)⟩
    · refine .inr ⟨first, moment, rest, rfl, prompted, ?_⟩
      obtain ⟨early, late⟩ := Asleep.append.mp asleep
      have keeps := receiveAll_asleep kept rests early (.inr prompted)
      refine ⟨keeps, ?_⟩
      unfold Keeps at keeps
      -- Before its tick fires the loop is as it was, or a command has stopped it.
      split at keeps
      · rename_i asked
        rw [if_pos asked, receiveAll_append, receiveAll_over keeps.ended]
        exact keeps
      · rename_i unasked
        rw [if_neg unasked]
        have attends := (receiveAll_conducts kept first).1
        have fires := receive_fires attends (keeps.wait.trans waits) (keeps.rests rests) moment
        rw [receiveAll_concat]
        refine ⟨fires, fun command => ?_⟩
        rcases fires.leaves with ⟨ended, -⟩ | ⟨-, still, -⟩
        · rw [command] at ended
          cases ended
        · exact receiveAll_asleep (receive_conducts attends .nothing moment).1 still late.cons.2
            (.inl command)
  | _ =>
    rw [CommandLoop.Attended, waits] at kept
    rw [Scheduler.rests_running rests] at kept
    cases kept

def printing : List Char := "print 1\n".toList

def opening (maxTicks : Option Nat) (loaded : Loaded) : Scheduler Machine Unit :=
  (Scheduler.new { Settings.default with maxTicks } none).perform
    (.start loaded.machine loaded.text.lineMap 0 0)

def CommandLoop.waitsForCommand (loop : CommandLoop σ φ) : Bool :=
  match loop.wait with
  | .command => true
  | _ => false

/-- A paused run whose taken tick has fired is at rest until it is stopped. -/
theorem printing_keeps_rest : ∃ loaded, Script.load printing = .ok loaded ∧
    let s := opening none loaded
    let loop := (enter s 0).receiveAll [(.command .pause, 1), (.nothing, 2)]
    let during := [(.nothing, 3), (.command (.setBreakpoints [1]), 4), (.command .stop, 5)]
    s.Attended ∧ loop.scheduler.isAtRest = true ∧ Asleep during ∧
      (loop.receiveAll during).Stopped := by
  have computed : (Script.load printing).toOption.any (fun loaded =>
      let s := opening none loaded
      let loop := (enter s 0).receiveAll [(.command .pause, 1), (.nothing, 2)]
      s.pending.any (·.run == s.runNumber) && loop.scheduler.isAtRest &&
        loop.waitsForCommand) = true := by
    decide +kernel
  obtain ⟨loaded, read, holds⟩ := load_any computed
  simp only [Bool.and_eq_true] at holds
  obtain ⟨⟨pending, rests⟩, waits⟩ := holds
  obtain ⟨tick, scheduled, current⟩ := (Option.any_eq_true _ _).mp pending
  have attended : Scheduler.Attended _ := fun _ => ⟨tick, scheduled, beq_iff_eq.mp current⟩
  have asleep : Asleep [(.nothing, 3), (.command (.setBreakpoints [1]), 4), (.command .stop, 5)] := by
    simp [Asleep, received, Receipt.command?, Command.goesOn]
  refine ⟨loaded, read, attended, rests, asleep, ?_⟩
  rcases loops_keep_rest attended 0 [(.command .pause, 1), (.nothing, 2)] _ asleep rests with
    ⟨-, keeps⟩ | ⟨tick, due, taken, -⟩
  · exact keeps
  · rw [waitsForCommand, taken] at waits
    cases waits

/-- A pause brings the run to rest while its second tick is taken. Nothing else is received, and the
run ends because it has had all its ticks. -/
theorem printing_times_out_at_rest : ∃ loaded, Script.load printing = .ok loaded ∧
    let loop := (enter (opening (some 2) loaded) 0).receiveAll [(.command .pause, 1)]
    let later := loop.receive .nothing 2
    loop.scheduler.isAtRest = true ∧ loop.scheduler.tickCount = 1 ∧
      later.scheduler.isRunning = false ∧ later.scheduler.outcome = some (.timedOut 2) := by
  have computed : (Script.load printing).toOption.any (fun loaded =>
      let loop := (enter (opening (some 2) loaded) 0).receiveAll [(.command .pause, 1)]
      let later := loop.receive .nothing 2
      loop.scheduler.isAtRest && loop.scheduler.tickCount == 1 &&
        !later.scheduler.isRunning && later.scheduler.outcome == some (.timedOut 2)) = true := by
    decide +kernel
  obtain ⟨loaded, read, holds⟩ := load_any computed
  simp only [Bool.and_eq_true, beq_iff_eq, Bool.not_eq_true'] at holds
  obtain ⟨⟨⟨rests, count⟩, gone⟩, outcome⟩ := holds
  exact ⟨loaded, read, rests, count, gone, outcome⟩

end Front
end Metronome
