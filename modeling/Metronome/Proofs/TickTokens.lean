import Metronome.Proofs.Lifecycle

namespace Metronome.Run

open Metronome.Script (Loaded Machine load_any)

variable {σ φ : Type}

namespace Scheduler

def Armed (s : Scheduler σ φ) : Prop :=
  ∀ tick, s.pending = some tick → s.live.isSome = true ∧ tick.run = s.runNumber

/-- Either nothing runs and no tick is to come, or the live run has a new tick of a clock. -/
def Rescheduled (clock : Clock) (s : Scheduler σ φ) : Prop :=
  s.live = none ∧ s.pending = none ∨
    s.live.isSome = true ∧ s.pending = some (clock.nextTick s.runNumber)

/-- The run of a number has ended, or is not the last one. -/
def Stale (number : Nat) (s : Scheduler σ φ) : Prop :=
  number < s.runNumber ∨ number = s.runNumber ∧ s.live = none

theorem Rescheduled.armed {clock : Clock} {s : Scheduler σ φ} (rescheduled : s.Rescheduled clock) :
    s.Armed := by
  intro tick pending
  rcases rescheduled with ⟨-, none⟩ | ⟨running, next⟩
  · rw [none] at pending
    cases pending
  · rw [next] at pending
    cases pending
    exact ⟨running, rfl⟩

theorem Lasts.number {s t : Scheduler σ φ} (lasts : Lasts s t) : t.runNumber = s.runNumber := by
  cases lasts with
  | on _ number => exact number
  | ended _ number => exact number

theorem Lasts.armed {s t : Scheduler σ φ} (lasts : Lasts s t)
    (current : ∀ tick, s.pending = some tick → tick.run = s.runNumber) : t.Armed := by
  intro tick pending
  cases lasts with
  | on running number kept => exact ⟨running, (current tick (kept ▸ pending)).trans number.symm⟩
  | ended _ _ unscheduled =>
    rw [unscheduled] at pending
    cases pending

theorem Lasts.rescheduled {s t : Scheduler σ φ} (lasts : Lasts s.scheduled t) :
    t.Rescheduled s.clock := by
  cases lasts with
  | on running number pending => exact .inr ⟨running, by rw [pending, number]; rfl⟩
  | ended gone _ unscheduled => exact .inl ⟨gone, unscheduled⟩

theorem Stale.not_current {s : Scheduler σ φ} {tick : PendingTick} (stale : s.Stale tick.run) :
    s.live = none ∨ tick.run ≠ s.runNumber := by
  rcases stale with older | ⟨-, gone⟩
  · exact .inr (Nat.ne_of_lt older)
  · exact .inl gone

theorem stop_number (s : Scheduler σ φ) : s.stop.runNumber = s.runNumber := by
  cases here : s.live with
  | none => simp only [stop, endRun, here]
  | some live => exact (endRun_lasts here .stopped).number

theorem opened_number (s : Scheduler σ φ) (program : σ) (lines : LineMap) :
    (s.opened program lines).runNumber = s.runNumber + 1 := by
  obtain ⟨notices, reported, same⟩ := reportPauseState_eq { s.stop with
    runNumber := s.stop.runNumber + 1
    outcome := none
    live := some (Live.start program lines s.stop.settings.pauseOnEntry) }
  rw [opened, same, stop_number]

variable [Interpreter σ] {s : Scheduler σ φ} {operation : Operation σ φ}

theorem start_reschedules (program : σ) (lines : LineMap) (began ended : Instant) :
    (s.start program lines began ended).runNumber = s.runNumber + 1 ∧
      (s.start program lines began ended).Rescheduled s.clock := by
  have here := opened_live s program lines
  rw [← (opened_keeps s program lines).2.1, ← opened_number s program lines, start_opened]
  split
  · exact ⟨rfl, .inr ⟨by simp [here], rfl⟩⟩
  · have lasts : Lasts (s.opened program lines).scheduled
        ((s.opened program lines).onTick ⟨(s.opened program lines).runNumber, 0⟩ began ended) :=
      onTick_lasts began ended here rfl
    exact ⟨lasts.number, lasts.rescheduled⟩

theorem onTick_reschedules {tick : PendingTick} (began ended : Instant)
    (running : s.live.isSome = true) (current : tick.run = s.runNumber) :
    (s.onTick tick began ended).runNumber = s.runNumber ∧
      (s.onTick tick began ended).Rescheduled s.clock := by
  obtain ⟨live, here⟩ := Option.isSome_iff_exists.mp running
  have lasts := onTick_lasts began ended here current
  exact ⟨lasts.number, lasts.rescheduled⟩

theorem perform_number (one : operation.opens = false) :
    (s.perform operation).runNumber = s.runNumber := by
  cases here : s.live with
  | none => exact (perform_inert here one).number
  | some live =>
    cases perform_takes (Option.isSome_iff_exists.mpr ⟨live, here⟩) one with
    | lasts _ number _ lasts => exact lasts.number.trans number
    | resets _ _ number => exact number

theorem Armed.perform (armed : s.Armed) (operation : Operation σ φ) : (s.perform operation).Armed := by
  cases opens : operation.opens with
  | true =>
    cases operation with
    | start program lines began ended => exact (start_reschedules program lines began ended).2.armed
    | _ => cases opens
  | false =>
    cases here : s.live with
    | none =>
      have unscheduled : s.pending = none := by
        rw [Option.eq_none_iff_forall_ne_some]
        intro tick pending
        have running := (armed tick pending).1
        rw [here] at running
        cases running
      intro tick pending
      rw [(perform_inert here opens).unscheduled unscheduled] at pending
      cases pending
    | some live =>
      cases perform_takes (Option.isSome_iff_exists.mpr ⟨live, here⟩) opens with
      | lasts _ number fresh lasts =>
        refine lasts.armed fun tick pending => ?_
        rw [number]
        exact (fresh tick pending).elim (fun old => (armed tick old).2) id
      | resets _ _ _ unscheduled =>
        intro tick pending
        rw [unscheduled] at pending
        cases pending

theorem Armed.performAll (armed : s.Armed) (operations : List (Operation σ φ)) :
    (s.performAll operations).Armed := by
  induction operations generalizing s with
  | nil => exact armed
  | cons operation operations ih => exact ih (armed.perform operation)

theorem opens_stale {number : Nat} (known : number ≤ s.runNumber) (opens : operation.opens = true) :
    (s.perform operation).Stale number := by
  cases operation with
  | start program lines began ended =>
    have counted := (s.start_reschedules program lines began ended).1
    exact .inl (by rw [Scheduler.perform, counted]; omega)
  | _ => cases opens

theorem Stale.perform {number : Nat} (stale : s.Stale number) (operation : Operation σ φ) :
    (s.perform operation).Stale number := by
  cases opens : operation.opens with
  | true => exact opens_stale (stale.elim Nat.le_of_lt fun last => last.1.le) opens
  | false =>
    rw [Stale, perform_number opens]
    exact stale.imp_right fun ⟨last, gone⟩ => ⟨last, (perform_inert gone opens).gone⟩

theorem Stale.performAll {number : Nat} (stale : s.Stale number)
    (operations : List (Operation σ φ)) : (s.performAll operations).Stale number := by
  induction operations generalizing s with
  | nil => exact stale
  | cons operation operations ih => exact ih (stale.perform operation)

theorem performAll_stale {operations : List (Operation σ φ)}
    (done : (s.performAll operations).live = none ∨
      ∃ operation ∈ operations, operation.opens = true) :
    (s.performAll operations).Stale s.runNumber := by
  induction operations generalizing s with
  | nil =>
    rcases done with gone | ⟨_, member, _⟩
    · exact .inr ⟨rfl, gone⟩
    · cases member
  | cons operation operations ih =>
    cases opens : operation.opens with
    | true => exact (opens_stale le_rfl opens).performAll operations
    | false =>
      rw [← perform_number opens]
      refine ih (done.imp_right fun ⟨other, member, starts⟩ => ⟨other, ?_, starts⟩)
      rcases List.mem_cons.mp member with rfl | later
      · rw [opens] at starts
        cases starts
      · exact later

end Scheduler

variable [Interpreter σ]

/-- A tick is scheduled only while a run is live, and for that run. A start, and a tick of the live
run, leave either no run and no tick or a run with one new tick; any other tick changes nothing. So
a tick of a run that has ended since then, by itself or because a start replaced it, changes nothing
at all, whatever happens before it is fired. -/
theorem ticks_of_their_run (settings : Settings) (finish : Option (FinishRule φ))
    (operations : List (Operation σ φ)) :
    let s : Scheduler σ φ := (Scheduler.new settings finish).performAll operations
    (∀ tick, s.pending = some tick → s.live.isSome = true ∧ tick.run = s.runNumber) ∧
      (∀ program lines began ended,
        (s.start program lines began ended).runNumber = s.runNumber + 1 ∧
          (s.start program lines began ended).Rescheduled s.clock) ∧
      (∀ tick began ended,
        (s.live.isSome = true → tick.run = s.runNumber →
          (s.onTick tick began ended).runNumber = s.runNumber ∧
            (s.onTick tick began ended).Rescheduled s.clock) ∧
        (s.live = none ∨ tick.run ≠ s.runNumber → s.onTick tick began ended = s)) ∧
      ∀ tick, tick.run = s.runNumber → ∀ later : List (Operation σ φ),
        (s.performAll later).live = none ∨ (∃ operation ∈ later, operation.opens = true) →
        ∀ more began ended, let t := s.performAll (later ++ more)
          t.onTick tick began ended = t := by
  have begins : (Scheduler.new settings finish : Scheduler σ φ).Armed := nofun
  intro s
  refine ⟨begins.performAll operations, Scheduler.start_reschedules,
    fun tick began ended => ⟨Scheduler.onTick_reschedules began ended,
      Scheduler.onTick_stale began ended⟩, ?_⟩
  intro tick run later done more began ended t
  have stale : t.Stale tick.run := by
    rw [show t = (s.performAll later).performAll more from s.performAll_append later more, run]
    exact (Scheduler.performAll_stale done).performAll more
  exact Scheduler.onTick_stale began ended stale.not_current

def restarting (loaded : Loaded) : List (Operation Machine Unit) :=
  [.take, .start loaded.machine loaded.text.lineMap 0 0]

/-- The tick that was taken from the first of three runs changes nothing in the third. -/
theorem restarting_ticks_of_their_run : ∃ loaded, Script.load misnaming = .ok loaded ∧
    let s := Scheduler.performAll (.new .default none) (restarting loaded)
    let t := s.performAll (restarting loaded ++ .command .stop :: restarting loaded)
    ∃ tick, s.pending = some tick ∧ tick.run = s.runNumber ∧
      t.isRunning = true ∧ t.runNumber = s.runNumber + 2 ∧ t.onTick tick 0 0 = t := by
  have computed : (Script.load misnaming).toOption.any (fun loaded =>
      let s := Scheduler.performAll (.new .default none) (restarting loaded)
      let t := s.performAll (restarting loaded ++ .command .stop :: restarting loaded)
      s.pending.isSome && t.isRunning && t.runNumber == s.runNumber + 2) = true := by
    decide +kernel
  obtain ⟨loaded, read, holds⟩ := load_any computed
  simp only [Bool.and_eq_true, beq_iff_eq] at holds
  obtain ⟨⟨pending, running⟩, number⟩ := holds
  obtain ⟨tick, scheduled⟩ := Option.isSome_iff_exists.mp pending
  obtain ⟨armed, -, -, old⟩ := ticks_of_their_run .default none (restarting loaded)
  have run := (armed tick scheduled).2
  exact ⟨loaded, read, tick, scheduled, run, running, number,
    old tick run (restarting loaded) (.inr ⟨_, .tail _ (.head _), rfl⟩) _ 0 0⟩

end Metronome.Run
