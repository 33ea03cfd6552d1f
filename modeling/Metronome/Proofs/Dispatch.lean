import Metronome.Proofs.Callback
import Metronome.Proofs.Invocation
import Metronome.Proofs.Trail

namespace Metronome.Run

open Metronome.Debug (Breakpoints Controller)
open Metronome.Script (Loaded Machine load_any)

section

variable {σ φ : Type} [Interpreter σ]

theorem Bridge.giveBack_dropped (value : Value) {bridge : Bridge}
    (tick : bridge.request.untilReturn = false) :
    (bridge.giveBack value).response.lastReturn = none := by
  have dropped : ∀ other : Bridge, other.dropReturn.response.lastReturn = none := by
    intro other
    unfold dropReturn
    split
    · assumption
    · dsimp only
      split
      · rfl
      · split <;> rfl
  rw [giveBack, tick]
  exact dropped _

theorem Bridge.run_dropped {α : Type} (computation : Native α) {bridge : Bridge}
    (tick : bridge.request.untilReturn = false) (none_kept : bridge.response.lastReturn = none) :
    (computation.run natives bridge).2.response.lastReturn = none := by
  induction computation generalizing bridge with
  | done result => exact none_kept
  | nextCallback resume ih =>
    cases waiting : bridge.queue with
    | nil =>
      simp only [Native.run, natives, nextCallback, waiting]
      exact ih none tick none_kept
    | cons callback queue =>
      simp only [Native.run, natives, nextCallback, waiting]
      exact ih _ tick none_kept
  | giveBack value rest ih =>
    exact ih (giveBack_request value bridge ▸ tick) (giveBack_dropped value tick)
  | setTimeout callback delay rest ih => exact ih tick none_kept
  | output line rest ih => exact ih tick none_kept

theorem Progress.pass_dropped {breakpoints : Breakpoints} {request : Request} {budget : Nat}
    {p q : Progress σ} {ending : Option Ending} (tick : request.untilReturn = false)
    (passed : p.pass breakpoints request budget = (q, ending))
    (none_kept : p.live.response.lastReturn = none) : q.live.response.lastReturn = none := by
  have spec := pass_spec breakpoints request budget p
  rw [passed] at spec
  have took : Took request p q → q.live.response.lastReturn = none := by
    intro took
    rw [took.response]
    exact Bridge.run_dropped _ tick none_kept
  cases spec with
  | stopped => exact none_kept
  | exhausted => exact none_kept
  | complete => exact none_kept
  | arrived _ _ after =>
    rw [after.response]
    exact none_kept
  | failed _ _ _ after => exact took after
  | stepped _ _ _ after => exact took after.toTook

namespace Scheduler

def NoneKept (s : Scheduler σ φ) : Prop :=
  ∀ live, s.live = some live → live.response.lastReturn = none

theorem closeTick_response {s : Scheduler σ φ} {live after : Live σ} {now : Instant}
    (there : (s.closeTick live now).live = some after) : after.response = live.response := by
  rcases closeTick_live s live now with gone | kept
  · rw [gone] at there
    cases there
  · rw [kept] at there
    cases there
    rfl

theorem NoneKept.onTick {s : Scheduler σ φ} (kept : s.NoneKept) (tick : PendingTick)
    (began ended : Instant) : (s.onTick tick began ended).NoneKept := by
  cases here : s.live with
  | none =>
    rw [onTick_stale began ended (.inl here)]
    exact kept
  | some live =>
    have before := kept live here
    by_cases current : tick.run = s.runNumber
    · intro after there
      cases steps : live.controller.beginTick.2 with
      | false =>
        rw [onTick_rests began ended here current steps] at there
        rw [closeTick_response there]
        exact before
      | true =>
        rw [onTick_steps began ended here current steps] at there
        have fine := (settle_leaves there).fine
        have burst := live.ticked.burst_keeps (fun p => p.live.response.lastReturn = none) before
          (fun _ _ _ passed _ holds => Progress.pass_dropped rfl passed holds) fine
        generalize live.ticked.burst s.breakpoints (s.tickRequest began) s.settings.tickBudget =
          result at there fine burst
        obtain ⟨p, ending⟩ := result
        rw [settle_closes _ _ _ p fine] at there
        obtain ⟨lastSelected, same⟩ := shown_live s.clock.atMaxSpeed p
        rw [closeTick_response there, same]
        exact burst
    · rw [onTick_stale began ended (.inr current)]
      exact kept

theorem NoneKept.start {s : Scheduler σ φ} (program : σ) (lines : LineMap) (began ended : Instant) :
    (s.start program lines began ended).NoneKept := by
  have opened : (s.opened program lines).NoneKept := by
    intro live here
    rw [opened_live] at here
    cases here
    rfl
  rw [start_opened]
  split
  · exact opened
  · exact opened.onTick _ _ _

theorem NoneKept.dispatch {s : Scheduler σ φ} (kept : s.NoneKept) (callback : Callback)
    (now : Instant) : (s.dispatch callback now).1.NoneKept := by
  cases here : s.live with
  | none =>
    intro after there
    simp [Scheduler.dispatch, here] at there
  | some live =>
    cases paused : live.controller.isPaused with
    | true =>
      intro after there
      simp only [Scheduler.dispatch, here, paused, if_true, Option.some.injEq] at there
      subst there
      exact kept live here
    | false =>
      rw [dispatch_answers callback now here paused]
      generalize (live.called callback).burst _ _ _ = result
      obtain ⟨p, ending⟩ := result
      intro after there
      have fine := (answer_leaves there).fine
      cases ending with
      | failed error line => exact absurd rfl (fine error line)
      | _ =>
        unfold answer at there
        rw [reportStop_live] at there
        cases there
        rfl

theorem NoneKept.perform {s : Scheduler σ φ} (kept : s.NoneKept) (operation : Operation σ φ) :
    (s.perform operation).NoneKept := by
  cases operation with
  | install rule => exact kept
  | take => exact kept
  | start program lines began ended => exact .start program lines began ended
  | tick tick began ended => exact kept.onTick tick began ended
  | dispatch callback now => exact kept.dispatch callback now
  | command command =>
    intro after there
    obtain ⟨live, controller, here, rfl, -⟩ := apply_minds there
    exact kept live here
  | reset =>
    intro after there
    have gone : s.reset.live = none := endRun_live s .stopped
    rw [Scheduler.perform, gone] at there
    cases there

end Scheduler

end

theorem Reachable.noneKept {φ : Type} {s : Scheduler Machine φ} (reachable : Reachable s) :
    s.NoneKept := by
  induction reachable with
  | new => rintro live ⟨⟩
  | perform before given ih => exact ih.perform _

/-- Where the entry of a dispatch has come to in its burst: on its way, and no value is kept, or its call
has returned the value that is kept. -/
def Pursued (callback : Callback) (maxDepth : Nat) (ahead : Queue) (trail : List (Progress Machine))
    (p : Progress Machine) : Prop :=
  (Pursuit callback maxDepth ahead (trail.map Progress.snapshot) p.snapshot ∧
      p.live.response.lastReturn = none ∧ p.live.response.seenReturn = false) ∨
    ∃ value, Invocation callback maxDepth ahead value (trail.map Progress.snapshot) ∧
      p.live.response.lastReturn = some value ∧ p.live.response.seenReturn = true

namespace Progress

variable {breakpoints : Breakpoints} {request : Request} {budget : Nat} {p q : Progress Machine}
  {callback : Callback} {ahead : Queue} {trail : List (Progress Machine)}

theorem Took.pursued (took : Took request p q) (fine : (p.stepped request).1.error = none)
    (proceeds : p.Proceeds request budget) (dispatched : request.untilReturn = true)
    (sound : p.live.program.Sound p.live.lines)
    (pursued : Pursued callback request.maxDepth ahead trail p) :
    Pursued callback request.maxDepth ahead (trail ++ [p]) q := by
  rcases pursued with ⟨pursuit, none_kept, unseen⟩ | ⟨value, -, -, seen⟩
  · rw [Pursued, List.map_append]
    rcases took.pursues fine dispatched sound pursuit with
      onward | ⟨value, invocation, returned, seen⟩
    · exact .inl ⟨onward.pursuit, onward.lastReturn.trans none_kept, onward.seenReturn.trans unseen⟩
    · exact .inr ⟨value, invocation, returned, seen⟩
  · have stops := proceeds.goesOn
    simp [Controller.shouldStop, Response.signals, dispatched, seen] at stops

theorem Walks.pursued {first : Progress Machine}
    (walks : first.Walks breakpoints request budget trail p) (dispatched : request.untilReturn = true)
    (sound : first.live.program.Sound first.live.lines)
    (starts : Pursued callback request.maxDepth ahead [] first) :
    Pursued callback request.maxDepth ahead trail p ∧ p.live.program.Sound p.live.lines := by
  induction walks with
  | here => exact ⟨starts, sound⟩
  | pass _ goesOn ih =>
    obtain ⟨pursued, soundThen⟩ := ih
    refine ⟨?_, pass_sound goesOn (fun _ _ => by simp) soundThen⟩
    obtain ⟨proceeds, ⟨arrives, after⟩ | ⟨passesBy, fine, after, active⟩⟩ := pass_none goesOn
    · rw [moment_of_arrival arrives, List.append_nil]
      rw [Pursued, snapshot, after.program, after.queue, after.response]
      exact pursued
    · rw [moment_of_step proceeds passesBy]
      exact after.toTook.pursued fine proceeds dispatched soundThen pursued

theorem pass_pursued {ending : Ending} (passed : p.pass breakpoints request budget = (q, some ending))
    (fine : ∀ error line, ending ≠ .failed error line) (dispatched : request.untilReturn = true)
    (sound : p.live.program.Sound p.live.lines)
    (pursued : Pursued callback request.maxDepth ahead trail p) :
    Pursued callback request.maxDepth ahead (trail ++ p.moment breakpoints request budget) q := by
  rcases pass_some passed with
    ⟨rfl, idle, -⟩ | ⟨proceeds, passesBy, ⟨error, line, failed⟩ | ⟨-, stepFine, after, -⟩⟩
  · rw [idle, List.append_nil]
    exact pursued
  · exact absurd failed (fine error line)
  · rw [moment_of_step proceeds passesBy]
    exact after.toTook.pursued stepFine proceeds dispatched sound pursued

end Progress

theorem dispatch_burst {φ : Type} {s : Scheduler Machine φ} (reachable : Reachable s)
    {live : Live Machine} (callback : Callback) (now : Instant) (here : s.live = some live)
    (running : live.controller.isPaused = false) :
    ∃ fuel q ending,
      (Progress.begin (live.called callback)).passes s.breakpoints (s.dispatchRequest now)
          s.settings.tickBudget fuel = (q, ending) ∧ ending ≠ .cutOff ∧
      s.trail (.dispatch callback now) =
        (Progress.begin (live.called callback)).trail s.breakpoints (s.dispatchRequest now)
          s.settings.tickBudget fuel ∧
      s.dispatch callback now = s.answer (q, ending) := by
  have runs : Bursts s (.dispatch callback now) (live.called callback) (s.dispatchRequest now) :=
    .dispatch here running
  have given : (Operation.dispatch callback now : Operation Machine φ).Given :=
    Operation.given_of_event rfl
  have ends := runs.uncut reachable given
  have answers := Scheduler.dispatch_answers callback now here running
  have trail : s.trail (.dispatch callback now) =
      (live.called callback).trail s.breakpoints (s.dispatchRequest now) s.settings.tickBudget := by
    simp only [Scheduler.trail, here, running, Bool.false_eq_true, if_false]
  unfold Live.burst at answers
  unfold Live.trail at trail
  generalize Progress.limit (live.called callback) s.settings.tickBudget = fuel at answers ends trail
  generalize ran : (Progress.begin (live.called callback)).passes _ _ _ fuel = result at answers ends
  obtain ⟨q, ending⟩ := result
  exact ⟨fuel, q, ending, ran, ends, trail, answers⟩

theorem answer_value {φ : Type} {s : Scheduler Machine φ} {q : Progress Machine} {ending : Ending}
    (fine : ∀ error line, ending ≠ .failed error line) :
    (s.answer (q, ending)).2 = q.live.response.lastReturn := by
  cases ending with
  | failed error line => exact absurd rfl (fine error line)
  | _ => rfl

/-- A dispatch has only the value that its own entry's call returned, and between two operations no value
is kept that another dispatch could take. -/
theorem dispatch_answers_own {φ : Type} {s : Scheduler Machine φ} (reachable : Reachable s)
    (callback : Callback) (now : Instant) :
    (∀ live, s.live = some live → live.response.lastReturn = none) ∧
      ∀ value, (s.dispatch callback now).2 = some value → ∃ live, s.live = some live ∧
        Invocation callback s.settings.maxMarshalDepth live.queue value
          ((s.trail (.dispatch callback now)).map Progress.snapshot) := by
  refine ⟨reachable.noneKept, fun value answered => ?_⟩
  cases here : s.live with
  | none => simp [Scheduler.dispatch, here] at answered
  | some live =>
    refine ⟨live, rfl, ?_⟩
    cases paused : live.controller.isPaused with
    | true => simp [Scheduler.dispatch, here, paused] at answered
    | false =>
      obtain ⟨fuel, q, ending, ran, uncut, trail, answers⟩ :=
        dispatch_burst reachable callback now here paused
      obtain ⟨before, last, walks, ended, split⟩ := Progress.trail_ends ran uncut
      have fine : ∀ error line, ending ≠ .failed error line := by
        rintro error line rfl
        rw [answers] at answered
        cases answered
      have starts : Pursued callback s.settings.maxMarshalDepth live.queue []
          (Progress.begin (live.called callback)) :=
        .inl ⟨.waits (by simp) ⟨live.queue, List.suffix_refl _, rfl⟩, rfl, rfl⟩
      have soundBefore := reachable.sound here
      obtain ⟨pursued, sound⟩ := walks.pursued rfl soundBefore starts
      rw [answers, answer_value fine] at answered
      rw [trail, split]
      rcases Progress.pass_pursued ended fine rfl sound pursued with
        ⟨-, none_kept, -⟩ | ⟨returned, invocation, kept, -⟩
      · rw [none_kept] at answered
        cases answered
      · rw [kept] at answered
        exact Option.some.inj answered ▸ invocation

def echo : List Char := "func f x\n  return x\nend\n".toList

def echoing (loaded : Loaded) : Scheduler Machine Unit :=
  Scheduler.performAll (.new .default none)
    [.start loaded.machine loaded.text.lineMap 0 0, .command .pause,
      .dispatch ⟨"f", [.text "first"]⟩ 0, .command .resume]

theorem echoing_reachable {loaded : Loaded} (read : Script.load echo = .ok loaded) :
    Reachable (echoing loaded) := by
  apply Reachable.loading read (.new _ _)
  simp +contextual

/-- With another call of the same function ahead in the queue, the dispatch has its own value. -/
theorem echoing_answers_own : ∃ (loaded : Loaded) (live : Live Machine) (value : Value),
    Script.load echo = .ok loaded ∧
      let s := echoing loaded
      let callback : Callback := ⟨"f", [.text "second"]⟩
      (s.live = some live ∧ live.queue.length = 1) ∧
        (s.dispatch callback 0).2 = some value ∧ value.text? = some "second" ∧
        live.response.lastReturn = none ∧
        Invocation callback s.settings.maxMarshalDepth live.queue value
          ((s.trail (.dispatch callback 0)).map Progress.snapshot) := by
  have computed : (Script.load echo).toOption.any (fun loaded =>
      (echoing loaded).live.any (fun live => live.queue.length == 1) &&
        ((echoing loaded).dispatch ⟨"f", [.text "second"]⟩ 0).2.any
          (fun value => value.text? == some "second")) = true := by
    decide +kernel
  obtain ⟨loaded, read, holds⟩ := load_any computed
  simp only [Bool.and_eq_true, Option.any_eq_true, beq_iff_eq] at holds
  obtain ⟨⟨live, here, busy⟩, value, answered, text⟩ := holds
  obtain ⟨none_kept, own⟩ :=
    dispatch_answers_own (echoing_reachable read) ⟨"f", [.text "second"]⟩ 0
  obtain ⟨same, there, invocation⟩ := own value answered
  rw [here] at there
  cases there
  exact ⟨loaded, live, value, read, ⟨here, busy⟩, answered, text, none_kept live here, invocation⟩

end Metronome.Run
