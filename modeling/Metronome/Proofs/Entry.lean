import Metronome.Proofs.Deeds

namespace Metronome

namespace Debug

structure Controller.AwaitsEntry (c : Controller) : Prop where
  pending : c.entryPending = true
  active : c.isAtRest = false
  silent : c.stopReason = none

theorem Controller.start_awaits : (Controller.start true).AwaitsEntry :=
  ⟨rfl, rfl, rfl⟩

theorem Controller.AwaitsEntry.told {c : Controller} (awaits : c.AwaitsEntry) :
    c.takeStopReason.1.AwaitsEntry :=
  ⟨awaits.pending, awaits.active, rfl⟩

end Debug

namespace Run

open Metronome.Debug (Breakpoints Controller Cursor)

variable {σ φ : Type} [Interpreter σ]

def Operation.opens {σ φ : Type} : Operation σ φ → Bool
  | .start _ _ _ _ => true
  | _ => false

def Operation.pauses {σ φ : Type} : Operation σ φ → Bool
  | .command .pause => true
  | _ => false

theorem Minds.awaits {σ φ : Type} {operation : Operation σ φ} {c next : Controller}
    (minds : Minds operation c next) (others : operation.pauses = false)
    (awaits : c.AwaitsEntry) : next.AwaitsEntry := by
  cases minds with
  | same => exact awaits
  | told => exact awaits.told
  | paused pauses =>
    subst pauses
    cases others
  | enters state active =>
    refine ⟨awaits.pending, ?_, rfl⟩
    simpa [Controller.isAtRest, Controller.enterState] using active

theorem Minds.entered {σ φ : Type} {operation : Operation σ φ} {c next : Controller}
    (minds : Minds operation c next) (entered : c.entryPending = false) :
    next.entryPending = false := by
  cases minds with
  | same => exact entered
  | told => exact entered
  | paused =>
    unfold Controller.pause
    split
    · exact entered
    · rfl
  | enters => exact entered

theorem Minds.stopPoint {σ φ : Type} {operation : Operation σ φ} {c next : Controller}
    (minds : Minds operation c next) : next.stopPoint = c.stopPoint := by
  cases minds with
  | same => rfl
  | told => rfl
  | paused =>
    unfold Controller.pause
    split <;> rfl
  | enters => rfl

omit [Interpreter σ] in
theorem Bursts.origin {s : Scheduler σ φ} {operation : Operation σ φ} {live : Live σ}
    {request : Request} (runs : Bursts s operation live request) (one : operation.opens = false) :
    ∃ before stepOutDepth, s.live = some before ∧ live.program = before.program ∧
      live.lines = before.lines ∧ live.controller = { before.controller with stepOutDepth } := by
  cases runs with
  | @tick before _ _ _ here =>
    obtain ⟨stepOutDepth, same⟩ := beginTick_eq before.controller
    exact ⟨before, stepOutDepth, here, rfl, rfl, same⟩
  | @dispatch before _ _ here => exact ⟨before, _, here, rfl, rfl, rfl⟩
  | start => cases one

namespace Progress

variable {breakpoints : Breakpoints} {request : Request} {budget : Nat} {p q : Progress σ}

structure Waiting (p : Progress σ) : Prop where
  awaits : p.live.controller.AwaitsEntry
  fresh : p.burst = .fresh

omit [Interpreter σ] in
theorem begin_waiting {live : Live σ} (awaits : live.controller.AwaitsEntry) :
    (begin live).Waiting :=
  ⟨awaits, rfl⟩

theorem Waiting.outside (waiting : p.Waiting) (passesBy : (p.arrival breakpoints).2.2 = false) :
    p.line = none :=
  outside_of_pending waiting.awaits.pending (by rw [waiting.fresh]; rfl) passesBy

theorem Waiting.stepped (waiting : p.Waiting) (passesBy : (p.arrival breakpoints).2.2 = false)
    (after : Judged request p q) : q.Waiting := by
  have outside := waiting.outside passesBy
  have flags : p.flags q.live.program = .fresh := by
    simp [flags, Debug.Burst.noted, seen, Cursor.withLine, Cursor.inUserCode, outside,
      waiting.fresh, Debug.Burst.fresh]
  have calm : p.live.controller.stopping (p.flags q.live.program) = false := by
    simp [flags, Controller.stopping, Debug.Burst.fresh]
  have still : q.burst.unwinding = false := by
    rw [after.unwinding, calm, waiting.fresh]
    rfl
  have goesOn : (p.judged request).2.2 = false := by simp [after.rests_eq, calm]
  have controller := after.controller_active goesOn
  obtain ⟨pending, active, silent⟩ := waiting.awaits
  refine ⟨⟨after.entryPending.trans pending, ?_, ?_⟩, ?_⟩
  · rw [← active, controller]
    exact Controller.isAtRest_congr p.refreshed_state
  · rw [← silent, ← p.refreshed_stopReason, controller]
    rfl
  · rw [after.burst_eq, flags, still]
    rfl

structure AtEntry (p : Progress σ) : Prop where
  entered : p.live.controller.entryPending = false
  state : p.live.controller.state = .paused .run
  reached : p.burst.reachedBreak = true
  reason : p.live.controller.stopReason = some .entry

theorem Waiting.arrived (waiting : p.Waiting) (arrives : (p.arrival breakpoints).2.2 = true)
    (after : Arrived breakpoints request p q) : q.AtEntry := by
  obtain ⟨line, -, -, -, reaches⟩ := arrival_arrives arrives
  have controller := after.controller
  have burst := after.burst
  rw [reaches] at controller burst
  refine ⟨?_, ?_, ?_, ?_⟩
  · rw [controller]
    rfl
  · rw [controller]
    rfl
  · rw [burst]
  · rw [controller]
    simp [Controller.arriveAt, waiting.awaits.pending]

theorem AtEntry.unwinds (atEntry : p.AtEntry) (proceeds : p.Proceeds request budget) :
    p.burst.unwinding = true :=
  proceeds.unwinds atEntry.reached

theorem AtEntry.passes_by (atEntry : p.AtEntry) (proceeds : p.Proceeds request budget) :
    (p.arrival breakpoints).2.2 = false := by
  rw [Bool.eq_false_iff]
  intro arrives
  obtain ⟨-, -, still, -⟩ := arrival_arrives arrives
  rw [atEntry.unwinds proceeds] at still
  cases still

theorem AtEntry.stepped (atEntry : p.AtEntry) (after : Judged request p q) : q.AtEntry := by
  have state := p.refreshed_state.trans atEntry.state
  have reason := p.refreshed_stopReason.trans atEntry.reason
  refine ⟨after.entryPending.trans atEntry.entered, ?_, ?_, ?_⟩
  · rw [after.controller_eq]
    split
    · rfl
    · exact state
  · rw [after.burst_eq]
    simp [flags, Debug.Burst.noted, atEntry.reached]
  · rw [after.controller_eq]
    split
    · simp [Controller.rest, Controller.noted, reason]
    · exact reason

structure Beyond (p : Progress σ) : Prop where
  entered : p.live.controller.entryPending = false
  other : p.live.controller.stopReason ≠ some .entry

theorem Beyond.arrived (beyond : p.Beyond) (arrives : (p.arrival breakpoints).2.2 = true)
    (after : Arrived breakpoints request p q) : q.Beyond := by
  obtain ⟨line, -, -, -, reaches⟩ := arrival_arrives arrives
  have controller := after.controller
  rw [reaches] at controller
  refine ⟨?_, ?_⟩
  · rw [controller]
    rfl
  · rw [controller]
    simp [Controller.arriveAt, beyond.entered]

theorem Beyond.stepped (beyond : p.Beyond) (after : Judged request p q) : q.Beyond := by
  have other : p.refreshed.stopReason ≠ some .entry := p.refreshed_stopReason ▸ beyond.other
  refine ⟨after.entryPending.trans beyond.entered, ?_⟩
  rw [after.controller_eq]
  split
  · cases before : p.refreshed.stopReason with
    | none => simp [Controller.rest, Controller.noted, before]
    | some reason =>
      rw [before] at other
      simpa [Controller.rest, Controller.noted, before] using other
  · exact other

end Progress

def fromUserCode (done : List (Progress σ × Deed)) : List (Progress σ × Deed) :=
  done.dropWhile fun deed => deed.1.line.isNone

/-- The first that a run does on a line of the user's is to arrive there at its entry, and what it
does next is the program's step from there. -/
def EntersFirst (done : List (Progress σ × Deed)) : Prop :=
  ∀ p deed after, fromUserCode done = (p, deed) :: after →
    deed = .arrives ∧ p.live.controller.entryPending = true ∧
      ∀ next ∈ after.head?, next.2 ≠ .arrives ∧ next.1.live.program = p.live.program ∧
        next.1.line = p.line

theorem fromUserCode_outside {done : List (Progress σ × Deed)} {deed : Progress σ × Deed}
    (empty : fromUserCode done = []) (outside : deed.1.line = none) :
    fromUserCode (done ++ [deed]) = [] := by
  unfold fromUserCode at empty ⊢
  rw [List.dropWhile_append, empty]
  simp [outside]

theorem fromUserCode_inside {done : List (Progress σ × Deed)} {deed : Progress σ × Deed}
    {line : Nat} (empty : fromUserCode done = []) (inside : deed.1.line = some line) :
    fromUserCode (done ++ [deed]) = [deed] := by
  unfold fromUserCode at empty ⊢
  rw [List.dropWhile_append, empty]
  simp [inside]

theorem fromUserCode_more {done : List (Progress σ × Deed)} {first : Progress σ × Deed}
    {rest : List (Progress σ × Deed)} (begun : fromUserCode done = first :: rest)
    (deed : Progress σ × Deed) : fromUserCode (done ++ [deed]) = first :: (rest ++ [deed]) := by
  unfold fromUserCode at begun ⊢
  rw [List.dropWhile_append, begun]
  rfl

theorem EntersFirst.of_outside {done : List (Progress σ × Deed)}
    (empty : fromUserCode done = []) : EntersFirst done := by
  intro p deed after found
  rw [empty] at found
  cases found

theorem EntersFirst.more {done : List (Progress σ × Deed)} (enters : EntersFirst done)
    {first second : Progress σ × Deed} {rest : List (Progress σ × Deed)}
    (begun : fromUserCode done = first :: second :: rest) (deed : Progress σ × Deed) :
    EntersFirst (done ++ [deed]) := by
  intro p kind after found
  rw [fromUserCode_more begun] at found
  cases found
  obtain ⟨arrives, pending, next⟩ := enters p kind _ begun
  exact ⟨arrives, pending, by simpa using next⟩

/-- How far a run has come that is to stop at its entry: it is not in the user's code yet, it stands
where it has arrived, or it has taken the step from there. -/
inductive Course (done : List (Progress σ × Deed)) (live : Live σ) : Prop where
  | outside (empty : fromUserCode done = []) (awaits : live.controller.AwaitsEntry)
  | standing {p : Progress σ} {line : Nat} (first : fromUserCode done = [(p, .arrives)])
      (pending : p.live.controller.entryPending = true) (here : p.line = some line)
      (program : live.program = p.live.program) (lines : live.lines = p.live.lines)
      (stop : live.controller.stopPoint.map (·.line) = some line)
      (entered : live.controller.entryPending = false)
  | entered {first second : Progress σ × Deed} {rest : List (Progress σ × Deed)}
      (begun : fromUserCode done = first :: second :: rest) (enters : EntersFirst done)
      (entered : live.controller.entryPending = false)

theorem Course.enters {done : List (Progress σ × Deed)} {live : Live σ} (course : Course done live) :
    EntersFirst done := by
  cases course with
  | outside empty => exact .of_outside empty
  | standing first pending =>
    intro p deed after found
    rw [first] at found
    cases found
    exact ⟨rfl, pending, by simp⟩
  | entered _ enters => exact enters

theorem Course.congr {done : List (Progress σ × Deed)} {live next : Live σ}
    (course : Course done live) (program : next.program = live.program)
    (lines : next.lines = live.lines) (stop : next.controller.stopPoint = live.controller.stopPoint)
    (awaits : live.controller.AwaitsEntry → next.controller.AwaitsEntry)
    (entered : live.controller.entryPending = false → next.controller.entryPending = false) :
    Course done next := by
  cases course with
  | outside empty before => exact .outside empty (awaits before)
  | standing first pending here sameProgram sameLines before past =>
    exact .standing first pending here (program.trans sameProgram) (lines.trans sameLines)
      (stop ▸ before) (entered past)
  | entered begun enters past => exact .entered begun enters (entered past)

namespace Progress

variable {breakpoints : Breakpoints} {request : Request} {budget : Nat} {p q : Progress σ}
  {done : List (Progress σ × Deed)}

structure Courses (done : List (Progress σ × Deed)) (p : Progress σ) : Prop where
  course : Course done p.live
  fresh : p.live.controller.entryPending = true → p.burst = .fresh

theorem passes_by_stop {line : Nat} (here : p.line = some line)
    (stop : p.live.controller.stopPoint.map (·.line) = some line)
    (entered : p.live.controller.entryPending = false) : (p.arrival breakpoints).2.2 = false := by
  rw [Bool.eq_false_iff]
  intro arrives
  obtain ⟨other, there, -, why, -⟩ := arrival_arrives arrives
  cases here.symm.trans there
  rcases why with pending | ⟨-, elsewhere⟩
  · rw [entered] at pending
    cases pending
  · exact elsewhere stop

theorem Courses.arrives (courses : Courses done p)
    (arrives : (p.arrival breakpoints).2.2 = true) (after : Arrived breakpoints request p q) :
    Courses (done ++ [(p, .arrives)]) q := by
  obtain ⟨line, here, -, -, reaches⟩ := arrival_arrives arrives
  have controller := after.controller
  rw [reaches] at controller
  have entered : q.live.controller.entryPending = false := by
    rw [controller]
    rfl
  refine ⟨?_, by simp [entered]⟩
  cases courses.course with
  | outside empty awaits =>
    refine .standing (fromUserCode_inside empty here) awaits.pending here after.program after.lines
      ?_ entered
    rw [controller]
    rfl
  | @standing first line _ _ there program lines stop past =>
    have stands : p.line = some line := by
      rw [← there, Progress.line, Progress.line, program, lines]
    rw [passes_by_stop stands stop past] at arrives
    cases arrives
  | entered begun enters past =>
    exact .entered (fromUserCode_more begun _) (enters.more begun _) entered

/-- A step of a run that is to stop at its entry is one outside the user's code before it, or the one
from it, or one later. -/
theorem Courses.takes (courses : Courses done p) (passesBy : (p.arrival breakpoints).2.2 = false)
    (deed : Deed) (step : deed ≠ .arrives) :
    (fromUserCode (done ++ [(p, deed)]) = [] ∧ p.Waiting) ∨
      EntersFirst (done ++ [(p, deed)]) ∧ p.live.controller.entryPending = false ∧
        ∃ first second rest, fromUserCode (done ++ [(p, deed)]) = first :: second :: rest := by
  cases courses.course with
  | outside empty awaits =>
    have waiting : p.Waiting := ⟨awaits, courses.fresh awaits.pending⟩
    exact .inl ⟨fromUserCode_outside empty (waiting.outside passesBy), waiting⟩
  | @standing a line first pending there program lines stop entered =>
    have found := fromUserCode_more first (p, deed)
    refine .inr ⟨?_, entered, _, _, _, found⟩
    intro b kind after same
    rw [found] at same
    cases same
    refine ⟨rfl, pending, ?_⟩
    have stands : p.line = a.line := by
      rw [Progress.line, Progress.line, program, lines]
    simpa using ⟨step, program, stands⟩
  | entered begun enters entered =>
    exact .inr ⟨enters.more begun _, entered, _, _, _, fromUserCode_more begun _⟩

theorem tracks_courses (breakpoints : Breakpoints) (request : Request) (budget : Nat) :
    Tracks breakpoints request budget (Courses : List (Progress σ × Deed) → _) EntersFirst where
  arrives courses _ arrives after := courses.arrives arrives after
  steps {done p q} courses _ passesBy after := by
    rcases courses.takes passesBy .steps (by simp) with
      ⟨empty, waiting⟩ | ⟨enters, entered, first, second, rest, begun⟩
    · have next := waiting.stepped passesBy after
      exact ⟨.outside empty next.awaits, fun _ => next.fresh⟩
    · have past := after.entryPending.trans entered
      exact ⟨.entered begun enters past, by simp [past]⟩
  fails courses _ passesBy := by
    rcases courses.takes passesBy .fails (by simp) with ⟨empty, -⟩ | ⟨enters, -⟩
    · exact .of_outside empty
    · exact enters

end Progress

namespace Scheduler

structure Courses (done : List (Progress σ × Deed)) (s : Scheduler σ φ) : Prop where
  enters : EntersFirst done
  course : ∀ live, s.live = some live → Course done live

theorem Courses.perform {done : List (Progress σ × Deed)} {s : Scheduler σ φ}
    {operation : Operation σ φ} (courses : s.Courses done) (one : operation.opens = false)
    (others : operation.pauses = false) :
    (s.perform operation).Courses (done ++ s.deeds operation) := by
  cases quiet : s.burstOf operation with
  | none =>
    rw [deeds_quiet quiet, List.append_nil]
    refine ⟨courses.enters, fun next there => ?_⟩
    cases perform_hands there with
    | minds here program lines minds =>
      exact (courses.course _ here).congr program lines minds.stopPoint (minds.awaits others)
        minds.entered
    | opens starts =>
      subst starts
      cases one
    | bursts runs =>
      rw [bursts_iff.mp runs] at quiet
      cases quiet
  | some burst =>
    obtain ⟨live, request⟩ := burst
    have runs := bursts_iff.mpr quiet
    obtain ⟨before, stepOutDepth, here, program, lines, controller⟩ := runs.origin one
    have first : Progress.Courses done (Progress.begin live) := by
      refine ⟨(courses.course before here).congr program lines ?_ ?_ ?_, fun _ => rfl⟩
      · change live.controller.stopPoint = _
        rw [controller]
      · intro awaits
        change live.controller.AwaitsEntry
        rw [controller]
        exact ⟨awaits.pending, awaits.active, awaits.silent⟩
      · intro entered
        change live.controller.entryPending = false
        rw [controller]
        exact entered
    have tracked := (Progress.tracks_courses s.breakpoints request s.settings.tickBudget).burst first
    rw [deeds_burst runs]
    have leaves : ∀ next, (s.perform operation).live = some next →
        Leaves (live.burst s.breakpoints request s.settings.tickBudget) next :=
      fun _ there => perform_leaves runs there
    generalize live.burst s.breakpoints request s.settings.tickBudget = result at tracked leaves
    cases tracked with
    | holds _ after =>
      refine ⟨after.course.enters, fun next there => ?_⟩
      obtain ⟨-, program, lines, controller⟩ := leaves next there
      refine after.course.congr program lines ?_ ?_ ?_
      · rw [controller]
        rfl
      · intro awaits
        rw [controller]
        exact awaits.told
      · intro entered
        rw [controller]
        exact entered
    | lost enters => exact ⟨enters, fun next there => absurd rfl ((leaves next there).fine _ _)⟩

theorem Courses.performAll {done : List (Progress σ × Deed)} {s : Scheduler σ φ}
    {operations : List (Operation σ φ)} (courses : s.Courses done)
    (one : ∀ operation ∈ operations, operation.opens = false)
    (others : ∀ operation ∈ operations, operation.pauses = false) :
    EntersFirst (done ++ s.deedsAll operations) := by
  induction operations generalizing s done with
  | nil =>
    rw [deedsAll, List.append_nil]
    exact courses.enters
  | cons operation operations ih =>
    obtain ⟨first, rest⟩ := List.forall_mem_cons.mp one
    obtain ⟨notPause, notPauses⟩ := List.forall_mem_cons.mp others
    rw [deedsAll, ← List.append_assoc]
    exact ih (courses.perform first notPause) rest notPauses

theorem start_courses {s : Scheduler σ φ} (program : σ) (lines : LineMap) (began ended : Instant)
    (entry : s.settings.pauseOnEntry = true) :
    (s.start program lines began ended).Courses [] := by
  refine ⟨.of_outside rfl, fun live there => ?_⟩
  rw [start_waits program lines began ended entry] at there
  cases there
  exact .outside rfl Controller.start_awaits

end Scheduler

end Run

end Metronome
