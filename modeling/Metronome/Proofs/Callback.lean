import Metronome.Proofs.Breakpoint

namespace Metronome

open Metronome.Debug (Breakpoints Burst Controller Cursor StopPoint)

namespace Debug

/-- On another line of the user's than a stop, and not deeper. -/
def Cursor.leaves (cursor : Cursor) (point : StopPoint) : Bool :=
  cursor.line.any fun line => point.line != line && cursor.depth ≤ point.depth

theorem Controller.refreshStopPoint_calm {c : Controller} {burst : Burst} {cursor : Cursor}
    (calm : burst.unwinding = false) :
    (c.refreshStopPoint burst cursor).stopPoint =
      c.stopPoint.filter fun point => !cursor.leaves point := by
  unfold refreshStopPoint Cursor.leaves
  rw [calm]
  cases stop : c.stopPoint with
  | none => cases cursor.line <;> simp [stop]
  | some point =>
    rw [Option.filter_some]
    cases cursor.line with
    | none => simp [stop]
    | some line =>
      by_cases left : (point.line != line && decide (cursor.depth ≤ point.depth)) = true
      · simp only [Option.any_some, left, if_true, Bool.not_true, Bool.false_eq_true, if_false]
      · simp only [Option.any_some, left, if_false, Bool.false_eq_true, Bool.not_false, if_true, stop]

end Debug

namespace Run

open Metronome.Script (Loaded Machine load_any)
open Progress

/-- What is left of a stop after a trail. -/
def remembered (stop : Option StopPoint) (trail : List (Progress Machine)) : Option StopPoint :=
  stop.filter fun point => !trail.any fun p => p.cursor.leaves point

theorem remembered_nil (stop : Option StopPoint) : remembered stop [] = stop := by
  cases stop <;> rfl

theorem remembered_append (stop : Option StopPoint) (before after : List (Progress Machine)) :
    remembered stop (before ++ after) = remembered (remembered stop before) after := by
  cases stop with
  | none => rfl
  | some point =>
    unfold remembered
    cases before.any fun p => p.cursor.leaves point <;> simp

def Recalls (first : Controller) (trail : List (Progress Machine)) (c : Controller) : Prop :=
  c.isPaused = false →
    c.entryPending = first.entryPending ∧ c.stopPoint = remembered first.stopPoint trail

theorem Recalls.congr {first c other : Controller} {trail : List (Progress Machine)}
    (recalls : Recalls first trail c) (state : other.state = c.state)
    (entry : other.entryPending = c.entryPending) (stopPoint : other.stopPoint = c.stopPoint) :
    Recalls first trail other := by
  intro running
  rw [Controller.isPaused_congr state] at running
  rw [entry, stopPoint]
  exact recalls running

theorem Recalls.of_paused {first c : Controller} {trail : List (Progress Machine)}
    (paused : c.isPaused = true) : Recalls first trail c := by
  intro running
  rw [paused] at running
  cases running

theorem Recalls.judged {first : Controller} {trail : List (Progress Machine)} {request : Request}
    {p q : Progress Machine} (recalls : Recalls first trail p.live.controller)
    (guarded : p.Guarded) (after : Judged request p q)
    (active : (p.judged request).2.2 = false) :
    Recalls first (trail ++ [p]) q.live.controller := by
  have controller := after.controller_active active
  have state := after.state_active active
  intro running
  rw [Controller.isPaused_congr state] at running
  obtain ⟨entry, stopPoint⟩ := recalls running
  have calm := guarded.calm running
  rw [controller]
  constructor
  · exact p.refreshed_entryPending.trans entry
  · rw [remembered_append, ← stopPoint]
    change p.refreshed.stopPoint = _
    rw [refreshed, Controller.refreshStopPoint_calm calm]
    simp [remembered]

theorem recalls_lasting (first : Controller) :
    Lasting (fun trail live => ∀ left ∈ live, Recalls first trail left.controller)
      (fun trail _ p => Recalls first trail p.live.controller) where
  idles := by
    rintro trail live next holds idled left ⟨⟩
    rcases idled.controller with same | same
    · exact same ▸ holds live rfl
    · exact (holds live rfl).congr (same ▸ rfl) (same ▸ rfl) (same ▸ rfl)
  gone := by
    rintro trail live - left ⟨⟩
  begins := by
    intro trail live next request holds program lines controller awake tick
    obtain ⟨stepOutDepth, same⟩ := beginTick_eq live.controller
    rw [same] at controller
    exact (holds live rfl).congr (controller ▸ rfl) (controller ▸ rfl) (controller ▸ rfl)
  arrived := by
    intro trail breakpoints request budget p q holds guarded sound proceeds arrives after
    obtain ⟨line, -, -, -, reaches⟩ := Progress.arrival_arrives arrives
    refine .of_paused ?_
    rw [after.controller, reaches]
    rfl
  stepped := by
    intro trail breakpoints request budget p q holds guarded sound proceeds passesBy fine after active
    exact holds.judged guarded after active
  rested := by
    rintro trail breakpoints request budget p q next holds guarded sound proceeds passesBy fine after
      rests leaves left ⟨⟩
    refine .of_paused ?_
    have controller := after.controller_eq
    rw [rests] at controller
    rw [leaves.controller, controller]
    rfl
  failed := by
    rintro trail breakpoints request budget p - - - - - left ⟨⟩
  stays := by
    rintro trail breakpoints request budget p next ending holds guarded sound passed leaves left ⟨⟩
    rw [leaves.controller]
    exact holds.congr rfl rfl rfl

/-- The last stop of a run was on a line that the run has not left since for another line of the
user's without going deeper. -/
def Lingers (first : Controller) (trail : List (Progress Machine)) (line : Nat) : Prop :=
  first.entryPending = false ∧ ∃ point, first.stopPoint = some point ∧ point.line = line ∧
    ∀ p ∈ trail, p.cursor.leaves point = false

theorem remembered_line {stop : Option StopPoint} {trail : List (Progress Machine)} {line : Nat} :
    (remembered stop trail).map (·.line) = some line ↔
      ∃ point, stop = some point ∧ point.line = line ∧ ∀ p ∈ trail, p.cursor.leaves point = false := by
  simp only [remembered, Option.map_eq_some_iff, Option.filter_eq_some_iff, Bool.not_eq_true',
    List.any_eq_false, Bool.not_eq_true]
  constructor
  · rintro ⟨point, ⟨same, stays⟩, here⟩
    exact ⟨point, same, here, stays⟩
  · rintro ⟨point, same, here, stays⟩
    exact ⟨point, ⟨same, stays⟩, here⟩

/-- In a run that is not paused since a state that any operations lead to, a breakpoint holds before
each statement that the program comes to on its line, in whatever callback, unless the run lingers
there since its last stop. Then the statement is evaluated. -/
theorem breakpoint_holds_unless_lingering {φ : Type} {s₀ s : Scheduler Machine φ}
    {first : Live Machine} {trail : List (Progress Machine)} {request : Request}
    {p : Progress Machine} {line : Nat} (reachable : Reachable s₀) (here : s₀.live = some first)
    (comes : ComesTo s₀ trail s request p) (running : p.live.controller.isPaused = false)
    (proceeds : p.Proceeds request s.settings.tickBudget)
    (fine : (p.stepped request).1.error = none)
    (evaluates : (p.stepped request).1.state.evaluates = true)
    (stands : Cursor.lineOf (p.stepped request).1.state p.live.lines = some line)
    (breakpoint : s.breakpoints.contains line = true) :
    (Lingers first.controller trail line →
        p.Missed s.breakpoints request s.settings.tickBudget) ∧
      (¬ Lingers first.controller trail line →
        p.Held s.breakpoints request s.settings.tickBudget line) := by
  have kept := comes.kept reachable
  have starts : ∀ left ∈ s₀.live, Recalls first.controller [] left.controller := by
    rintro left there
    cases here.symm.trans there
    exact fun _ => ⟨rfl, (remembered_nil _).symm⟩
  obtain ⟨entry, stopPoint⟩ :=
    comes.holds (recalls_lasting first.controller) reachable starts running
  have calm := kept.guarded.calm running
  have noGoal : p.goal (p.stepped request).1.state = false := by
    rw [goal, Controller.stopping, running]
    rfl
  have overlooked : p.PassesOver request line ↔ Lingers first.controller trail line := by
    unfold PassesOver Lingers
    rw [noGoal, calm, entry, stopPoint, remembered_line]
    simp
  rw [← overlooked]
  exact missed_or_held kept.guarded kept.patient kept.sound (Controller.awake running) proceeds fine
    evaluates stands breakpoint

def answerer : List Char := "func f\n  return 1\nend\n".toList

def answering (loaded : Loaded) : Scheduler Machine Unit :=
  Scheduler.performAll (.new .default none)
    [.command (.setBreakpoints [2]), .start loaded.machine loaded.text.lineMap 0 0,
      .dispatch ⟨"f", []⟩ 0, .command .resume]

theorem answering_reachable {loaded : Loaded} (read : Script.load answerer = .ok loaded) :
    Reachable (answering loaded) := by
  apply Reachable.loading read (.new _ _)
  simp +contextual

/-- The second call of the function returns although its breakpoint is set. -/
theorem answering_passes_breakpoint : ∃ loaded, Script.load answerer = .ok loaded ∧
    let s := (answering loaded).perform (.tick ⟨1, 0⟩ 0 0)
    s.breakpoints.contains 2 = true ∧
      s.transcript.head? = some (.stopped .breakpoint ⟨true, true, .run, some 2, some 7⟩) ∧
      (s.dispatch ⟨"f", []⟩ 0).2.isSome = true ∧
      (s.dispatch ⟨"f", []⟩ 0).1.transcript = s.transcript := by
  have computed : (Script.load answerer).toOption.any (fun loaded =>
      let s := (answering loaded).perform (.tick ⟨1, 0⟩ 0 0)
      s.breakpoints.contains 2 &&
        s.transcript.head? == some (.stopped .breakpoint ⟨true, true, .run, some 2, some 7⟩) &&
        (s.dispatch ⟨"f", []⟩ 0).2.isSome &&
        (s.dispatch ⟨"f", []⟩ 0).1.transcript == s.transcript) = true := by
    decide +kernel
  obtain ⟨loaded, read, holds⟩ := load_any computed
  simp only [Bool.and_eq_true, beq_iff_eq, and_assoc] at holds
  exact ⟨loaded, read, holds⟩

def lingersInside (loaded : Loaded) : Bool :=
  let s₀ := answering loaded
  let s := s₀.perform (.tick ⟨1, 0⟩ 0 0)
  let request := s.dispatchRequest 0
  s₀.live.any fun first =>
    s.live.any fun live =>
      let trail := (live.called ⟨"f", []⟩).trail s.breakpoints request s.settings.tickBudget
      !live.controller.isPaused && !first.controller.entryPending && s.breakpoints.contains 2 &&
        (remembered first.controller.stopPoint (s₀.trail (.tick ⟨1, 0⟩ 0 0) ++ trail)).map (·.line) ==
          some 2 &&
        (momentBefore request 2 trail).any fun p => !p.live.controller.isPaused

theorem answering_misses_breakpoint : ∃ (loaded : Loaded) (first : Live Machine)
    (trail : List (Progress Machine)) (p : Progress Machine), Script.load answerer = .ok loaded ∧
      let s := (answering loaded).perform (.tick ⟨1, 0⟩ 0 0)
      let request := s.dispatchRequest 0
      (answering loaded).live = some first ∧ ComesTo (answering loaded) trail s request p ∧
        Lingers first.controller trail 2 ∧
        p.Missed s.breakpoints request s.settings.tickBudget := by
  have computed : (Script.load answerer).toOption.any lingersInside = true := by decide +kernel
  obtain ⟨loaded, read, lingers⟩ := load_any computed
  have reachable := answering_reachable read
  refine ⟨loaded, ?_⟩
  unfold lingersInside at lingers
  generalize answering loaded = s₀ at lingers reachable ⊢
  simp only [Bool.and_eq_true, beq_iff_eq, Option.any_eq_true, Bool.not_eq_true'] at lingers
  obtain ⟨first, here, live, there, ⟨⟨⟨running, entry⟩, breakpoint⟩, stays⟩, p, found, calm⟩ :=
    lingers
  obtain ⟨member, fine, evaluates, stands⟩ := momentBefore_spec found
  obtain ⟨before, after, split⟩ := List.append_of_mem member
  obtain ⟨walks, moves⟩ := walks_of_trail split
  have underway : Underway s₀ (s₀.trail (.tick ⟨1, 0⟩ 0 0)) (s₀.perform (.tick ⟨1, 0⟩ 0 0)) :=
    .first rfl
  have comes := ComesTo.walks underway rfl (.dispatch there running) walks
  have lingers : Lingers first.controller (s₀.trail (.tick ⟨1, 0⟩ 0 0) ++ before) 2 := by
    obtain ⟨point, stop, line, kept⟩ := remembered_line.mp stays
    refine ⟨entry, point, stop, line, fun r member => kept r ?_⟩
    rw [split, ← List.append_assoc]
    exact List.mem_append_left _ member
  refine ⟨first, _, p, read, here, comes, lingers, ?_⟩
  exact (breakpoint_holds_unless_lingering reachable here comes calm (takesStep_iff.mp moves).1 fine
    evaluates stands breakpoint).1 lingers

end Run

end Metronome
