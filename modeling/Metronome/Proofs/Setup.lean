import Metronome.Proofs.Operation
import Mathlib.Data.List.Sort

namespace Metronome

open Metronome.Debug (Breakpoints Command)

namespace Debug

def Breakpoints.Ascending (breakpoints : Breakpoints) : Prop :=
  breakpoints.lines.Pairwise (· < ·)

theorem insertLine_ascending (line : Nat) {lines : List Nat} (ascending : lines.Pairwise (· < ·)) :
    (insertLine line lines).Pairwise (· < ·) := by
  induction lines with
  | nil => exact List.pairwise_singleton _ _
  | cons first rest ih =>
    obtain ⟨below, later⟩ := List.pairwise_cons.mp ascending
    unfold insertLine
    split
    · rename_i less
      refine List.pairwise_cons.mpr ⟨fun other member => ?_, ascending⟩
      rcases List.mem_cons.mp member with rfl | member
      · exact less
      · exact Nat.lt_trans less (below other member)
    · split
      · exact ascending
      · refine List.pairwise_cons.mpr ⟨fun other member => ?_, ih later⟩
        rcases mem_insertLine.mp member with rfl | member
        · omega
        · exact below other member

namespace Breakpoints.Ascending

variable {breakpoints : Breakpoints}

theorem empty : Breakpoints.empty.Ascending := List.Pairwise.nil

theorem toggle (ascending : breakpoints.Ascending) (line : Nat) :
    (breakpoints.toggle line).Ascending := by
  unfold Breakpoints.toggle
  split
  · exact List.Pairwise.filter _ ascending
  · exact insertLine_ascending line ascending

theorem ofList (lines : List Nat) : (Breakpoints.ofList lines).Ascending := by
  have added : ∀ {first : Breakpoints}, first.Ascending → (lines.foldl add first).Ascending := by
    induction lines with
    | nil => exact id
    | cons line lines ih => exact fun ascending => ih (insertLine_ascending line ascending)
  exact added empty

theorem ext {other : Breakpoints} (ascending : breakpoints.Ascending) (others : other.Ascending)
    (same : ∀ line, breakpoints.contains line = other.contains line) : breakpoints = other := by
  have lines : breakpoints.lines = other.lines := by
    apply List.Pairwise.eq_of_mem_iff ascending others
    intro line
    rw [← List.contains_iff_mem, ← List.contains_iff_mem]
    exact Bool.eq_iff_iff.mp (same line)
  exact congrArg Breakpoints.mk lines

end Breakpoints.Ascending

end Debug

namespace Run

variable {σ φ : Type}

theorem Clock.ext {clock other : Clock} (speed : clock.speed = other.speed)
    (slowest : clock.slowest = other.slowest) : clock = other := by
  cases clock
  cases other
  exact congrArg₂ Clock.mk speed slowest

def Operation.paced : Operation σ φ → Clock → Clock
  | .command (.setSpeed speed), clock => clock.setSpeed speed
  | _, clock => clock

def Operation.paces : Operation σ φ → Bool
  | .command (.setSpeed _) => true
  | _ => false

def Operation.pointed : Operation σ φ → Breakpoints → Breakpoints
  | .command (.toggleBreakpoint line), breakpoints => breakpoints.toggle line
  | .command (.setBreakpoints lines), _ => .ofList lines
  | .reset, _ => .empty
  | _, breakpoints => breakpoints

theorem Operation.paced_other {operation : Operation σ φ} (other : operation.paces = false)
    (clock : Clock) : operation.paced clock = clock := by
  unfold Operation.paces at other
  unfold Operation.paced
  split at other
  · cases other
  · rename_i others
    split
    · exact absurd rfl (others _)
    · rfl

theorem Operation.paced_slowest (operation : Operation σ φ) (clock : Clock) :
    (operation.paced clock).slowest = clock.slowest := by
  unfold Operation.paced
  split
  · unfold Clock.setSpeed
    split <;> rfl
  · rfl

theorem Operation.pointed_ascending (operation : Operation σ φ) {breakpoints : Breakpoints}
    (ascending : breakpoints.Ascending) :
    (operation.pointed breakpoints).Ascending := by
  unfold Operation.pointed
  split
  · exact ascending.toggle _
  · exact .ofList _
  · exact .empty
  · exact ascending

namespace Scheduler

structure SameSetup (s t : Scheduler σ φ) : Prop where
  settings : t.settings = s.settings
  clock : t.clock = s.clock
  breakpoints : t.breakpoints = s.breakpoints

namespace SameSetup

variable {s t u : Scheduler σ φ}

theorem refl (s : Scheduler σ φ) : SameSetup s s := ⟨rfl, rfl, rfl⟩

theorem trans (first : SameSetup s t) (second : SameSetup t u) : SameSetup s u where
  settings := second.settings.trans first.settings
  clock := second.clock.trans first.clock
  breakpoints := second.breakpoints.trans first.breakpoints

theorem moved (same : SameSetup s t) {live : Option (Live σ)} {runNumber : Nat}
    {pending : Option PendingTick} {outcome : Option Outcome} {finish : Option (FinishRule φ)}
    {reported : Debug.PauseState} {notices : Array Notice} :
    SameSetup s { t with live, runNumber, pending, outcome, finish, reported, notices } :=
  ⟨same.settings, same.clock, same.breakpoints⟩

theorem reportPauseState (same : SameSetup s t) : SameSetup s t.reportPauseState := by
  obtain ⟨settings, clock, breakpoints, -⟩ := reportPauseState_keeps t
  exact same.trans ⟨settings, clock, breakpoints⟩

theorem reportStop (same : SameSetup s t) : SameSetup s t.reportStop := by
  obtain ⟨notices, reported, stopped⟩ := t.reportStop_eq
  rw [stopped]
  exact same.moved

theorem endRun (same : SameSetup s t) (outcome : Outcome) : SameSetup s (t.endRun outcome) := by
  obtain ⟨settings, clock, breakpoints, -⟩ := endRun_keeps t outcome
  exact same.trans ⟨settings, clock, breakpoints⟩

theorem failRun (same : SameSetup s t) (error : StepError) (line : Option Nat) :
    SameSetup s (t.failRun error line) := by
  unfold Scheduler.failRun
  split
  · exact same
  · dsimp only
    exact endRun same.moved _

theorem beginStep (same : SameSetup s t) (mode : Debug.StepMode) :
    SameSetup s (t.beginStep mode) := by
  unfold Scheduler.beginStep
  split
  · exact same
  · exact reportPauseState same.moved

variable [Interpreter σ]

theorem checkFinished (same : SameSetup s t) : SameSetup s t.checkFinished := by
  unfold Scheduler.checkFinished
  split
  · exact same
  · split
    · exact same.endRun _
    · split
      · exact same.endRun _
      · unfold consult
        split
        · exact same
        · dsimp only
          split
          · exact endRun same.moved _
          · exact same.moved

theorem closeTick (same : SameSetup s t) (live : Live σ) (now : Instant) :
    SameSetup s (t.closeTick live now) :=
  checkFinished (reportStop same.moved)

theorem settle (same : SameSetup s t) (atMaxSpeed : Bool) (ended : Instant)
    (result : Progress σ × Ending) : SameSetup s (t.settle atMaxSpeed ended result) := by
  obtain ⟨p, ending⟩ := result
  cases ending with
  | failed error line => exact failRun (t := t.afterBurst p) same.moved error line
  | _ => exact closeTick (t := { t with notices := _ }) same.moved _ ended

omit [Interpreter σ] in
theorem answer (same : SameSetup s t) (result : Progress σ × Ending) :
    SameSetup s (t.answer result).1 := by
  obtain ⟨p, ending⟩ := result
  cases ending with
  | failed error line => exact failRun (t := t.afterBurst p) same.moved error line
  | _ => exact reportStop (t := t.afterBurst { p with live := _ }) same.moved

theorem onTick (same : SameSetup s t) (tick : PendingTick) (began ended : Instant) :
    SameSetup s (t.onTick tick began ended) := by
  unfold Scheduler.onTick
  split
  · exact same
  · split
    · exact same
    · dsimp only
      split
      · exact settle same.moved _ _ _
      · exact closeTick same.moved _ _

theorem start (same : SameSetup s t) (program : σ) (lines : LineMap) (began ended : Instant) :
    SameSetup s (t.start program lines began ended) := by
  obtain ⟨settings, clock, breakpoints, -⟩ := opened_keeps t program lines
  have opened : SameSetup s (t.opened program lines) := same.trans ⟨settings, clock, breakpoints⟩
  rw [start_opened]
  split
  · exact opened.moved
  · exact opened.onTick _ _ _

theorem dispatch (same : SameSetup s t) (callback : Callback) (now : Instant) :
    SameSetup s (t.dispatch callback now).1 := by
  unfold Scheduler.dispatch
  split
  · exact same
  · dsimp only
    split
    · exact same.moved
    · exact same.answer _

end SameSetup

structure SetUp (operation : Operation σ φ) (s t : Scheduler σ φ) : Prop where
  settings : t.settings = s.settings
  clock : t.clock = operation.paced s.clock
  breakpoints : t.breakpoints = operation.pointed s.breakpoints

theorem SameSetup.setUp {s t : Scheduler σ φ} (same : SameSetup s t) {operation : Operation σ φ}
    (clock : operation.paced s.clock = s.clock)
    (breakpoints : operation.pointed s.breakpoints = s.breakpoints) : SetUp operation s t :=
  ⟨same.settings, same.clock.trans clock.symm, same.breakpoints.trans breakpoints.symm⟩

theorem apply_setup (s : Scheduler σ φ) (command : Command) :
    SetUp (.command command : Operation σ φ) s (s.apply command) := by
  have kept := SameSetup.refl s
  cases command with
  | pause =>
    rw [apply, pause]
    split
    · exact kept.setUp rfl rfl
    · dsimp only
      split
      · exact (SameSetup.reportStop kept.moved).setUp rfl rfl
      · exact kept.setUp rfl rfl
  | resume =>
    rw [apply, resume]
    split
    · exact kept.setUp rfl rfl
    · split
      · exact (SameSetup.reportPauseState kept.moved).setUp rfl rfl
      · exact kept.setUp rfl rfl
  | stepIn => exact (kept.beginStep _).setUp rfl rfl
  | stepOver => exact (kept.beginStep _).setUp rfl rfl
  | stepOut =>
    rw [apply, stepOut]
    split
    · exact (kept.beginStep _).setUp rfl rfl
    · exact kept.setUp rfl rfl
  | stop => exact (kept.endRun _).setUp rfl rfl
  | _ => exact ⟨rfl, rfl, rfl⟩

variable [Interpreter σ]

theorem perform_setup (s : Scheduler σ φ) (operation : Operation σ φ) :
    SetUp operation s (s.perform operation) := by
  have kept := SameSetup.refl s
  cases operation with
  | start program lines began ended => exact (kept.start program lines began ended).setUp rfl rfl
  | tick tick began ended => exact (kept.onTick tick began ended).setUp rfl rfl
  | dispatch callback now => exact (kept.dispatch callback now).setUp rfl rfl
  | command command => exact s.apply_setup command
  | reset =>
    have stopped := kept.endRun .stopped
    exact ⟨stopped.settings, stopped.clock, rfl⟩
  | _ => exact kept.moved.setUp rfl rfl

theorem perform_settings (s : Scheduler σ φ) (operation : Operation σ φ) :
    (s.perform operation).settings = s.settings :=
  (s.perform_setup operation).settings

theorem performAll_settings (s : Scheduler σ φ) (operations : List (Operation σ φ)) :
    (s.performAll operations).settings = s.settings := by
  induction operations generalizing s with
  | nil => rfl
  | cons operation operations ih => exact (ih _).trans (s.perform_settings operation)

theorem performAll_clock (s : Scheduler σ φ) (operations : List (Operation σ φ)) :
    (s.performAll operations).clock =
      operations.foldl (fun clock operation => operation.paced clock) s.clock := by
  induction operations generalizing s with
  | nil => rfl
  | cons operation operations ih =>
    rw [List.foldl_cons, ← (s.perform_setup operation).clock]
    exact ih _

theorem performAll_breakpoints (s : Scheduler σ φ) (operations : List (Operation σ φ)) :
    (s.performAll operations).breakpoints =
      operations.foldl (fun breakpoints operation => operation.pointed breakpoints)
        s.breakpoints := by
  induction operations generalizing s with
  | nil => rfl
  | cons operation operations ih =>
    rw [List.foldl_cons, ← (s.perform_setup operation).breakpoints]
    exact ih _

theorem performAll_ascending {s : Scheduler σ φ} (ascending : s.breakpoints.Ascending)
    (operations : List (Operation σ φ)) : (s.performAll operations).breakpoints.Ascending := by
  induction operations generalizing s with
  | nil => exact ascending
  | cons operation operations ih =>
    apply ih
    rw [(s.perform_setup operation).breakpoints]
    exact operation.pointed_ascending ascending

theorem performAll_slowest (s : Scheduler σ φ) (operations : List (Operation σ φ)) :
    (s.performAll operations).clock.slowest = s.clock.slowest := by
  induction operations generalizing s with
  | nil => rfl
  | cons operation operations ih =>
    have kept := ih (s.perform operation)
    rw [(s.perform_setup operation).clock, operation.paced_slowest] at kept
    exact kept

theorem performAll_paces (s : Scheduler σ φ) (operations : List (Operation σ φ)) :
    s.performAll (operations.filter Operation.paces) =
      { s with
        clock := operations.foldl (fun clock operation => operation.paced clock) s.clock } := by
  induction operations generalizing s with
  | nil => rfl
  | cons operation operations ih =>
    rw [List.filter_cons, List.foldl_cons]
    split
    · rename_i paces
      have paced : s.perform operation = { s with clock := operation.paced s.clock } := by
        unfold Operation.paces at paces
        split at paces
        · rfl
        · cases paces
      change (s.perform operation).performAll _ = _
      rw [ih, paced]
    · rename_i other
      rw [ih, operation.paced_other (Bool.not_eq_true _ ▸ other)]

end Scheduler

end Run

end Metronome
