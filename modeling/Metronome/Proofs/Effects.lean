import Metronome.Proofs.Budget
import Metronome.Proofs.Soundness

namespace Metronome

open Metronome.Debug (Breakpoints Controller)

namespace Script

inductive StatementEffect where
  | prints (line : String)
  | assigns (name : String) (value : Value)
  | registers (callback : Callback) (delay : Duration)

def Action.effect? (value : Value) : Action → Option StatementEffect
  | .print _ => some (.prints value.display)
  | .set name _ => some (.assigns name value)
  | _ => none

namespace Machine

def simpleEffect? (m : Machine) : Action → Option StatementEffect
  | .print (.expr value) => (m.eval value).toOption.map fun value => .prints value.display
  | .set name (.expr value) => (m.eval value).toOption.map (.assigns name)
  | .timeout callback delay arguments =>
    (m.timerOf callback delay arguments).toOption.map fun timer => .registers timer.1 timer.2
  | _ => none

/-- The effect of a machine's next step: of a statement whose call has returned, or of one that calls
no function. -/
def effect? (m : Machine) : Option StatementEffect :=
  match m.stack with
  | .call _ _ (.returned value) :: .action _ action .waiting :: _ => action.effect? value
  | .action _ action phase :: below =>
    if phase = .done then none else simpleEffect? { m with stack := below } action
  | _ => none

def SameVariables (m other : Machine) : Prop :=
  other.globals = m.globals ∧ other.locals = m.locals

/-- The same variables, but that a call may have begun or ended. -/
def KeepsVariables (m other : Machine) : Prop :=
  other.globals = m.globals ∧
    (other.locals = m.locals ∨ other.locals = m.locals.tail ∨
      ∃ scope, other.locals = scope :: m.locals)

inductive Shows (m : Machine) : Option StatementEffect → Native Result → Prop where
  | prints {line : String} {r : Result} (kept : m.SameVariables r.state) :
      Shows m (some (.prints line)) (.output line (.done r))
  | assigns {name : String} {value : Value} {r : Result}
      (assigned : (m.assign name value).SameVariables r.state) :
      Shows m (some (.assigns name value)) (.done r)
  | registers {callback : Callback} {delay : Duration} {r : Result}
      (kept : m.SameVariables r.state) :
      Shows m (some (.registers callback delay)) (.setTimeout callback delay (.done r))
  | steps {r : Result} (kept : m.KeepsVariables r.state) : Shows m none (.done r)
  | polls {resume : Option Callback → Native Result}
      (kept : ∀ callback, ∃ r, resume callback = .done r ∧ m.KeepsVariables r.state) :
      Shows m none (.nextCallback resume)
  | answers {value : Value} {r : Result} (kept : m.KeepsVariables r.state) :
      Shows m none (.giveBack value (.done r))

theorem SameVariables.keeps {m other : Machine} (same : m.SameVariables other) :
    m.KeepsVariables other :=
  ⟨same.1, .inl same.2⟩

theorem push_variables (m : Machine) (frame : Frame) : m.SameVariables (m.push frame).state := by
  unfold push
  split
  · exact ⟨rfl, rfl⟩
  · exact ⟨rfl, rfl⟩

theorem complete_shows (m : Machine) (place : Place) (action : Action) (value : Value) :
    m.Shows (action.effect? value) (m.complete place action value) := by
  cases action with
  | print => exact .prints (m.push_variables _)
  | set name => exact .assigns ((m.assign name value).push_variables _)
  | ret =>
    refine .steps ?_
    unfold returnValue
    split
    · exact ⟨rfl, .inr (.inl rfl)⟩
    · exact ⟨rfl, .inl rfl⟩
  | call | timeout => exact .steps (m.push_variables _).keeps

theorem runSimple_shows (m : Machine) (place : Place) {action : Action}
    (noCall : action.call? = none) :
    m.Shows (m.simpleEffect? action) (m.runSimple place action) := by
  have failed : ∀ fault, m.Shows none (.done (m.fail fault (some place.offset))) :=
    fun fault => .steps ⟨rfl, .inl rfl⟩
  unfold runSimple simpleEffect?
  cases action with
  | print value =>
    cases value with
    | call => cases noCall
    | expr value =>
      dsimp only
      cases m.eval value with
      | error fault => exact failed fault
      | ok result => exact m.complete_shows place (.print (.expr value)) result
  | set name value =>
    cases value with
    | call => cases noCall
    | expr value =>
      dsimp only
      cases m.eval value with
      | error fault => exact failed fault
      | ok result => exact m.complete_shows place (.set name (.expr value)) result
  | call => cases noCall
  | ret value =>
    cases value with
    | none => exact m.complete_shows place (.ret none) .null
    | some value =>
      cases value with
      | call => cases noCall
      | expr value =>
        dsimp only
        cases m.eval value with
        | error fault => exact failed fault
        | ok result => exact m.complete_shows place (.ret (some (.expr value))) result
  | timeout callback delay arguments =>
    dsimp only
    cases m.timerOf callback delay arguments with
    | error fault => exact failed fault
    | ok timer => exact .registers (m.push_variables _)

theorem test_keeps (m : Machine) (place : Place) (condition : Expr) (body : List Node)
    (frame : Bool → Frame) : m.KeepsVariables (m.test place condition body frame).state := by
  unfold test
  split
  · exact ⟨rfl, .inl rfl⟩
  · dsimp only
    split
    · exact (push_variables _ _).keeps
    · exact ⟨rfl, .inl rfl⟩

theorem startCall_keeps (m : Machine) (name : String) (offset : Option Nat)
    (arguments : List Value) : m.KeepsVariables (m.startCall name offset arguments).state := by
  unfold startCall
  split
  · exact ⟨rfl, .inl rfl⟩
  · split
    · exact ⟨rfl, .inl rfl⟩
    · obtain ⟨globals, locals⟩ := m.push_variables (.call name offset .running)
      dsimp only
      split
      · exact ⟨globals, .inl locals⟩
      · obtain ⟨sameGlobals, sameLocals⟩ := push_variables
          { (m.push (.call name offset .running)).state with
            locals := Scope.ofArguments _ arguments ::
              (m.push (.call name offset .running)).state.locals } (.block _ _)
        exact ⟨sameGlobals.trans globals, .inr (.inr ⟨_, sameLocals.trans (congrArg _ locals)⟩)⟩

theorem pushCall_variables (m : Machine) (call : Call) (offset : Nat) :
    m.SameVariables (m.pushCall call offset).state := by
  unfold pushCall
  split
  · exact ⟨rfl, rfl⟩
  · exact m.push_variables _

theorem runAction_shows (m : Machine) (place : Place) (action : Action) :
    m.Shows (m.simpleEffect? action) (m.runAction place action) := by
  unfold runAction
  cases calls : action.call? with
  | none => exact m.runSimple_shows place calls
  | some call =>
    have none : m.simpleEffect? action = none := by
      unfold simpleEffect?
      split
      · cases calls
      · cases calls
      · cases calls
      · rfl
    obtain ⟨globals, locals⟩ := m.push_variables (.action place action .waiting)
    rw [none]
    dsimp only
    split
    · exact .steps ⟨globals, .inl locals⟩
    · obtain ⟨sameGlobals, sameLocals⟩ :=
        pushCall_variables (m.push (.action place action .waiting)).state call place.offset
      exact .steps ⟨sameGlobals.trans globals, .inl (sameLocals.trans locals)⟩

theorem assign_restack (m : Machine) (stack : List Frame) (name : String) (value : Value) :
    (m.assign name value).SameVariables (assign { m with stack } name value) := by
  obtain ⟨functions, globals, locals, below⟩ := m
  unfold assign
  cases locals with
  | nil => exact ⟨rfl, rfl⟩
  | cons scope outer =>
    dsimp only
    split
    · exact ⟨rfl, rfl⟩
    · exact ⟨rfl, rfl⟩

theorem Shows.restack {m : Machine} {stack : List Frame} {effect : Option StatementEffect}
    {computation : Native Result} (shows : Shows { m with stack } effect computation) :
    m.Shows effect computation := by
  cases shows with
  | prints kept => exact .prints kept
  | assigns assigned =>
    obtain ⟨globals, locals⟩ := m.assign_restack stack _ _
    exact .assigns ⟨assigned.1.trans globals, assigned.2.trans locals⟩
  | registers kept => exact .registers kept
  | steps kept => exact .steps kept
  | polls kept => exact .polls kept
  | answers kept => exact .answers kept

theorem advance_shows (m : Machine) {frame : Frame}
    (other : ∀ place action phase, frame ≠ .action place action phase) :
    m.Shows none (m.advance frame) := by
  cases frame with
  | block rest origin =>
    cases rest with
    | nil => exact .steps ⟨rfl, .inl rfl⟩
    | cons node rest => exact .steps (push_variables _ _).keeps
  | action place action phase => exact absurd rfl (other place action phase)
  | poll place phase =>
    refine .polls fun callback => ?_
    cases callback with
    | none => exact ⟨_, rfl, rfl, .inl rfl⟩
    | some callback => exact ⟨_, rfl, (push_variables _ _).keeps⟩
  | loop place condition body done => exact .steps (m.test_keeps _ _ _ _)
  | branch place condition body phase =>
    cases phase with
    | waiting => exact .steps ⟨rfl, .inl rfl⟩
    | ready | done => exact .steps (m.test_keeps _ _ _ _)
  | call name offset state =>
    cases state with
    | ready arguments => exact .steps (m.startCall_keeps _ _ _)
    | running | returned => exact .steps ⟨rfl, .inr (.inl rfl)⟩

theorem finish_shows (m : Machine) {frame : Frame}
    (other : ∀ name offset value place action below, frame = .call name offset (.returned value) →
      m.stack ≠ .action place action .waiting :: below) :
    m.Shows none (m.finish frame) := by
  unfold finish
  split
  · rename_i name offset value
    unfold finishCall
    split
    · rename_i stack
      exact absurd stack (other _ _ _ _ _ _ rfl)
    · exact .answers (push_variables _ _).keeps
    · exact .steps ⟨rfl, .inl rfl⟩
  · refine .steps ?_
    unfold succeed finishBlock
    split
    · exact ⟨rfl, .inr (.inl rfl)⟩
    · exact ⟨rfl, .inl rfl⟩
  · exact .steps ⟨rfl, .inl rfl⟩

/-- The effect of a step is what the step does: it prints, registers a timer or assigns just what its
effect says, and a step without one does none of this. -/
theorem step_shows (m : Machine) : m.Shows m.effect? m.step := by
  unfold effect?
  split
  · rename_i name offset value place action below stack
    unfold step
    rw [stack]
    exact (complete_shows { m with stack := below } place action value).restack
  · rename_i place action phase below stack
    unfold step
    rw [stack]
    split
    · rename_i finished
      subst finished
      change m.Shows none (finish { m with stack := below } (.action place action .done))
      refine (finish_shows { m with stack := below } fun _ _ _ _ _ _ same => ?_).restack
      cases same
    · rename_i unfinished
      dsimp only
      rw [if_neg (by simpa [Frame.isDone] using unfinished)]
      exact (runAction_shows { m with stack := below } place action).restack
  · rename_i noReturn noAction
    unfold step
    split
    · exact .steps ⟨rfl, .inl rfl⟩
    · rename_i frame below stack
      dsimp only
      split
      · refine (finish_shows { m with stack := below } ?_).restack
        rintro name offset value place action rest rfl same
        exact noReturn _ _ _ _ _ _ (stack.trans (congrArg _ same))
      · refine (advance_shows { m with stack := below } ?_).restack
        rintro place action phase rfl
        exact noAction _ _ _ _ stack

theorem effect_stack {m : Machine} (acts : m.effect?.isSome = true) :
    ∃ place action below, action.isReturn = false ∧
      ((∃ name offset value,
          m.stack = .call name offset (.returned value) :: .action place action .waiting :: below) ∨
        ∃ phase, phase ≠ .done ∧ action.call? = none ∧
          m.stack = .action place action phase :: below) := by
  unfold effect? at acts
  split at acts
  · rename_i name offset value place action below stack
    refine ⟨place, action, below, ?_, .inl ⟨name, offset, value, stack⟩⟩
    cases action with
    | ret => cases acts
    | _ => rfl
  · rename_i place action phase below stack
    split at acts
    · cases acts
    · rename_i unfinished
      unfold simpleEffect? at acts
      split at acts
      · exact ⟨place, _, below, rfl, .inr ⟨phase, unfinished, rfl, stack⟩⟩
      · exact ⟨place, _, below, rfl, .inr ⟨phase, unfinished, rfl, stack⟩⟩
      · exact ⟨place, _, below, rfl, .inr ⟨phase, unfinished, rfl, stack⟩⟩
      · cases acts
  · cases acts

theorem Sound.effect_holds {lines : LineMap} {m : Machine} (sound : m.Sound lines)
    (acts : m.effect?.isSome = true) :
    (Debug.Cursor.lineOf m lines).isSome = true := by
  obtain ⟨place, action, below, -, ⟨name, offset, value, stack⟩ | ⟨phase, -, -, stack⟩⟩ :=
    effect_stack acts
  · have tame := sound.stack
    have stacked := sound.stacked
    rw [stack] at tame stacked
    have user : lines.Holds place.offset := tame _ (.tail _ (.head _))
    cases (List.isChain_cons_cons.mp stacked).1
    rw [lineOf_cons stack]
    exact user
  · have tame := sound.stack
    rw [stack] at tame
    have user : lines.Holds place.offset := tame _ (.head _)
    rw [lineOf_cons stack]
    exact user

end Machine

theorem Shift.finishes {m : Machine} {functions : List Function} {after : List Frame}
    {answers : List Bool} (shift : Shift functions m.stack answers after)
    (acts : m.effect?.isSome = true) :
    ∃ place action below, after = .action place action .done :: below := by
  obtain ⟨place, action, below, noReturn, ⟨name, offset, value, stack⟩ |
    ⟨phase, unfinished, noCall, stack⟩⟩ := m.effect_stack acts
  · rw [stack] at shift
    cases shift with
    | resume => exact ⟨_, _, _, rfl⟩
    | handOn returns =>
      rw [noReturn] at returns
      cases returns
    | leave node => cases node
    | drop noAction => exact absurd rfl (noAction _ _ _)
  · rw [stack] at shift
    cases shift with
    | act => exact ⟨_, _, _, rfl⟩
    | leave _ finished => exact absurd (by simpa [Frame.isDone] using finished) unfinished
    | giveUp _ _ returns =>
      rw [noReturn] at returns
      cases returns
    | call _ calls =>
      rw [noCall] at calls
      cases calls

end Script

namespace Run

open Metronome.Script (StatementEffect Loaded Machine load_any)

namespace Progress

def effects (done : List (Progress Machine × Deed)) : List StatementEffect :=
  done.filterMap fun did => if did.2 = .arrives then none else did.1.live.program.effect?

variable {breakpoints : Breakpoints} {request : Request} {budget fuel : Nat} {p q : Progress Machine}

theorem Judged.endsLine (after : Judged request p q) (fine : (p.stepped request).1.error = none)
    (sound : p.live.program.Sound p.live.lines) (acts : p.live.program.effect?.isSome = true) :
    q.burst.doneUserLine = true := by
  obtain ⟨answers, shift, -⟩ := after.toTook.shift fine
  obtain ⟨place, action, below, stack⟩ := shift.finishes acts
  have user : (p.seen q.live.program).inUserCode = true := sound.effect_holds acts
  have done : (p.seen q.live.program).isDone = true := by
    change (q.live.program.stack.head?.map _).any _ = true
    rw [stack]
    rfl
  rw [after.burst_eq]
  change (p.flags q.live.program).doneUserLine = true
  rw [flags, Debug.Burst.noted, user, done]
  simp

theorem effects_append (early late : List (Progress Machine × Deed)) :
    effects (early ++ late) = effects early ++ effects late :=
  List.filterMap_append

theorem effects_single (p : Progress Machine) (deed : Deed) :
    effects [(p, deed)] = if deed = .arrives then [] else p.live.program.effect?.toList := by
  cases deed <;> cases acts : p.live.program.effect? <;> simp [effects, acts]

theorem running_before {σ : Type} [Interpreter σ] {p : Progress σ}
    (running : (p.passes breakpoints request budget fuel).1.live.controller.isPaused = false) :
    p.live.controller.isPaused = false := by
  by_contra paused
  rw [passes_paused (Bool.not_eq_false _ ▸ paused)] at running
  cases running

theorem Proceeds.unended {σ : Type} [Interpreter σ] {p : Progress σ}
    (proceeds : p.Proceeds request budget) (warranted : p.Warranted)
    (slow : request.atMaxSpeed = false) (runs : p.live.controller.isPaused = false) :
    p.burst.doneUserLine = false := by
  have goesOn := proceeds.goesOn
  simp only [Controller.shouldStop, warranted.calm runs, slow, Bool.or_eq_false_iff, Bool.not_false,
    Bool.and_true] at goesOn
  exact goesOn.1.1.2

/-- Below maximum speed a burst has one effect at most if the debugger runs when it is over, and
none once a line has ended. -/
theorem effects_while_running (sound : p.live.program.Sound p.live.lines) (warranted : p.Warranted)
    (slow : request.atMaxSpeed = false)
    (running : (p.passes breakpoints request budget fuel).1.live.controller.isPaused = false) :
    (effects (p.deeds breakpoints request budget fuel)).length ≤
      if p.burst.doneUserLine then 0 else 1 := by
  induction fuel generalizing p with
  | zero => exact Nat.zero_le _
  | succ fuel ih =>
    have runs := running_before running
    have unended : p.Proceeds request budget → p.burst.doneUserLine = false :=
      fun proceeds => proceeds.unended warranted slow runs
    have atMost : ∀ effect : Option StatementEffect, effect.toList.length ≤ 1 := by
      intro effect
      cases effect <;> simp
    have spec := pass_spec breakpoints request budget p
    rw [passes] at running
    rw [deeds, effects_append, List.length_append]
    generalize p.pass breakpoints request budget = result at spec running ⊢
    cases spec with
    | stopped stops =>
      rw [deed_over (.inl (by simp [stopsNow, stops]))]
      exact Nat.zero_le _
    | exhausted spent still =>
      rw [deed_over (.inl (by simp [stopsNow, spent, still]))]
      exact Nat.zero_le _
    | complete _ complete =>
      rw [deed_over (.inr complete)]
      exact Nat.zero_le _
    | @arrived q proceeds arrives after =>
      obtain ⟨line, -, -, -, reaches⟩ := arrival_arrives arrives
      have paused : q.live.controller.isPaused = true := by
        rw [after.controller, reaches]
        rfl
      have active : q.live.controller.isPaused = false := running_before running
      rw [paused] at active
      cases active
    | failed proceeds passesBy fails =>
      rw [deed_proceeds proceeds, if_neg (by simp [passesBy]), if_pos (by simp [fails]),
        effects_single, unended proceeds]
      exact atMost _
    | @stepped q proceeds passesBy fine after =>
      rw [deed_proceeds proceeds, if_neg (by simp [passesBy]), if_neg (by simp [fine]),
        effects_single, unended proceeds]
      cases rests : (p.judged request).2.2 with
      | true => exact atMost _
      | false =>
        rw [rests] at running
        have rest := ih (sound_invariant.judged fine after.toTook sound) (warranted.judged after)
          running
        simp only [Bool.false_eq_true, if_false, reduceCtorEq]
        cases acts : p.live.program.effect? with
        | none =>
          simp only [Option.toList_none, List.length_nil, Nat.zero_add]
          exact rest.trans (by split <;> omega)
        | some effect =>
          have ended := after.endsLine fine sound (by simp [acts])
          rw [if_pos ended] at rest
          simp only [Option.toList_some, List.length_singleton]
          omega

end Progress

variable {φ : Type} {s : Scheduler Machine φ} {operation : Operation Machine φ}
  {live : Live Machine} {request : Request}

/-- Below maximum speed a burst has at most one effect if the debugger runs when it is over, however
calls, returns, loops and callbacks are nested; and a step that has one is on a line of the user's. A
step that fails counts as well. -/
theorem one_effect_per_tick (reachable : Reachable s) (given : operation.Given)
    (runs : Bursts s operation live request) (slow : s.clock.tickLength ≠ 0)
    (ends : (live.burst s.breakpoints request s.settings.tickBudget).1.live.controller.state =
      .running) :
    (Progress.effects (s.deeds operation)).length ≤ 1 ∧
      ∀ p deed, (p, deed) ∈ s.deeds operation → p.live.program.effect?.isSome = true →
        p.line.isSome = true := by
  have sound := runs.sound (fun _ here => reachable.sound here) given
  have slower : request.atMaxSpeed = false := by
    rw [runs.speed, Clock.atMaxSpeed, beq_eq_false_iff_ne]
    exact slow
  have running : (live.burst s.breakpoints request s.settings.tickBudget).1.live.controller.isPaused =
      false := by
    rw [Controller.isPaused, ends]
  rw [Scheduler.deeds_burst runs]
  refine ⟨?_, fun p deed did acts => ?_⟩
  · unfold Live.burst at running
    exact Progress.effects_while_running (p := Progress.begin live) sound (.of_still rfl) slower
      running
  · have reaches := (Progress.mem_deeds did).1
    exact Script.Machine.Sound.effect_holds (sound_invariant.reaches reaches sound) acts

/-- At half speed the first tick calls the function and prints its line, and no more. -/
theorem calling_prints_once : ∃ (loaded : Loaded) (live : Live Machine) (request : Request),
    Script.load calling = .ok loaded ∧
      let s : Scheduler Machine Unit := .new { Settings.default with speed := 0.5 } none
      let start := .start loaded.machine loaded.text.lineMap 0 0
      Bursts s start live request ∧ s.clock.tickLength ≠ 0 ∧
        (live.burst s.breakpoints request s.settings.tickBudget).1.live.controller.state =
          .running ∧
        (Progress.effects (s.deeds start)).length = 1 ∧
        ∀ p deed, (p, deed) ∈ s.deeds start → p.live.program.effect?.isSome = true →
          p.line.isSome = true := by
  have computed : (Script.load calling).toOption.any (fun loaded =>
      let s : Scheduler Machine Unit := .new { Settings.default with speed := 0.5 } none
      let start := .start loaded.machine loaded.text.lineMap 0 0
      s.clock.tickLength != 0 && (Progress.effects (s.deeds start)).length == 1 &&
        (s.burstOf start).any fun (live, request) =>
          (live.burst s.breakpoints request s.settings.tickBudget).1.live.controller.state ==
            .running) = true := by
    decide +kernel
  obtain ⟨loaded, read, holds⟩ := load_any computed
  simp only [Bool.and_eq_true, beq_iff_eq, bne_iff_ne, Option.any_eq_true] at holds
  obtain ⟨⟨slow, once⟩, ⟨live, request⟩, found, ends⟩ := holds
  have runs := bursts_iff.mpr found
  have law := one_effect_per_tick (.new _ _) (.load read 0 0) runs slow ends
  exact ⟨loaded, live, request, read, runs, slow, ends, once, law.2⟩

end Run
end Metronome
