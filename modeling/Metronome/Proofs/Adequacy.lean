import Metronome.Proofs.Evaluation
import Metronome.Proofs.Region

/-!
Running a program and what it means agree. A machine that runs modestly and comes to an end has
evaluated its program, and what is noticed of it up to there is what the program means.
-/
namespace Metronome.Script

theorem Env.valueOf_none {env : Env} {action : Action} (nothing : env.valueOf action = none) :
    (∃ target, action.call? = some target) ∨
      ∃ name wait arguments, action = .timeout name wait arguments := by
  cases action with
  | print rhs | set name rhs =>
    cases rhs with
    | expr => cases nothing
    | call target => exact .inl ⟨target, rfl⟩
  | call target => exact .inl ⟨target, rfl⟩
  | ret rhs =>
    cases rhs with
    | none => cases nothing
    | some rhs =>
      cases rhs with
      | expr => cases nothing
      | call target => exact .inl ⟨target, rfl⟩
  | timeout name wait arguments => exact .inr ⟨name, wait, arguments, rfl⟩

variable {env : Env} {functions : List Function} {outer : List Scope} {below : List Frame}
  {origin : Option Nat} {told : List Effect} {s t : Solo}

theorem Task.begun_busy (task : Task) :
    ¬ (task.begun env functions outer origin below told).Over := by
  rintro (failed | empty)
  · cases failed
  · cases empty

theorem Solo.Modest.never_polls {place : Place} :
    ¬ (Task.begun (.node (.poll place)) env functions outer origin below told).Modest :=
  fun modest => Bool.noConfusion (modest.unasked 1)

def EvaluatedWithin (functions : List Function) (n : Nat) : Prop :=
  ∀ {task : Task} {env : Env} {outer : List Scope} {origin : Option Nat} {below : List Frame}
    {told : List Effect} {k : Nat}, k ≤ n → Fits env outer below →
    (task.begun env functions outer origin below told).Modest →
    ((task.begun env functions outer origin below told).after k).Over →
    ∃ effects after outcome, Evaluates functions env task effects after outcome

section

variable {n : Nat}

theorem EvaluatedWithin.rest {part : Task} (within : EvaluatedWithin functions n)
    (fits : Fits env outer below) (modest : s.Modest) (ends : (s.after (n + 1)).Over)
    (reaches : s.next.Reaches (part.begun env functions outer origin below told)) :
    ∃ effects after outcome, Evaluates functions env part effects after outcome := by
  obtain ⟨k, there⟩ := reaches
  have later : ((s.next.after k).after (n - k)).Over := Solo.over_after ends
  rw [there] at later
  exact within (Nat.sub_le n k) fits (modest.next.after ⟨k, there⟩) later

theorem EvaluatedWithin.part {part : Task} (within : EvaluatedWithin functions n)
    (fits : Fits env outer below) (modest : s.Modest) (ends : (s.after (n + 1)).Over)
    (next : s.next = part.begun env functions outer origin below told) :
    ∃ effects after outcome t, Evaluates functions env part effects after outcome ∧
      s.next.Reaches t ∧ Ends functions outer origin below after (told ++ effects) part outcome t := by
  have there : s.next.Reaches (part.begun env functions outer origin below told) := next ▸ .refl _
  obtain ⟨effects, after, outcome, evaluates⟩ := within.rest fits modest ends there
  obtain ⟨t, reaches, ended⟩ := evaluates.carriesOut fits (modest.next.after there)
  exact ⟨effects, after, outcome, t, evaluates, there.trans reaches, ended⟩

theorem EvaluatedWithin.block {nodes : List Node} (within : EvaluatedWithin functions n)
    (fits : Fits env outer below)
    (modest : (Task.begun (.block nodes) env functions outer origin below told).Modest)
    (ends : ((Task.begun (.block nodes) env functions outer origin below told).after (n + 1)).Over) :
    ∃ effects after outcome, Evaluates functions env (.block nodes) effects after outcome := by
  cases nodes with
  | nil => exact ⟨_, _, _, .nothing⟩
  | cons node nodes =>
    obtain ⟨first, middle, outcome, t, head, reaches, ended⟩ :=
      within.part (fits.above (by simp [Frame.kind])) modest ends modest.enters
    by_cases normal : outcome = .normal
    · subst normal
      cases ended with
      | node =>
        have there : Solo.Reaches _ (Task.begun (.block nodes) middle functions outer origin below
            (told ++ first)) := reaches
        obtain ⟨rest, after, outcome, tail⟩ := within.rest (fits.same head.scope) modest ends there
        exact ⟨_, _, _, .goesOn head tail⟩
    · exact ⟨_, _, _, .breaksOff head normal⟩

theorem EvaluatedWithin.action {place : Place} {action : Action}
    (within : EvaluatedWithin functions n) (fits : Fits env outer below)
    (modest : (Task.begun (.node (.action place action)) env functions outer origin below told).Modest)
    (ends : ((Task.begun (.node (.action place action)) env functions outer origin below told).after
      (n + 1)).Over) :
    ∃ effects after outcome,
      Evaluates functions env (.node (.action place action)) effects after outcome := by
  cases given : env.valueOf action with
  | some result =>
    cases result with
    | error fault => exact ⟨_, _, _, .takesNothing given⟩
    | ok value => exact ⟨_, _, _, .takes given rfl⟩
  | none =>
    rcases Env.valueOf_none given with ⟨target, asks⟩ | ⟨name, wait, arguments, rfl⟩
    · cases values : env.values target.arguments with
      | error fault => exact ⟨_, _, _, .callsNothing asks values⟩
      | ok arguments =>
        obtain ⟨effects, after, outcome, t, call, -, ended⟩ :=
          within.part (fits.above (by simp [Frame.kind])) modest ends
            (modest.calls fits.lined asks values)
        cases ended with
        | returns inside => cases inside
        | call => exact ⟨_, _, _, .calls asks values call rfl⟩
        | failed => exact ⟨_, _, _, .callFails asks values call⟩
    · cases timer : env.timer functions name wait arguments with
      | error fault => exact ⟨_, _, _, .setsNoTimer timer⟩
      | ok timed => exact ⟨_, _, _, .setsTimer timer⟩

theorem EvaluatedWithin.loop {place : Place} {condition : Expr} {body : List Node}
    (within : EvaluatedWithin functions n) (fits : Fits env outer below)
    (modest : (Task.begun (.node (.loop place condition body)) env functions outer origin below
      told).Modest)
    (ends : ((Task.begun (.node (.loop place condition body)) env functions outer origin below
      told).after (n + 1)).Over) :
    ∃ effects after outcome,
      Evaluates functions env (.node (.loop place condition body)) effects after outcome := by
  cases tested : env.value condition with
  | error fault => exact ⟨_, _, _, .loopFails tested⟩
  | ok value =>
    cases truth : value.truthy with
    | false => exact ⟨_, _, _, .loopEnds tested truth⟩
    | true =>
      obtain ⟨first, middle, outcome, t, round, reaches, ended⟩ :=
        within.part (fits.above (by simp [Frame.kind])) modest ends
          (modest.tests fits.lined next_loop tested truth)
      by_cases normal : outcome = .normal
      · subst normal
        cases ended with
        | block =>
          have there : Solo.Reaches _ (Task.begun (.node (.loop place condition body)) middle functions
              outer origin below (told ++ first)) :=
            reaches.trans (leaves_block (by simp [Frame.kind]))
          obtain ⟨rest, after, outcome, again⟩ :=
            within.rest (fits.same round.scope) modest ends there
          exact ⟨_, _, _, .loopRound tested truth round again⟩
      · exact ⟨_, _, _, .loopLeft tested truth round normal⟩

theorem EvaluatedWithin.branch {place : Place} {condition : Expr} {body : List Node}
    (within : EvaluatedWithin functions n) (fits : Fits env outer below)
    (modest : (Task.begun (.node (.branch place condition body)) env functions outer origin below
      told).Modest)
    (ends : ((Task.begun (.node (.branch place condition body)) env functions outer origin below
      told).after (n + 1)).Over) :
    ∃ effects after outcome,
      Evaluates functions env (.node (.branch place condition body)) effects after outcome := by
  cases tested : env.value condition with
  | error fault => exact ⟨_, _, _, .branchFails tested⟩
  | ok value =>
    cases truth : value.truthy with
    | false => exact ⟨_, _, _, .branchSkips tested truth⟩
    | true =>
      obtain ⟨_, _, _, _, once, -⟩ := within.part (fits.above (by simp [Frame.kind])) modest ends
        (modest.tests fits.lined next_branch tested truth)
      exact ⟨_, _, _, .branchRuns tested truth once⟩

theorem EvaluatedWithin.call {name : String} {arguments : List Value} {offset : Nat}
    (within : EvaluatedWithin functions n)
    (modest : (Task.begun (.call name arguments offset) env functions outer origin below told).Modest)
    (ends : ((Task.begun (.call name arguments offset) env functions outer origin below told).after
      (n + 1)).Over) :
    ∃ effects after outcome,
      Evaluates functions env (.call name arguments offset) effects after outcome := by
  cases found : findFunction functions name with
  | none => exact ⟨_, _, _, .unknown found⟩
  | some function =>
    by_cases arity : function.parameters.length = arguments.length
    · obtain ⟨_, _, _, _, body, -⟩ :=
        within.part (.inside rfl rfl) modest ends (modest.begins found arity)
      exact ⟨_, _, _, .enters found arity body⟩
    · exact ⟨_, _, _, .mismatch found arity⟩

end

/-- A task on the stack of a machine that comes to an end evaluates. -/
theorem evaluatedWithin (functions : List Function) (n : Nat) : EvaluatedWithin functions n := by
  induction n with
  | zero =>
    intro task _ _ _ _ _ k few _ _ ends
    cases Nat.le_zero.mp few
    exact absurd ends task.begun_busy
  | succ n ih =>
    intro task env outer origin below told k few fits modest ends
    rcases Nat.le_succ_iff.mp few with fewer | rfl
    · exact ih fewer fits modest ends
    · cases task with
      | block nodes => exact ih.block fits modest ends
      | call name arguments offset => exact ih.call modest ends
      | node node =>
        cases node with
        | action place action => exact ih.action fits modest ends
        | poll place => exact absurd modest Solo.Modest.never_polls
        | loop place condition body => exact ih.loop fits modest ends
        | branch place condition body => exact ih.branch fits modest ends

def Outcome.Shown (after : Env) (t : Solo) : Outcome → Prop
  | normal => t.failure = none ∧ t.machine.stack = [] ∧ t.machine.globals = after.globals
  | returned _ => False
  | failed error => t.failure = some error

theorem Outcome.Shown.ends {after : Env} {outcome : Outcome} (shown : outcome.Shown after t) :
    t.Over := by
  cases outcome with
  | normal => exact .inr shown.2.1
  | returned => exact shown.elim
  | failed => exact .inl (by rw [show t.failure = some _ from shown]; rfl)

theorem Solo.new_begun (program : Program) :
    Solo.new (.ofProgram program) =
      Task.begun (.block program.body) .empty program.functions [] none [] [] :=
  rfl

theorem Fits.bare : Fits .empty [] [] :=
  .outside rfl rfl

theorem Evaluates.shown {program : Program} {effects : List Effect} {after : Env} {outcome : Outcome}
    (evaluates : Evaluates program.functions .empty (.block program.body) effects after outcome)
    (modest : (Solo.new (.ofProgram program)).Modest) :
    ∃ t, (Solo.new (.ofProgram program)).Reaches t ∧ t.journal.effects = effects ∧
      outcome.Shown after t := by
  obtain ⟨t, reaches, ends⟩ := evaluates.carriesOut .bare (Solo.new_begun program ▸ modest)
  cases ends with
  | block =>
    refine ⟨_, reaches.trans (.one (Solo.next_finish rfl rfl)), rfl, rfl, rfl, rfl⟩
  | returns _ call => cases call
  | failed fails noticed => exact ⟨t, reaches, noticed, fails⟩

theorem Solo.Over.evaluates {program : Program}
    (modest : (Solo.new (.ofProgram program)).Modest)
    (reaches : (Solo.new (.ofProgram program)).Reaches t) (ends : t.Over) :
    ∃ after outcome, outcome.Shown after t ∧
      Evaluates program.functions .empty (.block program.body) t.journal.effects after outcome := by
  obtain ⟨n, rfl⟩ := reaches
  have evaluated : ∃ effects after outcome,
      Evaluates program.functions .empty (.block program.body) effects after outcome := by
    rw [Solo.new_begun] at modest ends
    exact evaluatedWithin program.functions n (Nat.le_refl n) .bare modest ends
  obtain ⟨effects, after, outcome, evaluates⟩ := evaluated
  obtain ⟨t, reaches, noticed, shown⟩ := evaluates.shown modest
  have same := Solo.Reaches.unique reaches ⟨n, rfl⟩ shown.ends ends
  subst same
  rw [noticed]
  exact ⟨after, outcome, shown, evaluates⟩

section

variable {program : Program} (modest : (Solo.new (.ofProgram program)).Modest)
include modest

theorem completes_iff (effects : List Effect) (globals : Scope) :
    (Solo.new (.ofProgram program)).Completes effects globals ↔
      ∃ after, after.globals = globals ∧
        Evaluates program.functions .empty (.block program.body) effects after .normal := by
  constructor
  · rintro ⟨t, reaches, fine, empty, rfl, rfl⟩
    obtain ⟨after, outcome, shown, evaluates⟩ := Solo.Over.evaluates modest reaches (.inr empty)
    cases outcome with
    | normal => exact ⟨after, shown.2.2.symm, evaluates⟩
    | returned => exact shown.elim
    | failed =>
      rw [show t.failure = some _ from shown] at fine
      cases fine
  · rintro ⟨after, rfl, evaluates⟩
    obtain ⟨t, reaches, noticed, fine, empty, same⟩ := evaluates.shown modest
    exact ⟨t, reaches, fine, empty, noticed, same⟩

theorem fails_iff (effects : List Effect) (error : StepError) :
    (Solo.new (.ofProgram program)).Fails effects error ↔
      ∃ after, Evaluates program.functions .empty (.block program.body) effects after
        (.failed error) := by
  constructor
  · rintro ⟨t, reaches, fails, rfl⟩
    obtain ⟨after, outcome, shown, evaluates⟩ :=
      Solo.Over.evaluates modest reaches (.inl (by rw [fails]; rfl))
    cases outcome with
    | normal =>
      rw [shown.1] at fails
      cases fails
    | returned => exact shown.elim
    | failed other =>
      rw [show t.failure = some other from shown] at fails
      cases fails
      exact ⟨after, evaluates⟩
  · rintro ⟨after, evaluates⟩
    obtain ⟨t, reaches, noticed, fails⟩ := evaluates.shown modest
    exact ⟨t, reaches, fails, noticed⟩

end

/-- A program that is read as it stands and runs modestly does what it means: it completes, with
certain effects and global variables, exactly if it evaluates to them, and fails, after certain
effects, exactly if its evaluation does. -/
theorem loadBare_runs_as_meant {source : List Char} {loaded : Loaded}
    (read : loadBare source = .ok loaded) (modest : (Solo.new loaded.machine).Modest) :
    ∃ program, parse source = .ok program ∧
      (∀ effects globals, (Solo.new loaded.machine).Completes effects globals ↔
        ∃ after, after.globals = globals ∧
          Evaluates program.functions .empty (.block program.body) effects after .normal) ∧
      ∀ effects error, (Solo.new loaded.machine).Fails effects error ↔
        ∃ after, Evaluates program.functions .empty (.block program.body) effects after
          (.failed error) := by
  obtain ⟨program, parsed, rfl⟩ := loadText_machine read
  exact ⟨program, parsed, completes_iff modest, fails_iff modest⟩

def Effect.subject : Effect → String
  | prints line => line
  | sets callback _ => callback.name

def counting : List Char :=
  "func less x\n  set y = x - 1\n  return y\nend\n".toList ++
    "set n = 2\nwhile n > 0\n  print n\n  set n = call less n\nend\ntimeout less 0 n\n".toList

theorem counting_runs_as_meant : ∃ loaded program effects after, loadBare counting = .ok loaded ∧
    parse counting = .ok program ∧ (Solo.new loaded.machine).Modest ∧
    effects.map Effect.subject = ["2", "1", "less"] ∧ after.globals.map Prod.fst = ["n"] ∧
    Evaluates program.functions .empty (.block program.body) effects after .normal := by
  have computed : (loadBare counting).toOption.any (fun loaded =>
      let t := (Solo.new loaded.machine).after 40
      t.failure.isNone && t.machine.stack.isEmpty && !t.journal.asked &&
        t.machine.globals.map Prod.fst == ["n"] &&
        t.journal.effects.map Effect.subject == ["2", "1", "less"]) = true := by
    decide +kernel
  cases read : loadBare counting with
  | error problem =>
    rw [read] at computed
    cases computed
  | ok loaded =>
    rw [read] at computed
    simp only [Except.toOption, Option.any_some, Bool.and_eq_true, Option.isNone_iff_eq_none,
      List.isEmpty_iff, Bool.not_eq_true', beq_iff_eq] at computed
    obtain ⟨⟨⟨⟨fine, empty⟩, unasked⟩, names⟩, noticed⟩ := computed
    have modest : (Solo.new loaded.machine).Modest :=
      Solo.Over.modest (.inr empty) unasked fun error failed => by
        rw [fine] at failed
        cases failed
    obtain ⟨program, parsed, completes, -⟩ := loadBare_runs_as_meant read modest
    obtain ⟨after, globals, evaluates⟩ :=
      (completes _ _).mp ⟨_, ⟨40, rfl⟩, fine, empty, rfl, rfl⟩
    rw [← globals] at names
    exact ⟨loaded, program, _, after, rfl, parsed, modest, noticed, names, evaluates⟩

end Metronome.Script
