import Metronome.Proofs.Descent

/-!
The trail of a run: the moments at which its program took a step while it was under way, over any
number of ticks and dispatches. What every pass keeps, and every burst hands on to the next one, holds
all along a trail (`Underway.holds`).
-/
namespace Metronome.Run

open Metronome.Debug (Breakpoints Command Controller)
open Metronome.Script (Machine)

namespace Progress

variable {σ : Type} [Interpreter σ]

def takesStep (breakpoints : Breakpoints) (request : Request) (budget : Nat) (p : Progress σ) :
    Bool :=
  !p.stopsNow request budget && !Interpreter.isComplete p.live.program &&
    !(p.arrival breakpoints).2.2

def moment (breakpoints : Breakpoints) (request : Request) (budget : Nat) (p : Progress σ) :
    List (Progress σ) :=
  if p.takesStep breakpoints request budget then [p] else []

/-- The moments of the passes until the burst ends, the first one first. -/
def trail (breakpoints : Breakpoints) (request : Request) (budget : Nat) :
    Nat → Progress σ → List (Progress σ)
  | 0, _ => []
  | fuel + 1, p =>
    p.moment breakpoints request budget ++
      match p.pass breakpoints request budget with
      | (_, some _) => []
      | (q, none) => q.trail breakpoints request budget fuel

inductive Walks (breakpoints : Breakpoints) (request : Request) (budget : Nat) (p : Progress σ) :
    List (Progress σ) → Progress σ → Prop where
  | here : Walks breakpoints request budget p [] p
  | pass {trail : List (Progress σ)} {q r : Progress σ}
      (before : Walks breakpoints request budget p trail q)
      (goesOn : q.pass breakpoints request budget = (r, none)) :
      Walks breakpoints request budget p (trail ++ q.moment breakpoints request budget) r

variable {breakpoints : Breakpoints} {request : Request} {budget fuel : Nat} {p q r : Progress σ}

theorem takesStep_iff : p.takesStep breakpoints request budget = true ↔
    p.Proceeds request budget ∧ (p.arrival breakpoints).2.2 = false := by
  constructor
  · intro steps
    simp only [takesStep, stopsNow, Bool.and_eq_true, Bool.not_eq_true', Bool.or_eq_false_iff]
      at steps
    obtain ⟨⟨⟨goesOn, affords⟩, incomplete⟩, passesBy⟩ := steps
    refine ⟨⟨goesOn, ?_, incomplete⟩, passesBy⟩
    by_cases left : p.steps < budget
    · exact .inl left
    · right
      simpa [Nat.le_of_not_lt left] using affords
  · rintro ⟨proceeds, passesBy⟩
    simp [takesStep, proceeds.not_stopsNow, proceeds.incomplete, passesBy]

theorem moment_of_step (proceeds : p.Proceeds request budget)
    (passesBy : (p.arrival breakpoints).2.2 = false) :
    p.moment breakpoints request budget = [p] := by
  rw [moment, if_pos (takesStep_iff.mpr ⟨proceeds, passesBy⟩)]

theorem moment_of_arrival (arrives : (p.arrival breakpoints).2.2 = true) :
    p.moment breakpoints request budget = [] := by
  simp [moment, takesStep, arrives]

theorem pass_some {ending : Ending} (ended : p.pass breakpoints request budget = (q, some ending)) :
    (q = p ∧ p.moment breakpoints request budget = [] ∧
        ∀ error line, ending ≠ .failed error line) ∨
      p.Proceeds request budget ∧ (p.arrival breakpoints).2.2 = false ∧
        ((∃ error line, ending = .failed error line) ∨
          ending = .rested ∧ (p.stepped request).1.error = none ∧ Judged request p q ∧
            (p.judged request).2.2 = true) := by
  cases pass_ending ended with
  | stopped stops => exact .inl ⟨rfl, by simp [moment, takesStep, stopsNow, stops], by simp⟩
  | exhausted spent still =>
    exact .inl ⟨rfl, by simp [moment, takesStep, stopsNow, spent, still], by simp⟩
  | complete complete => exact .inl ⟨rfl, by simp [moment, takesStep, complete], by simp⟩
  | failed proceeds passesBy => exact .inr ⟨proceeds, passesBy, .inl ⟨_, _, rfl⟩⟩
  | rested proceeds passesBy fine after rests =>
    exact .inr ⟨proceeds, passesBy, .inr ⟨rfl, fine, after, rests⟩⟩

theorem Walks.reaches {trail : List (Progress σ)}
    (walks : Walks breakpoints request budget p trail q) :
    Reaches breakpoints request budget p q := by
  induction walks with
  | here => exact .here
  | pass _ goesOn ih => exact .pass ih goesOn

theorem Walks.after {trail : List (Progress σ)}
    (goesOn : p.pass breakpoints request budget = (q, none))
    (rest : Walks breakpoints request budget q trail r) :
    Walks breakpoints request budget p (p.moment breakpoints request budget ++ trail) r := by
  induction rest with
  | here =>
    rw [List.append_nil]
    exact .pass .here goesOn
  | pass _ next ih =>
    rw [← List.append_assoc]
    exact .pass ih next

theorem trail_ends {ending : Ending} (ends : p.passes breakpoints request budget fuel = (q, ending))
    (uncut : ending ≠ .cutOff) :
    ∃ before last, Walks breakpoints request budget p before last ∧
      last.pass breakpoints request budget = (q, some ending) ∧
      p.trail breakpoints request budget fuel =
        before ++ last.moment breakpoints request budget := by
  induction fuel generalizing p with
  | zero =>
    cases ends
    exact absurd rfl uncut
  | succ fuel ih =>
    unfold passes at ends
    unfold trail
    generalize passed : p.pass breakpoints request budget = result at ends ⊢
    obtain ⟨next, _ | last⟩ := result
    · obtain ⟨before, last, walks, ended, same⟩ := ih ends
      refine ⟨_, last, walks.after passed, ended, ?_⟩
      dsimp only
      rw [same, List.append_assoc]
    · cases ends
      exact ⟨[], p, .here, passed, List.append_nil _⟩

theorem walks_of_trail {before after : List (Progress σ)}
    (same : p.trail breakpoints request budget fuel = before ++ r :: after) :
    Walks breakpoints request budget p before r ∧ r.takesStep breakpoints request budget = true := by
  induction fuel generalizing p before with
  | zero => simp [trail] at same
  | succ fuel ih =>
    unfold trail at same
    have later : ∀ {rest : List (Progress σ)},
        (match p.pass breakpoints request budget with
          | (_, some _) => []
          | (q, none) => q.trail breakpoints request budget fuel) = rest ++ r :: after →
        Walks breakpoints request budget p (p.moment breakpoints request budget ++ rest) r ∧
          r.takesStep breakpoints request budget = true := by
      intro rest found
      split at found
      · simp at found
      · rename_i next passed
        obtain ⟨walks, steps⟩ := ih found
        exact ⟨walks.after passed, steps⟩
    cases steps : p.takesStep breakpoints request budget with
    | false =>
      have none_here : p.moment breakpoints request budget = [] := by
        rw [moment, steps]
        rfl
      rw [none_here, List.nil_append] at same
      rw [none_here] at later
      exact later same
    | true =>
      have one_here : p.moment breakpoints request budget = [p] := by
        rw [moment, steps]
        rfl
      rw [one_here] at same later
      cases before with
      | nil =>
        cases same
        exact ⟨.here, steps⟩
      | cons first before =>
        obtain ⟨rfl, found⟩ := List.cons.inj same
        exact later found

end Progress

def Live.trail {σ : Type} [Interpreter σ] (live : Live σ) (breakpoints : Breakpoints)
    (request : Request) (budget : Nat) : List (Progress σ) :=
  (Progress.begin live).trail breakpoints request budget (Progress.limit live budget)

def Operation.isEvent {σ φ : Type} : Operation σ φ → Bool
  | .install _ => true
  | .take => true
  | .tick _ _ _ => true
  | .dispatch _ _ => true
  | .command (.toggleBreakpoint _) => true
  | .command (.setBreakpoints _) => true
  | .command (.setSpeed _) => true
  | _ => false

namespace Scheduler

variable {φ : Type}

def trail (s : Scheduler Machine φ) : Operation Machine φ → List (Progress Machine)
  | .tick tick began _ =>
    match s.live with
    | none => []
    | some live =>
      if tick.run = s.runNumber ∧ live.controller.beginTick.2 = true then
        live.ticked.trail s.breakpoints (s.tickRequest began) s.settings.tickBudget
      else []
  | .dispatch callback now =>
    match s.live with
    | none => []
    | some live =>
      if live.controller.isPaused then []
      else
        (live.called callback).trail s.breakpoints (s.dispatchRequest now) s.settings.tickBudget
  | _ => []

theorem event_cases {s : Scheduler Machine φ} {operation : Operation Machine φ}
    (event : operation.isEvent = true) :
    (∃ live request, Bursts s operation live request ∧
        s.trail operation = live.trail s.breakpoints request s.settings.tickBudget ∧
        ∀ next, (s.perform operation).live = some next →
          Leaves (live.burst s.breakpoints request s.settings.tickBudget) next) ∨
      s.trail operation = [] ∧
        ∀ next, (s.perform operation).live = some next →
          ∃ live, s.live = some live ∧ live.Idled next := by
  have idles : (s.perform operation).live = s.live → s.trail operation = [] →
      s.trail operation = [] ∧ ∀ next, (s.perform operation).live = some next →
        ∃ live, s.live = some live ∧ live.Idled next := by
    intro same silent
    refine ⟨silent, fun next there => ⟨next, same ▸ there, rfl, rfl, .inl rfl⟩⟩
  cases operation with
  | tick tick began ended =>
    cases here : s.live with
    | none =>
      have still : s.perform (.tick tick began ended) = s := onTick_stale began ended (.inl here)
      refine .inr ?_
      rw [← here]
      exact idles (by rw [still]) (by rw [trail, here])
    | some live =>
      by_cases current : tick.run = s.runNumber
      · cases steps : live.controller.beginTick.2 with
        | true =>
          refine .inl ⟨_, _, .tick here current steps, ?_, fun next there => ?_⟩
          · simp [trail, here, current, steps]
          · rw [perform, onTick_steps began ended here current steps] at there
            exact settle_leaves there
        | false =>
          refine .inr ⟨by simp [trail, here, steps], fun next there => ⟨live, rfl, ?_⟩⟩
          obtain ⟨other, there', idled | ⟨-, steps', -⟩⟩ := onTick_live there
          · rw [here] at there'
            cases there'
            exact idled
          · rw [here] at there'
            cases there'
            rw [steps] at steps'
            cases steps'
      · have still : s.perform (.tick tick began ended) = s :=
          onTick_stale began ended (.inr current)
        refine .inr ?_
        rw [← here]
        exact idles (by rw [still]) (by simp [trail, here, current])
  | dispatch callback now =>
    cases here : s.live with
    | none =>
      refine .inr ⟨by simp [trail, here], fun next there => ?_⟩
      simp [perform, dispatch, here] at there
    | some live =>
      cases paused : live.controller.isPaused with
      | true =>
        refine .inr ⟨by simp [trail, here, paused], fun next there => ⟨live, rfl, ?_⟩⟩
        simp only [perform, dispatch, here, paused, if_true, Option.some.injEq] at there
        subst there
        exact ⟨rfl, rfl, .inl rfl⟩
      | false =>
        refine .inl ⟨_, _, .dispatch here paused, by simp [trail, here, paused], ?_⟩
        intro next there
        rw [perform, dispatch_answers callback now here paused] at there
        exact answer_leaves there
  | install => exact .inr (idles rfl rfl)
  | take => exact .inr (idles rfl rfl)
  | start => cases event
  | reset => cases event
  | command command =>
    cases command with
    | toggleBreakpoint => exact .inr (idles rfl rfl)
    | setBreakpoints => exact .inr (idles rfl rfl)
    | setSpeed => exact .inr (idles rfl rfl)
    | _ => cases event

end Scheduler

theorem Scheduler.Leaves.of_fine {p : Progress Machine} {ending : Ending}
    (fine : ∀ error line, ending ≠ .failed error line) :
    Leaves (p, ending) { p.live with controller := p.live.controller.takeStopReason.1 } :=
  ⟨fine, rfl, rfl, rfl⟩

/-- A run under way: events since an earlier state of its scheduler, and their trail. -/
inductive Underway {φ : Type} (s₀ : Scheduler Machine φ) :
    List (Progress Machine) → Scheduler Machine φ → Prop where
  | here : Underway s₀ [] s₀
  | event {trail : List (Progress Machine)} {s : Scheduler Machine φ}
      {operation : Operation Machine φ} (before : Underway s₀ trail s)
      (event : operation.isEvent = true) :
      Underway s₀ (trail ++ s.trail operation) (s.perform operation)

theorem Underway.first {φ : Type} {s : Scheduler Machine φ} {operation : Operation Machine φ}
    (event : operation.isEvent = true) : Underway s (s.trail operation) (s.perform operation) :=
  List.nil_append (s.trail operation) ▸ .event .here event

/-- A pass that a run under way comes to, after a trail. -/
inductive ComesTo {φ : Type} (s₀ : Scheduler Machine φ) :
    List (Progress Machine) → Scheduler Machine φ → Request → Progress Machine → Prop where
  | walks {trail more : List (Progress Machine)} {s : Scheduler Machine φ}
      {operation : Operation Machine φ} {live : Live Machine} {request : Request}
      {p : Progress Machine} (underway : Underway s₀ trail s) (event : operation.isEvent = true)
      (runs : Bursts s operation live request)
      (walks : (Progress.begin live).Walks s.breakpoints request s.settings.tickBudget more p) :
      ComesTo s₀ (trail ++ more) s request p

theorem Bursts.begun {φ : Type} {s : Scheduler Machine φ} {operation : Operation Machine φ}
    {live : Live Machine} {request : Request} (runs : Bursts s operation live request)
    (event : operation.isEvent = true) :
    ∃ before, s.live = some before ∧ live.program = before.program ∧ live.lines = before.lines ∧
      live.controller = before.controller.beginTick.1 ∧
      (request.untilReturn = true → live.controller.isPaused = false) := by
  cases runs with
  | tick here => exact ⟨_, here, rfl, rfl, rfl, fun dispatched => by cases dispatched⟩
  | @dispatch live _ _ here running =>
    refine ⟨_, here, rfl, rfl, ?_, fun _ => running⟩
    unfold Controller.isPaused at running
    split at running
    · rename_i state
      change live.controller = _
      unfold Controller.beginTick
      rw [state]
    · cases running
  | start => cases event

theorem Operation.given_of_event {φ : Type} {operation : Operation Machine φ}
    (event : operation.isEvent = true) : operation.Given := by
  rintro program lines began ended rfl
  cases event

structure Lasting (between : List (Progress Machine) → Option (Live Machine) → Prop)
    (within : List (Progress Machine) → Request → Progress Machine → Prop) : Prop where
  idles {trail : List (Progress Machine)} {live next : Live Machine}
    (holds : between trail (some live)) (idled : live.Idled next) : between trail (some next)
  gone {trail : List (Progress Machine)} {live : Live Machine}
    (holds : between trail (some live)) : between trail none
  begins {trail : List (Progress Machine)} {live next : Live Machine} {request : Request}
    (holds : between trail (some live)) (program : next.program = live.program)
    (lines : next.lines = live.lines) (controller : next.controller = live.controller.beginTick.1)
    (awake : next.controller.isAtRest = false)
    (tick : request.untilReturn = true → next.controller.isPaused = false) :
    within trail request (Progress.begin next)
  arrived {trail : List (Progress Machine)} {breakpoints : Breakpoints} {request : Request}
    {budget : Nat} {p q : Progress Machine} (holds : within trail request p)
    (guarded : p.Guarded) (sound : p.live.program.Sound p.live.lines)
    (proceeds : p.Proceeds request budget) (arrives : (p.arrival breakpoints).2.2 = true)
    (after : Progress.Arrived breakpoints request p q) : within trail request q
  stepped {trail : List (Progress Machine)} {breakpoints : Breakpoints} {request : Request}
    {budget : Nat} {p q : Progress Machine} (holds : within trail request p)
    (guarded : p.Guarded) (sound : p.live.program.Sound p.live.lines)
    (proceeds : p.Proceeds request budget) (passesBy : (p.arrival breakpoints).2.2 = false)
    (fine : (p.stepped request).1.error = none) (after : Progress.Judged request p q)
    (active : (p.judged request).2.2 = false) : within (trail ++ [p]) request q
  rested {trail : List (Progress Machine)} {breakpoints : Breakpoints} {request : Request}
    {budget : Nat} {p q : Progress Machine} {next : Live Machine} (holds : within trail request p)
    (guarded : p.Guarded) (sound : p.live.program.Sound p.live.lines)
    (proceeds : p.Proceeds request budget) (passesBy : (p.arrival breakpoints).2.2 = false)
    (fine : (p.stepped request).1.error = none) (after : Progress.Judged request p q)
    (rests : (p.judged request).2.2 = true) (leaves : Scheduler.Leaves (q, .rested) next) :
    between (trail ++ [p]) (some next)
  failed {trail : List (Progress Machine)} {breakpoints : Breakpoints} {request : Request}
    {budget : Nat} {p : Progress Machine} (holds : within trail request p)
    (guarded : p.Guarded) (sound : p.live.program.Sound p.live.lines)
    (proceeds : p.Proceeds request budget) (passesBy : (p.arrival breakpoints).2.2 = false) :
    between (trail ++ [p]) none
  stays {trail : List (Progress Machine)} {breakpoints : Breakpoints} {request : Request}
    {budget : Nat} {p : Progress Machine} {next : Live Machine} {ending : Ending}
    (holds : within trail request p) (guarded : p.Guarded)
    (sound : p.live.program.Sound p.live.lines)
    (passed : p.pass breakpoints request budget = (p, some ending))
    (leaves : Scheduler.Leaves (p, ending) next) : between trail (some next)

section

variable {between : List (Progress Machine) → Option (Live Machine) → Prop}
  {within : List (Progress Machine) → Request → Progress Machine → Prop}

/-- What each moment adds to is carried along with what lasts. -/
theorem Lasting.along (lasting : Lasting between within) {along : List (Progress Machine) → Prop}
    (adds : ∀ {trail : List (Progress Machine)} {request : Request} {budget : Nat}
      {p : Progress Machine}, within trail request p → p.Guarded → p.Proceeds request budget →
      along trail → along (trail ++ [p])) :
    Lasting (fun trail live => between trail live ∧ along trail)
      (fun trail request p => within trail request p ∧ along trail) where
  idles holds idled := ⟨lasting.idles holds.1 idled, holds.2⟩
  gone holds := ⟨lasting.gone holds.1, holds.2⟩
  begins holds program lines controller awake tick :=
    ⟨lasting.begins holds.1 program lines controller awake tick, holds.2⟩
  arrived holds guarded sound proceeds arrives after :=
    ⟨lasting.arrived holds.1 guarded sound proceeds arrives after, holds.2⟩
  stepped holds guarded sound proceeds passesBy fine after active :=
    ⟨lasting.stepped holds.1 guarded sound proceeds passesBy fine after active,
      adds holds.1 guarded proceeds holds.2⟩
  rested holds guarded sound proceeds passesBy fine after rests leaves :=
    ⟨lasting.rested holds.1 guarded sound proceeds passesBy fine after rests leaves,
      adds holds.1 guarded proceeds holds.2⟩
  failed holds guarded sound proceeds passesBy :=
    ⟨lasting.failed holds.1 guarded sound proceeds passesBy, adds holds.1 guarded proceeds holds.2⟩
  stays holds guarded sound passed leaves :=
    ⟨lasting.stays holds.1 guarded sound passed leaves, holds.2⟩

theorem Lasting.goesOn (lasting : Lasting between within) {trail : List (Progress Machine)}
    {breakpoints : Breakpoints} {request : Request} {budget : Nat} {p q : Progress Machine}
    (holds : within trail request p) (guarded : p.Guarded)
    (sound : p.live.program.Sound p.live.lines)
    (passed : p.pass breakpoints request budget = (q, none)) :
    within (trail ++ p.moment breakpoints request budget) request q := by
  obtain ⟨proceeds, ⟨arrives, after⟩ | ⟨passesBy, fine, after, active⟩⟩ := Progress.pass_none passed
  · rw [Progress.moment_of_arrival arrives, List.append_nil]
    exact lasting.arrived holds guarded sound proceeds arrives after
  · rw [Progress.moment_of_step proceeds passesBy]
    exact lasting.stepped holds guarded sound proceeds passesBy fine after active

theorem Lasting.ends (lasting : Lasting between within) {trail : List (Progress Machine)}
    {breakpoints : Breakpoints} {request : Request} {budget : Nat} {p q : Progress Machine}
    {ending : Ending} (holds : within trail request p) (guarded : p.Guarded)
    (sound : p.live.program.Sound p.live.lines)
    (passed : p.pass breakpoints request budget = (q, some ending)) :
    between (trail ++ p.moment breakpoints request budget) none ∧
      ∀ next, Scheduler.Leaves (q, ending) next →
        between (trail ++ p.moment breakpoints request budget) (some next) := by
  rcases Progress.pass_some passed with
    ⟨rfl, idle, fine⟩ | ⟨proceeds, passesBy, ⟨error, line, rfl⟩ | ⟨rfl, fine, after, rests⟩⟩
  · rw [idle, List.append_nil]
    have left : ∀ next, Scheduler.Leaves (q, ending) next → between trail (some next) :=
      fun next leaves => lasting.stays holds guarded sound passed leaves
    exact ⟨lasting.gone (left _ (.of_fine fine)), left⟩
  · rw [Progress.moment_of_step proceeds passesBy]
    refine ⟨lasting.failed holds guarded sound proceeds passesBy, fun next leaves => ?_⟩
    exact absurd rfl (leaves.fine error line)
  · rw [Progress.moment_of_step proceeds passesBy]
    have left : ∀ next, Scheduler.Leaves (q, .rested) next → between (trail ++ [p]) (some next) :=
      fun next leaves => lasting.rested holds guarded sound proceeds passesBy fine after rests leaves
    exact ⟨lasting.gone (left _ (.of_fine fun _ _ => by simp)), left⟩

theorem Lasting.walks (lasting : Lasting between within) {trail more : List (Progress Machine)}
    {breakpoints : Breakpoints} {request : Request} {budget : Nat} {p q : Progress Machine}
    (holds : within trail request p) (guarded : p.Guarded)
    (sound : p.live.program.Sound p.live.lines)
    (walks : p.Walks breakpoints request budget more q) :
    within (trail ++ more) request q ∧ q.Guarded ∧ q.live.program.Sound q.live.lines := by
  induction walks with
  | here => exact ⟨(List.append_nil trail).symm ▸ holds, guarded, sound⟩
  | pass _ passed ih =>
    obtain ⟨sofar, guardedThen, soundThen⟩ := ih
    rw [← List.append_assoc]
    exact ⟨lasting.goesOn sofar guardedThen soundThen passed, guardedThen.pass passed,
      Progress.pass_sound passed (fun _ _ => by simp) soundThen⟩

variable {φ : Type} {s₀ s : Scheduler Machine φ} {trail : List (Progress Machine)}

theorem Underway.reachable (underway : Underway s₀ trail s) (reachable : Reachable s₀) :
    Reachable s := by
  induction underway with
  | here => exact reachable
  | event _ event ih => exact .perform ih (Operation.given_of_event event)

theorem Lasting.burst (lasting : Lasting between within) (reachable : Reachable s)
    {operation : Operation Machine φ} {live : Live Machine} {request : Request}
    (runs : Bursts s operation live request) (event : operation.isEvent = true)
    (holds : between trail s.live) :
    within trail request (Progress.begin live) ∧ (Progress.begin live).Guarded ∧
      (Progress.begin live).live.program.Sound (Progress.begin live).live.lines := by
  obtain ⟨before, here, program, lines, controller, tick⟩ := runs.begun event
  rw [here] at holds
  have sound : live.program.Sound live.lines :=
    runs.sound (fun _ here => reachable.sound here) (Operation.given_of_event event)
  exact ⟨lasting.begins holds program lines controller runs.active tick,
    Progress.begin_guarded runs.active, sound⟩

theorem Underway.holds (underway : Underway s₀ trail s) (lasting : Lasting between within)
    (reachable : Reachable s₀) (first : between [] s₀.live) : between trail s.live := by
  induction underway with
  | here => exact first
  | @event trail s operation before event ih =>
    have reachableThen := before.reachable reachable
    rcases Scheduler.event_cases event with ⟨live, request, runs, same, leaves⟩ | ⟨silent, idles⟩
    · obtain ⟨holds, guarded, sound⟩ := lasting.burst reachableThen runs event ih
      have ends := Progress.passes_end s.breakpoints guarded sound
        (Progress.reserve_begin live request s.settings.tickBudget)
      rw [same, Live.trail]
      unfold Live.burst at leaves
      generalize ran : (Progress.begin live).passes _ _ _ _ = result at ends leaves
      obtain ⟨q, ending⟩ := result
      obtain ⟨more, last, walks, ended, split⟩ := Progress.trail_ends ran ends
      obtain ⟨sofar, guardedThen, soundThen⟩ := lasting.walks holds guarded sound walks
      obtain ⟨gone, kept⟩ := lasting.ends sofar guardedThen soundThen ended
      rw [split, ← List.append_assoc]
      cases there : (s.perform operation).live with
      | none => exact gone
      | some next => exact kept next (leaves next there)
    · rw [silent, List.append_nil]
      cases there : (s.perform operation).live with
      | none =>
        cases here : s.live with
        | none => exact here ▸ ih
        | some live => exact lasting.gone (here ▸ ih)
      | some next =>
        obtain ⟨live, here, idled⟩ := idles next there
        exact lasting.idles (here ▸ ih) idled

theorem ComesTo.holds {request : Request} {p : Progress Machine}
    (comes : ComesTo s₀ trail s request p) (lasting : Lasting between within)
    (reachable : Reachable s₀) (first : between [] s₀.live) : within trail request p := by
  cases comes with
  | walks underway event runs walks =>
    obtain ⟨holds, guarded, sound⟩ := lasting.burst (underway.reachable reachable) runs event
      (underway.holds lasting reachable first)
    exact (lasting.walks holds guarded sound walks).1

end

end Metronome.Run
