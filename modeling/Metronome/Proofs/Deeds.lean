import Metronome.Proofs.Descent

/-!
What a run does: the arrivals and the steps of its bursts, in their order and each with the moment
before it, for any interpreter. A property of a moment and of what was done before it is carried
through a burst by `Progress.Tracks.burst`.
-/
namespace Metronome.Run

open Metronome.Debug (Breakpoints)

/-- What a pass does that is not over at once. -/
inductive Deed where
  | arrives
  | steps
  | fails
  deriving DecidableEq, Repr

variable {σ φ : Type} [Interpreter σ]

namespace Progress

/-- What the next pass does, with the moment before it; nothing if the pass is over at once. -/
def deed (breakpoints : Breakpoints) (request : Request) (budget : Nat) (p : Progress σ) :
    List (Progress σ × Deed) :=
  if p.stopsNow request budget || Interpreter.isComplete p.live.program then []
  else if (p.arrival breakpoints).2.2 then [(p, .arrives)]
  else if (p.stepped request).1.error.isSome then [(p, .fails)]
  else [(p, .steps)]

def deeds (breakpoints : Breakpoints) (request : Request) (budget : Nat) :
    Nat → Progress σ → List (Progress σ × Deed)
  | 0, _ => []
  | fuel + 1, p =>
    p.deed breakpoints request budget ++
      match p.pass breakpoints request budget with
      | (_, some _) => []
      | (q, none) => q.deeds breakpoints request budget fuel

variable {breakpoints : Breakpoints} {request : Request} {budget fuel : Nat} {p q : Progress σ}

theorem deed_over (ends : p.stopsNow request budget = true ∨
    Interpreter.isComplete p.live.program = true) : p.deed breakpoints request budget = [] := by
  rw [deed, if_pos (by simpa using ends)]

theorem deed_proceeds (proceeds : p.Proceeds request budget) :
    p.deed breakpoints request budget =
      if (p.arrival breakpoints).2.2 then [(p, .arrives)]
      else if (p.stepped request).1.error.isSome then [(p, .fails)]
      else [(p, .steps)] := by
  rw [deed, if_neg (by simp [proceeds.not_stopsNow, proceeds.incomplete])]

inductive Does (breakpoints : Breakpoints) (request : Request) (budget : Nat) (p : Progress σ) :
    List (Progress σ × Deed) → Progress σ × Option Ending → Prop where
  | nothing {ending : Ending} (fine : ∀ error line, ending ≠ .failed error line) :
      Does breakpoints request budget p [] (p, some ending)
  | arrives {q : Progress σ} (proceeds : p.Proceeds request budget)
      (arrives : (p.arrival breakpoints).2.2 = true) (after : Arrived breakpoints request p q) :
      Does breakpoints request budget p [(p, .arrives)] (q, none)
  | steps {q : Progress σ} {ending : Option Ending} (proceeds : p.Proceeds request budget)
      (passesBy : (p.arrival breakpoints).2.2 = false) (after : Judged request p q)
      (fine : ∀ error line, ending ≠ some (.failed error line)) :
      Does breakpoints request budget p [(p, .steps)] (q, ending)
  | fails {q : Progress σ} {error : StepError} (proceeds : p.Proceeds request budget)
      (passesBy : (p.arrival breakpoints).2.2 = false) :
      Does breakpoints request budget p [(p, .fails)] (q, some (.failed error p.line))

theorem pass_does (breakpoints : Breakpoints) (request : Request) (budget : Nat)
    (p : Progress σ) :
    Does breakpoints request budget p (p.deed breakpoints request budget)
      (p.pass breakpoints request budget) := by
  have spec := pass_spec breakpoints request budget p
  generalize p.pass breakpoints request budget = result at spec ⊢
  cases spec with
  | stopped stops =>
    rw [deed_over (.inl (by simp [stopsNow, stops]))]
    exact .nothing (by simp)
  | exhausted spent still =>
    rw [deed_over (.inl (by simp [stopsNow, spent, still]))]
    exact .nothing (by simp)
  | complete goesOn complete =>
    rw [deed_over (.inr complete)]
    exact .nothing (by simp)
  | arrived proceeds arrives after =>
    rw [deed_proceeds proceeds, if_pos arrives]
    exact .arrives proceeds arrives after
  | failed proceeds passesBy fails after =>
    rw [deed_proceeds proceeds, if_neg (by simp [passesBy]), if_pos (by simp [fails])]
    exact .fails proceeds passesBy
  | stepped proceeds passesBy fine after =>
    rw [deed_proceeds proceeds, if_neg (by simp [passesBy]), if_neg (by simp [fine])]
    exact .steps proceeds passesBy after fun error line => by split <;> simp

theorem mem_deeds {deed : Deed} (did : (q, deed) ∈ p.deeds breakpoints request budget fuel) :
    Reaches breakpoints request budget p q ∧ q.Proceeds request budget ∧
      (deed = .arrives → (q.arrival breakpoints).2.2 = true) := by
  induction fuel generalizing p with
  | zero => cases did
  | succ fuel ih =>
    rw [deeds, List.mem_append] at did
    have does := pass_does breakpoints request budget p
    generalize passed : p.pass breakpoints request budget = result at did does
    generalize p.deed breakpoints request budget = done at did does
    rcases did with here | later
    · cases does with
      | nothing => cases here
      | arrives proceeds arrives =>
        cases List.mem_singleton.mp here
        exact ⟨.here, proceeds, fun _ => arrives⟩
      | steps proceeds | fails proceeds =>
        cases List.mem_singleton.mp here
        exact ⟨.here, proceeds, nofun⟩
    · obtain ⟨next, ending⟩ := result
      cases ending with
      | some => cases later
      | none =>
        obtain ⟨reaches, rest⟩ := ih later
        exact ⟨reaches.after passed, rest⟩

theorem deeds_later {before after : List (Progress σ × Deed)} {r : Progress σ} {deed other : Deed}
    (same : p.deeds breakpoints request budget fuel = before ++ (q, deed) :: after)
    (later : (r, other) ∈ after) :
    ∃ next, q.pass breakpoints request budget = (next, none) ∧
      Reaches breakpoints request budget next r := by
  induction fuel generalizing p before with
  | zero => exact absurd same.symm (by simp [deeds])
  | succ fuel ih =>
    rw [deeds] at same
    have does := pass_does breakpoints request budget p
    generalize passed : p.pass breakpoints request budget = result at same does
    generalize p.deed breakpoints request budget = done at same does
    have single : ∀ did rest, [(p, did)] ++ rest = before ++ (q, deed) :: after →
        (q = p ∧ after = rest) ∨ ∃ front, rest = front ++ (q, deed) :: after := by
      intro did rest same
      cases before with
      | nil =>
        obtain ⟨first, rfl⟩ := List.cons.inj same
        cases first
        exact .inl ⟨rfl, rfl⟩
      | cons first front => exact .inr ⟨front, (List.cons.inj same).2⟩
    cases does with
    | nothing => exact absurd same.symm (by simp)
    | @arrives next =>
      rcases single _ _ same with ⟨rfl, rfl⟩ | ⟨front, rest⟩
      · exact ⟨next, passed, (mem_deeds later).1⟩
      · exact ih rest
    | @steps next ending =>
      cases ending with
      | none =>
        rcases single _ _ same with ⟨rfl, rfl⟩ | ⟨front, rest⟩
        · exact ⟨next, passed, (mem_deeds later).1⟩
        · exact ih rest
      | some =>
        rcases single _ _ same with ⟨-, rfl⟩ | ⟨front, rest⟩
        · cases later
        · exact absurd rest.symm (by simp)
    | fails =>
      rcases single _ _ same with ⟨-, rfl⟩ | ⟨front, rest⟩
      · cases later
      · exact absurd rest.symm (by simp)

/-- What holds of a moment and of what was done before it, from one pass to the next; `lost` is what
is left of it when a step fails. -/
structure Tracks (breakpoints : Breakpoints) (request : Request) (budget : Nat)
    (holds : List (Progress σ × Deed) → Progress σ → Prop)
    (lost : List (Progress σ × Deed) → Prop) : Prop where
  arrives : ∀ {done p q}, holds done p → p.Proceeds request budget →
    (p.arrival breakpoints).2.2 = true → Arrived breakpoints request p q →
      holds (done ++ [(p, .arrives)]) q
  steps : ∀ {done p q}, holds done p → p.Proceeds request budget →
    (p.arrival breakpoints).2.2 = false → Judged request p q → holds (done ++ [(p, .steps)]) q
  fails : ∀ {done p}, holds done p → p.Proceeds request budget →
    (p.arrival breakpoints).2.2 = false → lost (done ++ [(p, .fails)])

def Each (law : List (Progress σ × Deed) → Progress σ → Deed → Prop)
    (done : List (Progress σ × Deed)) : Prop :=
  ∀ before p deed after, done = before ++ (p, deed) :: after → law before p deed

omit [Interpreter σ] in
theorem Each.nil {law : List (Progress σ × Deed) → Progress σ → Deed → Prop} : Each law [] :=
  fun before _ _ after same => by simp at same

omit [Interpreter σ] in
theorem Each.concat {law : List (Progress σ × Deed) → Progress σ → Deed → Prop}
    {done : List (Progress σ × Deed)} {deed : Deed} (each : Each law done) (last : law done p deed) :
    Each law (done ++ [(p, deed)]) := by
  intro before r other after same
  rcases List.eq_nil_or_concat after with rfl | ⟨rest, final, rfl⟩
  · obtain ⟨rfl, one⟩ := List.append_inj' same rfl
    cases one
    exact last
  · rw [List.concat_eq_append, ← List.cons_append, ← List.append_assoc] at same
    exact each before r other rest (List.append_inj' same rfl).1

inductive Tracked (holds : List (Progress σ × Deed) → Progress σ → Prop)
    (lost : List (Progress σ × Deed) → Prop) (done : List (Progress σ × Deed)) :
    Progress σ × Ending → Prop where
  | holds {q : Progress σ} {ending : Ending} (fine : ∀ error line, ending ≠ .failed error line)
      (here : holds done q) : Tracked holds lost done (q, ending)
  | lost {q : Progress σ} {error : StepError} {line : Option Nat} (here : lost done) :
      Tracked holds lost done (q, .failed error line)

variable {holds : List (Progress σ × Deed) → Progress σ → Prop}
  {lost : List (Progress σ × Deed) → Prop}

theorem Tracks.passes (tracks : Tracks breakpoints request budget holds lost)
    {done : List (Progress σ × Deed)} (here : holds done p) :
    Tracked holds lost (done ++ p.deeds breakpoints request budget fuel)
      (p.passes breakpoints request budget fuel) := by
  -- The induction is on the passes that are left; what was done before them is an argument of it.
  induction fuel generalizing done p with
  | zero =>
    rw [deeds, List.append_nil]
    exact .holds (by simp) here
  | succ fuel ih =>
    rw [deeds, Progress.passes]
    have does := pass_does breakpoints request budget p
    generalize p.pass breakpoints request budget = result at does ⊢
    generalize p.deed breakpoints request budget = did at does ⊢
    cases does with
    | nothing fine =>
      rw [List.append_nil, List.append_nil]
      exact .holds fine here
    | arrives proceeds arrives after =>
      dsimp only
      rw [← List.append_assoc]
      exact ih (tracks.arrives here proceeds arrives after)
    | @steps _ ending proceeds passesBy after fine =>
      have next := tracks.steps here proceeds passesBy after
      cases ending with
      | none =>
        dsimp only
        rw [← List.append_assoc]
        exact ih next
      | some ending =>
        dsimp only
        rw [List.append_nil]
        exact .holds (fun error line same => fine error line (by rw [same])) next
    | fails proceeds passesBy =>
      dsimp only
      rw [List.append_nil]
      exact .lost (tracks.fails here proceeds passesBy)

end Progress

def Live.deeds (live : Live σ) (breakpoints : Breakpoints) (request : Request) (budget : Nat) :
    List (Progress σ × Deed) :=
  (Progress.begin live).deeds breakpoints request budget (Progress.limit live budget)

theorem Progress.Tracks.burst {breakpoints : Breakpoints} {request : Request} {budget : Nat}
    {holds : List (Progress σ × Deed) → Progress σ → Prop}
    {lost : List (Progress σ × Deed) → Prop}
    (tracks : Tracks breakpoints request budget holds lost) {live : Live σ}
    {done : List (Progress σ × Deed)} (first : holds done (begin live)) :
    Tracked holds lost (done ++ live.deeds breakpoints request budget)
      (live.burst breakpoints request budget) := by
  unfold Live.burst
  exact tracks.passes first

namespace Scheduler

def deeds (s : Scheduler σ φ) (operation : Operation σ φ) : List (Progress σ × Deed) :=
  match s.burstOf operation with
  | some (live, request) => live.deeds s.breakpoints request s.settings.tickBudget
  | none => []

theorem deeds_burst {s : Scheduler σ φ} {operation : Operation σ φ} {live : Live σ}
    {request : Request} (runs : Bursts s operation live request) :
    s.deeds operation = live.deeds s.breakpoints request s.settings.tickBudget := by
  simp only [deeds, bursts_iff.mp runs]

theorem deeds_quiet {s : Scheduler σ φ} {operation : Operation σ φ}
    (quiet : s.burstOf operation = none) : s.deeds operation = [] := by
  simp only [deeds, quiet]

def deedsAll (s : Scheduler σ φ) : List (Operation σ φ) → List (Progress σ × Deed)
  | [] => []
  | operation :: operations => s.deeds operation ++ (s.perform operation).deedsAll operations

end Scheduler

end Metronome.Run
