import Metronome.Proofs.Entry
import Metronome.Proofs.Ledger
import Metronome.Proofs.Setup

namespace Metronome.Run

open Metronome.Debug (Command)
open Metronome.Script (Loaded Machine load_any)

variable {σ φ : Type} [Interpreter σ]

namespace Scheduler

def opening {σ φ : Type} (s : Scheduler σ φ) : Operation σ φ → List Movement
  | .dispatch callback _ => if s.live.isSome then [.dispatched callback] else []
  | _ => []

def during (s : Scheduler σ φ) (operation : Operation σ φ) : List Movement :=
  match s.burstOf operation with
  | some (_, request) => Progress.movements request (s.deeds operation)
  | none => []

/-- What is released at the end of a tick after its burst, nothing if a step failed. -/
def releasedAfter {σ : Type} (ended : Instant) : Progress σ × Ending → List Movement
  | (_, .failed _ _) => []
  | (p, _) => (p.live.timers.due ended).map .released

/-- What is released at the end of an operation's tick: of the live run, which may be at rest, or of
a new one. -/
def closing (s : Scheduler σ φ) (operation : Operation σ φ) : List Movement :=
  match operation, s.burstOf operation with
  | .tick _ _ ended, some (live, request) =>
    releasedAfter ended (live.burst s.breakpoints request s.settings.tickBudget)
  | .start _ _ _ ended, some (live, request) =>
    releasedAfter ended (live.burst s.breakpoints request s.settings.tickBudget)
  | .tick tick _ ended, none =>
    match s.live with
    | some live => if tick.run = s.runNumber then (live.timers.due ended).map .released else []
    | none => []
  | _, _ => []

def movements (s : Scheduler σ φ) (operation : Operation σ φ) : List Movement :=
  s.opening operation ++ (s.during operation ++ s.closing operation)

/-- The movements in the live run up to an operation, which may open another one. -/
def kept {σ φ : Type} (ledger : List Movement) (operation : Operation σ φ) : List Movement :=
  if operation.opens then [] else ledger

def ledger (s : Scheduler σ φ) (before : List Movement) : List (Operation σ φ) → List Movement
  | [] => before
  | operation :: operations =>
    (s.perform operation).ledger (kept before operation ++ s.movements operation) operations

def Balances {σ φ : Type} (s : Scheduler σ φ) (ledger : List Movement) : Prop :=
  ∀ live, s.live = some live →
    Balanced s.settings.maxMarshalDepth ledger live.queue live.timers

variable {s : Scheduler σ φ} {operation : Operation σ φ} {ledger : List Movement} {next : Live σ}

theorem closeTick_balanced {depth : Nat} {live : Live σ} {ended : Instant}
    (there : (s.closeTick live ended).live = some next)
    (balanced : Balanced depth ledger live.queue live.timers) :
    Balanced depth (ledger ++ (live.timers.due ended).map .released) next.queue next.timers := by
  rcases closeTick_live s live ended with gone | kept
  · rw [gone] at there
    cases there
  · rw [kept] at there
    cases there
    exact balanced.releases ended

theorem settle_balanced {depth : Nat} {request : Request} {done : List (Progress σ × Deed)}
    {atMaxSpeed : Bool} {ended : Instant} {result : Progress σ × Ending}
    {lost : List (Progress σ × Deed) → Prop}
    (tracked : Progress.Tracked
      (fun done p => Progress.Accounts depth ledger request done ∧
        Balanced depth (ledger ++ Progress.movements request done) p.live.queue p.live.timers)
      lost done result)
    (there : (s.settle atMaxSpeed ended result).live = some next) :
    Balanced depth (ledger ++ (Progress.movements request done ++ releasedAfter ended result))
      next.queue next.timers := by
  cases tracked with
  | @holds q ending fine here =>
    rw [settle_closes s atMaxSpeed ended q fine] at there
    obtain ⟨lastSelected, same⟩ := shown_live atMaxSpeed q
    have frees : releasedAfter ended (q, ending) = (q.live.timers.due ended).map .released := by
      cases ending with
      | failed error line => exact absurd rfl (fine error line)
      | _ => rfl
    rw [same] at there
    rw [frees, ← List.append_assoc]
    have closed := closeTick_balanced there here.2
    exact closed
  | lost =>
    rw [show (s.settle atMaxSpeed ended (_, .failed _ _)).live = none from failRun_live _ _ _]
      at there
    cases there

theorem answer_balanced {depth : Nat} {request : Request} {done : List (Progress σ × Deed)}
    {result : Progress σ × Ending} {lost : List (Progress σ × Deed) → Prop}
    (tracked : Progress.Tracked
      (fun done p => Progress.Accounts depth ledger request done ∧
        Balanced depth (ledger ++ Progress.movements request done) p.live.queue p.live.timers)
      lost done result)
    (there : (s.answer result).1.live = some next) :
    Balanced depth (ledger ++ Progress.movements request done) next.queue next.timers := by
  cases tracked with
  | @holds q ending fine here =>
    cases ending with
    | failed error line => exact absurd rfl (fine error line)
    | _ =>
      unfold answer at there
      rw [reportStop_live] at there
      cases there
      exact here.2
  | lost =>
    rw [show (s.answer (_, .failed _ _)).1.live = none from failRun_live _ _ _] at there
    cases there

omit [Interpreter σ] in
theorem Balances.begins (balances : s.Balances ledger) {live : Live σ} {request : Request}
    (runs : Bursts s operation live request) :
    request.maxDepth = s.settings.maxMarshalDepth ∧
      Balanced s.settings.maxMarshalDepth (kept ledger operation ++ s.opening operation)
        live.queue live.timers := by
  cases runs with
  | @tick live _ _ _ here =>
    refine ⟨rfl, ?_⟩
    rw [show s.opening (.tick _ _ _) = [] from rfl, List.append_nil]
    exact balances live here
  | @dispatch live callback now here =>
    have opens : s.opening (.dispatch callback now) = [.dispatched callback] := by
      simp [opening, here]
    rw [opens]
    exact ⟨rfl, (balances live here).dispatched callback⟩
  | start => exact ⟨rfl, .empty _⟩

theorem Balances.accounts (balances : s.Balances ledger) {live : Live σ} {request : Request}
    (runs : Bursts s operation live request) :
    Progress.Accounts s.settings.maxMarshalDepth (kept ledger operation ++ s.opening operation)
      request (s.deeds operation) := by
  obtain ⟨sameDepth, begins⟩ := balances.begins runs
  have tracked := begins.burst s.breakpoints s.settings.tickBudget sameDepth
  rw [deeds_burst runs]
  generalize live.burst s.breakpoints request s.settings.tickBudget = result at tracked
  cases tracked with
  | holds _ here => exact here.1
  | lost here => exact here

theorem Balances.tick {tick : PendingTick} {began ended : Instant} (balances : s.Balances ledger)
    (there : (s.onTick tick began ended).live = some next) :
    Balanced s.settings.maxMarshalDepth (ledger ++ s.movements (.tick tick began ended))
      next.queue next.timers := by
  cases here : s.live with
  | none =>
    rw [onTick_stale began ended (.inl here), here] at there
    cases there
  | some live =>
    by_cases current : tick.run = s.runNumber
    · cases steps : live.controller.beginTick.2 with
      | true =>
        have runs : Bursts s (.tick tick began ended) live.ticked (s.tickRequest began) :=
          .tick here current steps
        obtain ⟨sameDepth, begins⟩ := balances.begins runs
        have moves : s.movements (.tick tick began ended) =
            [] ++ (Progress.movements (s.tickRequest began) (live.ticked.deeds s.breakpoints
                (s.tickRequest began) s.settings.tickBudget) ++
              releasedAfter ended (live.ticked.burst s.breakpoints (s.tickRequest began)
                s.settings.tickBudget)) := by
          simp only [movements, during, closing, bursts_iff.mp runs, deeds_burst runs]
          rfl
        rw [onTick_steps began ended here current steps] at there
        rw [moves, List.nil_append]
        rw [show kept ledger (.tick tick began ended) ++ s.opening (.tick tick began ended) = ledger
          from List.append_nil _] at begins
        exact settle_balanced (begins.burst _ _ sameDepth) there
      | false =>
        have quiet : s.burstOf (.tick tick began ended) = none := by
          simp [burstOf, here, steps]
        have moves : s.movements (.tick tick began ended) =
            (live.ticked.timers.due ended).map .released := by
          simp [movements, opening, during, closing, quiet, here, current, Live.ticked]
        rw [onTick_rests began ended here current steps] at there
        rw [moves]
        exact closeTick_balanced there (balances live here)
    · have quiet : s.burstOf (.tick tick began ended) = none := by
        simp [burstOf, here, current]
      have moves : s.movements (.tick tick began ended) = [] := by
        simp [movements, opening, during, closing, quiet, here, current]
      rw [onTick_stale began ended (.inr current)] at there
      rw [moves, List.append_nil]
      exact balances next there

theorem Balances.dispatch {callback : Callback} {now : Instant} (balances : s.Balances ledger)
    (there : (s.dispatch callback now).1.live = some next) :
    Balanced s.settings.maxMarshalDepth (ledger ++ s.movements (.dispatch callback now))
      next.queue next.timers := by
  cases here : s.live with
  | none =>
    simp [Scheduler.dispatch, here] at there
  | some live =>
    have opens : s.opening (.dispatch callback now) = [.dispatched callback] := by
      simp [opening, here]
    cases paused : live.controller.isPaused with
    | true =>
      have quiet : s.burstOf (.dispatch callback now) = none := by simp [burstOf, here, paused]
      have moves : s.movements (.dispatch callback now) = [.dispatched callback] := by
        simp [movements, opens, during, closing, quiet]
      simp only [Scheduler.dispatch, here, paused, if_true, Option.some.injEq] at there
      subst there
      rw [moves]
      exact (balances live here).dispatched callback
    | false =>
      have runs : Bursts s (.dispatch callback now) (live.called callback) (s.dispatchRequest now) :=
        .dispatch here paused
      obtain ⟨sameDepth, begins⟩ := balances.begins runs
      have moves : s.movements (.dispatch callback now) = s.opening (.dispatch callback now) ++
          Progress.movements (s.dispatchRequest now) ((live.called callback).deeds s.breakpoints
            (s.dispatchRequest now) s.settings.tickBudget) := by
        simp only [movements, during, closing, bursts_iff.mp runs, deeds_burst runs, List.append_nil]
      rw [dispatch_answers callback now here paused] at there
      rw [moves, ← List.append_assoc]
      exact answer_balanced (begins.burst _ _ sameDepth) there

theorem Balances.start {program : σ} {lines : LineMap} {began ended : Instant}
    (there : (s.start program lines began ended).live = some next) :
    Balanced s.settings.maxMarshalDepth (s.movements (.start program lines began ended))
      next.queue next.timers := by
  cases entry : s.settings.pauseOnEntry with
  | true =>
    have quiet : s.burstOf (.start program lines began ended) = none := by simp [burstOf, entry]
    have moves : s.movements (.start program lines began ended) = [] := by
      simp [movements, opening, during, closing, quiet]
    rw [start_waits program lines began ended entry] at there
    cases there
    rw [moves]
    exact .empty _
  | false =>
    have runs : Bursts s (.start program lines began ended) (Live.start program lines false).ticked
        (s.tickRequest began) := .start entry
    have begins : Balanced s.settings.maxMarshalDepth [] (Live.start program lines false).ticked.queue
        (Live.start program lines false).ticked.timers := .empty _
    have moves : s.movements (.start program lines began ended) =
        [] ++ (Progress.movements (s.tickRequest began) ((Live.start program lines false).ticked.deeds
            s.breakpoints (s.tickRequest began) s.settings.tickBudget) ++
          releasedAfter ended ((Live.start program lines false).ticked.burst s.breakpoints
            (s.tickRequest began) s.settings.tickBudget)) := by
      simp only [movements, during, closing, bursts_iff.mp runs, deeds_burst runs]
      rfl
    rw [start_steps program lines began ended entry] at there
    rw [moves]
    exact settle_balanced (begins.burst s.breakpoints s.settings.tickBudget rfl) there

/-- An operation's movements keep the ledger of the live run in balance. -/
theorem Balances.perform (balances : s.Balances ledger) (operation : Operation σ φ) :
    (s.perform operation).Balances (kept ledger operation ++ s.movements operation) := by
  intro next there
  rw [perform_settings]
  have idle : ∀ {operation : Operation σ φ}, s.movements operation = [] →
      kept ledger operation = ledger → s.live = some next →
        Balanced s.settings.maxMarshalDepth (kept ledger operation ++ s.movements operation)
          next.queue next.timers := by
    intro operation moves same here
    rw [moves, same, List.append_nil]
    exact balances next here
  cases operation with
  | install rule => exact idle rfl rfl there
  | start program lines began ended =>
    have fresh : kept ledger (.start program lines began ended : Operation σ φ) = [] := rfl
    rw [fresh, List.nil_append]
    exact Balances.start there
  | take => exact idle rfl rfl there
  | tick tick began ended => exact balances.tick there
  | dispatch callback now => exact balances.dispatch there
  | command command =>
    obtain ⟨live, controller, here, rfl, -⟩ := apply_minds there
    have moves : s.movements (.command command) = [] := rfl
    rw [moves, List.append_nil]
    exact balances live here
  | reset =>
    have gone : s.reset.live = none := endRun_live s .stopped
    rw [Scheduler.perform, gone] at there
    cases there

theorem Balances.performAll (balances : s.Balances ledger) (operations : List (Operation σ φ)) :
    (s.performAll operations).Balances (s.ledger ledger operations) := by
  induction operations generalizing s ledger with
  | nil => exact balances
  | cons operation operations ih => exact ih (balances.perform operation)

end Scheduler

/-- Whatever is done with a scheduler, at each time the callbacks that were pushed in the live run are
those that the program got, in that order and but for what is cut off of their arguments, and then
the queue; and each timer that was set is pending or has been released, once. So it is between
operations, and within their bursts before each step and after each native call. -/
theorem callbacks_conserved (settings : Settings) (finish : Option (FinishRule φ))
    (operations : List (Operation σ φ)) :
    let s := (Scheduler.new settings finish).performAll operations
    let ledger := (Scheduler.new settings finish).ledger [] operations
    (∀ live, s.live = some live →
        Balanced settings.maxMarshalDepth ledger live.queue live.timers) ∧
      ∀ operation live request, Bursts s operation live request →
        Progress.Accounts settings.maxMarshalDepth
          (Scheduler.kept ledger operation ++ s.opening operation) request (s.deeds operation) := by
  have begins : (Scheduler.new settings finish : Scheduler σ φ).Balances [] := by
    intro live here
    cases here
  have balances := begins.performAll operations
  have same : ((Scheduler.new settings finish : Scheduler σ φ).performAll operations).settings =
      settings := Scheduler.performAll_settings _ _
  intro s ledger
  rw [← same]
  exact ⟨balances, fun _ _ _ runs => balances.accounts runs⟩

def delaying : List Char := "func f x\n  print x\nend\ntimeout f 0 1\n".toList

def dispatchingPaused (loaded : Loaded) : List (Operation Machine Unit) :=
  [.start loaded.machine loaded.text.lineMap 0 0, .command .pause, .dispatch ⟨"f", []⟩ 0,
    .command .resume]

/-- Both callbacks wait in the queue, and go from there to the program. -/
theorem delaying_callbacks_conserved : ∃ loaded, Script.load delaying = .ok loaded ∧
    let s := Scheduler.performAll (.new .default none) (dispatchingPaused loaded)
    let ledger := Scheduler.ledger (.new .default none) [] (dispatchingPaused loaded)
    (∃ live, s.live = some live ∧ live.queue.length = 2 ∧ (released ledger).length = 1 ∧
        Balanced Settings.default.maxMarshalDepth ledger live.queue live.timers) ∧
      ∃ live, Bursts s (.tick ⟨1, 0⟩ 0 0) live (s.tickRequest 0) ∧
        handedOut (s.movements (.tick ⟨1, 0⟩ 0 0)) ≠ [] ∧
        Progress.Accounts Settings.default.maxMarshalDepth ledger (s.tickRequest 0)
          (s.deeds (.tick ⟨1, 0⟩ 0 0)) := by
  have computed : (Script.load delaying).toOption.any (fun loaded =>
      let s := Scheduler.performAll (.new .default none) (dispatchingPaused loaded)
      let ledger := Scheduler.ledger (.new .default none) [] (dispatchingPaused loaded)
      s.live.any (·.queue.length == 2) && (released ledger).length == 1 &&
        (s.burstOf (.tick ⟨1, 0⟩ 0 0)).isSome &&
        !(handedOut (s.movements (.tick ⟨1, 0⟩ 0 0))).isEmpty) = true := by
    decide +kernel
  obtain ⟨loaded, read, holds⟩ := load_any computed
  simp only [Bool.and_eq_true, beq_iff_eq, Bool.not_eq_true', List.isEmpty_eq_false_iff,
    Option.any_eq_true] at holds
  obtain ⟨⟨⟨⟨live, here, waiting⟩, freed⟩, bursts⟩, handed⟩ := holds
  obtain ⟨⟨begun, request⟩, found⟩ := Option.isSome_iff_exists.mp bursts
  have runs := bursts_iff.mpr found
  have conserved := callbacks_conserved .default none (dispatchingPaused loaded)
  refine ⟨loaded, read, ⟨live, here, waiting, freed, conserved.1 live here⟩, begun, ?_⟩
  have asked : request = Scheduler.tickRequest
      (Scheduler.performAll (.new .default none) (dispatchingPaused loaded)) 0 := by
    cases runs
    rfl
  subst asked
  have accounts := conserved.2 _ begun _ runs
  rw [show ∀ ledger : List Movement, Scheduler.kept ledger (.tick ⟨1, 0⟩ 0 0) ++
    Scheduler.opening _ (.tick ⟨1, 0⟩ 0 0) = ledger from List.append_nil] at accounts
  exact ⟨runs, handed, accounts⟩

end Metronome.Run
