import Metronome.Proofs.Conservation

namespace Metronome.Run

open Metronome.Script (Loaded Machine load_any)

namespace Timer

/-- A timer is due earlier than another one, or together with it and was set earlier. -/
def Before (left right : Timer) : Prop :=
  ∃ early late, left.due = some early ∧ right.due = some late ∧
    (early < late ∨ early = late ∧ left.number < right.number)

theorem isDue_iff {now : Instant} {timer : Timer} :
    timer.isDue now = true ↔ ∃ due, timer.due = some due ∧ due ≤ now := by
  simp [isDue, Option.any_eq_true]

theorem isDue_mono {now later : Instant} {timer : Timer} (due : timer.isDue now = true)
    (goesOn : now ≤ later) : timer.isDue later = true := by
  obtain ⟨instant, here, past⟩ := isDue_iff.mp due
  exact isDue_iff.mpr ⟨instant, here, past.trans goesOn⟩

theorem Before.of_due {now : Instant} {left right : Timer} (due : left.isDue now = true)
    (waits : right.isDue now = false) (shows : right.due.isSome = true) : left.Before right := by
  obtain ⟨early, here, past⟩ := isDue_iff.mp due
  obtain ⟨late, there⟩ := Option.isSome_iff_exists.mp shows
  have later : now < late := by simpa [isDue, there] using waits
  exact ⟨early, late, here, there, .inl (past.trans_lt later)⟩

theorem Before.of_set {now moment : Instant} {left right : Timer} {delay : Duration}
    (due : left.isDue now = true) (later : now ≤ moment)
    (set : right.due = dueAfter moment delay) (shows : right.due.isSome = true)
    (numbered : left.number < right.number) : left.Before right := by
  obtain ⟨early, here, past⟩ := isDue_iff.mp due
  obtain ⟨late, there⟩ := Option.isSome_iff_exists.mp shows
  have after : late = moment + delay := by
    rw [set, dueAfter] at there
    split at there
    · exact (Option.some.inj there).symm
    · cases there
  have notLater : early ≤ late := past.trans (later.trans (after ▸ Nat.le_add_right moment delay))
  exact ⟨early, late, here, there, (Nat.lt_or_eq_of_le notLater).imp_right fun same =>
    ⟨same, numbered⟩⟩

theorem precedes_iff {left right : Timer} : left.precedes right = true ↔
    left.due.getD 0 < right.due.getD 0 ∨
      left.due.getD 0 = right.due.getD 0 ∧ left.number ≤ right.number := by
  simp [precedes]

theorem precedes_trans (first second third : Timer) (left : first.precedes second = true)
    (right : second.precedes third = true) : first.precedes third = true := by
  rw [precedes_iff] at left right ⊢
  rcases left with less | ⟨same, numbered⟩
  · exact .inl (right.elim less.trans fun same => same.1 ▸ less)
  · rw [same]
    exact right.imp_right fun ⟨equal, later⟩ => ⟨equal, numbered.trans later⟩

theorem precedes_total (left right : Timer) :
    (left.precedes right || right.precedes left) = true := by
  rw [Bool.or_eq_true, precedes_iff, precedes_iff]
  rcases Nat.lt_trichotomy (left.due.getD 0) (right.due.getD 0) with less | same | greater
  · exact .inl (.inl less)
  · exact (Nat.le_total left.number right.number).imp (fun le => .inr ⟨same, le⟩)
      fun le => .inr ⟨same.symm, le⟩
  · exact .inr (.inl greater)

theorem Before.of_precedes {now : Instant} {left right : Timer} (first : left.isDue now = true)
    (second : right.isDue now = true) (precedes : left.precedes right = true)
    (other : left.number ≠ right.number) : left.Before right := by
  obtain ⟨early, here, -⟩ := isDue_iff.mp first
  obtain ⟨late, there, -⟩ := isDue_iff.mp second
  rw [precedes_iff, here, there] at precedes
  exact ⟨early, late, here, there, precedes.imp_right fun ⟨same, numbered⟩ =>
    ⟨same, Nat.lt_of_le_of_ne numbered other⟩⟩

end Timer

section

variable {depth : Nat} {ledger more : List Movement} {queue : Queue} {timers : Timers}
  {now later : Instant}

theorem mem_due {timer : Timer} :
    timer ∈ timers.due now ↔ timer ∈ timers.pending ∧ timer.isDue now = true := by
  rw [Timers.due, List.mem_mergeSort, List.mem_filter]

theorem due_ordered (numbers : (timers.pending.map (·.number)).Nodup) (now : Instant) :
    (timers.due now).Pairwise Timer.Before := by
  have perm : (timers.due now).Perm (timers.pending.filter (Timer.isDue now)) :=
    List.mergeSort_perm _ _
  have once : ((timers.due now).map (·.number)).Nodup := by
    rw [(perm.map (·.number)).nodup_iff]
    exact numbers.sublist (List.filter_sublist.map _)
  have sorted := List.pairwise_mergeSort Timer.precedes_trans Timer.precedes_total
    (timers.pending.filter (Timer.isDue now))
  refine (sorted.and (List.pairwise_map.mp once)).imp_of_mem ?_
  intro left right first second ⟨precedes, other⟩
  exact .of_precedes (mem_due.mp first).2 (mem_due.mp second).2 precedes other

namespace Balanced

variable (balanced : Balanced depth ledger queue timers)

include balanced

theorem mem_registered {timer : Timer} :
    timer ∈ registered ledger ↔ timer ∈ timers.pending ∨ timer ∈ released ledger := by
  rw [balanced.held.mem_iff, List.mem_append]

theorem number_lt {timer : Timer} (freed : timer ∈ released ledger) :
    timer.number < (registered ledger).length := by
  have member : timer.number ∈ (registered ledger).map (·.number) :=
    List.mem_map_of_mem (balanced.mem_registered.mpr (.inr freed))
  rw [registered_numbers] at member
  exact List.mem_range.mp member

theorem not_released {timer : Timer} (pending : timer ∈ timers.pending) :
    timer ∉ released ledger := by
  intro freed
  have once := balanced.once
  rw [List.map_append, List.nodup_append] at once
  exact once.2.2 _ (List.mem_map_of_mem pending) _ (List.mem_map_of_mem freed) rfl

theorem due_sorted (now : Instant) : (timers.due now).Pairwise Timer.Before := by
  have once := balanced.once
  rw [List.map_append, List.nodup_append] at once
  exact due_ordered once.1 now

end Balanced

theorem released_map (freed : List Timer) : released (freed.map .released) = freed := by
  rw [released, List.filterMap_map]
  exact List.filterMap_some

theorem mem_registered_append {timer : Timer} (member : timer ∈ registered (ledger ++ more)) :
    timer ∈ registered ledger ∨ (registered ledger).length ≤ timer.number ∧
      ∃ set ∈ more.filterMap Movement.registered?, timer.due = set.1 := by
  rw [registered, List.filterMap_append, List.zipIdx_append, List.map_append] at member
  rcases List.mem_append.mp member with old | new
  · exact .inl old
  · obtain ⟨⟨⟨due, callback⟩, number⟩, among, rfl⟩ := List.mem_map.mp new
    refine .inr ⟨?_, (due, callback), List.fst_mem_of_mem_zipIdx among, rfl⟩
    have numbered := List.le_snd_of_mem_zipIdx among
    simpa [registered] using numbered

/-- Of a ledger whose last time is given: timers were released in their order, each when it was due,
and each one that has not been released comes after them. -/
structure InOrder (now : Instant) (ledger : List Movement) : Prop where
  sorted : (released ledger).Pairwise Timer.Before
  past : ∀ timer ∈ released ledger, timer.isDue now = true
  ahead : ∀ freed ∈ released ledger, ∀ timer ∈ registered ledger, timer ∉ released ledger →
    timer.due.isSome = true → freed.Before timer

namespace InOrder

theorem empty (now : Instant) : InOrder now [] :=
  ⟨.nil, nofun, nofun⟩

theorem mono (inOrder : InOrder now ledger) (goesOn : now ≤ later) : InOrder later ledger :=
  ⟨inOrder.sorted, fun timer freed => Timer.isDue_mono (inOrder.past timer freed) goesOn,
    inOrder.ahead⟩

theorem append (inOrder : InOrder now ledger) (frees : released more = [])
    (sets : more.filterMap Movement.registered? = []) : InOrder now (ledger ++ more) := by
  have same : released (ledger ++ more) = released ledger := by
    rw [released_append, frees, List.append_nil]
  refine ⟨?_, ?_, ?_⟩ <;> rw [same]
  · exact inOrder.sorted
  · exact inOrder.past
  · rw [registered_append ledger more sets]
    exact inOrder.ahead

theorem sets (inOrder : InOrder now ledger) (balanced : Balanced depth ledger queue timers)
    (goesOn : now ≤ later) (frees : released more = [])
    (sets : ∀ set ∈ more.filterMap Movement.registered?, ∃ delay,
      set.1 = Timer.dueAfter later delay) :
    InOrder later (ledger ++ more) := by
  have same : released (ledger ++ more) = released ledger := by
    rw [released_append, frees, List.append_nil]
  refine ⟨same ▸ inOrder.sorted, fun timer freed => ?_, fun freed member timer set waits shows => ?_⟩
  · exact Timer.isDue_mono (inOrder.past timer (same ▸ freed)) goesOn
  · rw [same] at member waits
    rcases mem_registered_append set with old | ⟨numbered, other, among, due⟩
    · exact inOrder.ahead freed member timer old waits shows
    · obtain ⟨delay, after⟩ := sets other among
      exact .of_set (inOrder.past freed member) goesOn (due.trans after) shows
        ((balanced.number_lt member).trans_le numbered)

/-- What is due is released after all that was released before, and before all that stays. -/
theorem frees (inOrder : InOrder now ledger) (balanced : Balanced depth ledger queue timers)
    (goesOn : now ≤ later) : InOrder later (ledger ++ (timers.due later).map .released) := by
  have same := registered_append ledger ((timers.due later).map .released) (by
    rw [List.filterMap_map]
    exact List.filterMap_eq_nil_iff.mpr fun _ _ => rfl)
  have all : released (ledger ++ (timers.due later).map .released) =
      released ledger ++ timers.due later := by rw [released_append, released_map]
  refine ⟨?_, ?_, ?_⟩
  · rw [all, List.pairwise_append]
    refine ⟨inOrder.sorted, balanced.due_sorted later, fun freed old timer new => ?_⟩
    obtain ⟨pending, due⟩ := mem_due.mp new
    obtain ⟨instant, shows, -⟩ := Timer.isDue_iff.mp due
    exact inOrder.ahead freed old timer (balanced.mem_registered.mpr (.inl pending))
      (balanced.not_released pending) (by rw [shows]; rfl)
  · rw [all]
    intro timer freed
    rcases List.mem_append.mp freed with old | new
    · exact Timer.isDue_mono (inOrder.past timer old) goesOn
    · exact (mem_due.mp new).2
  · rw [all, same]
    intro freed member timer set waits shows
    obtain ⟨kept, stays⟩ := not_or.mp (mt List.mem_append.mpr waits)
    rcases List.mem_append.mp member with old | new
    · exact inOrder.ahead freed old timer set kept shows
    · have pending : timer ∈ timers.pending :=
        (balanced.mem_registered.mp set).resolve_right kept
      have waiting : timer.isDue later = false :=
        Bool.eq_false_iff.mpr fun due => stays (mem_due.mpr ⟨pending, due⟩)
      exact .of_due (mem_due.mp new).2 waiting shows

end InOrder

theorem Balanced.shrinks {after : Queue} {left : Timers}
    (balanced : Balanced depth ledger queue timers)
    (next : Balanced depth (ledger ++ more) after left) (pushes : pushed more = []) :
    after <:+ queue := by
  obtain ⟨taken, held, hands⟩ := balanced.entries
  obtain ⟨takenThen, heldThen, handsThen⟩ := next.entries
  rw [pushed_append, pushes, List.append_nil] at heldThen
  have longer : taken.length ≤ takenThen.length := by
    have lengths := congrArg List.length handsThen
    rw [handedOut_append, hands] at lengths
    simp only [List.length_append, List.length_map] at lengths
    omega
  have same := congrArg List.length (held.symm.trans heldThen)
  simp only [List.length_append] at same
  have late : after <:+ pushed ledger := heldThen ▸ List.suffix_append _ _
  have early : queue <:+ pushed ledger := held ▸ List.suffix_append _ _
  exact List.suffix_of_suffix_length_le late early (by omega)

end

variable {σ φ : Type} [Interpreter σ]

theorem mem_callMovements {now : Instant} {made : List (NativeCall × Bridge)} {movement : Movement}
    (member : movement ∈ callMovements now made) :
    ∃ call, NativeCall.movement? now call = some movement := by
  obtain ⟨⟨call, host⟩, -, same⟩ := List.mem_filterMap.mp member
  exact ⟨call, same⟩

theorem Progress.mem_movements {request : Request} {done : List (Progress σ × Deed)}
    {movement : Movement} (member : movement ∈ movements request done) :
    ∃ call, NativeCall.movement? request.now call = some movement := by
  obtain ⟨⟨p, deed⟩, -, among⟩ := List.mem_flatMap.mp member
  exact mem_callMovements among

theorem NativeCall.movement_cases {now : Instant} {call : NativeCall} {movement : Movement}
    (moves : NativeCall.movement? now call = some movement) :
    movement.pushed? = none ∧ movement.released? = none ∧
      ∀ set ∈ movement.registered?, ∃ delay, set.1 = Timer.dueAfter now delay := by
  cases call with
  | tookCallback callback =>
    obtain ⟨taken, -, rfl⟩ := Option.map_eq_some_iff.mp moves
    exact ⟨rfl, rfl, nofun⟩
  | setTimeout callback delay =>
    cases moves
    exact ⟨rfl, rfl, fun set same => ⟨delay, by cases same; rfl⟩⟩
  | gaveBack value => cases moves
  | output line => cases moves

theorem InOrder.burst {depth : Nat} {ledger : List Movement} {queue : Queue} {timers : Timers}
    {now : Instant} {request : Request} (inOrder : InOrder now ledger)
    (balanced : Balanced depth ledger queue timers) (goesOn : now ≤ request.now)
    (done : List (Progress σ × Deed)) :
    InOrder request.now (ledger ++ Progress.movements request done) := by
  refine inOrder.sets balanced goesOn (List.filterMap_eq_nil_iff.mpr fun movement member => ?_)
    fun set member => ?_
  · obtain ⟨call, moves⟩ := Progress.mem_movements member
    exact (NativeCall.movement_cases moves).2.1
  · obtain ⟨movement, among, same⟩ := List.mem_filterMap.mp member
    obtain ⟨call, moves⟩ := Progress.mem_movements among
    exact (NativeCall.movement_cases moves).2.2 set same

theorem InOrder.settles {depth : Nat} {ledger : List Movement} {now ended : Instant}
    {request : Request} {done : List (Progress σ × Deed)} {result : Progress σ × Ending}
    {lost : List (Progress σ × Deed) → Prop}
    (inOrder : InOrder now (ledger ++ Progress.movements request done))
    (tracked : Progress.Tracked
      (fun done p => Progress.Accounts depth ledger request done ∧
        Balanced depth (ledger ++ Progress.movements request done) p.live.queue p.live.timers)
      lost done result) (goesOn : now ≤ ended) :
    InOrder ended
      (ledger ++ (Progress.movements request done ++ Scheduler.releasedAfter ended result)) := by
  rw [← List.append_assoc]
  cases tracked with
  | @holds q ending fine here =>
    cases ending with
    | failed error line => exact absurd rfl (fine error line)
    | _ => exact inOrder.frees here.2 goesOn
  | lost =>
    rw [Scheduler.releasedAfter, List.append_nil]
    exact inOrder.mono goesOn

def Operation.tickEnd : Operation σ φ → Option Instant
  | .start _ _ _ ended => some ended
  | .tick _ _ ended => some ended
  | _ => none

/-- Whether the operation fires a tick of the live run, or the first one of a new run. -/
def Scheduler.fires (s : Scheduler σ φ) : Operation σ φ → Bool
  | .start .. => !s.settings.pauseOnEntry
  | .tick tick _ _ => s.live.isSome && tick.run == s.runNumber
  | _ => false

def Operation.times : Operation σ φ → List Instant
  | .start _ _ began ended => [began, ended]
  | .tick _ began ended => [began, ended]
  | .dispatch _ now => [now]
  | _ => []

section

variable {now : Instant} {times rest : List Instant}

theorem clock_again (forward : (now :: times).Pairwise (· ≤ ·)) :
    (now :: now :: times).Pairwise (· ≤ ·) := by
  refine List.pairwise_cons.mpr ⟨fun moment member => ?_, forward⟩
  rcases List.mem_cons.mp member with rfl | later
  · exact le_rfl
  · exact (List.pairwise_cons.mp forward).1 moment later

theorem clock_last (forward : (now :: times).Pairwise (· ≤ ·)) : now ≤ times.getLastD now := by
  rcases List.mem_cons.mp List.getLastD_mem_cons with same | later
  · exact same.ge
  · exact (List.pairwise_cons.mp forward).1 _ later

theorem clock_after (forward : (now :: (times ++ rest)).Pairwise (· ≤ ·)) :
    (times.getLastD now :: rest).Pairwise (· ≤ ·) := by
  induction times generalizing now with
  | nil => exact forward
  | cons next times ih =>
    rw [List.getLastD_cons]
    exact ih (List.pairwise_cons.mp forward).2

end

namespace Scheduler

variable {s : Scheduler σ φ} {operation : Operation σ φ} {ledger : List Movement}
  {now : Instant} {live next : Live σ} {request : Request}

theorem movements_quiet (quiet : s.burstOf operation = none) :
    s.movements operation = s.opening operation ++ s.closing operation := by
  simp only [movements, during, quiet, List.nil_append]

theorem movements_burst (runs : Bursts s operation live request) :
    s.movements operation = s.opening operation ++
      (Progress.movements request (s.deeds operation) ++ s.closing operation) := by
  simp only [movements, during, bursts_iff.mp runs]

omit [Interpreter σ] in
theorem inOrder_kept (inOrder : InOrder now ledger) (operation : Operation σ φ) :
    InOrder now (kept ledger operation) := by
  unfold kept
  split
  · exact .empty now
  · exact inOrder

omit [Interpreter σ] in
theorem inOrder_opening (inOrder : InOrder now ledger) :
    InOrder now (ledger ++ s.opening operation) := by
  refine inOrder.append ?_ ?_ <;> unfold opening <;> split <;> try rfl
  all_goals split <;> rfl

omit [Interpreter σ] in
theorem times_burst (runs : Bursts s operation live request) :
    operation.times = request.now :: operation.tickEnd.toList := by
  cases runs <;> rfl

theorem closing_burst (runs : Bursts s operation live request) :
    s.closing operation = (operation.tickEnd.map fun ended =>
      releasedAfter ended (live.burst s.breakpoints request s.settings.tickBudget)).getD [] := by
  have found := bursts_iff.mp runs
  unfold closing
  rw [found]
  split
  · rename_i same
    cases same
    rw [Operation.tickEnd, Option.map_some, Option.getD_some]
  · rename_i same
    cases same
    rw [Operation.tickEnd, Option.map_some, Option.getD_some]
  · rename_i same
    cases same
  · rename_i tick start rests
    cases runs with
    | tick => exact absurd rfl (tick _ _ _ _ _ rfl)
    | dispatch => rfl
    | start => exact absurd rfl (start _ _ _ _ _ _ rfl)

theorem inOrder_burst (balances : s.Balances ledger) (inOrder : InOrder now (kept ledger operation))
    (runs : Bursts s operation live request)
    (forward : (now :: operation.times).Pairwise (· ≤ ·)) :
    InOrder (operation.times.getLastD now) (kept ledger operation ++ s.movements operation) := by
  obtain ⟨sameDepth, begins⟩ := balances.begins runs
  have tracked := begins.burst s.breakpoints s.settings.tickBudget sameDepth
  rw [times_burst runs, List.pairwise_cons] at forward
  have during := (inOrder_opening inOrder).burst begins (forward.1 _ (.head _)) (s.deeds operation)
  rw [movements_burst runs, closing_burst runs, times_burst runs, ← List.append_assoc]
  cases ends : operation.tickEnd with
  | none =>
    rw [Option.map_none, Option.getD_none, List.append_nil]
    exact during
  | some ended =>
    rw [ends, Option.toList_some, List.pairwise_cons] at forward
    rw [deeds_burst runs] at during ⊢
    rw [Option.map_some, Option.getD_some]
    exact during.settles tracked (forward.2.1 ended (.head _))

theorem inOrder_quiet (balances : s.Balances ledger) (inOrder : InOrder now (kept ledger operation))
    (quiet : s.burstOf operation = none) (forward : (now :: operation.times).Pairwise (· ≤ ·)) :
    InOrder (operation.times.getLastD now) (kept ledger operation ++ s.movements operation) := by
  have later := clock_last forward
  have opened : InOrder (operation.times.getLastD now)
      (kept ledger operation ++ s.opening operation) :=
    (inOrder_opening inOrder).mono later
  have none : s.closing operation = [] → InOrder (operation.times.getLastD now)
      (kept ledger operation ++ s.movements operation) := by
    intro nothing
    rw [movements_quiet quiet, nothing, List.append_nil]
    exact opened
  cases operation with
  | tick tick began ended =>
    cases here : s.live with
    | none => exact none (by simp only [closing, quiet, here])
    | some live =>
      by_cases current : tick.run = s.runNumber
      · have frees : s.closing (.tick tick began ended) =
            (live.timers.due ended).map .released := by
          simp only [closing, quiet, here, current, if_true]
        rw [movements_quiet quiet, frees]
        exact inOrder.frees (balances live here) later
      · exact none (by simp only [closing, quiet, here, current, if_false])
  | _ => exact none (by simp only [closing, quiet])

theorem inOrder_perform (balances : s.Balances ledger)
    (inOrder : InOrder now (kept ledger operation))
    (forward : (now :: operation.times).Pairwise (· ≤ ·)) :
    InOrder (operation.times.getLastD now) (kept ledger operation ++ s.movements operation) := by
  cases quiet : s.burstOf operation with
  | none => exact inOrder_quiet balances inOrder quiet forward
  | some burst => exact inOrder_burst balances inOrder (bursts_iff.mpr quiet) forward

theorem inOrder_ledger (balances : s.Balances ledger) (inOrder : InOrder now ledger)
    {operations : List (Operation σ φ)}
    (forward : (now :: operations.flatMap Operation.times).Pairwise (· ≤ ·)) :
    ∃ later, InOrder later (s.ledger ledger operations) := by
  induction operations generalizing s ledger now with
  | nil => exact ⟨now, inOrder⟩
  | cons operation operations ih =>
    rw [List.flatMap_cons] at forward
    have first : (now :: operation.times).Pairwise (· ≤ ·) :=
      forward.sublist ((List.sublist_append_left _ _).cons_cons now)
    exact ih (balances.perform operation)
      (inOrder_perform balances (inOrder_kept inOrder operation) first) (clock_after forward)

theorem inOrder_run (balances : s.Balances ledger) {program : σ} {lines : LineMap}
    {began ended : Instant} {operations : List (Operation σ φ)}
    (forward : ((.start program lines began ended :: operations : List (Operation σ φ)).flatMap
      Operation.times).Pairwise (· ≤ ·)) :
    ∃ later, InOrder later (s.ledger [] (.start program lines began ended :: operations)) := by
  rw [List.flatMap_cons] at forward
  have again := clock_again forward
  have first : (began :: (Operation.start program lines began ended : Operation σ φ).times).Pairwise
      (· ≤ ·) := again.sublist ((List.sublist_append_left _ _).cons_cons began)
  have opened := inOrder_perform balances (.empty began) first
  exact inOrder_ledger (balances.perform _) opened (clock_after again)

theorem released_movements (s : Scheduler σ φ) (operation : Operation σ φ) :
    released (s.movements operation) = released (s.closing operation) := by
  have opening : released (s.opening operation) = [] := by
    unfold Scheduler.opening
    split
    · split <;> rfl
    · rfl
  have during : released (s.during operation) = [] := by
    unfold Scheduler.during
    split
    · refine List.filterMap_eq_nil_iff.mpr fun movement member => ?_
      obtain ⟨call, moves⟩ := Progress.mem_movements member
      exact (NativeCall.movement_cases moves).2.1
    · rfl
  rw [movements, released_append, released_append, opening, during, List.nil_append,
    List.nil_append]

omit [Interpreter σ] in
theorem releasedAfter_due {timer : Timer} {ended : Instant} {result : Progress σ × Ending}
    (freed : timer ∈ released (releasedAfter ended result)) : timer.isDue ended = true := by
  obtain ⟨p, ending⟩ := result
  cases ending with
  | failed error line => cases freed
  | _ =>
    change timer ∈ released ((p.live.timers.due ended).map .released) at freed
    rw [released_map] at freed
    exact (mem_due.mp freed).2

theorem released_due {timer : Timer} (freed : timer ∈ released (s.movements operation)) :
    s.fires operation = true ∧
      ∃ ended, operation.tickEnd = some ended ∧ timer.isDue ended = true := by
  rw [released_movements] at freed
  cases quiet : s.burstOf operation with
  | some burst =>
    obtain ⟨live, request⟩ := burst
    have runs := bursts_iff.mpr quiet
    rw [closing_burst runs] at freed
    cases ends : operation.tickEnd with
    | none =>
      rw [ends] at freed
      cases freed
    | some ended =>
      rw [ends, Option.map_some, Option.getD_some] at freed
      refine ⟨?_, ended, rfl, releasedAfter_due freed⟩
      cases runs with
      | tick here current => simp [fires, here, current]
      | dispatch => cases ends
      | start steps => simp [fires, steps]
  | none =>
    have nothing : s.closing operation ≠ [] := by
      intro none
      rw [none] at freed
      cases freed
    cases operation with
    | tick tick began ended =>
      cases here : s.live with
      | none => exact absurd (by simp only [closing, quiet, here]) nothing
      | some live =>
        by_cases current : tick.run = s.runNumber
        · simp only [closing, quiet, here, current, if_true, released_map] at freed
          exact ⟨by simp [fires, here, current], ended, rfl, (mem_due.mp freed).2⟩
        · exact absurd (by simp only [closing, quiet, here, current, if_false]) nothing
    | _ => exact absurd (by simp only [closing, quiet]) nothing

theorem closeTick_waits {ended : Instant} (there : (s.closeTick live ended).live = some next)
    {timer : Timer} (pending : timer ∈ next.timers.pending) : timer.isDue ended = false := by
  rcases closeTick_live s live ended with gone | kept
  · rw [gone] at there
    cases there
  · rw [kept] at there
    cases there
    simpa using (List.mem_filter.mp pending).2

theorem settle_waits {atMaxSpeed : Bool} {ended : Instant} {result : Progress σ × Ending}
    (there : (s.settle atMaxSpeed ended result).live = some next) {timer : Timer}
    (pending : timer ∈ next.timers.pending) : timer.isDue ended = false := by
  have leaves := settle_leaves there
  obtain ⟨p, ending⟩ := result
  rw [settle_closes s atMaxSpeed ended p leaves.fine] at there
  exact closeTick_waits there pending

theorem fires_waits {ended : Instant} (fires : s.fires operation = true)
    (ends : operation.tickEnd = some ended) (there : (s.perform operation).live = some next)
    {timer : Timer} (pending : timer ∈ next.timers.pending) : timer.isDue ended = false := by
  cases operation with
  | start program lines began closed =>
    cases ends
    rw [perform, start_steps program lines began ended (by simpa [Scheduler.fires] using fires)]
      at there
    exact settle_waits there pending
  | tick tick began closed =>
    cases ends
    simp only [Scheduler.fires, Bool.and_eq_true, beq_iff_eq] at fires
    obtain ⟨live, here⟩ := Option.isSome_iff_exists.mp fires.1
    rw [perform, onTick_current began ended here fires.2] at there
    split at there
    · exact settle_waits there pending
    · exact closeTick_waits there pending
  | _ => cases ends

end Scheduler

/-- Nothing enters the queue in a burst: before each step and after each native call it is what is left
of the one with which the burst began. -/
def QueueShrinks (live : Live σ) (request : Request) (done : List (Progress σ × Deed)) : Prop :=
  ∀ p deed, (p, deed) ∈ done → ∀ made, made <+: p.calls request deed →
    (hostAfter (p.host request) made).queue <:+ live.queue

theorem Scheduler.burst_queueShrinks {s : Scheduler σ φ} {operation : Operation σ φ}
    {ledger : List Movement} {live : Live σ} {request : Request} (balances : s.Balances ledger)
    (runs : Bursts s operation live request) : QueueShrinks live request (s.deeds operation) := by
  intro p deed member made part
  obtain ⟨before, after, split⟩ := List.append_of_mem member
  have next := balances.accounts runs before p deed after split made part
  rw [List.append_assoc] at next
  refine (balances.begins runs).2.shrinks next ?_
  refine List.filterMap_eq_nil_iff.mpr fun movement among => ?_
  rcases List.mem_append.mp among with earlier | here
  · obtain ⟨call, moves⟩ := Progress.mem_movements earlier
    exact (NativeCall.movement_cases moves).1
  · obtain ⟨call, moves⟩ := mem_callMovements here
    exact (NativeCall.movement_cases moves).1

/-- Under a clock that does not go back, the timers of a run put their callbacks into the queue in the
order in which they are due, and those that are due together in the order in which they were set. Each
does so at the end of a tick at which it is due, so that one that no clock shows never does; within a
burst nothing enters the queue. After a tick that leaves the run live no timer is pending that is
due. -/
theorem timers_in_order (settings : Settings) (finish : Option (FinishRule φ))
    (before : List (Operation σ φ)) (program : σ) (lines : LineMap) (began ended : Instant)
    {operations : List (Operation σ φ)}
    (forward : ((.start program lines began ended :: operations : List (Operation σ φ)).flatMap
      Operation.times).Pairwise (· ≤ ·)) :
    let s : Scheduler σ φ := (Scheduler.new settings finish).performAll before
    let run := .start program lines began ended :: operations
    (released (s.ledger [] run)).Pairwise Timer.Before ∧
      (∀ live, (s.performAll run).live = some live →
        Balanced settings.maxMarshalDepth (s.ledger [] run) live.queue live.timers) ∧
      ∀ first operation rest, run = first ++ operation :: rest →
        let t := s.performAll first
        (∀ timer ∈ released (t.movements operation), t.fires operation = true ∧
          ∃ ended, operation.tickEnd = some ended ∧ timer.isDue ended = true) ∧
        (∀ live request, Bursts t operation live request →
          QueueShrinks live request (t.deeds operation)) ∧
        ∀ ended next, t.fires operation = true → operation.tickEnd = some ended →
          (t.perform operation).live = some next →
            ∀ timer ∈ next.timers.pending, timer.isDue ended = false := by
  have begins : (Scheduler.new settings finish : Scheduler σ φ).Balances [] := by
    intro live here
    cases here
  intro s run
  have balances := begins.performAll before
  have same : (s.performAll run).settings = settings := by
    rw [Scheduler.performAll_settings, Scheduler.performAll_settings]
    rfl
  obtain ⟨later, inOrder⟩ := Scheduler.inOrder_run balances forward
  have held := balances.performAll run
  refine ⟨inOrder.sorted, ?_, fun first operation rest _ => ⟨fun _ => Scheduler.released_due, ?_, ?_⟩⟩
  · rw [← same]
    exact held
  · exact fun _ _ => Scheduler.burst_queueShrinks (balances.performAll first)
  · exact fun _ _ fires ends there _ => Scheduler.fires_waits fires ends there

def alarms : List Char :=
  "func f x\n  print x\nend\nfunc g\n  timeout f 0 3\nend\ntimeout f 20 1\ntimeout f 0 2\n".toList

def callingBetween : List (Operation Machine Unit) :=
  [.dispatch ⟨"g", []⟩ 5, .tick ⟨1, 0⟩ 10 20, .tick ⟨1, 0⟩ 20000000 20000000]

/-- The timer that was set first is released last. -/
theorem alarms_in_order : ∃ loaded, Script.load alarms = .ok loaded ∧
    let s : Scheduler Machine Unit := .new .default none
    let run := .start loaded.machine loaded.text.lineMap 0 0 :: callingBetween
    (run.flatMap Operation.times).Pairwise (· ≤ ·) ∧
      (released (s.ledger [] run)).map (·.number) = [1, 2, 0] ∧
      (released (s.ledger [] run)).Pairwise Timer.Before := by
  have computed : (Script.load alarms).toOption.any (fun loaded =>
      let s : Scheduler Machine Unit := .new .default none
      let run := .start loaded.machine loaded.text.lineMap 0 0 :: callingBetween
      (released (s.ledger [] run)).map (·.number) == [1, 2, 0]) = true := by
    decide +kernel
  obtain ⟨loaded, read, numbers⟩ := load_any computed
  have forward : ((.start loaded.machine loaded.text.lineMap 0 0 :: callingBetween).flatMap
      Operation.times).Pairwise (· ≤ ·) := by
    simp [callingBetween, Operation.times]
  exact ⟨loaded, read, forward, by simpa using numbers,
    (timers_in_order .default none [] loaded.machine loaded.text.lineMap 0 0 forward).1⟩

end Metronome.Run
