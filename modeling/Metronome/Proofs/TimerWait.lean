import Metronome.Proofs.TimerOrder

namespace Metronome.Run

namespace Timer

variable {now instant due : Instant} {timer : Timer}

theorem remaining_some (here : timer.due = some due) : timer.remaining now = due - now := by
  rw [remaining, here]

theorem remaining_none (here : timer.due = none) : timer.remaining now = Duration.longest := by
  rw [remaining, here]

theorem isDue_none (here : timer.due = none) : timer.isDue now = false := by
  rw [isDue, here]
  rfl

theorem remaining_eq_zero : timer.remaining now = 0 ↔ timer.isDue now = true := by
  cases here : timer.due with
  | none =>
    have endless : Duration.longest ≠ 0 := by decide +kernel
    rw [remaining_none here, isDue_none here]
    exact iff_of_false endless Bool.false_ne_true
  | some due => rw [remaining_some here, isDue, here, Option.any_some, decide_eq_true_eq,
      Nat.sub_eq_zero_iff_le]

theorem isDue_remaining (ends : timer.remaining now ≠ Duration.longest) :
    timer.isDue (now + timer.remaining now) = true := by
  cases here : timer.due with
  | none => exact absurd (remaining_none here) ends
  | some due =>
    rw [remaining_some here]
    exact isDue_iff.mpr ⟨due, here, Nat.sub_le_iff_le_add'.mp (Nat.le_refl _)⟩

theorem isDue_before (waits : 0 < timer.remaining now)
    (before : instant < now + timer.remaining now) : timer.isDue instant = false := by
  cases here : timer.due with
  | none => exact isDue_none here
  | some due =>
    rw [remaining_some here] at waits before
    rw [Nat.add_sub_of_le (Nat.sub_pos_iff_lt.mp waits).le] at before
    rw [isDue, here, Option.any_some, decide_eq_false_iff_not]
    exact before.not_ge

theorem remaining_lt (here : timer.due = some due) (shown : due ≤ Instant.latest) :
    timer.remaining now < Duration.longest := by
  have shorter : Instant.latest < Duration.longest := by decide +kernel
  rw [remaining_some here]
  exact ((Nat.sub_le due now).trans shown).trans_lt shorter

end Timer

namespace Timers

variable {timers : Timers} {now instant : Instant} {wait : Duration}

theorem due_eq_nil : timers.due now = [] ↔ ∀ timer ∈ timers.pending, timer.isDue now = false := by
  rw [List.eq_nil_iff_forall_not_mem]
  simp only [mem_due, not_and, Bool.not_eq_true]

theorem due_ne_nil : timers.due now ≠ [] ↔ ∃ timer ∈ timers.pending, timer.isDue now = true := by
  rw [Ne, due_eq_nil]
  simp

theorem nextDueIn_eq_none : timers.nextDueIn now = none ↔ timers.pending = [] := by
  rw [nextDueIn, List.min?_eq_none_iff, List.map_eq_nil_iff]

theorem nextDueIn_eq_some : timers.nextDueIn now = some wait ↔
    (∃ timer ∈ timers.pending, timer.remaining now = wait) ∧
      ∀ timer ∈ timers.pending, wait ≤ timer.remaining now := by
  rw [nextDueIn, List.min?_eq_some_iff, List.mem_map, List.forall_mem_map]

theorem nextDueIn_eq_zero : timers.nextDueIn now = some 0 ↔ timers.due now ≠ [] := by
  rw [nextDueIn_eq_some, due_ne_nil]
  simp only [Timer.remaining_eq_zero, Nat.zero_le, implies_true, and_true]

theorem due_during (waits : timers.nextDueIn now = some wait) (positive : 0 < wait)
    (before : instant < now + wait) : timers.due instant = [] := by
  obtain ⟨-, least⟩ := nextDueIn_eq_some.mp waits
  rw [due_eq_nil]
  intro timer pending
  have bound := least timer pending
  exact Timer.isDue_before (positive.trans_le bound)
    (before.trans_le (Nat.add_le_add_left bound now))

theorem due_after (waits : timers.nextDueIn now = some wait) (ends : wait ≠ Duration.longest) :
    timers.due (now + wait) ≠ [] := by
  obtain ⟨⟨timer, pending, rfl⟩, -⟩ := nextDueIn_eq_some.mp waits
  exact due_ne_nil.mpr ⟨timer, pending, Timer.isDue_remaining ends⟩

end Timers

inductive TimerMove where
  | register (now : Instant) (delay : Duration) (callback : Callback)
  | release (now : Instant)
  | clear

def TimerMove.set? : TimerMove → Option (Option Instant × Callback)
  | register now delay callback => some (Timer.dueAfter now delay, callback)
  | release _ => none
  | clear => none

def Timers.move (timers : Timers) : TimerMove → Timers
  | .register now delay callback => timers.register now delay callback
  | .release now => (timers.release now []).1
  | .clear => timers.clear

def Timers.after (history : List TimerMove) : Timers :=
  history.foldl Timers.move .empty

def everSet (history : List TimerMove) : List Timer :=
  (history.filterMap TimerMove.set?).zipIdx.map fun ((due, callback), number) =>
    ⟨due, number, callback⟩

theorem everSet_concat (history : List TimerMove) (move : TimerMove) :
    everSet (history ++ [move]) = everSet history ++
      (move.set?.map fun (due, callback) => ⟨due, (everSet history).length, callback⟩).toList := by
  have count : (everSet history).length = (history.filterMap TimerMove.set?).length := by
    rw [everSet, List.length_map, List.length_zipIdx]
  rw [count, everSet, List.filterMap_append, List.zipIdx_append, List.map_append, ← everSet]
  cases move <;> simp [TimerMove.set?]

theorem everSet_numbers (history : List TimerMove) :
    (everSet history).map (·.number) = List.range (everSet history).length := by
  have numbers : (everSet history).map (·.number) =
      (history.filterMap TimerMove.set?).zipIdx.map Prod.snd := by
    rw [everSet, List.map_map]
    rfl
  rw [numbers, List.zipIdx_map_snd, everSet, List.length_map, List.length_zipIdx,
    List.range_eq_range']

theorem everSet_shown {history : List TimerMove} {timer : Timer} (set : timer ∈ everSet history) :
    ∀ due ∈ timer.due, due ≤ Instant.latest := by
  obtain ⟨⟨⟨due, callback⟩, number⟩, among, rfl⟩ := List.mem_map.mp set
  obtain ⟨move, -, sets⟩ := List.mem_filterMap.mp (List.fst_mem_of_mem_zipIdx among)
  intro instant here
  cases move with
  | register now delay held =>
    cases sets
    simp only [Timer.dueAfter, Option.mem_def, Option.ite_none_right_eq_some] at here
    obtain ⟨bound, same⟩ := here
    cases same
    exact bound
  | release now => cases sets
  | clear => cases sets

theorem after_spec (history : List TimerMove) :
    (Timers.after history).pending.Sublist (everSet history) ∧
      (Timers.after history).nextNumber = (everSet history).length := by
  induction history using List.reverseRecOn with
  | nil => exact ⟨.slnil, rfl⟩
  | append_singleton history move ih =>
    obtain ⟨kept, count⟩ := ih
    rw [everSet_concat, Timers.after, List.foldl_append, List.foldl_cons, List.foldl_nil,
      ← Timers.after]
    cases move with
    | register now delay callback =>
      simp only [Timers.move, Timers.register, TimerMove.set?, count, Option.map_some,
        Option.toList_some, List.length_append, List.length_singleton, and_true]
      exact kept.append (.refl _)
    | release now =>
      simp only [Timers.move, Timers.release, TimerMove.set?, Option.map_none, Option.toList_none,
        List.append_nil]
      exact ⟨List.filter_sublist.trans kept, count⟩
    | clear =>
      simp only [Timers.move, Timers.clear, TimerMove.set?, Option.map_none, Option.toList_none,
        List.append_nil]
      exact ⟨List.nil_sublist _, count⟩

theorem after_numbers (history : List TimerMove) :
    ((Timers.after history).pending.map (·.number)).Nodup := by
  have numbers : ((everSet history).map (·.number)).Nodup := by
    rw [everSet_numbers]
    exact List.nodup_range
  exact numbers.sublist ((after_spec history).1.map _)

theorem after_shown {history : List TimerMove} {timer : Timer}
    (pending : timer ∈ (Timers.after history).pending) :
    ∀ due ∈ timer.due, due ≤ Instant.latest :=
  everSet_shown ((after_spec history).1.mem pending)

theorem wait_shown {history : List TimerMove} {now : Instant} {wait : Duration}
    (waits : (Timers.after history).nextDueIn now = some wait) (positive : 0 < wait)
    (ends : wait ≠ Duration.longest) : now + wait ≤ Instant.latest := by
  obtain ⟨⟨timer, pending, rfl⟩, -⟩ := Timers.nextDueIn_eq_some.mp waits
  obtain ⟨due, here, past⟩ := Timer.isDue_iff.mp (Timer.isDue_remaining ends)
  have bound := after_shown pending due here
  rw [Timer.remaining_some here] at positive ⊢
  rwa [Nat.add_sub_of_le (Nat.sub_pos_iff_lt.mp positive).le]

/-- A wait without end is for timers that are never due. -/
theorem never_due {history : List TimerMove} {now : Instant}
    (waits : (Timers.after history).nextDueIn now = some Duration.longest) (instant : Instant) :
    (Timers.after history).due instant = [] := by
  obtain ⟨-, least⟩ := Timers.nextDueIn_eq_some.mp waits
  rw [Timers.due_eq_nil]
  intro timer pending
  cases here : timer.due with
  | none => exact Timer.isDue_none here
  | some due =>
    have ends : timer.remaining now < Duration.longest :=
      Timer.remaining_lt here (after_shown pending due here)
    exact absurd (least timer pending) ends.not_ge

theorem idleWait_eq_some {σ φ : Type} {s : Scheduler σ φ} {now : Instant} {wait : Duration}
    (waits : s.idleWait now = some wait) :
    ∃ live next, s.live = some live ∧ live.timers.nextDueIn now = some next ∧
      wait = min next maxIdleWait := by
  unfold Scheduler.idleWait at waits
  split at waits
  · cases waits
  · rename_i live here
    split at waits
    · obtain ⟨next, found, rfl⟩ := Option.map_eq_some_iff.mp waits
      exact ⟨live, next, here, found, rfl⟩
    · cases waits

/-- The time until the next timer is due and what a release moves agree, whatever has happened to the
timers. There is no such time exactly when no timer is pending; it is nothing exactly when a timer is due;
otherwise no release moves a timer before it is over, and one does then, if it ends at all. A release
moves the timers that are due to the end of the queue, the earliest first and of those that are due
together the one that was set first, and keeps the others. A program that only waits for a timer waits no
longer than a minute, and no longer than until a timer is due. -/
theorem waits_agree {σ φ : Type} (history : List TimerMove) (now : Instant)
    (queue : Queue) (s : Scheduler σ φ) :
    let timers := Timers.after history
    (timers.nextDueIn now = none ↔ timers.pending = []) ∧
      (timers.nextDueIn now = some 0 ↔ timers.due now ≠ []) ∧
      (∀ wait, timers.nextDueIn now = some wait → 0 < wait → wait ≠ Duration.longest →
        now + wait ≤ Instant.latest ∧ (∀ instant < now + wait, timers.due instant = []) ∧
          timers.due (now + wait) ≠ []) ∧
      (timers.nextDueIn now = some Duration.longest → ∀ instant, timers.due instant = []) ∧
      timers.release now queue =
        ({ timers with pending := timers.pending.filter (!Timer.isDue now ·) },
          queue ++ (timers.due now).map (·.callback)) ∧
      (timers.due now).Perm (timers.pending.filter (Timer.isDue now)) ∧
      (timers.due now).Pairwise Timer.Before ∧
      timers.pending.Sublist (everSet history) ∧
      ∀ wait, s.idleWait now = some wait → wait ≤ 60 * Duration.perSecond ∧
        ∃ live, s.live = some live ∧ (wait = 0 ↔ live.timers.due now ≠ []) ∧
          (0 < wait → ∀ instant < now + wait, live.timers.due instant = []) := by
  intro timers
  refine ⟨Timers.nextDueIn_eq_none, Timers.nextDueIn_eq_zero, fun wait waits positive ends => ?_,
    never_due, rfl, List.mergeSort_perm _ _, due_ordered (after_numbers history) now,
    (after_spec history).1, fun wait waits => ?_⟩
  · exact ⟨wait_shown waits positive ends, fun _ => Timers.due_during waits positive,
      Timers.due_after waits ends⟩
  · obtain ⟨live, next, here, found, rfl⟩ := idleWait_eq_some waits
    have some_minute : 0 < maxIdleWait := by decide +kernel
    refine ⟨Nat.min_le_right _ _, live, here, ?_, fun positive instant before => ?_⟩
    · rw [← Timers.nextDueIn_eq_zero, found, Option.some_inj, Nat.min_eq_zero_iff,
        or_iff_left some_minute.ne']
    · exact Timers.due_during found (Nat.lt_min.mp positive).1
        (before.trans_le (Nat.add_le_add_left (Nat.min_le_left _ _) now))

def reminders : List TimerMove :=
  [.register 0 20 ⟨"late", []⟩, .register 0 Duration.longest ⟨"never", []⟩,
    .register 0 0 ⟨"first", []⟩, .register 0 0 ⟨"second", []⟩, .release 0]

theorem reminders_agree :
    let timers := Timers.after reminders
    timers.pending.map (·.number) = [0, 1] ∧ timers.nextDueIn 5 = some 15 ∧ 0 < 15 ∧
      15 ≠ Duration.longest ∧ 5 + 15 ≤ Instant.latest ∧
      (∀ instant < 5 + 15, timers.due instant = []) ∧ timers.due (5 + 15) ≠ [] := by
  have waits : (Timers.after reminders).nextDueIn 5 = some 15 := by decide +kernel
  have ends : 15 ≠ Duration.longest := by decide +kernel
  obtain ⟨-, -, exact_wait, -⟩ :=
    waits_agree reminders 5 [] (Scheduler.new .default none : Scheduler Script.Machine Unit)
  exact ⟨by decide +kernel, waits, by decide, ends, exact_wait 15 waits (by decide) ends⟩

end Metronome.Run
