import Mathlib.Data.List.Induction
import Mathlib.Order.Bounds.Basic
import Metronome.Debug.CallDepths

namespace Metronome.Debug

inductive DepthEvent where
  | record (depth : Nat) (call : Bool)
  | clear

namespace DepthEvent

def depth? : DepthEvent → Option Nat
  | record depth _ => some depth
  | clear => none

def Keeps (depth : Nat) : DepthEvent → Prop
  | record other _ => depth ≤ other
  | clear => False

end DepthEvent

/-- A call was recorded at a depth, and since then there was no clear and no record of a shallower
stack. -/
def CalledAt (history : List DepthEvent) (depth : Nat) : Prop :=
  ∃ before since, history = before ++ .record depth true :: since ∧
    ∀ event ∈ since, event.Keeps depth

theorem calledAt_concat {history : List DepthEvent} {event : DepthEvent} {depth : Nat} :
    CalledAt (history ++ [event]) depth ↔
      event = .record depth true ∨ CalledAt history depth ∧ event.Keeps depth := by
  constructor
  · rintro ⟨before, since, split, keeps⟩
    cases since using List.reverseRecOn with
    | nil =>
      obtain ⟨-, same⟩ := List.append_inj' split rfl
      exact .inl (List.cons.inj same).1
    | append_singleton since last =>
      rw [← List.cons_append, ← List.append_assoc] at split
      obtain ⟨rfl, same⟩ := List.append_inj' split rfl
      obtain rfl := (List.cons.inj same).1
      obtain ⟨earlier, kept⟩ := List.forall_mem_append.mp keeps
      exact .inr ⟨⟨before, since, rfl, earlier⟩, kept event List.mem_cons_self⟩
  · rintro (rfl | ⟨⟨before, since, rfl, earlier⟩, kept⟩)
    · exact ⟨history, [], rfl, nofun⟩
    · refine ⟨before, since ++ [event], by simp, List.forall_mem_append.mpr ⟨earlier, ?_⟩⟩
      exact List.forall_mem_singleton.mpr kept

namespace CallDepths

def take (depths : CallDepths) : DepthEvent → CallDepths
  | .record depth call => depths.record depth call
  | .clear => empty

def after (history : List DepthEvent) : CallDepths :=
  history.foldl take empty

theorem after_concat (history : List DepthEvent) (event : DepthEvent) :
    after (history ++ [event]) = (after history).take event := by
  rw [after, List.foldl_append]
  rfl

def Descending (depths : CallDepths) : Prop :=
  depths.marks.Pairwise (· > ·)

variable {depths : CallDepths} {marks : List Nat} {depth mark : Nat} {call : Bool}

theorem mem_kept (descending : marks.Pairwise (· > ·)) :
    mark ∈ marks.dropWhile (depth < ·) ↔ mark ∈ marks ∧ mark ≤ depth := by
  induction marks with
  | nil => simp
  | cons first marks ih =>
    obtain ⟨front, rest⟩ := List.pairwise_cons.mp descending
    by_cases deep : depth < first
    · rw [List.dropWhile_cons_of_pos (by simpa using deep), ih rest, List.mem_cons]
      constructor
      · rintro ⟨member, shallow⟩
        exact ⟨.inr member, shallow⟩
      · rintro ⟨rfl | member, shallow⟩
        · exact absurd deep (Nat.not_lt.mpr shallow)
        · exact ⟨member, shallow⟩
    · -- The first mark is kept, and the others are shallower.
      rw [List.dropWhile_cons_of_neg (by simpa using deep)]
      refine ⟨fun member => ⟨member, ?_⟩, And.left⟩
      rcases List.mem_cons.mp member with rfl | later
      · exact Nat.le_of_not_lt deep
      · have below := front mark later
        omega

theorem kept_lt (descending : marks.Pairwise (· > ·))
    (fresh : (marks.dropWhile (depth < ·)).head? ≠ some depth) :
    ∀ mark ∈ marks.dropWhile (depth < ·), mark < depth := by
  intro mark member
  have shallow := ((mem_kept descending).mp member).2
  have kept : (marks.dropWhile (depth < ·)).Pairwise (· > ·) :=
    descending.sublist (List.dropWhile_sublist _)
  cases split : marks.dropWhile (depth < ·) with
  | nil =>
    rw [split] at member
    cases member
  | cons first rest =>
    have reach : first ≤ depth := ((mem_kept descending).mp (split ▸ List.mem_cons_self)).2
    rw [split] at member fresh kept
    have other : first ≠ depth := fun same => fresh (congrArg some same)
    rcases List.mem_cons.mp member with rfl | later
    · omega
    · have below := (List.pairwise_cons.mp kept).1 mark later
      omega

theorem Descending.record (descending : depths.Descending) (depth : Nat) (call : Bool) :
    (depths.record depth call).Descending := by
  have kept : (depths.marks.dropWhile (depth < ·)).Pairwise (· > ·) :=
    descending.sublist (List.dropWhile_sublist _)
  unfold CallDepths.record Descending
  dsimp only
  split
  · rename_i fresh
    simp only [Bool.and_eq_true, bne_iff_ne] at fresh
    exact List.pairwise_cons.mpr ⟨kept_lt descending fresh.2, kept⟩
  · exact kept

theorem descending_after (history : List DepthEvent) : (after history).Descending := by
  induction history using List.reverseRecOn with
  | nil => exact .nil
  | append_singleton history event ih =>
    rw [after_concat]
    cases event with
    | record depth call => exact ih.record depth call
    | clear => exact .nil

theorem seenAt_record (descending : depths.Descending) :
    (depths.record depth call).seenAt mark = true ↔
      call = true ∧ mark = depth ∨ depths.seenAt mark = true ∧ mark ≤ depth := by
  unfold CallDepths.record seenAt
  dsimp only
  simp only [List.contains_iff_mem, ← mem_kept descending]
  split
  · rename_i fresh
    simp only [Bool.and_eq_true, bne_iff_ne] at fresh
    rw [List.mem_cons, fresh.1]
    simp
  · rename_i stale
    constructor
    · exact .inr
    · rintro (⟨rfl, rfl⟩ | member)
      · exact List.mem_of_head? (by simpa using stale)
      · exact member

theorem seenAt_after (history : List DepthEvent) (depth : Nat) :
    (after history).seenAt depth = true ↔ CalledAt history depth := by
  induction history using List.reverseRecOn with
  | nil =>
    refine iff_of_false Bool.false_ne_true ?_
    rintro ⟨before, since, split, -⟩
    simp at split
  | append_singleton history event ih =>
    rw [after_concat, calledAt_concat, ← ih]
    cases event with
    | record other call =>
      rw [take, seenAt_record (descending_after history)]
      simp only [DepthEvent.record.injEq, DepthEvent.Keeps]
      rw [and_comm (a := other = depth), eq_comm (a := depth)]
    | clear => simp [take, empty, seenAt, DepthEvent.Keeps]

theorem current_after (history : List DepthEvent) :
    (after history).current = (history.getLast?.bind DepthEvent.depth?).getD 0 := by
  cases history using List.reverseRecOn with
  | nil => rfl
  | append_singleton history event =>
    rw [after_concat, List.getLast?_concat]
    cases event <;> rfl

/-- Stepping out leads to the deepest mark between the bottom and the current frame. -/
theorem stepOutTarget_greatest (descending : depths.Descending) :
    let outer := {mark | 1 ≤ mark ∧ mark < depths.current ∧ depths.seenAt mark = true}
    IsGreatest outer depths.stepOutTarget ∨ outer = ∅ ∧ depths.stepOutTarget = 0 := by
  intro outer
  unfold stepOutTarget
  cases found : depths.marks.find? fun depth => 1 ≤ depth && depth < depths.current with
  | none =>
    refine .inr ⟨Set.eq_empty_iff_forall_notMem.mpr ?_, rfl⟩
    rintro mark ⟨positive, below, seen⟩
    have passed := List.find?_eq_none.mp found mark (List.contains_iff_mem.mp seen)
    exact passed (by simp [positive, below])
  | some first =>
    obtain ⟨fits, deeper, shallower, split, passed⟩ := List.find?_eq_some_iff_append.mp found
    simp only [Bool.and_eq_true, decide_eq_true_eq] at fits passed
    have member : first ∈ depths.marks := List.mem_of_find?_eq_some found
    refine .inl ⟨⟨fits.1, fits.2, List.contains_iff_mem.mpr member⟩, ?_⟩
    rintro mark ⟨positive, below, seen⟩
    have among := List.contains_iff_mem.mp seen
    rw [split, List.mem_append, List.mem_cons] at among
    rcases among with before | rfl | after
    · simpa [positive, below] using passed mark before
    · exact Nat.le_refl _
    · rw [Descending, split] at descending
      have rest := (List.pairwise_append.mp descending).2.1
      exact Nat.le_of_lt ((List.pairwise_cons.mp rest).1 mark after)

/-- Whatever call depths were told, they have seen a call at exactly those depths at which one was
recorded and after that neither a clear nor a shallower stack. The current depth is that of the last
record, or zero when nothing was recorded since the last clear. Stepping out leads to the deepest call
below the current depth, the bottom apart, or to zero when there is none. -/
theorem depths_follow_history (history : List DepthEvent) :
    let depths := after history
    let outer := {depth | 1 ≤ depth ∧ depth < depths.current ∧ depths.seenAt depth = true}
    (∀ depth, depths.seenAt depth = true ↔ CalledAt history depth) ∧
      depths.current = (history.getLast?.bind DepthEvent.depth?).getD 0 ∧
      (IsGreatest outer depths.stepOutTarget ∨ outer = ∅ ∧ depths.stepOutTarget = 0) :=
  ⟨seenAt_after history, current_after history,
    stepOutTarget_greatest (descending_after history)⟩

example : (after [.record 3 true, .record 5 true, .record 4 false, .record 6 false]).stepOutTarget =
    3 := by
  decide

/-- A clear forgets the depth of the last record. -/
theorem clear_forgets_depth : ¬ ∀ (history : List DepthEvent) (depth : Nat),
    (history.filterMap DepthEvent.depth?).getLast? = some depth →
      (after history).current = depth := by
  intro remembered
  have kept := remembered [.record 3 false, .clear] 3 rfl
  exact absurd kept (by decide)

end CallDepths

end Metronome.Debug
