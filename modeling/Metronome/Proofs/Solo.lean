import Metronome.Proofs.Meaning

namespace Metronome.Script

structure Journal where
  effects : List Effect
  asked : Bool

def Journal.natives : Natives Journal where
  nextCallback journal := (none, { journal with asked := true })
  giveBack _ journal := journal
  setTimeout callback delay journal :=
    { journal with effects := journal.effects ++ [.sets callback delay] }
  output line journal := { journal with effects := journal.effects ++ [.prints line] }

structure Solo where
  machine : Machine
  journal : Journal
  failure : Option StepError

namespace Solo

def running (machine : Machine) (effects : List Effect) : Solo :=
  ⟨machine, ⟨effects, false⟩, none⟩

def new (machine : Machine) : Solo :=
  running machine []

def ofNative (computation : Native Machine.Result) (effects : List Effect) : Solo :=
  let (result, journal) := computation.run Journal.natives ⟨effects, false⟩
  ⟨result.state, journal, result.error⟩

def next (s : Solo) : Solo :=
  match s.failure with
  | some _ => s
  | none =>
    let (result, journal) := s.machine.step.run Journal.natives s.journal
    ⟨result.state, journal, result.error⟩

def after (s : Solo) : Nat → Solo
  | 0 => s
  | n + 1 => s.next.after n

def Over (s : Solo) : Prop :=
  s.failure.isSome = true ∨ s.machine.stack = []

/-- It neither asks for callbacks nor fills its stack, however long it runs. -/
structure Modest (s : Solo) : Prop where
  unasked : ∀ n, (s.after n).journal.asked = false
  shallow : ∀ n error, (s.after n).failure = some error →
    error.message ≠ StepFault.stackFull.message

def Reaches (s t : Solo) : Prop :=
  ∃ n, s.after n = t

def Completes (s : Solo) (effects : List Effect) (globals : Scope) : Prop :=
  ∃ t, s.Reaches t ∧ t.failure = none ∧ t.machine.stack = [] ∧ t.journal.effects = effects ∧
    t.machine.globals = globals

def Fails (s : Solo) (effects : List Effect) (error : StepError) : Prop :=
  ∃ t, s.Reaches t ∧ t.failure = some error ∧ t.journal.effects = effects

variable {s t u : Solo} {m : Machine} {effects : List Effect}

theorem after_add (s : Solo) (n k : Nat) : s.after (n + k) = (s.after n).after k := by
  induction n generalizing s with
  | zero => rw [Nat.zero_add]; rfl
  | succ n ih =>
    rw [Nat.add_right_comm]
    exact ih s.next

theorem Reaches.refl (s : Solo) : s.Reaches s :=
  ⟨0, rfl⟩

theorem Reaches.trans (first : s.Reaches t) (second : t.Reaches u) : s.Reaches u := by
  obtain ⟨n, rfl⟩ := first
  obtain ⟨k, rfl⟩ := second
  exact ⟨n + k, s.after_add n k⟩

theorem Reaches.step (rest : s.next.Reaches t) : s.Reaches t := by
  obtain ⟨n, rfl⟩ := rest
  exact ⟨n + 1, rfl⟩

theorem Reaches.one (next : s.next = t) : s.Reaches t :=
  Reaches.step (next ▸ .refl _)

theorem Modest.after (modest : s.Modest) (reaches : s.Reaches t) : t.Modest := by
  obtain ⟨n, rfl⟩ := reaches
  refine ⟨fun k => ?_, fun k => ?_⟩
  · rw [← after_add]
    exact modest.unasked _
  · rw [← after_add]
    exact modest.shallow _

theorem Modest.next (modest : s.Modest) : s.next.Modest :=
  modest.after (.one rfl)

theorem Over.next (ends : s.Over) : s.next = s := by
  unfold Solo.next
  split
  · rfl
  · rename_i fine
    rcases ends with failed | empty
    · rw [fine] at failed
      cases failed
    · have idle : s.machine.step = .done (Machine.succeed s.machine) := by
        unfold Machine.step
        rw [empty]
      rw [idle]
      obtain ⟨machine, journal, failure⟩ := s
      cases fine
      rfl

theorem Over.after (ends : s.Over) (n : Nat) : s.after n = s := by
  induction n with
  | zero => rfl
  | succ n ih => rw [Solo.after, ends.next, ih]

theorem Reaches.unique (first : s.Reaches t) (second : s.Reaches u) (ends : t.Over)
    (other : u.Over) : t = u := by
  obtain ⟨n, rfl⟩ := first
  obtain ⟨k, rfl⟩ := second
  rcases Nat.le_total n k with less | more
  · obtain ⟨d, rfl⟩ := Nat.exists_eq_add_of_le less
    rw [after_add, ends.after]
  · obtain ⟨d, rfl⟩ := Nat.exists_eq_add_of_le more
    rw [after_add, other.after]

theorem over_after {n k : Nat} (ends : (s.after n).Over) : ((s.after k).after (n - k)).Over := by
  rw [← after_add]
  rcases Nat.le_total k n with less | more
  · rwa [Nat.add_sub_cancel' less]
  · obtain ⟨d, rfl⟩ := Nat.exists_eq_add_of_le more
    rw [Nat.sub_eq_zero_of_le more, Nat.add_zero, after_add, ends.after]
    exact ends

theorem asked_run {α : Type} (computation : Native α) {journal : Journal}
    (asked : journal.asked = true) :
    (computation.run Journal.natives journal).2.asked = true := by
  induction computation generalizing journal with
  | done => exact asked
  | nextCallback resume ih => exact ih none rfl
  | giveBack value rest ih => exact ih asked
  | setTimeout callback delay rest ih => exact ih asked
  | output line rest ih => exact ih asked

theorem asked_after (asked : s.journal.asked = true) (n : Nat) : (s.after n).journal.asked = true := by
  induction n generalizing s with
  | zero => exact asked
  | succ n ih =>
    refine ih ?_
    unfold Solo.next
    split
    · exact asked
    · exact asked_run s.machine.step asked

theorem Over.modest {n : Nat} (ends : (s.after n).Over) (unasked : (s.after n).journal.asked = false)
    (shallow : ∀ error, (s.after n).failure = some error →
      error.message ≠ StepFault.stackFull.message) : s.Modest := by
  refine ⟨fun k => ?_, fun k error failed => ?_⟩
  · rcases Nat.le_total k n with less | more
    · obtain ⟨d, rfl⟩ := Nat.exists_eq_add_of_le less
      rw [after_add] at unasked
      cases asked : (s.after k).journal.asked with
      | false => rfl
      | true =>
        rw [asked_after asked] at unasked
        cases unasked
    · obtain ⟨d, rfl⟩ := Nat.exists_eq_add_of_le more
      rwa [after_add, ends.after]
  · have failing : (s.after k).Over := .inl (by rw [failed]; rfl)
    rw [Reaches.unique ⟨k, rfl⟩ ⟨n, rfl⟩ failing ends] at failed
    exact shallow error failed

theorem next_running (m : Machine) (effects : List Effect) :
    (running m effects).next = ofNative m.step effects :=
  rfl

@[simp] theorem ofNative_done (result : Machine.Result) (effects : List Effect) :
    ofNative (.done result) effects = ⟨result.state, ⟨effects, false⟩, result.error⟩ :=
  rfl

@[simp] theorem ofNative_output (line : String) (rest : Native Machine.Result)
    (effects : List Effect) :
    ofNative (.output line rest) effects = ofNative rest (effects ++ [.prints line]) :=
  rfl

@[simp] theorem ofNative_setTimeout (callback : Callback) (delay : Duration)
    (rest : Native Machine.Result) (effects : List Effect) :
    ofNative (.setTimeout callback delay rest) effects =
      ofNative rest (effects ++ [.sets callback delay]) :=
  rfl

theorem next_advance {frame : Frame} {below : List Frame} (stack : m.stack = frame :: below)
    (unfinished : frame.isDone = false) :
    (running m effects).next = ofNative (Machine.advance { m with stack := below } frame) effects := by
  rw [next_running, Machine.step, stack]
  dsimp only
  rw [if_neg (by simp [unfinished])]

theorem next_finish {frame : Frame} {below : List Frame} (stack : m.stack = frame :: below)
    (finished : frame.isDone = true) :
    (running m effects).next = ofNative (Machine.finish { m with stack := below } frame) effects := by
  rw [next_running, Machine.step, stack]
  dsimp only
  rw [if_pos finished]

theorem Modest.fits (modest : s.Modest) (offset : Option Nat)
    (fails : stackLimit ≤ m.stack.length → s.next.failure = some (StepFault.stackFull.at offset)) :
    ¬ stackLimit ≤ m.stack.length :=
  fun full => modest.shallow 1 _ (fails full) rfl

theorem push_fits {frame : Frame} (fits : ¬ stackLimit ≤ m.stack.length) :
    m.push frame = Machine.succeed { m with stack := frame :: m.stack } := by
  rw [Machine.push, if_neg fits]

theorem Modest.pushed (modest : s.Modest) {frame : Frame}
    (next : s.next = ofNative (.done (m.push frame)) effects) :
    s.next = running { m with stack := frame :: m.stack } effects := by
  have fits : ¬ stackLimit ≤ m.stack.length := by
    refine modest.fits frame.position fun full => ?_
    rw [next, Machine.push, if_pos full]
    rfl
  rw [next, push_fits fits]
  rfl

end Solo

end Metronome.Script
