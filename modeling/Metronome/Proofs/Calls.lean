import Metronome.Proofs.Shape

namespace Metronome.Script

def Frame.isStarted : Frame → Bool
  | .call _ _ .running => true
  | _ => false

def started (stack : List Frame) : Nat :=
  stack.countP Frame.isStarted

/-- No call that has not begun is on top. -/
def Unready (stack : List Frame) : Prop :=
  ∀ name offset arguments below, stack ≠ .call name offset (.ready arguments) :: below

@[simp] theorem started_cons (frame : Frame) (below : List Frame) :
    started (frame :: below) = started below + if frame.isStarted = true then 1 else 0 :=
  List.countP_cons

theorem started_suffix {stack rest : List Frame} (suffix : rest <:+ stack) :
    started rest ≤ started stack :=
  suffix.sublist.countP_le

theorem started_toCall {below rest : List Frame} {frame : Frame}
    (found : toCall below = frame :: rest) : started rest ≤ started below := by
  have suffix : toCall below <:+ below := List.dropWhile_suffix _
  rw [found] at suffix
  exact started_suffix ((List.suffix_cons frame rest).trans suffix)

variable {functions : List Function} {stack after : List Frame} {answers : List Bool}

theorem Shift.started_le (shift : Shift functions stack answers after) (unready : Unready stack) :
    started after ≤ started stack := by
  cases shift with
  | handOn returns found | giveUp unfinished noCall returns found =>
    have fewer := started_toCall found
    simp [Frame.isStarted]
    omega
  | begin => exact absurd rfl (unready _ _ _ _)
  | leave => exact started_suffix (List.suffix_cons _ _)
  | @enter node => cases node <;> simp [Frame.isStarted, Frame.ofNode]
  | _ => simp [Frame.isStarted]

theorem toCall_above (upper lower : List Frame) (name : String) (offset : Option Nat)
    (state : CallState) :
    toCall (upper ++ .call name offset state :: lower) =
      toCall upper ++ .call name offset state :: lower := by
  induction upper with
  | nil => rfl
  | cons frame upper ih =>
    by_cases call : (frame.kind != .call) = true
    · simpa [toCall, List.dropWhile_cons, call] using ih
    · simp [toCall, call]

theorem toCall_found {upper lower rest : List Frame} {name outer : String}
    {offset origin : Option Nat} {state other : CallState}
    (found : toCall (upper ++ .call name offset state :: lower) = .call outer origin other :: rest) :
    (outer = name ∧ origin = offset ∧ rest = lower) ∨
      ∃ above, rest = above ++ .call name offset state :: lower := by
  rw [toCall_above] at found
  cases inner : toCall upper with
  | nil =>
    rw [inner] at found
    cases found
    exact .inl ⟨rfl, rfl, rfl⟩
  | cons frame above =>
    rw [inner] at found
    cases found
    exact .inr ⟨above, rfl⟩

theorem Shift.above {upper lower : List Frame} {frame : Frame} {name : String}
    {offset : Option Nat} {state : CallState} (shift : Shift functions stack answers after)
    (stacked : Stacked stack)
    (same : stack = frame :: upper ++ .call name offset state :: lower) :
    (∃ top above, after = top :: above ++ .call name offset state :: lower) ∨
      (∃ value, after = .call name offset (.returned value) :: lower) ∧
        (stack.head?.bind Frame.position).isSome = true ∧ answers = [] := by
  have stands := fun under below (two : stack = frame :: under :: below) =>
    (List.isChain_cons_cons.mp (two ▸ stacked)).1
  rw [List.cons_append] at same
  -- A step takes the call's own frame only where the call is next to the top: with the end of its body,
  -- or with a return, which may also find a call further up.
  cases shift with
  | idle => cases same
  | leave node =>
    cases same
    cases upper with
    | nil =>
      cases stands _ _ rfl
      cases node
    | cons top above => exact .inl ⟨top, above, rfl⟩
  | leaveBlock noCall =>
    cases same
    cases upper with
    | nil =>
      cases stands _ _ rfl
      exact absurd rfl (noCall _ _ _)
    | cons top above => exact .inl ⟨top, above, rfl⟩
  | endCall =>
    obtain ⟨rfl, same⟩ := List.cons.inj same
    cases upper with
    | nil =>
      cases same
      cases stands _ _ rfl
      exact .inr ⟨⟨_, rfl⟩, rfl, rfl⟩
    | cons top above =>
      cases same
      exact .inl ⟨_, above, rfl⟩
  | resume | answered =>
    obtain ⟨rfl, same⟩ := List.cons.inj same
    cases upper with
    | nil => cases same
    | cons top above =>
      cases same
      exact .inl ⟨_, above, rfl⟩
  | handOn returns found =>
    obtain ⟨rfl, same⟩ := List.cons.inj same
    cases upper with
    | nil => cases same
    | cons top above =>
      cases same
      cases stands _ _ rfl
      rcases toCall_found found with ⟨rfl, rfl, rfl⟩ | ⟨above, rfl⟩
      · exact .inr ⟨⟨_, rfl⟩, rfl, rfl⟩
      · exact .inl ⟨_, above, rfl⟩
  | drop noAction noPoll =>
    cases same
    cases upper with
    | nil => cases stands _ _ rfl
    | cons top above => exact .inl ⟨top, above, rfl⟩
  | giveUp unfinished noCall returns found =>
    cases same
    rcases toCall_found found with ⟨rfl, rfl, rfl⟩ | ⟨above, rfl⟩
    · exact .inr ⟨⟨_, rfl⟩, rfl, rfl⟩
    · exact .inl ⟨_, above, rfl⟩
  | enter | call | loopOn | branchOn | begin | pollSome =>
    cases same
    exact .inl ⟨_, _ :: upper, rfl⟩
  | _ =>
    cases same
    exact .inl ⟨_, upper, rfl⟩

section Call

variable (name : String) (offset : Option Nat) (lower : List Frame)

def Runs (stack : List Frame) : Prop :=
  ∃ frame upper, stack = frame :: upper ++ .call name offset .running :: lower

/-- A call that runs returns: in all the stacks before, its body is on it, and then it is on top with
its value. -/
def Returns (history : List (List Frame)) : Prop :=
  ∃ before after value,
    history = before ++ (.call name offset (.returned value) :: lower) :: after ∧
      ∀ stack ∈ before, Runs name offset lower stack

end Call

section Call

variable {name : String} {offset : Option Nat} {lower : List Frame} {history : List (List Frame)}

theorem Returns.append (returns : Returns name offset lower history) (more : List (List Frame)) :
    Returns name offset lower (history ++ more) := by
  obtain ⟨before, rest, value, rfl, runs⟩ := returns
  exact ⟨before, rest ++ more, value, by simp, runs⟩

theorem Shift.runs (shift : Shift functions stack answers after) (stacked : Stacked stack)
    (running : ∀ earlier ∈ history ++ [stack], Runs name offset lower earlier) :
    (∀ earlier ∈ history ++ [stack, after], Runs name offset lower earlier) ∨
      Returns name offset lower (history ++ [stack, after]) := by
  obtain ⟨frame, upper, same⟩ := running stack (by simp)
  rcases shift.above stacked same with ⟨top, above, same⟩ | ⟨⟨value, same⟩, -⟩
  · left
    intro earlier member
    rw [List.append_cons, List.mem_append, List.mem_singleton] at member
    rcases member with sofar | rfl
    · exact running earlier sofar
    · exact ⟨top, above, same⟩
  · right
    exact ⟨history ++ [stack], [], value, by simp [same], running⟩

end Call

theorem Shift.begun {lower : List Frame} {name : String} {offset : Option Nat}
    {arguments : List Value} (shift : Shift functions stack answers after)
    (same : stack = .call name offset (.ready arguments) :: lower) :
    ∃ rest origin, after = .block rest origin :: .call name offset .running :: lower := by
  cases shift with
  | leave node =>
    cases same
    cases node
  | begin =>
    cases same
    exact ⟨_, _, rfl⟩
  | _ => cases same

/-- How far a stack reaches with the next step, if it only tidies up. -/
def reach (stack : List Frame) : Nat :=
  stack.length + if stack.head?.any Frame.isBlock then 1 else 0

theorem reach_isNode {frame : Frame} {below : List Frame} (node : frame.isNode = true) :
    reach (frame :: below) = below.length + 1 := by
  cases frame <;> simp_all [reach, Frame.isNode, Frame.isBlock]

theorem length_le_reach (stack : List Frame) : stack.length ≤ reach stack :=
  Nat.le_add_right _ _

structure Tidied (calls bound : Nat) (answers : List Bool) (after : List Frame) : Prop where
  started : started after ≤ calls
  reach : reach after ≤ bound
  unready : Unready after
  unasked : answers = []

/-- A call that has returned leaves its caller's statement, or one further out. -/
theorem Shift.returns {lower : List Frame} {name : String} {offset : Option Nat} {value : Value}
    (shift : Shift functions stack answers after) (stacked : Stacked stack)
    (same : stack = .call name offset (.returned value) :: lower) :
    Tidied (started lower) lower.length answers after ∧
      ∀ frame ∈ after.head?, frame.isDone = true := by
  have finished : ∀ {frame : Frame} {below : List Frame}, frame.isDone = true →
      frame.isStarted = false → frame.isBlock = false → started below ≤ started lower →
      below.length + 1 ≤ lower.length → after = frame :: below → answers = [] →
      Tidied (started lower) lower.length answers after ∧
        ∀ frame ∈ after.head?, frame.isDone = true := by
    rintro frame below done unstarted noBlock fewer shorter rfl unasked
    refine ⟨⟨by simpa [unstarted] using fewer, ?_, ?_, unasked⟩, ?_⟩
    · simpa [reach, noBlock] using shorter
    · rintro name offset arguments rest ⟨⟩
      cases done
    · rintro top ⟨⟩
      exact done
  cases shift with
  | leave node =>
    cases same
    cases node
  | resume | answered =>
    cases same
    exact finished rfl rfl rfl (by simp [Frame.isStarted]) (Nat.le_refl _) rfl rfl
  | handOn returns found =>
    cases same
    have fewer := started_toCall found
    have shorter := toCall_length found
    exact finished rfl rfl rfl (by simpa [Frame.isStarted] using fewer)
      (Nat.le_succ_of_le shorter) rfl rfl
  | drop noAction noPoll =>
    cases same
    cases after with
    | nil =>
      refine ⟨⟨Nat.le_refl _, Nat.le_refl _, ?_, rfl⟩, by simp⟩
      rintro name offset arguments below ⟨⟩
    | cons under below =>
      cases (List.isChain_cons_cons.mp stacked).1 with
      | action => exact absurd rfl (noAction _ _ _)
      | poll => exact absurd rfl (noPoll _ _)
      | block node => cases node
  | _ => cases same

theorem Shift.tidied {frame : Frame} {below : List Frame}
    (shift : Shift functions stack answers after) (stacked : Stacked stack)
    (same : stack = frame :: below) (safe : frame.isDone = true ∨ frame.isBlock = true) :
    Tidied (started stack) (reach stack) answers after := by
  have fewer : started after ≤ started stack := by
    refine shift.started_le ?_
    rintro name offset arguments rest rfl
    cases same
    rcases safe with done | block
    · cases done
    · cases block
  have returned : ∀ {name : String} {offset : Option Nat} {value : Value},
      frame = .call name offset (.returned value) →
        Tidied (started stack) (reach stack) answers after := by
    rintro name offset value rfl
    obtain ⟨-, reached, unready, unasked⟩ := (shift.returns stacked same).1
    refine ⟨fewer, ?_, unready, unasked⟩
    have longer := length_le_reach stack
    rw [same, List.length_cons] at longer
    rw [same]
    omega
  have stands := fun under rest (two : stack = frame :: under :: rest) =>
    (List.isChain_cons_cons.mp (two ▸ stacked)).1
  cases shift with
  | idle => cases same
  | leave node =>
    cases same
    cases after with
    | nil => exact ⟨fewer, by simp [reach], fun _ _ _ _ => by simp, rfl⟩
    | cons under rest =>
      cases stands _ _ rfl with
      | block =>
        refine ⟨fewer, ?_, fun _ _ _ _ => by simp, rfl⟩
        rw [reach_isNode node]
        simp [reach, Frame.isBlock]
      | _ => cases node
  | leaveBlock noCall =>
    cases same
    cases after with
    | nil => exact ⟨fewer, by simp [reach], fun _ _ _ _ => by simp, rfl⟩
    | cons under rest =>
      cases stands _ _ rfl with
      | block node => cases node
      | body => exact absurd rfl (noCall _ _ _)
      | loop | branch => exact ⟨fewer, by simp [reach, Frame.isBlock], fun _ _ _ _ => by simp, rfl⟩
  | endCall =>
    cases same
    exact ⟨fewer, by simp [reach, Frame.isBlock], fun _ _ _ _ => by simp, rfl⟩
  | resume | answered | handOn | drop =>
    cases same
    exact returned rfl
  | @enter node =>
    cases same
    refine ⟨fewer, ?_, ?_, rfl⟩
    · rw [reach_isNode (isNode_ofNode node)]
      simp [reach, Frame.isBlock]
    · cases node <;> exact fun _ _ _ _ => by simp [Frame.ofNode]
  | act unfinished | giveUp unfinished | call unfinished | pollNone unfinished
  | pollSome unfinished =>
    cases same
    simp [Frame.isDone, Frame.isBlock, unfinished] at safe
  | _ =>
    cases same
    rcases safe with done | block
    · cases done
    · cases block

/-- How a call can be on top after a step: it was just made, by a statement or by a poll, or it has
just returned. -/
inductive Surfaced (stack : List Frame) (answers : List Bool) (offset : Option Nat)
    (lower : List Frame) : CallState → Prop where
  | made {arguments : List Value} {place : Place}
      (stands : stack.head?.bind Frame.position = some place.offset)
      (busy : ∀ frame ∈ stack.head?, frame.isDone = false ∧ frame.isBlock = false)
      (maker : offset = some place.offset ∨
        offset = none ∧ ∃ below, lower = .poll place .waiting :: below) :
      Surfaced stack answers offset lower (.ready arguments)
  | returned {value : Value} (stands : (stack.head?.bind Frame.position).isSome = true)
      (unasked : answers = []) : Surfaced stack answers offset lower (.returned value)

theorem Shift.surfaces {name : String} {offset : Option Nat} {state : CallState}
    {lower : List Frame} (shift : Shift functions stack answers after) (stacked : Stacked stack)
    (bodied : Bodied stack) (top : after = .call name offset state :: lower) :
    Surfaced stack answers offset lower state := by
  have stands := fun under below (two : stack = under :: below) =>
    (List.isChain_cons.mp (two ▸ stacked)).1
  have busy : ∀ {phase : Phase}, phase ≠ .done → (phase == .done) = false := by simp
  cases shift with
  | idle => cases top
  | leave node =>
    subst top
    cases stands _ _ rfl _ rfl
    cases node
  | leaveBlock noCall =>
    subst top
    cases stands _ _ rfl _ rfl with
    | body => exact absurd rfl (noCall _ _ _)
  | drop =>
    subst top
    cases stands _ _ rfl _ rfl
  | @enter node => cases node <;> cases top
  | surface => exact absurd rfl (bodied _ _ _)
  | endCall | handOn =>
    cases top
    cases stands _ _ rfl _ rfl
    exact .returned rfl rfl
  | giveUp =>
    cases top
    exact .returned rfl rfl
  | call unfinished =>
    cases top
    refine .made rfl ?_ (.inl rfl)
    rintro frame ⟨⟩
    exact ⟨busy unfinished, rfl⟩
  | pollSome unfinished =>
    cases top
    refine .made rfl ?_ (.inr ⟨rfl, _, rfl⟩)
    rintro frame ⟨⟩
    exact ⟨busy unfinished, rfl⟩
  | _ => cases top

end Metronome.Script
