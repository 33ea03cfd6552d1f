import Metronome.Proofs.Shift

namespace Metronome.Script

mutual

def Node.polls : Node → Bool
  | .action _ _ => false
  | .poll _ => true
  | .loop _ _ body => anyPolls body
  | .branch _ _ body => anyPolls body

def anyPolls : List Node → Bool
  | [] => false
  | node :: nodes => node.polls || anyPolls nodes

end

def Program.polls (program : Program) : Bool :=
  anyPolls program.body || program.functions.any fun function => anyPolls function.body

def Frame.polls : Frame → Bool
  | block rest _ => anyPolls rest
  | action _ _ _ => false
  | poll _ _ => true
  | loop _ _ body _ => anyPolls body
  | branch _ _ body _ => anyPolls body
  | call _ _ _ => false

@[simp] theorem Frame.polls_ofNode (node : Node) : (Frame.ofNode node).polls = node.polls := by
  cases node <;> rfl

variable {functions : List Function} {outer inner : Place} {stack after upper base : List Frame}
  {answers : List Bool}

abbrev callbackLoop (outer inner : Place) : Node :=
  .loop outer .always [.poll inner]

inductive Wrapper (outer inner : Place) : List Frame → Prop where
  | ahead {nodes : List Node} (silent : anyPolls nodes = false) :
      Wrapper outer inner [.block (nodes ++ [callbackLoop outer inner]) none]
  | tests : Wrapper outer inner [.loop outer .always [.poll inner] false, .block [] none]
  | enters : Wrapper outer inner [.block [.poll inner] (some outer.offset),
      .loop outer .always [.poll inner] false, .block [] none]
  | asks (phase : Phase) : Wrapper outer inner [.poll inner phase, .block [] (some outer.offset),
      .loop outer .always [.poll inner] false, .block [] none]
  | leaves : Wrapper outer inner [.block [] (some outer.offset),
      .loop outer .always [.poll inner] false, .block [] none]

/-- A stack above the generated loop, where nothing takes callbacks. -/
inductive Housed (outer inner : Place) : List Frame → Prop where
  | intro {upper base : List Frame} (silent : upper.any Frame.polls = false)
      (wrapper : Wrapper outer inner base) : Housed outer inner (upper ++ base)

theorem Wrapper.no_call (wrapper : Wrapper outer inner base) {name : String} {offset : Option Nat}
    {state : CallState} {rest : List Frame} : base ≠ .call name offset state :: rest := by
  cases wrapper <;> simp

theorem Wrapper.no_action (wrapper : Wrapper outer inner base) {place : Place} {action : Action}
    {phase : Phase} {rest : List Frame} : base ≠ .action place action phase :: rest := by
  cases wrapper <;> simp

theorem Wrapper.toCall_nil (wrapper : Wrapper outer inner base) : toCall base = [] := by
  cases wrapper <;> rfl

theorem Wrapper.housed (wrapper : Wrapper outer inner base) : Housed outer inner base := by
  have silent : ([] : List Frame).any Frame.polls = false := rfl
  exact .intro silent wrapper

theorem Housed.push (housed : Housed outer inner stack) {frame : Frame} (silent : frame.polls = false) :
    Housed outer inner (frame :: stack) := by
  cases housed with
  | @intro upper base free wrapper =>
    have more : (frame :: upper).any Frame.polls = false := by simp [silent, free]
    exact .intro more wrapper

theorem Housed.tail {frame : Frame} {below : List Frame} (housed : Housed outer inner stack)
    (same : stack = frame :: below)
    (above : ∀ base, Wrapper outer inner base → ∀ rest, base ≠ frame :: rest) :
    Housed outer inner below := by
  cases housed with
  | @intro upper base free wrapper =>
    cases upper with
    | nil => exact absurd same (above base wrapper below)
    | cons top upper =>
      cases same
      simp only [List.any_cons, Bool.or_eq_false_iff] at free
      exact .intro free.2 wrapper

theorem Housed.tail_call {name : String} {offset : Option Nat} {state : CallState}
    {below : List Frame} (housed : Housed outer inner (.call name offset state :: below)) :
    Housed outer inner below :=
  housed.tail rfl fun _ wrapper _ => wrapper.no_call

theorem Housed.tail_action {place : Place} {action : Action} {phase : Phase} {below : List Frame}
    (housed : Housed outer inner (.action place action phase :: below)) :
    Housed outer inner below :=
  housed.tail rfl fun _ wrapper _ => wrapper.no_action

theorem Housed.toCall {name : String} {offset : Option Nat} {state : CallState} {rest : List Frame}
    (housed : Housed outer inner stack)
    (found : toCall stack = .call name offset state :: rest) : Housed outer inner rest := by
  cases housed with
  | @intro upper base free wrapper =>
    induction upper with
    | nil =>
      rw [List.nil_append, wrapper.toCall_nil] at found
      cases found
    | cons frame upper ih =>
      simp only [List.any_cons, Bool.or_eq_false_iff] at free
      by_cases call : frame.kind = .call
      · have same : Script.toCall (frame :: upper ++ base) = frame :: (upper ++ base) := by
          simp [Script.toCall, call]
        rw [same] at found
        cases found
        exact .intro free.2 wrapper
      · have same : Script.toCall (frame :: upper ++ base) = Script.toCall (upper ++ base) := by
          simp [Script.toCall, call]
        rw [same] at found
        exact ih free.2 found

theorem Wrapper.shift (wrapper : Wrapper outer inner base) (shift : Shift functions base answers after) :
    Housed outer inner after := by
  cases wrapper with
  | @ahead nodes silent =>
    cases nodes with
    | nil =>
      cases shift with
      | leave node => cases node
      | enter => exact Wrapper.tests.housed
    | cons node nodes =>
      simp only [anyPolls, Bool.or_eq_false_iff] at silent
      cases shift with
      | leave node => cases node
      | enter => exact (Wrapper.ahead silent.2).housed.push (by simp [silent.1])
  | tests =>
    cases shift with
    | leave _ finished => cases finished
    | loopOn => exact Wrapper.enters.housed
    | loopOff ends => exact absurd rfl ends
  | enters =>
    cases shift with
    | leave node => cases node
    | enter => exact (Wrapper.asks .ready).housed
  | asks phase =>
    cases shift with
    | leave => exact Wrapper.leaves.housed
    | pollNone => exact (Wrapper.asks .done).housed
    | pollSome => exact (Wrapper.asks .waiting).housed.push rfl
  | leaves =>
    cases shift with
    | leave node => cases node
    | leaveBlock => exact Wrapper.tests.housed

theorem Shift.aboveLoop {top : Frame} (shift : Shift functions stack answers after)
    (same : stack = top :: base) (housed : Housed outer inner base) (free : top.polls = false)
    (silent : ∀ function ∈ functions, anyPolls function.body = false) :
    Housed outer inner after := by
  cases shift with
  | idle => cases same
  | leave => cases same; exact housed
  | leaveBlock => cases same; exact housed
  | endCall => cases same; exact housed.tail_call.push rfl
  | resume => cases same; exact housed.tail_action.push rfl
  | handOn _ found => cases same; exact (housed.tail_action.toCall found).push rfl
  | @answered _ _ _ place below =>
    cases same
    -- The poll that a callback answers is the one of the loop, for no other one is above it.
    generalize waits : Frame.poll place .waiting :: below = low at housed
    cases housed with
    | @intro upper base idle wrapper =>
      cases upper with
      | nil =>
        rw [List.nil_append] at waits
        cases wrapper with
        | asks phase => cases waits; exact (Wrapper.asks .done).housed
        | _ => cases waits
      | cons frame upper =>
        cases waits
        cases idle
  | drop => cases same; exact housed
  | @enter node nodes origin _ =>
    cases same
    simp only [Frame.polls, anyPolls, Bool.or_eq_false_iff] at free
    have left : (Frame.block nodes origin).polls = false := free.2
    exact (housed.push left).push (by simp [free.1])
  | act => cases same; exact housed.push rfl
  | giveUp _ _ _ found => cases same; exact (housed.toCall found).push rfl
  | call => cases same; exact (housed.push rfl).push rfl
  | loopOn => cases same; refine (housed.push ?_).push ?_ <;> exact free
  | loopOff => cases same; exact housed.push free
  | branchOn => cases same; refine (housed.push ?_).push ?_ <;> exact free
  | branchOff => cases same; exact housed.push free
  | branchBack => cases same; exact housed.push free
  | begin found =>
    cases same
    have body := silent _ (List.mem_of_find?_eq_some found)
    exact (housed.push rfl).push body
  | surface => cases same; exact housed.push rfl
  | pollNone => cases same; cases free
  | pollSome => cases same; cases free

theorem Housed.shift (housed : Housed outer inner stack)
    (shift : Shift functions stack answers after)
    (silent : ∀ function ∈ functions, anyPolls function.body = false) :
    Housed outer inner after := by
  cases housed with
  | @intro upper base free wrapper =>
    cases upper with
    | nil => exact wrapper.shift shift
    | cons top upper =>
      simp only [List.any_cons, Bool.or_eq_false_iff] at free
      exact shift.aboveLoop rfl (.intro free.2 wrapper) free.1 silent

theorem Housed.ne_nil (housed : Housed outer inner stack) : stack ≠ [] := by
  cases housed with
  | intro _ wrapper => cases wrapper <;> simp

theorem Housed.asks {place : Place} {phase : Phase} {below : List Frame}
    (housed : Housed outer inner stack) (same : stack = .poll place phase :: below) :
    stack = [.poll inner phase, .block [] (some outer.offset),
      .loop outer .always [.poll inner] false, .block [] none] := by
  cases housed with
  | @intro upper base free wrapper =>
    cases upper with
    | nil =>
      rw [List.nil_append] at same ⊢
      cases wrapper with
      | asks => cases same; rfl
      | _ => cases same
    | cons top upper =>
      cases same
      cases free

end Metronome.Script
