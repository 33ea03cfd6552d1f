import Metronome.Proofs.Calls
import Metronome.Proofs.Requests
import Metronome.Proofs.Soundness

/-!
The invocation of one entry of the queue. An entry that is pushed last waits until it is alone in the
queue; the poll that takes it then makes its call, and the call runs until it is on top with its value.
With the queue empty no other callback returns in between.
-/
namespace Metronome

namespace Script

def Frame.isAsking : Frame → Bool
  | .poll _ .waiting => true
  | _ => false

def asking (stack : List Frame) : Nat :=
  stack.countP Frame.isAsking

@[simp] theorem asking_cons (frame : Frame) (below : List Frame) :
    asking (frame :: below) = asking below + if frame.isAsking = true then 1 else 0 :=
  List.countP_cons

theorem asking_append (upper lower : List Frame) :
    asking (upper ++ lower) = asking upper + asking lower :=
  List.countP_append

theorem asking_toCall {below rest : List Frame} {frame : Frame}
    (found : toCall below = frame :: rest) : asking rest ≤ asking below := by
  have suffix : toCall below <:+ below := List.dropWhile_suffix _
  rw [found] at suffix
  exact ((List.suffix_cons frame rest).trans suffix).sublist.countP_le

variable {functions : List Function} {stack after : List Frame} {answers : List Bool}

theorem Shift.asking_le (shift : Shift functions stack answers after) (alone : true ∉ answers) :
    asking after ≤ asking stack := by
  cases shift with
  | handOn returns found | giveUp unfinished noCall returns found =>
    have fewer := asking_toCall found
    simp [Frame.isAsking]
    omega
  | pollSome => simp at alone
  | @enter node => cases node <;> simp [Frame.isAsking, Frame.ofNode]
  | _ => simp [Frame.isAsking]

theorem Runs.not_answered {name : String} {offset : Option Nat} {lower : List Frame}
    (runs : Runs name offset lower stack) (stacked : Stacked stack)
    (alone : asking stack ≤ asking lower) {other : String} {origin : Option Nat} {value : Value}
    {place : Place} {below : List Frame} :
    stack ≠ .call other origin (.returned value) :: .poll place .waiting :: below := by
  intro same
  obtain ⟨frame, upper, stands⟩ := runs
  rw [stands] at same stacked alone
  rw [asking_append, asking_cons] at alone
  cases upper with
  | nil => cases same
  | cons under upper =>
    cases same
    have waits : (Frame.poll place .waiting).isAsking = true := rfl
    have below : asking (.call name offset .running :: lower) = asking lower := by
      rw [asking_cons]
      rfl
    rw [asking_cons, if_pos waits, below] at alone
    omega

end Script

namespace Run

open Metronome.Debug (Breakpoints)
open Metronome.Script (Frame Machine Runs Shift asking)

structure Snapshot where
  stack : List Frame
  queue : Queue

def Progress.snapshot (p : Progress Machine) : Snapshot :=
  ⟨p.live.program.stack, p.live.queue⟩

section

variable (callback : Callback) (maxDepth : Nat) (ahead : Queue)

def Waits (snapshot : Snapshot) : Prop :=
  ∃ left, left <:+ ahead ∧ snapshot.queue = left ++ [callback]

def calledNow (lower : List Frame) : Snapshot :=
  ⟨.call callback.name none
      (.ready (callback.arguments.map (Value.truncate maxDepth))) :: lower, []⟩

def returnedNow (value : Value) (lower : List Frame) : Snapshot :=
  ⟨.call callback.name none (.returned value) :: lower, []⟩

/-- An entry waited, was taken by a poll when it was alone in the queue, and was called; since then its
call runs. -/
inductive Called (lower : List Frame) : List Snapshot → Snapshot → Prop where
  | taken {before : List Snapshot} {place : Script.Place} {phase : Script.Phase}
      {below : List Frame} (waits : ∀ earlier ∈ before, Waits callback ahead earlier)
      (unfinished : phase ≠ .done) (polls : lower = .poll place .waiting :: below) :
      Called lower (before ++ [⟨.poll place phase :: below, [callback]⟩])
        (calledNow callback maxDepth lower)
  | runs {before : List Snapshot} {now : Snapshot} {stack : List Frame}
      (called : Called lower before now) (runs : Runs callback.name none lower stack) :
      Called lower (before ++ [now]) ⟨stack, []⟩

/-- An entry was taken and called, and at last its call is on top with a value. -/
inductive Invocation (value : Value) : List Snapshot → Prop where
  | returned {before : List Snapshot} {now : Snapshot} {lower : List Frame}
      (called : Called callback maxDepth ahead lower before now) :
      Invocation value (before ++ [now, returnedNow callback value lower])

/-- How far an entry has come: it waits, its call runs, or its call has returned. Above a call that runs
no poll waits. -/
inductive Pursuit (before : List Snapshot) (now : Snapshot) : Prop where
  | waits (each : ∀ earlier ∈ before, Waits callback ahead earlier)
      (waits : Waits callback ahead now)
  | called {lower : List Frame} (called : Called callback maxDepth ahead lower before now)
      (alone : asking now.stack ≤ asking lower)
  | returned {value : Value} {lower : List Frame}
      (invocation : Invocation callback maxDepth ahead value (before ++ [now]))
      (polls : ∃ place below, lower = .poll place .waiting :: below)
      (here : now = returnedNow callback value lower)

end

section

variable {callback : Callback} {maxDepth : Nat} {ahead : Queue}

theorem Called.polls {lower : List Frame} {before : List Snapshot} {now : Snapshot}
    (called : Called callback maxDepth ahead lower before now) :
    ∃ place below, lower = .poll place .waiting :: below := by
  induction called with
  | taken waits unfinished polls => exact ⟨_, _, polls⟩
  | runs called runs ih => exact ih

theorem Called.unanswered {lower : List Frame} {before : List Snapshot} {now : Snapshot}
    (called : Called callback maxDepth ahead lower before now) (stacked : Script.Stacked now.stack)
    (alone : asking now.stack ≤ asking lower) {name : String} {offset : Option Nat} {value : Value}
    {place : Script.Place} {below : List Frame} :
    now.stack ≠ .call name offset (.returned value) :: .poll place .waiting :: below := by
  cases called with
  | taken => simp [calledNow]
  | runs called runs => exact runs.not_answered stacked alone

theorem Waits.busy {snapshot : Snapshot} (waits : Waits callback ahead snapshot) :
    snapshot.queue.isEmpty = false := by
  obtain ⟨left, -, queue⟩ := waits
  simp [queue]

variable {lower : List Frame} {before : List Snapshot} {now : Snapshot}

/-- The call of an entry is the first thing that stands with an empty queue. -/
theorem Called.first_empty (called : Called callback maxDepth ahead lower before now) :
    (before ++ [now]).find? (·.queue.isEmpty) = some (calledNow callback maxDepth lower) := by
  induction called with
  | taken waits unfinished polls =>
    rw [List.append_assoc, List.find?_append, List.find?_eq_none.mpr fun earlier member => by
      simp [(waits earlier member).busy]]
    rfl
  | runs called runs ih => rw [List.find?_append, ih, Option.some_or]

theorem Called.going (called : Called callback maxDepth ahead lower before now) :
    ∀ snapshot ∈ before ++ [now], snapshot.queue = [] →
      snapshot = calledNow callback maxDepth lower ∨
        Runs callback.name none lower snapshot.stack := by
  induction called with
  | taken waits unfinished polls =>
    intro snapshot member empty
    simp only [List.append_assoc, List.mem_append, List.mem_singleton] at member
    rcases member with earlier | rfl | rfl
    · have busy := (waits snapshot earlier).busy
      rw [empty] at busy
      cases busy
    · cases empty
    · exact .inl rfl
  | runs called runs ih =>
    intro snapshot member empty
    rcases List.mem_append.mp member with earlier | last
    · exact ih snapshot earlier empty
    · rw [List.mem_singleton.mp last]
      exact .inr runs

theorem Called.not_returned {value : Value} {snapshots : List Snapshot}
    (called : Called callback maxDepth ahead lower before now)
    (invocation : Invocation callback maxDepth ahead value snapshots) :
    ¬ snapshots <+: before ++ [now] := by
  intro part
  cases invocation with
  | @returned earlier top under sofar =>
    rw [List.append_cons] at part
    -- Both calls are the first thing in the history that stands with an empty queue.
    have same : lower = under := by
      have start := ((List.prefix_append _ _).trans part).find?_eq_some sofar.first_empty
      rw [called.first_empty] at start
      simpa [calledNow] using start
    subst same
    rcases called.going (returnedNow callback value lower) (part.mem (by simp)) rfl with
      ready | ⟨frame, upper, stands⟩
    · simp [returnedNow, calledNow] at ready
    · have longer := congrArg List.length stands
      simp only [returnedNow, List.length_cons, List.length_append] at longer
      omega

theorem Invocation.unique {value other : Value} {snapshots more : List Snapshot}
    (first : Invocation callback maxDepth ahead value snapshots)
    (second : Invocation callback maxDepth ahead other more) (part : snapshots <+: more) :
    snapshots = more ∧ value = other := by
  cases second with
  | @returned earlier top under sofar =>
    rw [List.append_cons] at part ⊢
    rcases List.prefix_concat_iff.mp part with same | shorter
    · refine ⟨same, ?_⟩
      cases first with
      | @returned before now lower called =>
        rw [List.append_cons] at same
        have last := List.append_inj_right' same rfl
        simp only [returnedNow, List.cons.injEq, Snapshot.mk.injEq, Frame.call.injEq,
          Script.CallState.returned.injEq] at last
        exact last.1.1.1.2.2
    · exact absurd shorter (sofar.not_returned first)

theorem Invocation.not_pursued {value : Value}
    (invocation : Invocation callback maxDepth ahead value before) :
    ¬ Pursuit callback maxDepth ahead before now := by
  intro pursuit
  cases pursuit with
  | waits each waits =>
    cases invocation with
    | @returned before now lower called =>
      have busy := (each (returnedNow callback value lower) (by simp)).busy
      cases busy
  | called called alone => exact called.not_returned invocation (List.prefix_append _ _)
  | returned further polls here =>
    have same := (invocation.unique further (List.prefix_append _ _)).1
    simp at same

end

namespace Bridge

theorem run_plain {α : Type} {computation : Native α} (plain : computation.Plain)
    (bridge : Bridge) : (computation.run natives bridge).2.queue = bridge.queue ∧
      (computation.run natives bridge).2.response = bridge.response := by
  induction computation generalizing bridge with
  | done => exact ⟨rfl, rfl⟩
  | nextCallback => exact plain.elim
  | giveBack => exact plain.elim
  | setTimeout callback delay rest ih => exact ih plain (bridge.setTimeout callback delay)
  | output line rest ih => exact ih plain (bridge.tell (.output line))

end Bridge

namespace Progress

variable {request : Request} {p q : Progress Machine}

theorem Took.plain (took : Took request p q) (plain : p.live.program.step.Plain) :
    q.live.queue = p.live.queue ∧ q.live.response = p.live.response := by
  rw [took.queue, took.response]
  exact Bridge.run_plain plain _

theorem Took.takes (took : Took request p q) (dispatched : request.untilReturn = true)
    {name : String} {offset : Option Nat} {value : Value} {place : Script.Place}
    {below : List Frame} (stack : p.live.program.stack =
      .call name offset (.returned value) :: .poll place .waiting :: below) :
    q.live.queue = p.live.queue ∧ q.live.response =
      if p.live.queue.isEmpty then
        { p.live.response with seenReturn := true, lastReturn := some value }
      else p.live.response := by
  have step : Interpreter.step p.live.program = _ := Machine.step_taking stack
  rw [took.queue, took.response, stepped, step]
  simp only [Native.run, Bridge.natives, Bridge.giveBack, dispatched, if_true, Bridge.keepReturn]
  split <;> exact ⟨rfl, rfl⟩

theorem Took.polls (took : Took request p q) {place : Script.Place} {phase : Script.Phase}
    {below : List Frame} (stack : p.live.program.stack = .poll place phase :: below)
    (unfinished : phase ≠ .done) (fine : (p.stepped request).1.error = none) :
    (p.live.queue = [] ∧ q.live.queue = [] ∧
        q.live.response = { p.live.response with seenEmptyQueue := true }) ∨
      ∃ callback, p.live.queue = callback :: q.live.queue ∧ q.live.response = p.live.response ∧
        q.live.program.stack = .call callback.name none
          (.ready (callback.arguments.map (Value.truncate request.maxDepth))) ::
            .poll place .waiting :: below := by
  have asks : Interpreter.step p.live.program = _ := Machine.step_polling stack unfinished
  rw [took.queue, took.response, took.program]
  rw [stepped, asks] at fine ⊢
  cases waiting : p.live.queue with
  | nil =>
    simp only [Native.run, Bridge.natives, Bridge.nextCallback]
    exact .inl ⟨trivial, trivial, trivial⟩
  | cons callback queue =>
    simp only [Native.run, Bridge.natives, Bridge.nextCallback, waiting] at fine ⊢
    refine .inr ⟨callback, rfl, trivial, ?_⟩
    rw [Script.Machine.push_state fine]

variable {callback : Callback} {ahead : Queue} {before : List Snapshot}

structure Onward (callback : Callback) (ahead : Queue) (before : List Snapshot) (request : Request)
    (p q : Progress Machine) : Prop where
  pursuit : Pursuit callback request.maxDepth ahead (before ++ [p.snapshot]) q.snapshot
  lastReturn : q.live.response.lastReturn = p.live.response.lastReturn
  seenReturn : q.live.response.seenReturn = p.live.response.seenReturn

theorem Took.waits (took : Took request p q) (fine : (p.stepped request).1.error = none)
    (dispatched : request.untilReturn = true)
    (each : ∀ earlier ∈ before, Waits callback ahead earlier)
    (waits : Waits callback ahead p.snapshot) : Onward callback ahead before request p q := by
  have eachThen : ∀ earlier ∈ before ++ [p.snapshot], Waits callback ahead earlier := by
    intro earlier member
    rcases List.mem_append.mp member with sofar | now
    · exact each earlier sofar
    · exact List.mem_singleton.mp now ▸ waits
  obtain ⟨left, others, queue⟩ := waits
  have same : q.live.queue = p.live.queue → q.live.response = p.live.response →
      Onward callback ahead before request p q := by
    intro sameQueue sameResponse
    exact ⟨.waits eachThen ⟨left, others, sameQueue.trans queue⟩,
      congrArg Response.lastReturn sameResponse, congrArg Response.seenReturn sameResponse⟩
  cases p.live.program.asks with
  | nothing plain =>
    obtain ⟨sameQueue, sameResponse⟩ := took.plain plain
    exact same sameQueue sameResponse
  | taking stack =>
    obtain ⟨sameQueue, sameResponse⟩ := took.takes dispatched stack
    have busy : p.live.queue.isEmpty = false := by
      rw [show p.live.queue = left ++ [callback] from queue]
      simp
    rw [busy] at sameResponse
    exact same sameQueue sameResponse
  | callback stack unfinished =>
    rcases took.polls stack unfinished fine with ⟨empty, -⟩ | ⟨taken, rest, sameResponse, stackThen⟩
    · have busy : left ++ [callback] = [] := queue.symm.trans empty
      simp at busy
    · have split : taken :: q.live.queue = left ++ [callback] := rest.symm.trans queue
      refine ⟨?_, congrArg Response.lastReturn sameResponse,
        congrArg Response.seenReturn sameResponse⟩
      cases left with
      | nil =>
        obtain ⟨rfl, alone⟩ := List.cons.inj split
        have now : q.snapshot = calledNow taken request.maxDepth (.poll _ .waiting :: _) :=
          congrArg₂ Snapshot.mk stackThen alone
        have here : p.snapshot = ⟨.poll _ _ :: _, [taken]⟩ := congrArg₂ Snapshot.mk stack queue
        rw [now, here]
        refine .called (.taken each unfinished rfl) ?_
        simp [calledNow, Frame.isAsking]
      | cons first left =>
        obtain ⟨rfl, queueThen⟩ := List.cons.inj split
        exact .waits eachThen ⟨left, (List.suffix_cons taken left).trans others, queueThen⟩

theorem Took.runs (took : Took request p q) (fine : (p.stepped request).1.error = none)
    (sound : p.live.program.Sound p.live.lines)
    {lower : List Frame}
    (called : Called callback request.maxDepth ahead lower before p.snapshot)
    (alone : asking p.snapshot.stack ≤ asking lower) : Onward callback ahead before request p q := by
  obtain ⟨answers, shift, taken, -⟩ := took.shift fine
  have empty : p.live.queue = [] := by
    generalize here : p.snapshot = now at called
    cases called with
    | taken => exact congrArg Snapshot.queue here
    | runs => exact congrArg Snapshot.queue here
  -- With an empty queue no poll gets a callback, so that none above the call comes to wait for one.
  have none_taken : true ∉ answers := by
    rw [empty, List.length_nil, Nat.add_eq_zero_iff] at taken
    exact List.count_eq_zero.mp taken.2
  have fewer : asking q.live.program.stack ≤ asking lower := (shift.asking_le none_taken).trans alone
  have kept : q.live.queue = [] ∧ q.live.response.lastReturn = p.live.response.lastReturn ∧
      q.live.response.seenReturn = p.live.response.seenReturn := by
    cases p.live.program.asks with
    | nothing plain =>
      obtain ⟨sameQueue, sameResponse⟩ := took.plain plain
      rw [sameResponse]
      exact ⟨sameQueue.trans empty, rfl, rfl⟩
    | callback stack unfinished =>
      rcases took.polls stack unfinished fine with ⟨-, still, seen⟩ | ⟨first, rest, -⟩
      · rw [seen]
        exact ⟨still, rfl, rfl⟩
      · rw [empty] at rest
        cases rest
    | taking stack => exact absurd stack (called.unanswered sound.stacked alone)
  have follows : Runs callback.name none lower q.live.program.stack ∨
      ∃ value, q.live.program.stack = .call callback.name none (.returned value) :: lower := by
    generalize here : p.snapshot = now at called
    cases called with
    | taken =>
      obtain ⟨rest, origin, begun⟩ := shift.begun (congrArg Snapshot.stack here)
      exact .inl ⟨.block rest origin, [], begun⟩
    | runs called runs =>
      obtain ⟨frame, upper, stands⟩ := runs
      rcases shift.above sound.stacked ((congrArg Snapshot.stack here).trans stands) with
        ⟨top, above, higher⟩ | ⟨⟨value, returned⟩, -⟩
      · exact .inl ⟨top, above, higher⟩
      · exact .inr ⟨value, returned⟩
  obtain ⟨still, sameReturn, sameSeen⟩ := kept
  refine ⟨?_, sameReturn, sameSeen⟩
  rcases follows with runs | ⟨value, returned⟩
  · have now : q.snapshot = ⟨q.live.program.stack, []⟩ := congrArg (Snapshot.mk _) still
    rw [now]
    exact .called (.runs called runs) fewer
  · have now : q.snapshot = returnedNow callback value lower := congrArg₂ Snapshot.mk returned still
    have returns : Invocation callback request.maxDepth ahead value
        (before ++ [p.snapshot] ++ [q.snapshot]) := by
      rw [now, List.append_assoc]
      exact .returned called
    exact .returned returns called.polls now

/-- In a step of a dispatch its entry goes on; or its call has returned, and its value is kept. -/
theorem Took.pursues (took : Took request p q) (fine : (p.stepped request).1.error = none)
    (dispatched : request.untilReturn = true) (sound : p.live.program.Sound p.live.lines)
    (pursuit : Pursuit callback request.maxDepth ahead before p.snapshot) :
    Onward callback ahead before request p q ∨
      ∃ value, Invocation callback request.maxDepth ahead value (before ++ [p.snapshot]) ∧
        q.live.response.lastReturn = some value ∧ q.live.response.seenReturn = true := by
  cases pursuit with
  | waits each waits => exact .inl (took.waits fine dispatched each waits)
  | called called alone => exact .inl (took.runs fine sound called alone)
  | @returned value lower invocation polls here =>
    obtain ⟨place, below, rfl⟩ := polls
    obtain ⟨-, kept⟩ := took.takes dispatched (congrArg Snapshot.stack here)
    have empty : p.live.queue = [] := congrArg Snapshot.queue here
    rw [empty] at kept
    refine .inr ⟨value, invocation, ?_, ?_⟩
    · rw [kept]
      rfl
    · rw [kept]
      rfl

end Progress

end Run

end Metronome
