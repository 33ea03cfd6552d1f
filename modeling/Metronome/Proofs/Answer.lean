import Metronome.Proofs.Arrival
import Metronome.Proofs.Dispatch

/-!
When a dispatch has a value. A program can be stepped by hand, with the dispatched entry at the end of
its queue. If the entry's call returns in as many steps as the budget allows, a dispatch at full speed
has the value that it returns, unless the debugger has a stop in the way. Below full speed the first
line that ends also ends the burst.
-/
namespace Metronome.Run

open Metronome.Debug (Breakpoints Controller)
open Metronome.Script (Loaded Machine load_any)

/-- The host of a program that is stepped by hand: the callbacks that wait, and whether one was asked for
when there was none. -/
structure Fed where
  queue : Queue
  starved : Bool

def Fed.natives (maxDepth : Nat) : Natives Fed where
  nextCallback fed :=
    match fed.queue with
    | [] => (none, { fed with starved := true })
    | callback :: queue =>
      (some ⟨callback.name, callback.arguments.map (Value.truncate maxDepth)⟩, { fed with queue })
  giveBack _ fed := fed
  setTimeout _ _ fed := fed
  output _ fed := fed

/-- A step by hand, unless the program is complete, the step fails or it asks for a callback in vain. -/
def handStep (maxDepth : Nat) (m : Machine) (queue : Queue) : Option (Machine × Queue) :=
  let (stepped, fed) := m.step.run (Fed.natives maxDepth) ⟨queue, false⟩
  if Interpreter.isComplete m || stepped.error.isSome || fed.starved then none
  else some (stepped.state, fed.queue)

def handSteps (maxDepth : Nat) : Nat → Machine → Queue → Option (List Snapshot)
  | 0, _, _ => some []
  | count + 1, m, queue =>
    match handStep maxDepth m queue with
    | none => none
    | some (next, rest) => (handSteps maxDepth count next rest).map (⟨m.stack, queue⟩ :: ·)

def answerOnTop : List Script.Frame → Option Value
  | .call _ _ (.returned value) :: .poll _ .waiting :: _ => some value
  | _ => none

/-- The value that a call returns first when no other callback waits any more, in at most a number of
steps by hand. -/
def handAnswer (maxDepth : Nat) : Nat → Machine → Queue → Option Value
  | 0, _, _ => none
  | count + 1, m, queue =>
    match handStep maxDepth m queue with
    | none => none
    | some (next, rest) =>
      if queue.isEmpty && (answerOnTop m.stack).isSome then answerOnTop m.stack
      else handAnswer maxDepth count next rest

theorem Bridge.run_fed {α : Type} (computation : Native α) (bridge : Bridge) :
    let fed := computation.run (Fed.natives bridge.request.maxDepth)
      ⟨bridge.queue, bridge.response.seenEmptyQueue⟩
    (computation.run natives bridge).1 = fed.1 ∧
      (computation.run natives bridge).2.queue = fed.2.queue ∧
      (computation.run natives bridge).2.response.seenEmptyQueue = fed.2.starved := by
  induction computation generalizing bridge with
  | done result => exact ⟨rfl, rfl, rfl⟩
  | nextCallback resume ih =>
    cases waiting : bridge.queue with
    | nil =>
      simp only [Native.run, natives, nextCallback, Fed.natives, waiting]
      exact ih none { bridge with
        queue := []
        response := { bridge.response with seenEmptyQueue := true }
        notices := bridge.notices.push (.polled none) }
    | cons callback queue =>
      simp only [Native.run, natives, nextCallback, Fed.natives, waiting]
      exact ih _ { bridge with queue, notices := bridge.notices.push _ }
  | giveBack value rest ih =>
    have rests := ih (bridge.giveBack value)
    obtain ⟨queue, -, seen⟩ := giveBack_keeps value bridge
    rw [giveBack_request, queue, seen] at rests
    exact rests
  | setTimeout callback delay rest ih => exact ih (bridge.setTimeout callback delay)
  | output line rest ih => exact ih (bridge.tell (.output line))

namespace Progress

def took (request : Request) (p : Progress Machine) : Progress Machine :=
  { p with
    live := { p.live with
      program := (p.stepped request).1.state
      queue := (p.stepped request).2.queue
      timers := (p.stepped request).2.timers
      response := (p.stepped request).2.response
      lastLine := p.line.or p.live.lastLine }
    notices := (p.stepped request).2.notices }

theorem took_spec (request : Request) (p : Progress Machine) : Took request p (p.took request) :=
  ⟨⟨rfl, rfl, rfl⟩, rfl, rfl, rfl, rfl, rfl⟩

theorem stepped_byHand {request : Request} {p : Progress Machine} {next : Machine} {rest : Queue}
    (unasked : p.live.response.seenEmptyQueue = false)
    (byHand : handStep request.maxDepth p.live.program p.live.queue = some (next, rest)) :
    Interpreter.isComplete p.live.program = false ∧ (p.stepped request).1.error = none ∧
      (p.stepped request).1.state = next ∧ (p.stepped request).2.queue = rest ∧
      (p.stepped request).2.response.seenEmptyQueue = false := by
  obtain ⟨result, queue, seen⟩ := Bridge.run_fed p.live.program.step
    ⟨request, p.live.queue, p.live.timers, p.live.response,
      (p.noteLine request.atMaxSpeed p.line).notices⟩
  dsimp only at result queue seen
  rw [unasked] at result queue seen
  unfold handStep at byHand
  dsimp only at byHand
  rw [← result, ← queue, ← seen] at byHand
  split at byHand
  · cases byHand
  · rename_i goes
    simp only [Bool.or_eq_true, not_or, Bool.not_eq_true, Option.isSome_eq_false_iff,
      Option.isNone_iff_eq_none] at goes
    cases byHand
    exact ⟨goes.1.1, goes.1.2, rfl, rfl, goes.2⟩

end Progress

theorem answerOnTop_eq {stack : List Script.Frame} {value : Value}
    (answers : answerOnTop stack = some value) : ∃ name offset place below,
      stack = .call name offset (.returned value) :: .poll place .waiting :: below := by
  unfold answerOnTop at answers
  split at answers
  · cases answers
    exact ⟨_, _, _, _, rfl⟩
  · cases answers

theorem handAnswer_invocation {callback : Callback} {ahead : Queue} {value : Value}
    (request : Request) {count : Nat} {p : Progress Machine} {before : List Snapshot}
    (dispatched : request.untilReturn = true) (sound : p.live.program.Sound p.live.lines)
    (unasked : p.live.response.seenEmptyQueue = false)
    (pursuit : Pursuit callback request.maxDepth ahead before p.snapshot)
    (answers : handAnswer request.maxDepth count p.live.program p.live.queue = some value) :
    ∃ fewer snapshots, fewer ≤ count ∧
      handSteps request.maxDepth fewer p.live.program p.live.queue = some snapshots ∧
      Invocation callback request.maxDepth ahead value (before ++ snapshots) := by
  induction count generalizing p before with
  | zero => cases answers
  | succ count ih =>
    simp only [handAnswer] at answers
    split at answers
    · cases answers
    · rename_i next rest byHand
      obtain ⟨-, fine, state, queue, seen⟩ := Progress.stepped_byHand unasked byHand
      have took := p.took_spec request
      have onward : Progress.Onward callback ahead before request p (p.took request) →
          handAnswer request.maxDepth count next rest = some value →
          ∃ fewer snapshots, fewer ≤ count + 1 ∧
            handSteps request.maxDepth fewer p.live.program p.live.queue = some snapshots ∧
            Invocation callback request.maxDepth ahead value (before ++ snapshots) := by
        intro onward later
        rw [← state, ← queue] at later
        have soundThen : (p.took request).live.program.Sound (p.took request).live.lines := by
          obtain ⟨given, yields, -⟩ := Bridge.run_yields p.live.program.step
            ⟨request, p.live.queue, p.live.timers, p.live.response,
              (p.noteLine request.atMaxSpeed p.line).notices⟩
          exact sound.step yields fine
        obtain ⟨fewer, snapshots, enough, steps, invocation⟩ :=
          ih soundThen seen onward.pursuit later
        refine ⟨fewer + 1, p.snapshot :: snapshots, Nat.succ_le_succ enough, ?_, ?_⟩
        · simp only [handSteps, byHand]
          rw [show handSteps request.maxDepth fewer next rest = some snapshots by
            rw [← state, ← queue]
            exact steps]
          rfl
        · rw [List.append_cons]
          exact invocation
      cases pursuit with
      | waits each waits =>
        have busy : p.live.queue.isEmpty = false := waits.busy
        rw [busy, Bool.false_and, if_neg Bool.false_ne_true] at answers
        exact onward (took.waits fine dispatched each waits) answers
      | called called alone =>
        have unanswered : answerOnTop p.live.program.stack = none := by
          rw [Option.eq_none_iff_forall_ne_some]
          intro other top
          obtain ⟨name, offset, place, below, stack⟩ := answerOnTop_eq top
          exact called.unanswered sound.stacked alone stack
        rw [unanswered, Option.isSome_none, Bool.and_false, if_neg Bool.false_ne_true] at answers
        exact onward (took.runs fine sound called alone) answers
      | @returned other lower invocation polls here =>
        obtain ⟨place, below, rfl⟩ := polls
        have stack : p.live.program.stack = _ := congrArg Snapshot.stack here
        have empty : p.live.queue = [] := congrArg Snapshot.queue here
        have top : answerOnTop p.live.program.stack = some other := by
          rw [stack]
          rfl
        rw [top, empty, List.isEmpty_nil, Option.isSome_some, Bool.and_true, if_pos rfl] at answers
        cases answers
        refine ⟨1, [p.snapshot], Nat.le_add_left 1 count, ?_, invocation⟩
        simp only [handSteps, byHand, Option.map_some]
        rfl

/-- A burst in a run that is not paused, with no stop in its way. -/
structure Unhindered (p : Progress Machine) : Prop where
  running : p.live.controller.isPaused = false
  entered : p.live.controller.entryPending = false
  still : p.burst.unwinding = false
  unreached : p.burst.reachedBreak = false
  unasked : p.live.response.seenEmptyQueue = false

namespace Progress

variable {breakpoints : Breakpoints} {request : Request} {budget : Nat} {p q : Progress Machine}

theorem Judged.unhindered (after : Judged request p q) (unhindered : Unhindered p)
    (unasked : q.live.response.seenEmptyQueue = false) :
    Unhindered q ∧ (p.judged request).2.2 = false := by
  obtain ⟨running, entered, still, unreached, -⟩ := unhindered
  have calm : p.live.controller.stopping (p.flags q.live.program) = false := by
    rw [Controller.stopping, running]
    rfl
  have active : (p.judged request).2.2 = false := by
    rw [after.rests_eq, calm]
    rfl
  have mode : p.refreshed.mode = .run := by
    rw [p.refreshed_mode, Controller.mode_running running]
  have controller := after.controller_active active
  obtain ⟨stopPoint, same⟩ := p.refreshed_eq
  refine ⟨⟨?_, ?_, ?_, ?_, unasked⟩, active⟩
  · rw [controller, Controller.noted_isPaused, p.refreshed_isPaused, running]
  · rw [controller, same]
    exact entered
  · rw [after.unwinding, calm]
    exact still
  · rw [after.burst_eq]
    change (p.flags q.live.program).reachedBreak = false
    rw [flags, Debug.Burst.noted, unreached, mode]
    simp

theorem unhindered_proceeds (unhindered : Unhindered p) (fast : request.atMaxSpeed = true)
    (unseen : p.live.response.seenReturn = false) (affords : p.steps < budget)
    (incomplete : Interpreter.isComplete p.live.program = false) : p.Proceeds request budget := by
  refine ⟨?_, .inl affords, incomplete⟩
  simp [Controller.shouldStop, Response.signals, unhindered.unreached, unhindered.unasked, unseen, fast]

theorem unhindered_passes (unhindered : Unhindered p)
    (unbroken : ∀ line, breakpoints.contains line = false) : (p.arrival breakpoints).2.2 = false := by
  rw [Bool.eq_false_iff]
  intro arrives
  obtain ⟨line, -, -, why, -⟩ := arrival_arrives arrives
  rw [unhindered.entered, unbroken line] at why
  simp at why

/-- At full speed, with no stop in its way, a burst takes the steps that are taken by hand, as far as its
budget goes. When the entry's call has returned by hand, its value is kept. -/
theorem Walks.returns {first : Progress Machine} {callback : Callback} {ahead : Queue} {value : Value}
    {count : Nat} {trail : List (Progress Machine)} {snapshots : List Snapshot}
    (walks : first.Walks breakpoints request budget trail p) (unhindered : Unhindered p)
    (fast : request.atMaxSpeed = true) (dispatched : request.untilReturn = true)
    (unbroken : ∀ line, breakpoints.contains line = false)
    (sound : p.live.program.Sound p.live.lines)
    (pursued : Pursued callback request.maxDepth ahead trail p) (affords : p.steps + count ≤ budget)
    (steps : handSteps request.maxDepth count p.live.program p.live.queue = some snapshots)
    (invocation : Invocation callback request.maxDepth ahead value
      (trail.map Progress.snapshot ++ snapshots)) :
    ∃ more q, first.Walks breakpoints request budget more q ∧
      q.live.response.lastReturn = some value ∧ q.live.response.seenReturn = true := by
  -- The induction is on the steps that are left by hand. As long as there are some the value has not
  -- been kept, or the entry's call would have returned twice.
  induction count generalizing p trail snapshots with
  | zero =>
    cases steps
    rw [List.append_nil] at invocation
    rcases pursued with ⟨pursuit, -⟩ | ⟨other, returned, kept, seen⟩
    · exact absurd pursuit invocation.not_pursued
    · obtain ⟨-, rfl⟩ := invocation.unique returned (List.prefix_refl _)
      exact ⟨trail, p, walks, kept, seen⟩
  | succ count ih =>
    simp only [handSteps] at steps
    split at steps
    · cases steps
    · rename_i next rest byHand
      obtain ⟨incomplete, stepFine, state, queue, seen⟩ := stepped_byHand unhindered.unasked byHand
      obtain ⟨others, later, rfl⟩ := Option.map_eq_some_iff.mp steps
      have unseen : p.live.response.seenReturn = false := by
        rcases pursued with ⟨-, -, unseen⟩ | ⟨other, returned, -⟩
        · exact unseen
        · have same := (returned.unique invocation (List.prefix_append _ _)).1
          simp at same
      have left : p.steps < budget := by omega
      have proceeds := unhindered_proceeds unhindered fast unseen left incomplete
      have passesBy := unhindered_passes unhindered unbroken
      obtain ⟨q, passed, after⟩ := pass_steps proceeds passesBy stepFine
      have unasked : q.live.response.seenEmptyQueue = false :=
        (congrArg Response.seenEmptyQueue after.response).trans seen
      obtain ⟨unhinderedThen, active⟩ := after.unhindered unhindered unasked
      rw [active] at passed
      have walksThen := Walks.pass walks passed
      rw [moment_of_step proceeds passesBy] at walksThen
      refine @ih q _ others walksThen unhinderedThen
        (pass_sound passed (fun _ _ => by simp) sound)
        (after.toTook.pursued stepFine proceeds dispatched sound pursued) ?_ ?_ ?_
      · rw [after.steps]
        omega
      · rw [after.program, after.queue, state, queue]
        exact later
      · rw [List.map_append, List.append_assoc]
        exact invocation

end Progress

/-- At full speed a dispatch has a value whenever its entry's call returns by hand in as many steps as the
budget allows, without a failure and without asking an empty queue: it is the value that the call
returns. The run must not be paused nor wait for its entry stop, and have no breakpoints. -/
theorem dispatch_answers_in_time {φ : Type} {s : Scheduler Machine φ} {live : Live Machine}
    {callback : Callback} {now : Instant} {value : Value} {count : Nat} {snapshots : List Snapshot}
    (reachable : Reachable s) (here : s.live = some live) (fast : s.clock.atMaxSpeed = true)
    (running : live.controller.isPaused = false) (entered : live.controller.entryPending = false)
    (unbroken : s.breakpoints = .empty)
    (affords : count ≤ s.settings.tickBudget)
    (steps : handSteps s.settings.maxMarshalDepth count live.program (live.queue ++ [callback]) =
      some snapshots)
    (invocation : Invocation callback s.settings.maxMarshalDepth live.queue value snapshots) :
    (s.dispatch callback now).2 = some value := by
  obtain ⟨fuel, last, ending, ran, uncut, -, answers⟩ :=
    dispatch_burst reachable callback now here running
  have starts : Pursued callback s.settings.maxMarshalDepth live.queue []
      (Progress.begin (live.called callback)) :=
    .inl ⟨.waits (by simp) ⟨live.queue, List.suffix_refl _, rfl⟩, rfl, rfl⟩
  have sound := reachable.sound here
  have nowhere : ∀ line, s.breakpoints.contains line = false := by
    intro line
    rw [unbroken]
    rfl
  have starting : (Progress.begin (live.called callback)).Walks s.breakpoints (s.dispatchRequest now)
      s.settings.tickBudget [] (Progress.begin (live.called callback)) := .here
  obtain ⟨more, q, walks, kept, seen⟩ := starting.returns ⟨running, entered, rfl, rfl, rfl⟩ fast rfl
    nowhere sound starts (by simpa [Progress.begin] using affords) steps invocation
  -- Once the value is kept the burst stops, so that it is still kept where the burst ends.
  have stops : q.pass s.breakpoints (s.dispatchRequest now) s.settings.tickBudget =
      (q, some .stopped) := by
    have stop : Controller.shouldStop q.burst (q.live.response.signals (s.dispatchRequest now))
        (s.dispatchRequest now).atMaxSpeed = true := by
      simp [Controller.shouldStop, Response.signals, seen, Scheduler.dispatchRequest]
    unfold Progress.pass
    dsimp only
    rw [if_pos stop]
  obtain ⟨left, ends⟩ := walks.reaches.passes ran uncut
  cases left with
  | zero =>
    cases ends
    exact absurd rfl uncut
  | succ left =>
    rw [Progress.passes, stops] at ends
    cases ends
    rw [answers, answer_value (by simp), kept]

def serving (speed : Float) (loaded : Loaded) : Scheduler Machine Unit :=
  Scheduler.performAll (.new .default none)
    [.command (.setSpeed speed), .start loaded.machine loaded.text.lineMap 0 0]

theorem serving_reachable {speed : Float} {loaded : Loaded} (read : Script.load echo = .ok loaded) :
    Reachable (serving speed loaded) := by
  apply Reachable.loading read (.new _ _)
  simp +contextual

def returnsByHand (s : Scheduler Machine Unit) : Bool :=
  decide (s.breakpoints = .empty) && decide (20 ≤ s.settings.tickBudget) &&
    s.live.any fun live =>
      !live.controller.isPaused && !live.controller.entryPending &&
        (handAnswer s.settings.maxMarshalDepth 20 live.program
          (live.queue ++ [⟨"f", [.text "back"]⟩])).any fun value => value.text? == some "back"

theorem of_returnsByHand {s : Scheduler Machine Unit} (reachable : Reachable s)
    (returns : returnsByHand s = true) :
    ∃ (live : Live Machine) (value : Value) (count : Nat) (snapshots : List Snapshot),
      let callback : Callback := ⟨"f", [.text "back"]⟩
      s.live = some live ∧ live.controller.isPaused = false ∧
        live.controller.entryPending = false ∧ s.breakpoints = .empty ∧
        count ≤ s.settings.tickBudget ∧
        handSteps s.settings.maxMarshalDepth count live.program (live.queue ++ [callback]) =
          some snapshots ∧
        Invocation callback s.settings.maxMarshalDepth live.queue value snapshots ∧
        value.text? = some "back" := by
  simp only [returnsByHand, Bool.and_eq_true, Option.any_eq_true, decide_eq_true_eq,
    Bool.not_eq_true', beq_iff_eq] at returns
  obtain ⟨⟨unbroken, affords⟩, live, here, ⟨running, entered⟩, value, answers, text⟩ := returns
  have sound := reachable.sound here
  have starts : Pursuit ⟨"f", [.text "back"]⟩ (s.dispatchRequest 0).maxDepth live.queue []
      (Progress.begin (live.called ⟨"f", [.text "back"]⟩)).snapshot :=
    .waits (by simp) ⟨live.queue, List.suffix_refl _, rfl⟩
  obtain ⟨count, snapshots, enough, steps, invocation⟩ :=
    handAnswer_invocation (s.dispatchRequest 0) rfl sound rfl starts answers
  exact ⟨live, value, count, snapshots, here, running, entered, unbroken, enough.trans affords, steps,
    invocation, text⟩

/-- At full speed a dispatch of the echo has the value that it is given. -/
theorem echo_answers_in_time : ∃ (loaded : Loaded) (live : Live Machine) (value : Value)
    (count : Nat) (snapshots : List Snapshot), Script.load echo = .ok loaded ∧
      let s := serving 1.0 loaded
      let callback : Callback := ⟨"f", [.text "back"]⟩
      (s.live = some live ∧ s.clock.atMaxSpeed = true ∧ live.controller.isPaused = false ∧
        live.controller.entryPending = false ∧ s.breakpoints = .empty ∧
        count ≤ s.settings.tickBudget ∧
        handSteps s.settings.maxMarshalDepth count live.program (live.queue ++ [callback]) =
          some snapshots ∧
        Invocation callback s.settings.maxMarshalDepth live.queue value snapshots) ∧
      value.text? = some "back" ∧ (s.dispatch callback 0).2 = some value := by
  have computed : (Script.load echo).toOption.any (fun loaded =>
      returnsByHand (serving 1.0 loaded) && (serving 1.0 loaded).clock.atMaxSpeed) = true := by
    decide +kernel
  obtain ⟨loaded, read, holds⟩ := load_any computed
  rw [Bool.and_eq_true] at holds
  obtain ⟨returns, fast⟩ := holds
  have reachable : Reachable (serving 1.0 loaded) := serving_reachable read
  obtain ⟨live, value, count, snapshots, here, running, entered, unbroken, affords, steps, invocation,
    text⟩ := of_returnsByHand reachable returns
  refine ⟨loaded, live, value, count, snapshots, read,
    ⟨here, fast, running, entered, unbroken, affords, steps, invocation⟩, text, ?_⟩
  exact dispatch_answers_in_time reachable here fast running entered unbroken affords steps invocation

/-- At half speed the same dispatch has no value: its burst ends with the line that returns. -/
theorem echo_unanswered_below_full_speed : ∃ (loaded : Loaded) (live : Live Machine)
    (value : Value) (count : Nat) (snapshots : List Snapshot), Script.load echo = .ok loaded ∧
      let s := serving 0.5 loaded
      let callback : Callback := ⟨"f", [.text "back"]⟩
      (s.live = some live ∧ live.controller.isPaused = false ∧
        live.controller.entryPending = false ∧ s.breakpoints = .empty ∧
        count ≤ s.settings.tickBudget ∧
        handSteps s.settings.maxMarshalDepth count live.program (live.queue ++ [callback]) =
          some snapshots ∧
        Invocation callback s.settings.maxMarshalDepth live.queue value snapshots) ∧
      value.text? = some "back" ∧ (s.dispatch callback 0).2.isNone = true := by
  have computed : (Script.load echo).toOption.any (fun loaded =>
      returnsByHand (serving 0.5 loaded) &&
        ((serving 0.5 loaded).dispatch ⟨"f", [.text "back"]⟩ 0).2.isNone) = true := by
    decide +kernel
  obtain ⟨loaded, read, holds⟩ := load_any computed
  rw [Bool.and_eq_true] at holds
  obtain ⟨returns, unanswered⟩ := holds
  obtain ⟨live, value, count, snapshots, here, running, entered, unbroken, affords, steps, invocation,
    text⟩ := of_returnsByHand (serving_reachable read) returns
  exact ⟨loaded, live, value, count, snapshots, read,
    ⟨here, running, entered, unbroken, affords, steps, invocation⟩, text, unanswered⟩

end Metronome.Run
