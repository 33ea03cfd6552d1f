import Metronome.Proofs.Breakpoint
import Metronome.Proofs.Deeds

namespace Metronome

inductive NativeCall where
  | tookCallback (callback : Option Callback)
  | gaveBack (value : Value)
  | setTimeout (callback : Callback) (delay : Duration)
  | output (line : String)

def Native.calls {α ν : Type} (natives : Natives ν) : Native α → ν → List (NativeCall × ν)
  | .done _, _ => []
  | .nextCallback resume, host =>
    let (callback, host) := natives.nextCallback host
    (.tookCallback callback, host) :: (resume callback).calls natives host
  | .giveBack value rest, host =>
    let host := natives.giveBack value host
    (.gaveBack value, host) :: rest.calls natives host
  | .setTimeout callback delay rest, host =>
    let host := natives.setTimeout callback delay host
    (.setTimeout callback delay, host) :: rest.calls natives host
  | .output line rest, host =>
    let host := natives.output line host
    (.output line, host) :: rest.calls natives host

def hostAfter {ν : Type} (host : ν) (made : List (NativeCall × ν)) : ν :=
  (made.getLast?.map (·.2)).getD host

theorem hostAfter_cons {ν : Type} (host next : ν) (call : NativeCall)
    (made : List (NativeCall × ν)) : hostAfter host ((call, next) :: made) = hostAfter next made := by
  cases made with
  | nil => rfl
  | cons second made => simp [hostAfter, List.getLast?_cons]

theorem Native.run_host {α ν : Type} (natives : Natives ν) (computation : Native α) (host : ν) :
    (computation.run natives host).2 = hostAfter host (computation.calls natives host) := by
  induction computation generalizing host with
  | done result => rfl
  | nextCallback resume ih => rw [Native.calls, hostAfter_cons, ← ih]; rfl
  | giveBack value rest ih => rw [Native.calls, hostAfter_cons, ← ih]; rfl
  | setTimeout callback delay rest ih => rw [Native.calls, hostAfter_cons, ← ih]; rfl
  | output line rest ih => rw [Native.calls, hostAfter_cons, ← ih]; rfl

namespace Run

open Metronome.Debug (Breakpoints)

/-- A callback on its way, in the order of a run. -/
inductive Movement where
  | dispatched (callback : Callback)
  | handedOut (callback : Callback)
  | registered (now : Instant) (delay : Duration) (callback : Callback)
  | released (timer : Timer)

namespace Movement

def pushed? : Movement → Option Callback
  | dispatched callback => some callback
  | released timer => some timer.callback
  | _ => none

def handedOut? : Movement → Option Callback
  | handedOut callback => some callback
  | _ => none

def registered? : Movement → Option (Option Instant × Callback)
  | registered now delay callback => some (Timer.dueAfter now delay, callback)
  | _ => none

def released? : Movement → Option Timer
  | released timer => some timer
  | _ => none

end Movement

def NativeCall.movement? (now : Instant) : NativeCall → Option Movement
  | .tookCallback callback => callback.map .handedOut
  | .setTimeout callback delay => some (.registered now delay callback)
  | .gaveBack _ => none
  | .output _ => none

def pushed (ledger : List Movement) : List Callback :=
  ledger.filterMap Movement.pushed?

def handedOut (ledger : List Movement) : List Callback :=
  ledger.filterMap Movement.handedOut?

def registered (ledger : List Movement) : List Timer :=
  (ledger.filterMap Movement.registered?).zipIdx.map fun ((due, callback), number) =>
    ⟨due, number, callback⟩

def released (ledger : List Movement) : List Timer :=
  ledger.filterMap Movement.released?

def marshalled (depth : Nat) (callback : Callback) : Callback :=
  ⟨callback.name, callback.arguments.map (Value.truncate depth)⟩

structure Balanced (depth : Nat) (ledger : List Movement) (queue : Queue) (timers : Timers) :
    Prop where
  /-- What was pushed is what the program got, as it was pushed, and then the queue. -/
  entries : ∃ taken, pushed ledger = taken ++ queue ∧ handedOut ledger = taken.map (marshalled depth)
  /-- What was registered is what is pending and what was released, each timer once. -/
  held : (registered ledger).Perm (timers.pending ++ released ledger)
  once : ((timers.pending ++ released ledger).map (·.number)).Nodup
  counted : timers.nextNumber = (registered ledger).length

section ledgers

variable (first second : List Movement)

theorem pushed_append : pushed (first ++ second) = pushed first ++ pushed second :=
  List.filterMap_append

theorem handedOut_append : handedOut (first ++ second) = handedOut first ++ handedOut second :=
  List.filterMap_append

theorem released_append : released (first ++ second) = released first ++ released second :=
  List.filterMap_append

theorem registered_numbers (ledger : List Movement) :
    (registered ledger).map (·.number) = List.range (registered ledger).length := by
  have numbers : (registered ledger).map (·.number) =
      (ledger.filterMap Movement.registered?).zipIdx.map Prod.snd := by
    rw [registered, List.map_map]
    rfl
  rw [numbers, List.zipIdx_map_snd, List.range_eq_range']
  simp [registered]

theorem registered_append (others : second.filterMap Movement.registered? = []) :
    registered (first ++ second) = registered first := by
  rw [registered, List.filterMap_append, others, List.append_nil]
  rfl

theorem registered_concat (now : Instant) (delay : Duration) (callback : Callback) :
    registered (first ++ [.registered now delay callback]) =
      registered first ++ [⟨Timer.dueAfter now delay, (registered first).length, callback⟩] := by
  have length : (registered first).length = (first.filterMap Movement.registered?).length := by
    simp [registered]
  rw [length, registered, List.filterMap_append, registered]
  simp [List.zipIdx_append, Movement.registered?]

end ledgers

namespace Balanced

variable {depth : Nat} {ledger : List Movement} {queue : Queue} {timers : Timers}

theorem empty (depth : Nat) : Balanced depth [] [] .empty :=
  ⟨⟨[], rfl, rfl⟩, .refl _, .nil, rfl⟩

theorem once_of_held (held : (registered ledger).Perm (timers.pending ++ released ledger)) :
    ((timers.pending ++ released ledger).map (·.number)).Nodup := by
  rw [← (held.map (·.number)).nodup_iff, registered_numbers]
  exact List.nodup_range

theorem of_entries (balanced : Balanced depth ledger queue timers) {more : List Movement}
    {after : Queue} (sets : more.filterMap Movement.registered? = []) (frees : released more = [])
    (entries : ∃ taken, pushed (ledger ++ more) = taken ++ after ∧
      handedOut (ledger ++ more) = taken.map (marshalled depth)) :
    Balanced depth (ledger ++ more) after timers := by
  have same := registered_append ledger more sets
  have settled := released_append ledger more
  rw [frees, List.append_nil] at settled
  refine ⟨entries, ?_, ?_, ?_⟩
  · rw [same, settled]
    exact balanced.held
  · rw [settled]
    exact balanced.once
  · rw [same]
    exact balanced.counted

theorem dispatched (balanced : Balanced depth ledger queue timers) (callback : Callback) :
    Balanced depth (ledger ++ [.dispatched callback]) (queue ++ [callback]) timers := by
  obtain ⟨taken, pushes, hands⟩ := balanced.entries
  refine balanced.of_entries rfl rfl ⟨taken, ?_, ?_⟩
  · rw [pushed_append, pushes, List.append_assoc]
    rfl
  · rw [handedOut_append, hands]
    exact List.append_nil _

theorem handed {callback : Callback} (balanced : Balanced depth ledger (callback :: queue) timers) :
    Balanced depth (ledger ++ [.handedOut (marshalled depth callback)]) queue timers := by
  obtain ⟨taken, pushes, hands⟩ := balanced.entries
  refine balanced.of_entries rfl rfl ⟨taken ++ [callback], ?_, ?_⟩
  · rw [pushed_append, pushes]
    simp [pushed, Movement.pushed?]
  · rw [handedOut_append, hands, List.map_append]
    rfl

theorem set (balanced : Balanced depth ledger queue timers) (now : Instant) (delay : Duration)
    (callback : Callback) :
    Balanced depth (ledger ++ [.registered now delay callback]) queue
      (timers.register now delay callback) := by
  obtain ⟨⟨taken, pushes, hands⟩, held, -, counted⟩ := balanced
  have settled := released_append ledger [.registered now delay callback]
  rw [show released [.registered now delay callback] = [] from rfl, List.append_nil] at settled
  have more : (registered (ledger ++ [.registered now delay callback])).Perm
      ((timers.register now delay callback).pending ++
        released (ledger ++ [.registered now delay callback])) := by
    rw [registered_concat, settled, ← counted, Timers.register, List.append_assoc]
    refine (held.append_right _).trans ?_
    rw [List.append_assoc]
    exact List.perm_append_comm.append_left _
  refine ⟨⟨taken, ?_, ?_⟩, more, once_of_held more, ?_⟩
  · rw [pushed_append, pushes]
    exact List.append_nil _
  · rw [handedOut_append, hands]
    exact List.append_nil _
  · rw [registered_concat, List.length_append, ← counted]
    rfl

theorem releases (balanced : Balanced depth ledger queue timers) (now : Instant) :
    Balanced depth (ledger ++ (timers.due now).map .released) (timers.release now queue).2
      (timers.release now queue).1 := by
  obtain ⟨⟨taken, pushes, hands⟩, held, -, counted⟩ := balanced
  have settled : released ((timers.due now).map .released) = timers.due now := by
    rw [released, List.filterMap_map]
    exact List.filterMap_some
  have same := registered_append ledger ((timers.due now).map .released) (by
    rw [List.filterMap_map]
    exact List.filterMap_eq_nil_iff.mpr fun _ _ => rfl)
  -- What is due is sorted before it is released, so that only its elements are those of the filter.
  have due : (timers.due now).Perm (timers.pending.filter (Timer.isDue now)) :=
    List.mergeSort_perm _ _
  have parts : timers.pending.Perm
      ((timers.release now queue).1.pending ++ timers.due now) := by
    refine (List.filter_append_perm (Timer.isDue now) timers.pending).symm.trans ?_
    exact List.perm_append_comm.trans (due.symm.append_left _)
  have all : (registered (ledger ++ (timers.due now).map .released)).Perm
      ((timers.release now queue).1.pending ++
        released (ledger ++ (timers.due now).map .released)) := by
    rw [same, released_append, settled]
    refine held.trans ((parts.append_right _).trans ?_)
    rw [List.append_assoc]
    exact List.perm_append_comm.append_left _
  refine ⟨⟨taken, ?_, ?_⟩, all, once_of_held all, ?_⟩
  · have puts : pushed ((timers.due now).map .released) = (timers.due now).map (·.callback) := by
      rw [pushed, List.filterMap_map]
      exact congrFun List.filterMap_eq_map _
    rw [pushed_append, pushes, puts, List.append_assoc]
    rfl
  · have none : handedOut ((timers.due now).map .released) = [] := by
      rw [handedOut, List.filterMap_map]
      exact List.filterMap_eq_nil_iff.mpr fun _ _ => rfl
    rw [handedOut_append, none, List.append_nil, hands]
  · rw [same]
    exact counted

end Balanced

def callMovements (now : Instant) (calls : List (NativeCall × Bridge)) : List Movement :=
  calls.filterMap fun (call, _) => NativeCall.movement? now call

theorem callMovements_cons (now : Instant) (call : NativeCall) (next : Bridge)
    (made : List (NativeCall × Bridge)) :
    callMovements now ((call, next) :: made) =
      (NativeCall.movement? now call).toList ++ callMovements now made := by
  unfold callMovements
  rw [List.filterMap_cons]
  split <;> simp_all

def BalancedAlong (depth : Nat) (ledger : List Movement) (bridge : Bridge)
    (calls : List (NativeCall × Bridge)) : Prop :=
  ∀ made, made <+: calls →
    Balanced depth (ledger ++ callMovements bridge.request.now made) (hostAfter bridge made).queue
      (hostAfter bridge made).timers

variable {depth : Nat} {ledger : List Movement} {bridge next : Bridge}

theorem BalancedAlong.nil (balanced : Balanced depth ledger bridge.queue bridge.timers) :
    BalancedAlong depth ledger bridge [] := by
  intro made part
  rw [List.prefix_nil.mp part]
  simpa [callMovements, hostAfter] using balanced

theorem BalancedAlong.cons {call : NativeCall} {calls : List (NativeCall × Bridge)}
    (balanced : Balanced depth ledger bridge.queue bridge.timers)
    (request : next.request = bridge.request)
    (rest : BalancedAlong depth
      (ledger ++ (NativeCall.movement? bridge.request.now call).toList) next calls) :
    BalancedAlong depth ledger bridge ((call, next) :: calls) := by
  intro made part
  rcases List.prefix_cons_iff.mp part with rfl | ⟨later, rfl, inner⟩
  · simpa [callMovements, hostAfter] using balanced
  · have after := rest later inner
    rw [request, List.append_assoc] at after
    rw [callMovements_cons, hostAfter_cons]
    exact after

theorem Balanced.along {α : Type} (computation : Native α)
    (sameDepth : bridge.request.maxDepth = depth)
    (balanced : Balanced depth ledger bridge.queue bridge.timers) :
    BalancedAlong depth ledger bridge (computation.calls Bridge.natives bridge) := by
  induction computation generalizing ledger bridge with
  | done result => exact .nil balanced
  | nextCallback resume ih =>
    cases waiting : bridge.queue with
    | nil =>
      have asked : Bridge.natives.nextCallback bridge = (none, { bridge with
          response := { bridge.response with seenEmptyQueue := true }
          notices := bridge.notices.push (.polled none) }) := by
        simp only [Bridge.natives, Bridge.nextCallback, waiting]
      rw [Native.calls, asked]
      exact .cons balanced rfl (ih none sameDepth (by simpa [NativeCall.movement?] using balanced))
    | cons callback queue =>
      let handed : Callback := marshalled bridge.request.maxDepth callback
      have asked : Bridge.natives.nextCallback bridge = (some handed, { bridge with
          queue, notices := bridge.notices.push (.polled (some handed)) }) := by
        simp only [Bridge.natives, Bridge.nextCallback, waiting, handed, marshalled]
      rw [Native.calls, asked]
      have after := Balanced.handed (waiting ▸ balanced)
      subst sameDepth
      exact .cons balanced rfl (ih (some handed) rfl after)
  | giveBack value rest ih =>
    obtain ⟨queue, timers, -⟩ := bridge.giveBack_keeps value
    have request := bridge.giveBack_request value
    refine .cons balanced request (ih (request ▸ sameDepth) ?_)
    change Balanced depth (ledger ++ []) (bridge.giveBack value).queue (bridge.giveBack value).timers
    rw [List.append_nil, queue, timers]
    exact balanced
  | setTimeout callback delay rest ih =>
    exact .cons balanced rfl (ih sameDepth (balanced.set bridge.request.now delay callback))
  | output line rest ih =>
    refine .cons balanced rfl (ih sameDepth ?_)
    simpa [NativeCall.movement?, Bridge.natives, Bridge.tell] using balanced

namespace Progress

variable {σ : Type} [Interpreter σ]

def host (request : Request) (p : Progress σ) : Bridge :=
  ⟨request, p.live.queue, p.live.timers, p.live.response,
    (p.noteLine request.atMaxSpeed p.line).notices⟩

def calls (request : Request) (p : Progress σ) : Deed → List (NativeCall × Bridge)
  | .arrives => []
  | _ => (Interpreter.step p.live.program).calls Bridge.natives (p.host request)

def movements (request : Request) (done : List (Progress σ × Deed)) : List Movement :=
  done.flatMap fun (p, deed) => callMovements request.now (p.calls request deed)

theorem movements_concat (request : Request) (done : List (Progress σ × Deed)) (p : Progress σ)
    (deed : Deed) :
    movements request (done ++ [(p, deed)]) =
      movements request done ++ callMovements request.now (p.calls request deed) := by
  simp [movements]

def Accounts (depth : Nat) (ledger : List Movement) (request : Request)
    (done : List (Progress σ × Deed)) : Prop :=
  ∀ before p deed after, done = before ++ (p, deed) :: after →
    BalancedAlong depth (ledger ++ movements request before) (p.host request)
      (p.calls request deed)

variable {breakpoints : Breakpoints} {request : Request} {budget : Nat} {p q : Progress σ}

theorem Accounts.concat {done : List (Progress σ × Deed)} {deed : Deed}
    (accounts : Accounts depth ledger request done)
    (along : BalancedAlong depth (ledger ++ movements request done) (p.host request)
      (p.calls request deed)) :
    Accounts depth ledger request (done ++ [(p, deed)]) :=
  Each.concat accounts along

theorem Took.balanced {done : List (Progress σ × Deed)} (took : Took request p q)
    (along : BalancedAlong depth (ledger ++ movements request done) (p.host request)
      (p.calls request .steps)) :
    Balanced depth (ledger ++ movements request (done ++ [(p, .steps)])) q.live.queue
      q.live.timers := by
  have last := along _ (List.prefix_refl _)
  have host : (p.stepped request).2 = hostAfter (p.host request) (p.calls request .steps) :=
    Native.run_host _ _ _
  rw [← host, List.append_assoc] at last
  rw [movements_concat, took.queue, took.timers]
  exact last

theorem accounts_tracks (sameDepth : request.maxDepth = depth) :
    Tracks breakpoints request budget
      (fun (done : List (Progress σ × Deed)) p => Accounts depth ledger request done ∧
        Balanced depth (ledger ++ movements request done) p.live.queue p.live.timers)
      (Accounts depth ledger request) where
  arrives {done p q} here _ _ after := by
    obtain ⟨accounts, balanced⟩ := here
    refine ⟨accounts.concat (.nil balanced), ?_⟩
    rw [movements_concat, after.queue, after.timers]
    simpa [calls, callMovements] using balanced
  steps {done p q} here _ _ after := by
    obtain ⟨accounts, balanced⟩ := here
    have along : BalancedAlong depth (ledger ++ movements request done) (p.host request)
        (p.calls request .steps) := Balanced.along _ sameDepth balanced
    exact ⟨accounts.concat along, after.toTook.balanced along⟩
  fails here _ _ := here.1.concat (Balanced.along _ sameDepth here.2)

end Progress

theorem Balanced.burst {σ : Type} [Interpreter σ] {live : Live σ}
    (balanced : Balanced depth ledger live.queue live.timers) (breakpoints : Breakpoints)
    {request : Request} (budget : Nat) (sameDepth : request.maxDepth = depth) :
    Progress.Tracked
      (fun done p => Progress.Accounts depth ledger request done ∧
        Balanced depth (ledger ++ Progress.movements request done) p.live.queue p.live.timers)
      (Progress.Accounts depth ledger request) (live.deeds breakpoints request budget)
      (live.burst breakpoints request budget) := by
  have begins : Progress.Accounts depth ledger request ([] : List (Progress σ × Deed)) :=
    Progress.Each.nil
  have first : Balanced depth (ledger ++ Progress.movements request ([] : List (Progress σ × Deed)))
      (Progress.begin live).live.queue (Progress.begin live).live.timers := by
    rw [show Progress.movements request ([] : List (Progress σ × Deed)) = [] from rfl,
      List.append_nil]
    exact balanced
  rw [← List.nil_append (live.deeds breakpoints request budget)]
  exact (Progress.accounts_tracks sameDepth).burst ⟨begins, first⟩

end Run

end Metronome
