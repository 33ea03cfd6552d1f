import Metronome.Proofs.Breakpoint
import Metronome.Proofs.Announcement
import Metronome.Proofs.Entry

namespace Metronome

structure Debug.Controller.PastEntry (c : Debug.Controller) : Prop where
  entered : c.entryPending = false
  silent : c.stopReason = none

namespace Run

open Metronome.Debug (Breakpoints Controller)
open Metronome.Script (Loaded Machine load_any)

variable {σ φ : Type} [Interpreter σ]

def HostEvent.isEntryStop : HostEvent → Bool
  | .stopped .entry _ => true
  | _ => false

theorem HostEvent.isStop_of_entry {event : HostEvent} (entry : event.isEntryStop = true) :
    event.isStop = true := by
  cases event with
  | stopped => rfl
  | _ => cases entry

/-- A step failed while its burst unwound. -/
def FailsUnwinding (done : List (Progress σ × Deed)) : Prop :=
  ∃ p, (p, .fails) ∈ done ∧ p.burst.unwinding = true

namespace Progress

variable {breakpoints : Breakpoints} {request : Request} {budget : Nat}

def Entering (done : List (Progress σ × Deed)) (p : Progress σ) : Prop :=
  (p.Waiting ∧ ∀ deed ∈ done, deed.2 ≠ .arrives) ∨ p.AtEntry

theorem tracks_entering (breakpoints : Breakpoints) (request : Request) (budget : Nat) :
    Tracks breakpoints request budget (Entering : List (Progress σ × Deed) → _)
      (fun done => (∀ deed ∈ done, deed.2 ≠ .arrives) ∨ FailsUnwinding done) where
  arrives {done p q} entering proceeds arrives after := by
    rcases entering with ⟨waiting, -⟩ | atEntry
    · exact .inr (waiting.arrived arrives after)
    · rw [atEntry.passes_by proceeds] at arrives
      cases arrives
  steps {done p q} entering _ passesBy after := by
    rcases entering with ⟨waiting, none⟩ | atEntry
    · refine .inl ⟨waiting.stepped passesBy after, ?_⟩
      simpa [or_imp, forall_and] using none
    · exact .inr (atEntry.stepped after)
  fails {done p} entering proceeds _ := by
    rcases entering with ⟨-, none⟩ | atEntry
    · left
      simpa [or_imp, forall_and] using none
    · exact .inr ⟨p, by simp, atEntry.unwinds proceeds⟩

def NoEntry (done : List (Progress σ × Deed)) : Prop :=
  ∀ deed ∈ done, deed.1.live.controller.entryPending = false

omit [Interpreter σ] in
theorem NoEntry.add {done : List (Progress σ × Deed)} (before : NoEntry done) {p : Progress σ}
    (entered : p.live.controller.entryPending = false) (deed : Deed) :
    NoEntry (done ++ [(p, deed)]) := by
  intro other member
  rcases List.mem_append.mp member with old | new
  · exact before other old
  · rw [List.mem_singleton.mp new]
    exact entered

theorem tracks_beyond (breakpoints : Breakpoints) (request : Request) (budget : Nat) :
    Tracks breakpoints request budget (fun done (p : Progress σ) => p.Beyond ∧ NoEntry done)
      NoEntry where
  arrives here _ arrives after := ⟨here.1.arrived arrives after, here.2.add here.1.entered _⟩
  steps here _ _ after := ⟨here.1.stepped after, here.2.add here.1.entered _⟩
  fails here _ _ := here.2.add here.1.entered _

omit [Interpreter σ] in
theorem Beyond.stops {p : Progress σ} (beyond : p.Beyond) (ending : Ending) :
    ∀ event ∈ leftStop (p, ending), event.isEntryStop = false := by
  intro event member
  have fine : ∀ error line, ending ≠ .failed error line := by
    rintro error line rfl
    cases member
  rw [leftStop_fine fine] at member
  obtain ⟨reason, left, rfl⟩ := mem_stopEvents member
  cases reason with
  | entry => exact absurd left beyond.other
  | _ => rfl

end Progress

namespace Scheduler

def Waits {σ φ : Type} (s : Scheduler σ φ) : Prop :=
  ∀ live, s.live = some live → live.controller.AwaitsEntry

def Past {σ φ : Type} (s : Scheduler σ φ) : Prop :=
  ∀ live, s.live = some live → live.controller.PastEntry

variable {s : Scheduler σ φ} {operation : Operation σ φ}

omit [Interpreter σ] in
theorem Waits.silent (waits : s.Waits) : s.Silent :=
  fun live here => (waits live here).silent

omit [Interpreter σ] in
theorem Past.silent (past : s.Past) : s.Silent :=
  fun live here => (past live here).silent

theorem quiet_stops (silent : s.Silent) (quiet : s.burstOf operation = none) :
    ∀ event ∈ s.stopsOf operation, event.isEntryStop = false := by
  intro event member
  cases stopsOf_tells silent member with
  | noStop noStop =>
    rw [Bool.eq_false_iff]
    intro entry
    rw [HostEvent.isStop_of_entry entry] at noStop
    cases noStop
  | pause => rfl
  | burst runs =>
    rw [bursts_iff.mp runs] at quiet
    cases quiet

theorem past_of_burst {live : Live σ} {request : Request} (runs : Bursts s operation live request)
    (first : (Progress.begin live).Beyond) :
    (s.perform operation).Past ∧ (∀ event ∈ s.stopsOf operation, event.isEntryStop = false) ∧
      Progress.NoEntry (s.deeds operation) := by
  have begins : (Progress.begin live).Beyond ∧ Progress.NoEntry ([] : List (Progress σ × Deed)) :=
    ⟨first, by simp [Progress.NoEntry]⟩
  have tracked :=
    (Progress.tracks_beyond s.breakpoints request s.settings.tickBudget).burst begins
  rw [deeds_burst runs, stopsOf_burst runs]
  rw [List.nil_append] at tracked
  have leaves : ∀ next, (s.perform operation).live = some next →
      Leaves (live.burst s.breakpoints request s.settings.tickBudget) next :=
    fun _ there => perform_leaves runs there
  generalize live.burst s.breakpoints request s.settings.tickBudget = result at tracked leaves ⊢
  cases tracked with
  | holds _ here =>
    refine ⟨fun next there => ?_, here.1.stops _, here.2⟩
    rw [(leaves next there).controller]
    exact ⟨here.1.entered, rfl⟩
  | lost none =>
    exact ⟨fun next there => absurd rfl ((leaves next there).fine _ _), by simp [leftStop], none⟩

theorem Past.perform (past : s.Past) (one : operation.opens = false) :
    (s.perform operation).Past ∧ (∀ event ∈ s.stopsOf operation, event.isEntryStop = false) ∧
      Progress.NoEntry (s.deeds operation) := by
  cases quiet : s.burstOf operation with
  | none =>
    refine ⟨fun next there => ?_, quiet_stops past.silent quiet, ?_⟩
    · cases perform_hands there with
      | minds here program lines minds =>
        obtain ⟨entered, silent⟩ := past _ here
        exact ⟨minds.entered entered, minds.silent silent⟩
      | opens starts =>
        subst starts
        cases one
      | bursts runs =>
        rw [bursts_iff.mp runs] at quiet
        cases quiet
    · rw [deeds_quiet quiet]
      simp [Progress.NoEntry]
  | some burst =>
    obtain ⟨live, request⟩ := burst
    have runs := bursts_iff.mpr quiet
    obtain ⟨before, stepOutDepth, here, -, -, controller⟩ := runs.origin one
    refine past_of_burst runs ⟨?_, ?_⟩
    · change live.controller.entryPending = false
      rw [controller]
      exact (past before here).entered
    · change live.controller.stopReason ≠ some .entry
      rw [runs.silent past.silent]
      simp

/-- A run that is to stop at its entry goes on so without a stop, or tells of the stop there. If it
has arrived and does not tell of it, a step failed while the burst unwound. -/
theorem Waits.perform (waits : s.Waits) (one : operation.opens = false)
    (others : operation.pauses = false) :
    ((s.perform operation).Waits ∧ s.stopsOf operation = [] ∧
        ((∀ deed ∈ s.deeds operation, deed.2 ≠ .arrives) ∨ FailsUnwinding (s.deeds operation))) ∨
      (s.perform operation).Past ∧ ∃ state, s.stopsOf operation = [.stopped .entry state] := by
  cases quiet : s.burstOf operation with
  | none =>
    refine .inl ⟨fun next there => ?_, ?_, .inl ?_⟩
    · cases perform_hands there with
      | minds here program lines minds => exact minds.awaits others (waits _ here)
      | opens starts =>
        subst starts
        cases one
      | bursts runs =>
        rw [bursts_iff.mp runs] at quiet
        cases quiet
    · rw [stopsOf_quiet quiet]
      unfold pauseStops
      split
      · cases others
      · rfl
    · rw [deeds_quiet quiet]
      simp
  | some burst =>
    obtain ⟨live, request⟩ := burst
    have runs := bursts_iff.mpr quiet
    obtain ⟨before, stepOutDepth, here, -, -, controller⟩ := runs.origin one
    have awaits : live.controller.AwaitsEntry := by
      obtain ⟨pending, active, silent⟩ := waits before here
      rw [controller]
      exact ⟨pending, active, silent⟩
    have begins : Progress.Entering [] (Progress.begin live) :=
      .inl ⟨Progress.begin_waiting awaits, by simp⟩
    have tracked :=
      (Progress.tracks_entering s.breakpoints request s.settings.tickBudget).burst begins
    rw [deeds_burst runs, stopsOf_burst runs]
    rw [List.nil_append] at tracked
    have leaves : ∀ next, (s.perform operation).live = some next →
        Leaves (live.burst s.breakpoints request s.settings.tickBudget) next :=
      fun _ there => perform_leaves runs there
    generalize live.burst s.breakpoints request s.settings.tickBudget = result at tracked leaves ⊢
    cases tracked with
    | @holds q ending fine entering =>
      rw [leftStop_fine fine, stopEvents]
      rcases entering with ⟨waiting, none⟩ | atEntry
      · refine .inl ⟨fun next there => ?_, by rw [waiting.awaits.silent], .inl none⟩
        rw [(leaves next there).controller]
        exact waiting.awaits.told
      · refine .inr ⟨fun next there => ?_, _, by rw [atEntry.reason]⟩
        rw [(leaves next there).controller]
        exact ⟨atEntry.entered, rfl⟩
    | lost unarrived =>
      exact .inl ⟨fun next there => absurd rfl ((leaves next there).fine _ _), rfl, unarrived⟩

omit [Interpreter σ] in
theorem Waits.pause_live (waits : s.Waits) : s.pause.Past := by
  intro next there
  cases here : s.live with
  | none =>
    simp only [pause, here] at there
    cases there
  | some live =>
    have paused : live.controller.pause.2 = true ∧
        live.controller.pause.1.entryPending = false := by
      simp [Controller.pause, (waits live here).active]
    simp only [pause, here, paused.1, if_true, reportStop_live, Option.map_some,
      Option.some.injEq] at there
    rw [← there]
    exact ⟨paused.2, rfl⟩

theorem Waits.pause (waits : s.Waits) :
    (s.perform (.command .pause)).Past ∧
      ∀ event ∈ s.stopsOf (.command .pause), event.isEntryStop = false :=
  ⟨waits.pause_live, quiet_stops waits.silent rfl⟩

variable {operations : List (Operation σ φ)}

theorem Past.stops (past : s.Past) (one : ∀ operation ∈ operations, operation.opens = false) :
    ∀ event ∈ s.stopsAll operations, event.isEntryStop = false := by
  induction operations generalizing s with
  | nil => simp [stopsAll]
  | cons operation operations ih =>
    obtain ⟨first, rest⟩ := List.forall_mem_cons.mp one
    obtain ⟨after, none, -⟩ := past.perform first
    intro event member
    rcases List.mem_append.mp member with now | later
    · exact none event now
    · exact ih after rest event later

theorem Waits.first (waits : s.Waits) (one : ∀ operation ∈ operations, operation.opens = false)
    (others : ∀ operation ∈ operations, operation.pauses = false) :
    ∀ event ∈ (s.stopsAll operations).head?, event.isEntryStop = true := by
  induction operations generalizing s with
  | nil => simp [stopsAll]
  | cons operation operations ih =>
    obtain ⟨first, rest⟩ := List.forall_mem_cons.mp one
    obtain ⟨notPause, notPauses⟩ := List.forall_mem_cons.mp others
    rcases waits.perform first notPause with ⟨after, none, -⟩ | ⟨-, state, told⟩
    · rw [stopsAll, none, List.nil_append]
      exact ih after rest notPauses
    · rw [stopsAll, told]
      intro event same
      cases same
      rfl

theorem Waits.goes (waits : s.Waits) (one : operation.opens = false) :
    ((s.perform operation).Waits ∧ s.stopsOf operation = []) ∨
      (s.perform operation).Past ∧ (s.stopsOf operation).countP HostEvent.isEntryStop ≤ 1 := by
  cases pauses : operation.pauses with
  | true =>
    unfold Operation.pauses at pauses
    split at pauses
    · obtain ⟨after, none⟩ := waits.pause
      refine .inr ⟨after, ?_⟩
      rw [List.countP_eq_zero.mpr fun event member => by simp [none event member]]
      exact Nat.zero_le 1
    · cases pauses
  | false =>
    rcases waits.perform one pauses with ⟨after, none, -⟩ | ⟨after, state, told⟩
    · exact .inl ⟨after, none⟩
    · rw [told]
      exact .inr ⟨after, Nat.le_refl 1⟩

theorem Waits.count (waits : s.Waits) (one : ∀ operation ∈ operations, operation.opens = false) :
    (s.stopsAll operations).countP HostEvent.isEntryStop ≤ 1 := by
  induction operations generalizing s with
  | nil => simp [stopsAll]
  | cons operation operations ih =>
    obtain ⟨first, rest⟩ := List.forall_mem_cons.mp one
    rw [stopsAll, List.countP_append]
    rcases waits.goes first with ⟨after, none⟩ | ⟨after, once⟩
    · rw [none]
      simpa using ih after rest
    · have never : ((s.perform operation).stopsAll operations).countP HostEvent.isEntryStop = 0 :=
        List.countP_eq_zero.mpr fun event member => by simp [after.stops rest event member]
      omega

theorem waits_or_past (begun : s.Waits ∨ s.Past)
    (one : ∀ operation ∈ operations, operation.opens = false) :
    (s.performAll operations).Waits ∨ (s.performAll operations).Past := by
  induction operations generalizing s with
  | nil => exact begun
  | cons operation operations ih =>
    obtain ⟨first, rest⟩ := List.forall_mem_cons.mp one
    refine ih ?_ rest
    rcases begun with waits | past
    · exact (waits.goes first).imp And.left And.left
    · exact .inr (past.perform first).1

theorem start_waits_or_past (s : Scheduler σ φ) (program : σ) (lines : LineMap)
    (began ended : Instant) :
    (s.settings.pauseOnEntry = true ∧ (s.start program lines began ended).Waits ∧
        s.stopsOf (.start program lines began ended) = []) ∨
      s.settings.pauseOnEntry = false ∧ (s.start program lines began ended).Past ∧
        ∀ event ∈ s.stopsOf (.start program lines began ended), event.isEntryStop = false := by
  cases entry : s.settings.pauseOnEntry with
  | true =>
    refine .inl ⟨rfl, fun live there => ?_, ?_⟩
    · rw [start_waits program lines began ended entry] at there
      cases there
      exact Controller.start_awaits
    · rw [stopsOf_quiet (by simp [burstOf, entry])]
      rfl
  | false =>
    have runs : Bursts s (.start program lines began ended)
        (Live.start program lines false).ticked (s.tickRequest began) := .start entry
    obtain ⟨past, none, -⟩ := past_of_burst runs ⟨rfl, by simp [Progress.begin, Live.ticked,
      Live.start, Controller.start, Controller.fresh, Controller.beginTick]⟩
    exact .inr ⟨rfl, past, none⟩

end Scheduler

theorem no_entry_of_stops {told : List HostEvent}
    (none : ∀ event ∈ told.filter HostEvent.isStop, event.isEntryStop = false) :
    ∀ event ∈ told, event.isEntryStop = false := by
  intro event member
  rw [Bool.eq_false_iff]
  intro entry
  have stop := List.mem_filter.mpr ⟨member, HostEvent.isStop_of_entry entry⟩
  rw [none event stop] at entry
  cases entry

theorem count_entry_stops (told : List HostEvent) :
    told.countP HostEvent.isEntryStop =
      (told.filter HostEvent.isStop).countP HostEvent.isEntryStop := by
  rw [List.countP_filter]
  refine List.countP_congr fun event _ => ?_
  simpa using HostEvent.isStop_of_entry

namespace Scheduler

variable {s : Scheduler σ φ} {operation : Operation σ φ} {operations : List (Operation σ φ)}

theorem start_tells (program : σ) (lines : LineMap) (began ended : Instant)
    (one : ∀ operation ∈ operations, operation.opens = false) :
    ∃ told, (s.performAll (.start program lines began ended :: operations)).transcript =
        s.transcript ++ told ∧
      told.countP HostEvent.isEntryStop ≤ 1 ∧
      (s.settings.pauseOnEntry = false → ∀ event ∈ told, event.isEntryStop = false) ∧
      (s.settings.pauseOnEntry = true → (∀ operation ∈ operations, operation.pauses = false) →
        ∀ event ∈ told.find? HostEvent.isStop, event.isEntryStop = true) := by
  obtain ⟨told, same, stops⟩ := (start_adds program lines began ended).trans
    (performAll_adds operations (start_silent s program lines began ended))
  refine ⟨told, same, ?_⟩
  rw [count_entry_stops, ← List.head?_filter, stops]
  rcases s.start_waits_or_past program lines began ended with
    ⟨entry, waits, none⟩ | ⟨entry, past, none⟩
  · rw [none, List.nil_append, entry]
    exact ⟨waits.count one, by simp, fun _ others => waits.first one others⟩
  · have never : ∀ event ∈ told.filter HostEvent.isStop, event.isEntryStop = false := by
      rw [stops]
      intro event member
      rcases List.mem_append.mp member with now | later
      · exact none event now
      · exact past.stops one event later
    refine ⟨?_, fun _ => no_entry_of_stops never, by simp [entry]⟩
    rw [← stops, List.countP_eq_zero.mpr fun event member => by simp [never event member]]
    exact Nat.zero_le 1

theorem pause_tells (begun : s.Waits ∨ s.Past)
    (one : ∀ operation ∈ operations, operation.opens = false) :
    ∃ told, (s.performAll (.command .pause :: operations)).transcript = s.transcript ++ told ∧
      ∀ event ∈ told, event.isEntryStop = false := by
  obtain ⟨after, none⟩ : (s.perform (.command .pause)).Past ∧
      ∀ event ∈ s.stopsOf (.command .pause), event.isEntryStop = false := by
    rcases begun with waits | past
    · exact waits.pause
    · have one : (.command .pause : Operation σ φ).opens = false := rfl
      obtain ⟨after, none, -⟩ := past.perform one
      exact ⟨after, none⟩
  obtain ⟨told, same, stops⟩ := performAll_adds (.command .pause :: operations)
    (begun.elim Waits.silent Past.silent)
  refine ⟨told, same, no_entry_of_stops ?_⟩
  rw [stops]
  intro event member
  rcases List.mem_append.mp member with now | later
  · exact none event now
  · exact after.stops one event later

theorem arrival_tells (begun : s.Waits ∨ s.Past) (one : operation.opens = false)
    (others : operation.pauses = false) {p : Progress σ}
    (arrives : (p, .arrives) ∈ s.deeds operation)
    (pending : p.live.controller.entryPending = true) :
    (∃ told, (s.perform operation).transcript = s.transcript ++ told ∧
        ∃ event ∈ told, event.isEntryStop = true) ∨
      FailsUnwinding (s.deeds operation) := by
  rcases begun with waits | past
  · rcases waits.perform one others with ⟨-, -, none | fails⟩ | ⟨-, state, stop⟩
    · exact absurd rfl (none _ arrives)
    · exact .inr fails
    · obtain ⟨told, same, stops⟩ := perform_adds operation waits.silent
      refine .inl ⟨told, same, .stopped .entry state, ?_, rfl⟩
      have member : HostEvent.stopped .entry state ∈ told.filter HostEvent.isStop := by
        rw [stops, stop]
        exact List.mem_singleton.mpr rfl
      exact (List.mem_filter.mp member).1
  · have entered := (past.perform one).2.2 _ arrives
    rw [pending] at entered
    cases entered

end Scheduler

/-- A run tells at most once of a stop at its entry, and never if it is not to stop there, or after a
command to pause. If it is to stop there and is not paused, nothing happens on a line of the user's
before it arrives there and goes on from there, and its first stop is the one at the entry, of which
the operation tells that arrives, unless a step fails while the burst unwinds. -/
theorem stops_once_at_entry (s : Scheduler σ φ) (program : σ) (lines : LineMap)
    (began ended : Instant) {operations : List (Operation σ φ)}
    (one : ∀ operation ∈ operations, operation.opens = false) :
    let start := .start program lines began ended
    (∃ told, (s.performAll (start :: operations)).transcript = s.transcript ++ told ∧
      told.countP HostEvent.isEntryStop ≤ 1 ∧
      (s.settings.pauseOnEntry = false → ∀ event ∈ told, event.isEntryStop = false) ∧
      (s.settings.pauseOnEntry = true → (∀ operation ∈ operations, operation.pauses = false) →
        ∀ event ∈ told.find? HostEvent.isStop, event.isEntryStop = true)) ∧
    (∀ before after, operations = before ++ .command .pause :: after →
      ∃ told, (s.performAll (start :: operations)).transcript =
          (s.performAll (start :: before)).transcript ++ told ∧
        ∀ event ∈ told, event.isEntryStop = false) ∧
    (s.settings.pauseOnEntry = true → (∀ operation ∈ operations, operation.pauses = false) →
      EntersFirst (s.deedsAll (start :: operations)) ∧
      ∀ before operation after, operations = before ++ operation :: after →
        let t := s.performAll (start :: before)
        ∀ p, (p, .arrives) ∈ t.deeds operation → p.live.controller.entryPending = true →
          (∃ told, (t.perform operation).transcript = t.transcript ++ told ∧
              ∃ event ∈ told, event.isEntryStop = true) ∨
            FailsUnwinding (t.deeds operation)) := by
  intro start
  have reached : ∀ before : List (Operation σ φ), (∀ operation ∈ before, operation.opens = false) →
      (s.performAll (start :: before)).Waits ∨ (s.performAll (start :: before)).Past := by
    intro before first
    refine Scheduler.waits_or_past (s := s.perform start) ?_ first
    exact (s.start_waits_or_past program lines began ended).imp
      (fun ⟨_, waits, _⟩ => waits) fun ⟨_, past, _⟩ => past
  refine ⟨Scheduler.start_tells program lines began ended one, ?_, fun entry others => ⟨?_, ?_⟩⟩
  · rintro before after rfl
    obtain ⟨first, later⟩ := List.forall_mem_append.mp one
    have whole : s.performAll (start :: (before ++ .command .pause :: after)) =
        (s.performAll (start :: before)).performAll (.command .pause :: after) :=
      List.foldl_append
    rw [whole]
    exact Scheduler.pause_tells (reached before first) (List.forall_mem_cons.mp later).2
  · have quiet : s.burstOf start = none := by simp [start, Scheduler.burstOf, entry]
    rw [Scheduler.deedsAll, Scheduler.deeds_quiet quiet]
    exact (Scheduler.start_courses program lines began ended entry).performAll one others
  · rintro before operation after rfl t p arrives pending
    obtain ⟨first, later⟩ := List.forall_mem_append.mp one
    obtain ⟨-, laterOthers⟩ := List.forall_mem_append.mp others
    exact Scheduler.arrival_tells (reached before first)
      (List.forall_mem_cons.mp later).1 (List.forall_mem_cons.mp laterOthers).1 arrives pending

def goingOnEarly : List (Operation Machine Unit) :=
  [.command .resume, .dispatch ⟨"f", []⟩ 0, .tick ⟨1, 0⟩ 0 0]

/-- The dispatch arrives at the entry of the run, and tells of the stop there. -/
theorem calling_stops_once_at_entry : ∃ loaded, Script.load calling = .ok loaded ∧
    let run := .start loaded.machine loaded.text.lineMap 0 0 :: goingOnEarly
    (∀ operation ∈ goingOnEarly, operation.opens = false) ∧
      entering.settings.pauseOnEntry = true ∧
      (∀ operation ∈ goingOnEarly, operation.pauses = false) ∧
      (entering.performAll run).transcript.countP HostEvent.isEntryStop = 1 ∧
      fromUserCode (entering.deedsAll run) ≠ [] ∧ EntersFirst (entering.deedsAll run) := by
  have computed : (Script.load calling).toOption.any (fun loaded =>
      let run := .start loaded.machine loaded.text.lineMap 0 0 :: goingOnEarly
      (entering.performAll run).transcript.countP HostEvent.isEntryStop == 1 &&
        !(fromUserCode (entering.deedsAll run)).isEmpty) = true := by
    decide +kernel
  obtain ⟨loaded, read, holds⟩ := load_any computed
  simp only [Bool.and_eq_true, beq_iff_eq, Bool.not_eq_true', List.isEmpty_eq_false_iff] at holds
  have one : ∀ operation ∈ goingOnEarly, operation.opens = false := by simp [goingOnEarly, Operation.opens]
  have others : ∀ operation ∈ goingOnEarly, operation.pauses = false := by
    simp [goingOnEarly, Operation.pauses]
  refine ⟨loaded, read, one, rfl, others, holds.1, holds.2, ?_⟩
  exact ((stops_once_at_entry entering loaded.machine loaded.text.lineMap 0 0 one).2.2 rfl others).1

end Run

end Metronome
