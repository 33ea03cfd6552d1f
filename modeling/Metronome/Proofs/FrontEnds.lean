import Metronome.Front.CommandLoop
import Metronome.Front.Prompt
import Metronome.Proofs.TickTokens

namespace Metronome

open Metronome.Debug (Command)
open Metronome.Script (Loaded Machine load_any)

variable {σ φ : Type}

namespace Run.Scheduler

def Attended (s : Scheduler σ φ) : Prop :=
  s.isRunning = true → ∃ tick, s.pending = some tick ∧ tick.run = s.runNumber

theorem Attended.of_gone {s : Scheduler σ φ} (gone : s.isRunning = false) : s.Attended := by
  intro running
  rw [gone] at running
  cases running

theorem scheduled_attended (s : Scheduler σ φ) : s.scheduled.Attended :=
  fun _ => ⟨_, rfl, rfl⟩

theorem Lasts.attended {s t : Scheduler σ φ} (lasts : Lasts s t) (running : s.isRunning = true)
    (attended : s.Attended) : t.Attended := by
  cases lasts with
  | on _ number pending =>
    obtain ⟨tick, scheduled, current⟩ := attended running
    exact fun _ => ⟨tick, pending.trans scheduled, current.trans number.symm⟩
  | ended gone => exact .of_gone (by rw [isRunning, gone]; rfl)

theorem stop_gone (s : Scheduler σ φ) : s.stop.isRunning = false := by
  rw [isRunning, stop, endRun_live]
  rfl

theorem onTick_attended [Interpreter σ] {s : Scheduler σ φ} {tick : PendingTick}
    (running : s.isRunning = true) (current : tick.run = s.runNumber) (began ended : Instant) :
    (s.onTick tick began ended).Attended := by
  obtain ⟨live, here⟩ := Option.isSome_iff_exists.mp running
  exact (onTick_lasts began ended here current).attended running s.scheduled_attended

/-- A request or a step of a front end, from one scheduler to the next. A request is obeyed only
while a run is live; the list has those that were obeyed, the first one first. -/
inductive Conducts [Interpreter σ] {ρ : Type} (act : Scheduler σ φ → ρ → Scheduler σ φ)
    (s : Scheduler σ φ) : List ρ → Scheduler σ φ → Prop where
  | here : Conducts act s [] s
  | takes {requests : List ρ} {t : Scheduler σ φ} (before : Conducts act s requests t) :
      Conducts act s requests t.takePending.1
  | fires {requests : List ρ} {t : Scheduler σ φ} (before : Conducts act s requests t)
      (tick : PendingTick) (now : Instant) : Conducts act s requests (t.onTick tick now now)
  | obeys {requests : List ρ} {t : Scheduler σ φ} (before : Conducts act s requests t)
      (running : t.isRunning = true) (request : ρ) :
      Conducts act s (requests ++ [request]) (act t request)
  | closes {requests : List ρ} {t : Scheduler σ φ} (before : Conducts act s requests t) :
      Conducts act s requests t.stop
  | hands {requests : List ρ} {t : Scheduler σ φ} (before : Conducts act s requests t) :
      Conducts act s requests { t with notices := #[] }

theorem Conducts.trans [Interpreter σ] {ρ : Type} {act : Scheduler σ φ → ρ → Scheduler σ φ}
    {s t u : Scheduler σ φ} {earlier later : List ρ} (first : Conducts act s earlier t)
    (second : Conducts act t later u) : Conducts act s (earlier ++ later) u := by
  induction second with
  | here =>
    rw [List.append_nil]
    exact first
  | takes _ ih => exact ih.takes
  | fires _ tick now ih => exact ih.fires tick now
  | obeys _ running request ih =>
    rw [← List.append_assoc]
    exact ih.obeys running request
  | closes _ ih => exact ih.closes
  | hands _ ih => exact ih.hands

theorem apply_attended {s : Scheduler σ φ} (running : s.isRunning = true) (attended : s.Attended)
    (command : Command) : (s.apply command).Attended :=
  (apply_lasts command running).attended running attended

end Run.Scheduler

namespace Front

open Run

variable [Interpreter σ]

def Receipt.command? : Receipt → Option Command
  | .command given => some given
  | _ => none

def received (receipts : List (Receipt × Instant)) : List Command :=
  receipts.filterMap fun (receipt, _) => receipt.command?

namespace CommandLoop

def isOver {σ φ : Type} (loop : CommandLoop σ φ) : Bool :=
  match loop.wait with
  | .over => true
  | _ => false

/-- A loop that is not over has a live run, and the tick that comes next is pending or taken. -/
def Attended (loop : CommandLoop σ φ) : Prop :=
  match loop.wait with
  | .command => loop.scheduler.isRunning = true ∧ loop.scheduler.Attended
  | .tick tick _ => loop.scheduler.isRunning = true ∧ tick.run = loop.scheduler.runNumber
  | .over => loop.scheduler.isRunning = false

theorem enter_attended {s : Scheduler σ φ} (attended : s.Attended) (now : Instant) :
    (enter s now).Attended := by
  unfold enter Scheduler.turn
  cases running : s.isRunning with
  | false => exact running
  | true =>
    obtain ⟨tick, pending, current⟩ := attended running
    cases rests : s.isAtRest with
    | true => exact ⟨running, attended⟩
    | false =>
      simp only [Scheduler.takePending, pending]
      exact ⟨running, current⟩

theorem enter_conducts (s : Scheduler σ φ) (now : Instant) :
    s.Conducts Scheduler.apply [] (enter s now).scheduler := by
  unfold enter Scheduler.turn
  cases s.isRunning with
  | false => exact .here
  | true =>
    cases s.isAtRest with
    | true => exact .here
    | false =>
      cases pending : s.pending with
      | _ =>
        simp only [Scheduler.takePending, pending]
        exact .takes .here

theorem receiveAll_append (loop : CommandLoop σ φ) (before after : List (Receipt × Instant)) :
    loop.receiveAll (before ++ after) = (loop.receiveAll before).receiveAll after :=
  List.foldl_append

theorem receiveAll_concat (loop : CommandLoop σ φ) (before : List (Receipt × Instant))
    (receipt : Receipt) (now : Instant) :
    loop.receiveAll (before ++ [(receipt, now)]) = (loop.receiveAll before).receive receipt now :=
  receiveAll_append loop before [(receipt, now)]

theorem receiveAll_over {loop : CommandLoop σ φ} (ended : loop.wait = .over)
    (receipts : List (Receipt × Instant)) : loop.receiveAll receipts = loop := by
  induction receipts with
  | nil => rfl
  | cons receipt receipts ih =>
    have stays : loop.receive receipt.1 receipt.2 = loop := by
      simp only [receive, ended]
    exact (congrArg (receiveAll · receipts) stays).trans ih

theorem receive_conducts {loop : CommandLoop σ φ} (attended : loop.Attended) (receipt : Receipt)
    (now : Instant) :
    (loop.receive receipt now).Attended ∧
      (loop.scheduler.Conducts Scheduler.apply receipt.command?.toList
          (loop.receive receipt now).scheduler ∨
        loop.wait = .over) := by
  obtain ⟨s, wait⟩ := loop
  have stops : Attended (⟨s.stop, .over⟩ : CommandLoop σ φ) := s.stop_gone
  cases wait with
  | command =>
    obtain ⟨running, held⟩ := attended
    cases receipt with
    | nothing => exact ⟨⟨running, held⟩, .inl .here⟩
    | closed => exact ⟨stops, .inl (.closes .here)⟩
    | command command =>
      refine ⟨enter_attended (Scheduler.apply_attended running held command) now, .inl ?_⟩
      exact (Scheduler.Conducts.here.obeys running command).trans (enter_conducts _ now)
  | tick tick due =>
    obtain ⟨running, current⟩ := attended
    cases receipt with
    | nothing =>
      refine ⟨enter_attended (Scheduler.onTick_attended running current now now) now, .inl ?_⟩
      exact (Scheduler.Conducts.here.fires tick now).trans (enter_conducts _ now)
    | closed => exact ⟨stops, .inl (.closes .here)⟩
    | command command =>
      refine ⟨?_, .inl (Scheduler.Conducts.here.obeys running command)⟩
      have number := (Scheduler.apply_lasts command running).number
      unfold receive
      dsimp only
      cases goesOn : (s.apply command).isRunning with
      | false => exact goesOn
      | true => exact ⟨goesOn, current.trans number.symm⟩
  | _ => exact ⟨attended, .inr rfl⟩

theorem receiveAll_conducts {loop : CommandLoop σ φ} (attended : loop.Attended)
    (receipts : List (Receipt × Instant)) :
    (loop.receiveAll receipts).Attended ∧
      ∃ before after, receipts = before ++ after ∧
        (after = [] ∨ (loop.receiveAll before).wait = .over) ∧
        loop.scheduler.Conducts Scheduler.apply (received before)
          (loop.receiveAll receipts).scheduler := by
  induction receipts generalizing loop with
  | nil => exact ⟨attended, [], [], rfl, .inl rfl, .here⟩
  | cons receipt receipts ih =>
    obtain ⟨receipt, now⟩ := receipt
    obtain ⟨kept, steps | ended⟩ := receive_conducts attended receipt now
    · obtain ⟨lasting, before, after, cut, ended, goesOn⟩ := ih kept
      have told : received ((receipt, now) :: before) =
          receipt.command?.toList ++ received before := by
        cases command : receipt.command? <;> simp [received, command]
      refine ⟨lasting, (receipt, now) :: before, after, congrArg _ cut, ended, ?_⟩
      rw [told]
      exact steps.trans goesOn
    · rw [receiveAll_over ended]
      exact ⟨attended, [], _, rfl, .inr ended, .here⟩

end CommandLoop

theorem splitLine_shorter {input : List UInt8} {c : Char} {line : List Char}
    (text : Text.utf8Text? (Text.splitLine input).1 = some (c :: line)) :
    (Text.splitLine input).2.length < input.length := by
  have whole := congrArg List.length (Text.splitLine_append input)
  rw [List.length_append] at whole
  cases first : (Text.splitLine input).1 with
  | nil =>
    rw [first, show ([] : List UInt8) = Text.utf8Bytes [] from rfl,
      Text.utf8Text?_utf8Bytes] at text
    cases text
  | cons byte bytes =>
    rw [first, List.length_cons] at whole
    omega

/-- The orders in an input, one for each line. The end of the input is the last order, unless a line
is no text. -/
def orders (input : List UInt8) : List Order :=
  match _text : Text.utf8Text? (Text.splitLine input).1 with
  | none => []
  | some [] => [.quit]
  | some (c :: line) => readOrder (c :: line) :: orders (Text.splitLine input).2
termination_by input.length
decreasing_by exact splitLine_shorter _text

def obeyed (s : Scheduler σ φ) (order : Order) : Scheduler σ φ :=
  (obey s order).1

namespace Prompt

structure Conducts (p q : Prompt σ φ) (ending : Option PromptEnd) (requests : List Order) :
    Prop where
  steps : p.scheduler.Conducts obeyed requests q.scheduler
  attended : q.scheduler.Attended
  /-- A prompt that goes on has read just what it has obeyed. -/
  reads : requests <+: orders p.input ∧
    (ending = none → orders p.input = requests ++ orders q.input)
  ends : ∀ reason, ending = some reason →
    reason = .unreadable ∨ q.scheduler.isRunning = false ∧ reason ≠ .stuck

end Prompt

end Front
end Metronome
