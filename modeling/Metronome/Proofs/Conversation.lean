import Mathlib.Data.List.Induction
import Metronome.Adapter.Session

namespace Metronome.Adapter

open Metronome.Debug (Command)
open Metronome.Run

inductive Move where
  | request (seq : Nat) (name : String) (arguments : Option Value) (files : Files) (now : Instant)
  | work (now : Instant)

namespace Request

/-- The launch that a request brings about. -/
def launch? (files : Files) (settings : Settings) : Request → Option Launch
  | .launch arguments => (readLaunch files settings arguments).toOption
  | _ => none

def lines? : Request → Option (List Nat)
  | .setBreakpoints lines => some lines
  | _ => none

def confirms : Request → Bool
  | .configurationDone => true
  | _ => false

def leaves : Request → Bool
  | .disconnect => true
  | _ => false

def command? : Request → Option Command
  | .setBreakpoints lines => some (.setBreakpoints lines)
  | .steer command => some command
  | .setSpeed (some speed) => some (.setSpeed speed)
  | _ => none

end Request

namespace Move

def time : Move → Instant
  | .request _ _ _ _ now => now
  | .work now => now

def request? : Move → Option Request
  | .request _ name arguments _ _ => some (.read name (arguments.getD .null))
  | .work _ => none

def label? : Move → Option (Nat × String)
  | .request seq name _ _ _ => some (seq, name)
  | .work _ => none

def launch? (settings : Settings) : Move → Option Launch
  | .request _ name arguments files _ =>
    (Request.read name (arguments.getD .null)).launch? files settings
  | .work _ => none

def lines? (move : Move) : Option (List Nat) :=
  move.request?.bind Request.lines?

def confirms (move : Move) : Bool :=
  move.request?.any Request.confirms

def leaves (move : Move) : Bool :=
  move.request?.any Request.leaves

end Move

def latestLaunch (settings : Settings) (moves : List Move) : Option Launch :=
  (moves.filterMap (Move.launch? settings)).getLast?

def latestLines (moves : List Move) : List Nat :=
  (moves.filterMap Move.lines?).getLast?.getD []

/-- A launch has succeeded and the client has said that it is ready. -/
def Ready (settings : Settings) (moves : List Move) : Prop :=
  (latestLaunch settings moves).isSome = true ∧ moves.any Move.confirms = true

instance (settings : Settings) (moves : List Move) : Decidable (Ready settings moves) :=
  inferInstanceAs (Decidable (_ ∧ _))

def Launch.worker (launch : Launch) (settings : Settings) (breakpoints : List Nat)
    (now : Instant) : Worker :=
  .new { settings with
      pauseOnEntry := launch.stopOnEntry
      speed := launch.speed.getD settings.speed }
    breakpoints launch.program now

namespace Worker

def obey (worker : Worker) (request : Request) : Worker :=
  match request.command? with
  | some command => worker.send command
  | none => worker

def heard (worker : Worker) : Worker :=
  { worker with work := worker.work.takeEvents.1 }

def go (worker : Worker) : Move → Worker
  | .request _ name arguments _ _ => worker.obey (.read name (arguments.getD .null))
  | .work now =>
    match worker.readiness with
    | .over => worker
    | _ => (worker.step now).heard

end Worker

def Content.answers? : Content → Option (Nat × String)
  | .response requestSeq _ command _ _ => some (requestSeq, command)
  | _ => none

namespace Session

def go (s : Session) : Move → Session
  | .request seq name arguments files now =>
    (handle { s with files } seq name arguments now).1
  | .work now =>
    match s.readiness with
    | .over => s
    | _ => s.step now

def goAll (s : Session) (moves : List Move) : Session :=
  moves.foldl go s

def answered (s : Session) : List (Nat × String) :=
  s.sent.toList.filterMap fun message => message.content.answers?

theorem answered_send (s : Session) (content : Content) :
    (s.send content).answered = s.answered ++ content.answers?.toList := by
  unfold answered send
  cases same : content.answers? <;> simp [same]

theorem answers?_responseOf (seq : Nat) (name : String) (answer : Except String (Option Value)) :
    (responseOf seq name answer).answers? = some (seq, name) := by
  cases answer <;> rfl

theorem answers?_eventsOf (event : HostEvent) (content : Content)
    (member : content ∈ eventsOf event) : content.answers? = none := by
  unfold eventsOf at member
  split at member <;> simp only [List.mem_cons, List.not_mem_nil, or_false] at member
  · subst member
    rfl
  · subst member
    rfl
  · subst member
    rfl
  · rcases member with same | same
    · subst same
      rfl
    · subst same
      rfl
  · subst member
    rfl

structure Tells (s t : Session) : Prop where
  same : t = { s with line := t.line, sent := t.sent }
  answered : t.answered = s.answered

theorem Tells.refl (s : Session) : Tells s s := ⟨rfl, rfl⟩

theorem Tells.trans {s t u : Session} (first : Tells s t) (second : Tells t u) : Tells s u := by
  refine ⟨?_, second.answered.trans first.answered⟩
  rw [second.same, first.same]

theorem send_tells (s : Session) {content : Content} (told : content.answers? = none) :
    Tells s (s.send content) := by
  refine ⟨rfl, ?_⟩
  rw [answered_send, told]
  exact List.append_nil _

theorem tell_tells (s : Session) (event : HostEvent) : Tells s (s.tell event) := by
  have sends : ∀ (contents : List Content) (t : Session),
      (∀ content ∈ contents, content.answers? = none) → Tells t (contents.foldl send t) := by
    intro contents
    induction contents with
    | nil => exact fun t _ => .refl t
    | cons content contents ih =>
      intro t told
      exact (send_tells t (told content List.mem_cons_self)).trans
        (ih _ fun other member => told other (List.mem_cons_of_mem _ member))
  have shows : Tells s { s with line := lineAfter s.line event } := ⟨rfl, rfl⟩
  exact shows.trans (sends _ _ (answers?_eventsOf event))

theorem tellAll_tells (s : Session) (events : List HostEvent) : Tells s (events.foldl tell s) := by
  induction events generalizing s with
  | nil => exact .refl s
  | cons event events ih => exact (tell_tells s event).trans (ih _)

theorem follow_tells (s : Session) (worker : Worker) :
    Tells { s with worker := some worker.heard } (s.follow worker) :=
  tellAll_tells _ _

def Overdue (s : Session) : Prop :=
  s.worker = none ∧ s.configured = true ∧ s.launch.isSome = true

def started (s : Session) (now : Instant) : Option Worker :=
  if s.configured then s.launch.map (·.worker s.settings s.breakpoints now) else none

theorem spawn_eq (s : Session) (now : Instant) :
    s.spawn now = { s with worker := s.worker.or (s.started now) } := by
  obtain ⟨files, settings, launch, configured, breakpoints, worker, line, sent⟩ := s
  cases configured <;> cases worker <;> cases launch <;> rfl

def served (s : Session) (request : Request) (now : Instant) : Session :=
  let t := { s with
    launch := (request.launch? s.files s.settings).or s.launch
    configured := s.configured || request.confirms
    breakpoints := request.lines?.getD s.breakpoints }
  { t with worker := (s.worker.map (·.obey request)).or (t.started now) }

theorem served_other {s : Session} {request : Request} (settled : ¬s.Overdue)
    (stays : request.launch? s.files s.settings = none) (waits : request.confirms = false)
    (now : Instant) :
    s.served request now =
      { s with
        breakpoints := request.lines?.getD s.breakpoints
        worker := s.worker.map (·.obey request) } := by
  obtain ⟨files, settings, launch, configured, breakpoints, worker, line, sent⟩ := s
  unfold served
  simp only [stays, waits, Option.none_or, Bool.or_false]
  -- Without a worker nothing may be ready yet: else the session would be overdue.
  cases worker with
  | some worker => rfl
  | none =>
    cases configured with
    | false => rfl
    | true =>
      cases launch with
      | none => rfl
      | some launch => exact absurd ⟨rfl, rfl, rfl⟩ settled

theorem map_obey {request : Request} (silent : request.command? = none) (worker : Option Worker) :
    worker.map (·.obey request) = worker := by
  have same : (fun worker : Worker => worker.obey request) = id := by
    funext worker
    unfold Worker.obey
    rw [silent]
    rfl
  rw [same, Option.map_id_apply]

theorem perform_eq {s : Session} (settled : ¬s.Overdue) (request : Request) (now : Instant) :
    (s.perform request now).1 = s.served request now := by
  cases request with
  | launch arguments =>
    unfold perform
    dsimp only
    cases read : readLaunch s.files s.settings arguments with
    | error reason =>
      have fails : (Request.launch arguments).launch? s.files s.settings = none :=
        congrArg Except.toOption read
      rw [served_other settled fails rfl, map_obey rfl]
      rfl
    | ok launch =>
      have succeeds : (Request.launch arguments).launch? s.files s.settings = some launch :=
        congrArg Except.toOption read
      dsimp only
      unfold served
      rw [succeeds, map_obey rfl, spawn_eq]
      simp [Request.confirms, Request.lines?]
  | configurationDone =>
    unfold perform served
    rw [map_obey rfl, spawn_eq]
    simp [Request.confirms, Request.lines?, Request.launch?]
  | setSpeed speed =>
    rw [served_other settled rfl rfl]
    cases speed with
    | none =>
      rw [map_obey rfl]
      rfl
    | some speed => rfl
  | setBreakpoints lines | steer command =>
    rw [served_other settled rfl rfl]
    rfl
  | _ =>
    rw [served_other settled rfl rfl, map_obey rfl]
    rfl

theorem handle_answers (s : Session) (seq : Nat) {name : String} {arguments : Option Value}
    (stays : (Request.read name (arguments.getD .null)).leaves = false) (now : Instant) :
    let done := s.perform (.read name (arguments.getD .null)) now
    Tells (done.1.send (responseOf seq name done.2)) (s.handle seq name arguments now).1 := by
  intro done
  unfold handle
  dsimp only
  split
  · exact send_tells _ rfl
  · rename_i left
    rw [left] at stays
    cases stays
  · exact .refl _

structure Goes (s : Session) (move : Move) (t : Session) : Prop where
  settings : t.settings = s.settings
  launch : t.launch = (move.launch? s.settings).or s.launch
  configured : t.configured = (s.configured || move.confirms)
  breakpoints : t.breakpoints = move.lines?.getD s.breakpoints
  worker : t.worker = (s.worker.map (·.go move)).or (t.started move.time)
  answered : t.answered = s.answered ++ move.label?.toList

theorem started_settled {s : Session} (settled : ¬s.Overdue) (now : Instant) :
    s.worker.or (s.started now) = s.worker := by
  cases here : s.worker with
  | some worker => rfl
  | none =>
    unfold started
    cases ready : s.configured with
    | false => rfl
    | true =>
      cases there : s.launch with
      | none => rfl
      | some launch => exact absurd ⟨here, ready, by rw [there]; rfl⟩ settled

theorem go_goes {s : Session} (settled : ¬s.Overdue) {move : Move} (stays : move.leaves = false) :
    Goes s move (s.go move) := by
  cases move with
  | request seq name arguments files now =>
    obtain ⟨same, answers⟩ := handle_answers { s with files } seq stays now
    have settled' : ¬Overdue { s with files } := settled
    rw [answered_send, answers?_responseOf, perform_eq settled'] at answers
    rw [perform_eq settled'] at same
    change Goes s _ (handle { s with files } seq name arguments now).1
    rw [same] at answers ⊢
    exact ⟨rfl, rfl, rfl, rfl, rfl, answers⟩
  | work now =>
    have silent : s.answered = s.answered ++ [] := (List.append_nil _).symm
    unfold go readiness step
    cases here : s.worker with
    | none =>
      have kept := started_settled settled now
      rw [here] at kept
      exact ⟨rfl, rfl, (Bool.or_false _).symm, rfl, here.trans (by rw [here]; exact kept.symm),
        silent⟩
    | some worker =>
      dsimp only
      split
      · rename_i ended
        refine ⟨rfl, rfl, (Bool.or_false _).symm, rfl, ?_, silent⟩
        simp only [here, Option.map_some, Option.some_or, Worker.go, ended]
      · rename_i goesOn
        obtain ⟨same, answers⟩ := follow_tells s (worker.step now)
        rw [same] at answers ⊢
        refine ⟨rfl, rfl, (Bool.or_false _).symm, rfl, ?_, answers.trans silent⟩
        simp only [here, Option.map_some, Option.some_or, Worker.go]

theorem Goes.settled {s t : Session} {move : Move} (goes : Goes s move t) : ¬t.Overdue := by
  rintro ⟨gone, ready, launched⟩
  obtain ⟨launch, there⟩ := Option.isSome_iff_exists.mp launched
  have worker := goes.worker
  rw [gone, started, if_pos ready, there, Option.map_some] at worker
  cases old : s.worker.map (·.go move) with
  | none | some _ =>
    rw [old] at worker
    cases worker

end Session

theorem latestLaunch_concat (settings : Settings) (moves : List Move) (move : Move) :
    latestLaunch settings (moves ++ [move]) =
      (move.launch? settings).or (latestLaunch settings moves) := by
  unfold latestLaunch
  rw [List.filterMap_append, List.getLast?_append]
  cases here : move.launch? settings <;> simp [here]

theorem latestLines_concat (moves : List Move) (move : Move) :
    latestLines (moves ++ [move]) = move.lines?.getD (latestLines moves) := by
  unfold latestLines
  rw [List.filterMap_append, List.getLast?_append]
  cases here : move.lines? <;> simp [here]

theorem Ready.concat {settings : Settings} {moves : List Move} (ready : Ready settings moves)
    (move : Move) : Ready settings (moves ++ [move]) := by
  obtain ⟨launched, confirmed⟩ := ready
  constructor
  · rw [latestLaunch_concat, Option.isSome_or, launched, Bool.or_true]
  · rw [List.any_append, confirmed, Bool.true_or]

namespace Session

structure Stands (settings : Settings) (moves : List Move) (s : Session) : Prop where
  kept : s.settings = settings
  launch : s.launch = latestLaunch settings moves
  configured : s.configured = moves.any Move.confirms
  breakpoints : s.breakpoints = latestLines moves
  settled : ¬s.Overdue
  ready : s.worker.isSome = true → Ready settings moves
  answered : s.answered = moves.filterMap Move.label?

variable {settings : Settings} {moves : List Move} {s : Session}

theorem new_stands (files : Files) (settings : Settings) :
    (Session.new files settings).Stands settings [] := by
  refine ⟨rfl, rfl, rfl, rfl, ?_, nofun, rfl⟩
  rintro ⟨-, confirmed, -⟩
  cases confirmed

theorem Stands.runs (stands : s.Stands settings moves) (ready : Ready settings moves) :
    s.worker.isSome = true := by
  cases here : s.worker with
  | some worker => rfl
  | none =>
    exact absurd ⟨here, stands.configured.trans ready.2, stands.launch ▸ ready.1⟩ stands.settled

theorem Stands.go (stands : s.Stands settings moves) {move : Move} (stays : move.leaves = false) :
    (s.go move).Stands settings (moves ++ [move]) := by
  have goes := go_goes stands.settled stays
  have launch : (s.go move).launch = latestLaunch settings (moves ++ [move]) := by
    rw [goes.launch, latestLaunch_concat, stands.launch, stands.kept]
  have configured : (s.go move).configured = (moves ++ [move]).any Move.confirms := by
    rw [goes.configured, stands.configured, List.any_append, List.any_cons, List.any_nil,
      Bool.or_false]
  refine ⟨goes.settings.trans stands.kept, launch, configured, ?_, goes.settled, ?_, ?_⟩
  · rw [goes.breakpoints, latestLines_concat, stands.breakpoints]
  · intro runs
    cases here : s.worker with
    | some worker =>
      exact (stands.ready (by rw [here]; rfl)).concat move
    | none =>
      rw [goes.worker, here, Option.map_none, Option.none_or, started] at runs
      split at runs
      · rename_i confirmed
        rw [Option.isSome_map] at runs
        exact ⟨launch ▸ runs, configured ▸ confirmed⟩
      · cases runs
  · rw [goes.answered, stands.answered, List.filterMap_append]
    cases here : move.label? <;> simp [here]

theorem Stands.goAll (stands : s.Stands settings moves) {more : List Move}
    (stays : ∀ move ∈ more, move.leaves = false) :
    (s.goAll more).Stands settings (moves ++ more) := by
  induction more generalizing s moves with
  | nil =>
    rw [List.append_nil]
    exact stands
  | cons move more ih =>
    rw [← List.singleton_append, ← List.append_assoc]
    exact ih (stands.go (stays move List.mem_cons_self))
      fun other member => stays other (List.mem_cons_of_mem _ member)

theorem goAll_worker {worker : Worker} (here : s.worker = some worker)
    (stays : ∀ move ∈ moves, move.leaves = false) :
    (s.goAll moves).worker = some (moves.foldl Worker.go worker) := by
  induction moves generalizing s worker with
  | nil => exact here
  | cons move moves ih =>
    have settled : ¬s.Overdue := by
      rintro ⟨gone, -⟩
      rw [here] at gone
      cases gone
    have goes := (go_goes settled (stays move List.mem_cons_self)).worker
    rw [here] at goes
    exact ih goes fun other member => stays other (List.mem_cons_of_mem _ member)

/-- The worker starts with the move that makes the session ready. -/
theorem Stands.starts (stands : s.Stands settings moves) (waits : ¬Ready settings moves)
    {move : Move} (ready : Ready settings (moves ++ [move])) (stays : move.leaves = false) :
    ∃ launch, latestLaunch settings (moves ++ [move]) = some launch ∧
      (s.go move).worker =
        some (launch.worker settings (latestLines (moves ++ [move])) move.time) := by
  have after := stands.go stays
  obtain ⟨launch, there⟩ := Option.isSome_iff_exists.mp ready.1
  refine ⟨launch, there, ?_⟩
  have goes := (go_goes stands.settled stays).worker
  cases here : s.worker with
  | some worker =>
    exact absurd (stands.ready (by rw [here]; rfl)) waits
  | none =>
    rw [goes, here, Option.map_none, Option.none_or, started, after.configured, ready.2, if_pos rfl,
      after.launch, there, Option.map_some, after.kept, after.breakpoints]

theorem goAll_append (s : Session) (before after : List Move) :
    s.goAll (before ++ after) = (s.goAll before).goAll after :=
  List.foldl_append

theorem worker_after (files : Files) {before after : List Move} {move : Move}
    (waits : ¬Ready settings before) (ready : Ready settings (before ++ [move]))
    (stays : ∀ other ∈ before ++ move :: after, other.leaves = false) :
    ∃ launch, latestLaunch settings (before ++ [move]) = some launch ∧
      ((Session.new files settings).goAll (before ++ move :: after)).worker =
        some (after.foldl Worker.go
          (launch.worker settings (latestLines (before ++ [move])) move.time)) := by
  have stands := (new_stands files settings).goAll
    fun other member => stays other (List.mem_append_left _ member)
  rw [List.nil_append] at stands
  obtain ⟨launch, there, starts⟩ := stands.starts waits ready
    (stays move (List.mem_append_right _ List.mem_cons_self))
  refine ⟨launch, there, ?_⟩
  rw [goAll_append]
  exact goAll_worker starts fun other member =>
    stays other (List.mem_append_right _ (List.mem_cons_of_mem _ member))

end Session

/-- The program that a request names was read and loaded, and its other arguments say how to run it. -/
structure Launch.Follows (launch : Launch) (files : Files) (settings : Settings)
    (arguments : Value) : Prop where
  named : (arguments.field? "program").bind Value.text? = some launch.path
  loaded : ∃ source, files.text launch.path = .ok source ∧
    Script.load source.toList = .ok launch.program
  stopOnEntry : launch.stopOnEntry =
    ((arguments.field? "stopOnEntry").bind Value.bool?).getD settings.pauseOnEntry
  speed : launch.speed = (arguments.field? "speed").bind Value.float?

theorem readLaunch_follows {files : Files} {settings : Settings} {arguments : Value}
    {launch : Launch} (reads : readLaunch files settings arguments = .ok launch) :
    launch.Follows files settings arguments := by
  unfold readLaunch at reads
  split at reads
  · cases reads
  · rename_i path named
    split at reads
    · cases reads
    · rename_i source found
      split at reads
      · cases reads
      · rename_i program loads
        cases reads
        exact ⟨named, ⟨source, found, loads⟩, rfl, rfl⟩

theorem launch?_eq_some {settings : Settings} {move : Move} {launch : Launch}
    (launches : move.launch? settings = some launch) :
    ∃ seq arguments files now, move = .request seq "launch" arguments files now ∧
      launch.Follows files settings (arguments.getD .null) := by
  cases move with
  | work now => cases launches
  | request seq name arguments files now =>
    unfold Move.launch? Request.read at launches
    dsimp only at launches
    split at launches <;> first | cases launches | skip
    refine ⟨seq, arguments, files, now, rfl, readLaunch_follows ?_⟩
    change (readLaunch files settings (arguments.getD .null)).toOption = some launch at launches
    cases reads : readLaunch files settings (arguments.getD .null) with
    | error reason =>
      rw [reads] at launches
      cases launches
    | ok read =>
      rw [reads] at launches
      cases launches
      rfl

theorem latestLaunch_eq_some {settings : Settings} {moves : List Move} {launch : Launch}
    (latest : latestLaunch settings moves = some launch) :
    ∃ earlier seq arguments files now later,
      moves = earlier ++ .request seq "launch" arguments files now :: later ∧
      launch.Follows files settings (arguments.getD .null) ∧
      ∀ move ∈ later, move.launch? settings = none := by
  induction moves using List.reverseRecOn with
  | nil => cases latest
  | append_singleton moves move ih =>
    rw [latestLaunch_concat] at latest
    cases here : move.launch? settings with
    | some other =>
      rw [here] at latest
      cases latest
      obtain ⟨seq, arguments, files, now, rfl, follows⟩ := launch?_eq_some here
      exact ⟨moves, seq, arguments, files, now, [], rfl, follows, nofun⟩
    | none =>
      rw [here] at latest
      obtain ⟨earlier, seq, arguments, files, now, later, rfl, follows, none⟩ := ih latest
      refine ⟨earlier, seq, arguments, files, now, later ++ [move], ?_, follows, ?_⟩
      · rw [List.append_assoc, List.cons_append]
      · intro other member
        rcases List.mem_append.mp member with member | member
        · exact none other member
        · rw [List.mem_singleton.mp member]
          exact here

/-- A scheduler that has run nothing and is to stop at some lines. -/
structure Unused (scheduler : SessionScheduler) (settings : Settings) (lines : List Nat) : Prop where
  configured : scheduler.settings = settings
  clock : scheduler.clock = .ofSettings settings.speed settings.maxTickLength
  breakpoints : ∀ line, scheduler.breakpoints.contains line = true ↔ line ∈ lines
  finish : scheduler.finish = some finishWhenIdle
  live : scheduler.live = none
  runNumber : scheduler.runNumber = 0
  pending : scheduler.pending = none
  outcome : scheduler.outcome = none
  notices : scheduler.notices = #[]
  reported : scheduler.reported = .idle

def Launch.applied (launch : Launch) (settings : Settings) : Settings :=
  { settings with
    pauseOnEntry := launch.stopOnEntry
    speed := launch.speed.getD settings.speed }

theorem Launch.worker_starts (launch : Launch) (settings : Settings) (lines : List Nat)
    (now : Instant) :
    ∃ scheduler : SessionScheduler, Unused scheduler (launch.applied settings) lines ∧
      launch.worker settings lines now = ⟨.start scheduler launch.program, .empty, now⟩ := by
  refine ⟨_, ⟨rfl, rfl, fun line => ?_, rfl, rfl, rfl, rfl, rfl, rfl, rfl⟩, rfl⟩
  rw [← List.contains_iff_mem, ← Debug.Breakpoints.contains_ofList]
  rfl

/-- Why there is no program to launch: none is named, its file cannot be read, or it does not
parse. -/
inductive Unlaunchable (files : Files) (arguments : Value) : String → Prop where
  | unnamed (missing : (arguments.field? "program").bind Value.text? = none) :
      Unlaunchable files arguments "missing `program`"
  | unread {path : String} {error : FileError}
      (named : (arguments.field? "program").bind Value.text? = some path)
      (fails : files.text path = .error error) :
      Unlaunchable files arguments ("cannot read " ++ path ++ ": " ++ error.message)
  | unparsed {path source : String} {error : Script.ParseError}
      (named : (arguments.field? "program").bind Value.text? = some path)
      (found : files.text path = .ok source)
      (fails : Script.load source.toList = .error error) :
      Unlaunchable files arguments (path ++ ": " ++ error.text)

theorem readLaunch_error_iff {files : Files} {settings : Settings} {arguments : Value}
    {reason : String} :
    readLaunch files settings arguments = .error reason ↔ Unlaunchable files arguments reason := by
  constructor
  · intro fails
    unfold readLaunch at fails
    split at fails
    · rename_i missing
      cases fails
      exact .unnamed missing
    · rename_i path named
      split at fails
      · rename_i error unread
        cases fails
        exact .unread named unread
      · rename_i source found
        split at fails
        · rename_i error unparsed
          cases fails
          exact .unparsed named found unparsed
        · cases fails
  · intro unlaunchable
    cases unlaunchable with
    | unnamed missing => simp only [readLaunch, missing]
    | unread named fails => simp only [readLaunch, named, fails]
    | unparsed named found fails => simp only [readLaunch, named, found, fails]

theorem launch?_or_unlaunchable (settings : Settings) (files : Files) (seq : Nat)
    (arguments : Option Value) (now : Instant) :
    (∃ launch, (Move.request seq "launch" arguments files now).launch? settings = some launch) ∨
      ∃ reason, Unlaunchable files (arguments.getD .null) reason := by
  have named : (Move.request seq "launch" arguments files now).launch? settings =
      (readLaunch files settings (arguments.getD .null)).toOption := rfl
  cases reads : readLaunch files settings (arguments.getD .null) with
  | ok launch => exact .inl ⟨launch, by rw [named, reads]; rfl⟩
  | error reason => exact .inr ⟨reason, readLaunch_error_iff.mp reads⟩

theorem Session.go_unlaunchable {files : Files} {arguments : Option Value} {reason : String}
    (unlaunchable : Unlaunchable files (arguments.getD .null) reason) (s : Session) (seq : Nat)
    (now : Instant) :
    s.go (.request seq "launch" arguments files now) =
      { s with
        files
        sent := s.sent.push
          ⟨s.sent.size + 1, "response", .response seq false "launch" (some reason) none⟩ } := by
  have fails : readLaunch files s.settings (arguments.getD .null) = .error reason :=
    readLaunch_error_iff.mpr unlaunchable
  have reads : Request.read "launch" (arguments.getD .null) = .launch (arguments.getD .null) := rfl
  simp only [go, handle, reads, perform, fails]
  rfl

/-- While the client stays, every request is answered once and in order. There is a worker if a
launch has succeeded and the client has said that it is ready, and not before; the move that makes
it so starts the worker with the last launch and the last breakpoints, and from then on that worker
is carried on. A launch succeeds unless there is a reason why it cannot, and then it only gets its
answer. -/
theorem session_starts_once (files : Files) (settings : Settings) {moves : List Move}
    (stays : ∀ move ∈ moves, move.leaves = false) :
    let session := (Session.new files settings).goAll
    (session moves).answered = moves.filterMap Move.label? ∧
      ((session moves).worker.isSome = true ↔ Ready settings moves) ∧
      (∀ before move after, moves = before ++ move :: after → ¬Ready settings before →
        Ready settings (before ++ [move]) →
        ∃ launch, latestLaunch settings (before ++ [move]) = some launch ∧
          (∃ earlier seq arguments found now later,
            before ++ [move] = earlier ++ .request seq "launch" arguments found now :: later ∧
            launch.Follows found settings (arguments.getD .null) ∧
            ∀ other ∈ later, other.launch? settings = none) ∧
          (∃ scheduler : SessionScheduler,
            Unused scheduler (launch.applied settings) (latestLines (before ++ [move])) ∧
            launch.worker settings (latestLines (before ++ [move])) move.time =
              ⟨.start scheduler launch.program, .empty, move.time⟩ ∧
            ∀ now, (Worker.step ⟨.start scheduler launch.program, .empty, move.time⟩ now).work =
              .loop (.enter (scheduler.start launch.program.machine launch.program.text.lineMap
                now now) now)) ∧
          (session moves).worker = some (after.foldl Worker.go
            (launch.worker settings (latestLines (before ++ [move])) move.time))) ∧
      (∀ seq arguments found now,
        (∃ launch, (Move.request seq "launch" arguments found now).launch? settings = some launch) ∨
          ∃ reason, Unlaunchable found (arguments.getD .null) reason) ∧
      ∀ before seq arguments found now after reason,
        moves = before ++ .request seq "launch" arguments found now :: after →
        Unlaunchable found (arguments.getD .null) reason →
        session (before ++ [.request seq "launch" arguments found now]) =
          { session before with
            files := found
            sent := (session before).sent.push
              ⟨(session before).sent.size + 1, "response",
                .response seq false "launch" (some reason) none⟩ } := by
  intro session
  have stands := (Session.new_stands files settings).goAll stays
  rw [List.nil_append] at stands
  refine ⟨stands.answered, ⟨stands.ready, stands.runs⟩, ?_, fun seq arguments found now =>
    launch?_or_unlaunchable settings found seq arguments now, ?_⟩
  · rintro before move after rfl waits ready
    obtain ⟨launch, latest, worker⟩ := Session.worker_after files waits ready stays
    obtain ⟨scheduler, unused, starts⟩ :=
      launch.worker_starts settings (latestLines (before ++ [move])) move.time
    exact ⟨launch, latest, latestLaunch_eq_some latest, ⟨scheduler, unused, starts, fun _ => rfl⟩,
      worker⟩
  · rintro before seq arguments found now after reason - unlaunchable
    exact (Session.goAll_append _ before [_]).trans
      (Session.go_unlaunchable unlaunchable (session before) seq now)

def noFiles : Files := fun _ => .error .notFound

def onlyFile (path text : String) : Files := fun other =>
  if other = path then .ok text.toByteArray else .error .notFound

theorem onlyFile_text (path text : String) : (onlyFile path text).text path = .ok text := by
  have valid : String.fromUTF8? text.toByteArray = some text := by
    simp only [String.fromUTF8?, text.isValidUTF8, dite_true]
    rfl
  simp only [Files.text, onlyFile, if_pos, valid]

def counting : String := "print 1\nprint 2\nprint 3\n"

def launchOf (path : String) : Option Value :=
  some (.ofFields [("program", .text path)])

def retrying : List Move :=
  let breakpoints := Value.ofFields [("breakpoints", .list [.ofFields [("line", .ofNat 2)]])]
  [.request 1 "setBreakpoints" (some breakpoints) noFiles 0,
    .request 2 "launch" (launchOf "count") noFiles 1,
    .request 3 "configurationDone" none noFiles 2,
    .request 4 "launch" (launchOf "count") (onlyFile "count" counting) 3,
    .work 4,
    .request 5 "setBreakpoints" none noFiles 5]

/-- The first launch is only told of the missing file; the second one starts the program, with the
breakpoint that was set before it. -/
theorem retrying_starts_once :
    let session := (Session.new noFiles .default).goAll
    (session retrying).answered =
        [(1, "setBreakpoints"), (2, "launch"), (3, "configurationDone"), (4, "launch"),
          (5, "setBreakpoints")] ∧
      session (retrying.take 2) =
        { session (retrying.take 1) with
          sent := (session (retrying.take 1)).sent.push ⟨2, "response", .response 2 false "launch"
            (some "cannot read count: No such file or directory (os error 2)") none⟩ } ∧
      (session (retrying.take 3)).worker.isNone = true ∧
      ∃ launch : Launch, launch.path = "count" ∧
        (session retrying).worker =
          some ((retrying.drop 4).foldl Worker.go (launch.worker .default [2] 3)) ∧
        Script.load counting.toList = .ok launch.program ∧
        ∃ scheduler : SessionScheduler, scheduler.breakpoints.contains 2 = true ∧
          scheduler.live = none ∧
          launch.worker .default [2] 3 = ⟨.start scheduler launch.program, .empty, 3⟩ ∧
          (Worker.step ⟨.start scheduler launch.program, .empty, 3⟩ 4).work =
            .loop (.enter (scheduler.start launch.program.machine launch.program.text.lineMap
              4 4) 4) := by
  have stays : ∀ move ∈ retrying, move.leaves = false := by decide +kernel
  have waits : ¬Ready .default (retrying.take 3) := by decide +kernel
  have ready : Ready .default (retrying.take 4) := by decide +kernel
  have earlier : ∀ move ∈ retrying.take 3, move.leaves = false :=
    fun move member => stays move (List.mem_of_mem_take member)
  obtain ⟨answers, -, starts, -, fails⟩ := session_starts_once noFiles .default stays
  obtain ⟨-, unready, -⟩ := session_starts_once noFiles .default earlier
  obtain ⟨launch, there, -, ⟨scheduler, unused, makes, steps⟩, worker⟩ :=
    starts (retrying.take 3) _ (retrying.drop 4) rfl waits ready
  have unread : Unlaunchable noFiles ((launchOf "count").getD .null)
      ("cannot read " ++ "count" ++ ": " ++ FileError.notFound.message) := .unread rfl rfl
  have unlaunched : latestLaunch .default (retrying.take 3) = none := by
    rw [← Option.isNone_iff_eq_none]
    decide +kernel
  have follows : launch.Follows (onlyFile "count" counting) .default
      ((launchOf "count").getD .null) := by
    rw [latestLaunch_concat, unlaunched, Option.or_none] at there
    obtain ⟨_, _, _, _, same, follows⟩ := launch?_eq_some there
    cases same
    exact follows
  have path : launch.path = "count" := (Option.some.inj follows.named).symm
  refine ⟨answers, fails (retrying.take 1) _ _ _ _ _ _ rfl unread, ?_, launch, path, worker, ?_,
    scheduler, ?_, unused.live, makes, steps 4⟩
  · rw [Option.isNone_iff_eq_none, ← Option.not_isSome_iff_eq_none, unready]
    exact waits
  · obtain ⟨source, found, loads⟩ := follows.loaded
    rw [path, onlyFile_text] at found
    cases found
    exact loads
  · exact (unused.breakpoints 2).mpr (by decide +kernel)

end Metronome.Adapter
