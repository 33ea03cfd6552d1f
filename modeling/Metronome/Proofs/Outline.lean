import Metronome.Proofs.Forms
import Metronome.Proofs.Joining
import Metronome.Proofs.Places
import Mathlib.Data.List.Nodup

/-!
The outline of a text, the statements on its logical lines, and the two ways to go through it. Openings
and closings on the lines match as brackets do; a program is a tree. Both give visits, in which each
statement stands with the blocks that it is in.
-/
namespace Metronome.Script

open Metronome.Text

def LogicalLine.States (line : LogicalLine) (statement : Statement) : Prop :=
  isComment line.content = false ∧
    ∃ tokens, Token.scan line.content = .ok tokens ∧ statement.Written tokens

structure Entry where
  place : Place
  statement : Statement

/-- Every line is a comment or says a statement, and these are the statements with their places. -/
inductive Outlines : List LogicalLine → List Entry → Prop where
  | nil : Outlines [] []
  | comment {line : LogicalLine} {lines : List LogicalLine} {entries : List Entry}
      (blank : isComment line.content = true) (later : Outlines lines entries) :
      Outlines (line :: lines) entries
  | statement {line : LogicalLine} {lines : List LogicalLine} {entries : List Entry}
      {statement : Statement} (stated : line.States statement) (later : Outlines lines entries) :
      Outlines (line :: lines) (⟨line.place, statement⟩ :: entries)

def Context.free : Context := ⟨true, true, fun _ => false⟩

theorem Statement.fits_free (statement : Statement) : statement.Fits .free := by
  unfold Statement.Fits
  split <;> simp [Context.free]

theorem Statement.Written.unique {statement other : Statement} {tokens : List Token}
    (written : statement.Written tokens) (again : other.Written tokens) : statement = other := by
  have first := ofTokens_eq_ok.mpr ⟨written, statement.fits_free⟩
  rw [ofTokens_eq_ok.mpr ⟨again, other.fits_free⟩] at first
  cases first
  rfl

theorem LogicalLine.States.unique {line : LogicalLine} {statement other : Statement}
    (stated : line.States statement) (again : line.States other) : statement = other := by
  obtain ⟨-, tokens, scanned, written⟩ := stated
  obtain ⟨-, others, rescanned, rewritten⟩ := again
  rw [scanned] at rescanned
  cases rescanned
  exact written.unique rewritten

theorem Outlines.unique {lines : List LogicalLine} {entries others : List Entry}
    (outlines : Outlines lines entries) (again : Outlines lines others) : entries = others := by
  induction outlines generalizing others with
  | nil =>
    cases again
    rfl
  | comment blank _ ih =>
    cases again with
    | comment _ later => exact ih later
    | statement stated _ =>
      rw [stated.1] at blank
      cases blank
  | statement stated _ ih =>
    cases again with
    | comment blank _ =>
      rw [stated.1] at blank
      cases blank
    | statement other later => rw [stated.unique other, ih later]

theorem Outlines.of_mem {lines : List LogicalLine} {entries : List Entry}
    (outlines : Outlines lines entries) {entry : Entry} (member : entry ∈ entries) :
    ∃ line ∈ lines, line.place = entry.place ∧ line.States entry.statement := by
  induction outlines with
  | nil => cases member
  | comment blank _ ih =>
    obtain ⟨line, inside, found⟩ := ih member
    exact ⟨line, List.mem_cons_of_mem _ inside, found⟩
  | @statement line lines entries statement stated _ ih =>
    rcases List.mem_cons.mp member with rfl | member
    · exact ⟨line, List.mem_cons_self, rfl, stated⟩
    · obtain ⟨line, inside, found⟩ := ih member
      exact ⟨line, List.mem_cons_of_mem _ inside, found⟩

structure Heading where
  place : Place
  opener : Opener

def Opener.isFunction : Opener → Bool
  | .function _ _ => true
  | _ => false

/-- The blocks that are open after a statement, the innermost first. An `end` closes the innermost. -/
def Entry.brackets (opened : List Heading) (entry : Entry) : List Heading :=
  match entry.statement with
  | .opening opener => ⟨entry.place, opener⟩ :: opened
  | .closing => opened.tail
  | _ => opened

def openBlocks (entries : List Entry) : List Heading :=
  entries.foldl Entry.brackets []

structure FunctionHead where
  name : String
  parameters : List String
  offset : Nat

def Heading.function? (heading : Heading) : Option FunctionHead :=
  match heading.opener with
  | .function name parameters => some ⟨name, parameters, heading.place.offset⟩
  | _ => none

def Entry.function? (entry : Entry) : Option FunctionHead :=
  match entry.statement with
  | .opening opener => Heading.function? ⟨entry.place, opener⟩
  | _ => none

def functionHeads (entries : List Entry) : List FunctionHead :=
  entries.filterMap Entry.function?

/-- A statement with its place and the offsets of the blocks that it is in, the innermost first. -/
structure Visit where
  inside : List Nat
  place : Place
  statement : Statement

def Entry.visit? (opened : List Heading) (entry : Entry) : Option Visit :=
  match entry.statement with
  | .closing => none
  | .opening (.function _ _) => none
  | statement => some ⟨opened.map (·.place.offset), entry.place, statement⟩

def visits (opened : List Heading) : List Entry → List Visit
  | [] => []
  | entry :: entries =>
    (entry.visit? opened).toList ++ visits (entry.brackets opened) entries

theorem visits_append (opened : List Heading) (entries more : List Entry) :
    visits opened (entries ++ more) =
      visits opened entries ++ visits (entries.foldl Entry.brackets opened) more := by
  induction entries generalizing opened with
  | nil => rfl
  | cons entry entries ih =>
    rw [List.cons_append, visits, visits, ih, List.foldl_cons, List.append_assoc]

theorem visit?_place {opened : List Heading} {entry : Entry} {visit : Visit}
    (visited : entry.visit? opened = some visit) :
    visit.place = entry.place ∧ visit.statement = entry.statement := by
  unfold Entry.visit? at visited
  split at visited <;> cases visited
  exact ⟨rfl, rfl⟩

theorem visits_of_mem {opened : List Heading} {entries : List Entry} {visit : Visit}
    (member : visit ∈ visits opened entries) : ⟨visit.place, visit.statement⟩ ∈ entries := by
  induction entries generalizing opened with
  | nil => cases member
  | cons entry entries ih =>
    rw [visits, List.mem_append] at member
    rcases member with here | later
    · obtain ⟨place, statement⟩ := visit?_place (Option.mem_toList.mp here)
      rw [place, statement]
      exact List.mem_cons_self
    · exact List.mem_cons_of_mem _ (ih later)

mutual

def Node.walk (inside : List Nat) : Node → List Visit
  | .action place action => [⟨inside, place, .action action⟩]
  | .poll place => [⟨inside, place, .poll⟩]
  | .loop place condition body =>
    ⟨inside, place, .opening (.loop condition)⟩ :: walkAll (place.offset :: inside) body
  | .branch place condition body =>
    ⟨inside, place, .opening (.branch condition)⟩ :: walkAll (place.offset :: inside) body

def walkAll (inside : List Nat) : List Node → List Visit
  | [] => []
  | node :: nodes => node.walk inside ++ walkAll inside nodes

end

theorem walkAll_append (inside : List Nat) (nodes more : List Node) :
    walkAll inside (nodes ++ more) = walkAll inside nodes ++ walkAll inside more := by
  induction nodes with
  | nil => rfl
  | cons node nodes ih => rw [List.cons_append, walkAll, walkAll, ih, List.append_assoc]

def Function.head (function : Function) : FunctionHead :=
  ⟨function.name, function.parameters, function.offset⟩

def Function.walk (function : Function) : List Visit :=
  walkAll [function.offset] function.body

/-- The visits of all nodes, those in functions among them, in the order of their lines. -/
def Program.walk (program : Program) : List Visit :=
  (walkAll [] program.body ++ program.functions.flatMap Function.walk).mergeSort
    fun visit other => visit.place.line ≤ other.place.line

theorem Outlines.ordered {lines : List LogicalLine} {entries : List Entry}
    (outlines : Outlines lines entries)
    (ordered : lines.Pairwise fun line other => line.first < other.first) :
    entries.Pairwise fun entry other => entry.place.line < other.place.line := by
  induction outlines with
  | nil => exact .nil
  | comment _ _ ih => exact ih (List.pairwise_cons.mp ordered).2
  | @statement line lines entries statement stated later ih =>
    obtain ⟨first, rest⟩ := List.pairwise_cons.mp ordered
    refine List.pairwise_cons.mpr ⟨fun entry member => ?_, ih rest⟩
    obtain ⟨other, inside, same, -⟩ := later.of_mem member
    rw [← same]
    exact Nat.succ_lt_succ (first other inside)

theorem visits_ordered {entries : List Entry}
    (ordered : entries.Pairwise fun entry other => entry.place.line < other.place.line)
    (opened : List Heading) :
    (visits opened entries).Pairwise fun visit other =>
      visit.place.line < other.place.line := by
  induction entries generalizing opened with
  | nil => exact .nil
  | cons entry entries ih =>
    obtain ⟨first, rest⟩ := List.pairwise_cons.mp ordered
    rw [visits]
    cases visited : entry.visit? opened with
    | none => exact ih rest _
    | some visit =>
      refine List.pairwise_cons.mpr ⟨fun other member => ?_, ih rest _⟩
      rw [(visit?_place visited).1]
      exact first _ (visits_of_mem member)

theorem walk_of_perm {program : Program} {row : List Visit}
    (same : (walkAll [] program.body ++ program.functions.flatMap Function.walk).Perm row)
    (ordered : row.Pairwise fun visit other => visit.place.line < other.place.line) :
    program.walk = row := by
  have sorted : program.walk.Pairwise fun visit other =>
      decide (visit.place.line ≤ other.place.line) = true :=
    List.pairwise_mergeSort (by simp only [decide_eq_true_eq]; omega)
      (by simp only [Bool.or_eq_true, decide_eq_true_eq]; omega) _
  have perm : program.walk.Perm row := (List.mergeSort_perm _ _).trans same
  refine perm.eq_of_pairwise ?_ sorted (ordered.imp fun before => by simpa using Nat.le_of_lt before)
  intro visit other member inside here there
  have distinct : (row.map (·.place.line)).Nodup :=
    List.pairwise_map.mpr (ordered.imp fun before => Nat.ne_of_lt before)
  simp only [decide_eq_true_eq] at here there
  exact List.inj_on_of_nodup_map distinct (perm.mem_iff.mp member) inside
    (Nat.le_antisymm here there)

end Metronome.Script
