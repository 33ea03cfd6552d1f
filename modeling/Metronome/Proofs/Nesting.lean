import Metronome.Proofs.Confinement
import Metronome.Proofs.Outline
import Metronome.Proofs.Wrapping
import Mathlib.Algebra.Order.Group.Multiset
import Mathlib.Tactic.Abel

/-!
Reading keeps every statement and its nesting. What has been read of a text, half-built blocks
included, holds the visits of the statements read so far; so a program that is accepted has one node for
each statement, in the blocks whose brackets are around it, and a text is refused only for a flaw of its
lines.
-/
namespace Metronome.Script

def OpenBlock.heading (block : OpenBlock) : Heading :=
  ⟨block.place, block.opener⟩

def Draft.headings (draft : Draft) : List Heading :=
  draft.blocks.map OpenBlock.heading

def Draft.heads (draft : Draft) : List FunctionHead :=
  draft.functions.map Function.head ++ draft.headings.filterMap Heading.function?

def openWalk : List OpenBlock → List Visit
  | [] => []
  | block :: outer =>
    openWalk outer ++
      (Entry.visit? (outer.map OpenBlock.heading) ⟨block.place, .opening block.opener⟩).toList ++
      walkAll (block.place.offset :: outer.map (·.place.offset)) block.body

def Draft.visits (draft : Draft) : Multiset Visit :=
  walkAll [] draft.body + draft.functions.flatMap Function.walk + openWalk draft.blocks

/-- The visits that the next one follows: those in the open function, or those outside of functions. -/
def Draft.row (draft : Draft) : List Visit :=
  (if draft.context.inFunction then [] else walkAll [] draft.body) ++ openWalk draft.blocks

variable {draft next : Draft}

theorem add_visits (draft : Draft) (node : Node) :
    (draft.add node).visits = draft.visits + node.walk (draft.blocks.map (·.place.offset)) := by
  obtain ⟨body, blocks, functions⟩ := draft
  cases blocks with
  | nil =>
    simp only [Draft.add, Draft.visits, walkAll_append, walkAll, List.append_nil, openWalk,
      ← Multiset.coe_add, List.map_nil, Multiset.coe_nil, add_zero]
    abel
  | cons block outer =>
    simp only [Draft.add, Draft.visits, walkAll_append, walkAll, List.append_nil, openWalk,
      ← Multiset.coe_add, List.map_cons]
    abel

theorem add_row (draft : Draft) (node : Node) :
    (draft.add node).row = draft.row ++ node.walk (draft.blocks.map (·.place.offset)) := by
  obtain ⟨body, blocks, functions⟩ := draft
  cases blocks with
  | nil =>
    change walkAll [] (body ++ [node]) ++ [] = (walkAll [] body ++ []) ++ node.walk []
    rw [walkAll_append, walkAll, walkAll, List.append_nil, List.append_nil, List.append_nil]
  | cons block outer =>
    simp only [Draft.row, Draft.add, openWalk, walkAll_append, walkAll, List.append_nil,
      List.append_assoc, List.map_cons]
    rfl

theorem add_headings (draft : Draft) (node : Node) : (draft.add node).headings = draft.headings := by
  obtain ⟨body, blocks, functions⟩ := draft
  cases blocks <;> rfl

theorem add_heads (draft : Draft) (node : Node) : (draft.add node).heads = draft.heads := by
  obtain ⟨body, blocks, functions⟩ := draft
  cases blocks <;> rfl

theorem close_headings (closed : draft.close = .ok next) : next.headings = draft.headings.tail := by
  obtain ⟨body, blocks, functions⟩ := draft
  cases blocks with
  | nil => cases closed
  | cons block outer =>
    obtain ⟨opener, place, inner⟩ := block
    cases opener <;> cases closed
    · exact add_headings _ _
    · exact add_headings _ _
    · rfl

theorem close_heads (outermost : draft.blocks.Pairwise fun inner _ => inner.isFunction = false)
    (closed : draft.close = .ok next) : next.heads = draft.heads := by
  obtain ⟨body, blocks, functions⟩ := draft
  cases blocks with
  | nil => cases closed
  | cons block outer =>
    obtain ⟨opener, place, inner⟩ := block
    cases opener with
    | loop condition | branch condition =>
      cases closed
      exact add_heads _ _
    | function name parameters =>
      cases closed
      obtain rfl := outermost_function rfl outermost
      simp [Draft.heads, Draft.headings, OpenBlock.heading, Heading.function?, Function.head]

theorem openWalk_node {block : OpenBlock} {node : Node} (outer : List OpenBlock)
    (becomes : (∃ condition, block.opener = .loop condition ∧
        node = .loop block.place condition block.body) ∨
      ∃ condition, block.opener = .branch condition ∧
        node = .branch block.place condition block.body) :
    openWalk (block :: outer) = openWalk outer ++ node.walk (outer.map (·.place.offset)) := by
  obtain ⟨opener, place, body⟩ := block
  have headings : (outer.map OpenBlock.heading).map (·.place.offset) =
      outer.map (·.place.offset) := by
    rw [List.map_map]
    rfl
  rcases becomes with ⟨condition, same, rfl⟩ | ⟨condition, same, rfl⟩
  all_goals
    cases same
    rw [openWalk, Entry.visit?, headings, Node.walk, List.append_assoc]
    rfl

theorem close_cases (outermost : draft.blocks.Pairwise fun inner _ => inner.isFunction = false)
    (closed : draft.close = .ok next) :
    (∃ block outer node, draft.blocks = block :: outer ∧ block.isFunction = false ∧
      openWalk draft.blocks = openWalk outer ++ node.walk (outer.map (·.place.offset)) ∧
      next = Draft.add { draft with blocks := outer } node) ∨
    ∃ block function, draft.blocks = [block] ∧ block.isFunction = true ∧
      openWalk draft.blocks = function.walk ∧
      next = { draft with blocks := [], functions := draft.functions ++ [function] } := by
  cases Draft.close_closes closed with
  | @loop block outer condition found opener =>
    refine .inl ⟨block, outer, _, found, ?_, ?_, rfl⟩
    · rw [OpenBlock.isFunction, opener]
    · rw [found]
      exact openWalk_node outer (.inl ⟨condition, opener, rfl⟩)
  | @branch block outer condition found opener =>
    refine .inl ⟨block, outer, _, found, ?_, ?_, rfl⟩
    · rw [OpenBlock.isFunction, opener]
    · rw [found]
      exact openWalk_node outer (.inr ⟨condition, opener, rfl⟩)
  | @function block outer name parameters found opener =>
    rw [found] at outermost
    obtain rfl := outermost_function opener outermost
    refine .inr ⟨block, _, found, ?_, ?_, rfl⟩
    · rw [OpenBlock.isFunction, opener]
    · rw [found, openWalk, opener]
      rfl

theorem close_visits (outermost : draft.blocks.Pairwise fun inner _ => inner.isFunction = false)
    (closed : draft.close = .ok next) : next.visits = draft.visits := by
  rcases close_cases outermost closed with ⟨block, outer, node, -, -, walk, rfl⟩ |
    ⟨block, function, -, -, walk, rfl⟩
  · rw [add_visits, Draft.visits, Draft.visits, walk, ← Multiset.coe_add]
    abel
  · rw [Draft.visits, Draft.visits, walk, List.flatMap_append, List.flatMap_cons, List.flatMap_nil,
      List.append_nil, openWalk, ← Multiset.coe_add, Multiset.coe_nil]
    abel

theorem row_of_walk {block : OpenBlock} {outer : List OpenBlock} {more : List Visit}
    (found : draft.blocks = block :: outer) (plain : block.isFunction = false)
    (walk : openWalk draft.blocks = openWalk outer ++ more) :
    draft.row = Draft.row { draft with blocks := outer } ++ more := by
  have same : draft.context.inFunction = (Draft.context { draft with blocks := outer }).inFunction := by
    simp only [Draft.context, found, List.any_cons, plain, Bool.false_or]
  rw [Draft.row, Draft.row, walk, same, List.append_assoc]

/-- The body, each function and what is open have their visits in the order of a row. -/
structure Draft.InOrder (draft : Draft) (row : List Visit) : Prop where
  body : (walkAll [] draft.body).Sublist row
  functions : ∀ function ∈ draft.functions, function.walk.Sublist row
  current : draft.row.Sublist row

namespace Draft.InOrder

variable {row more : List Visit}

theorem empty : Draft.empty.InOrder [] where
  body := .slnil
  functions := nofun
  current := .slnil

theorem add {node : Node} (body : (walkAll [] draft.body).Sublist row)
    (functions : ∀ function ∈ draft.functions, function.walk.Sublist row)
    (last : (draft.row ++ node.walk (draft.blocks.map (·.place.offset))).Sublist row) :
    (draft.add node).InOrder row := by
  rw [← add_row] at last
  obtain ⟨outside, blocks, known⟩ := draft
  cases blocks with
  | nil =>
    refine ⟨?_, functions, last⟩
    exact (List.sublist_append_left _ _).trans last
  | cons block outer => exact ⟨body, functions, last⟩

theorem append (ordered : draft.InOrder row) (more : List Visit) : draft.InOrder (row ++ more) where
  body := ordered.body.trans (List.sublist_append_left _ _)
  functions function member :=
    (ordered.functions function member).trans (List.sublist_append_left _ _)
  current := ordered.current.trans (List.sublist_append_left _ _)

theorem addNode {node : Node} (ordered : draft.InOrder row) :
    (draft.add node).InOrder (row ++ node.walk (draft.blocks.map (·.place.offset))) :=
  add (ordered.append _).body (ordered.append _).functions
    (ordered.current.append (List.Sublist.refl _))

theorem opening (ordered : draft.InOrder row) {opener : Opener} {place : Place}
    (top : opener.isFunction = true → draft.blocks = []) :
    Draft.InOrder { draft with blocks := ⟨opener, place, []⟩ :: draft.blocks }
      (row ++ (Entry.visit? draft.headings ⟨place, .opening opener⟩).toList) := by
  refine ⟨(ordered.append _).body, (ordered.append _).functions, ?_⟩
  cases opener with
  | function name parameters =>
    obtain ⟨body, blocks, functions⟩ := draft
    obtain rfl : blocks = [] := top rfl
    exact List.nil_sublist _
  | loop condition | branch condition =>
    have walk (opener : Opener) (plain : opener.isFunction = false) :
        Draft.row { draft with blocks := ⟨opener, place, []⟩ :: draft.blocks } = draft.row ++ _ :=
      row_of_walk rfl plain (by rw [openWalk, walkAll, List.append_nil])
    rw [walk _ rfl]
    exact ordered.current.append (List.Sublist.refl _)

theorem close (ordered : draft.InOrder row)
    (outermost : draft.blocks.Pairwise fun inner _ => inner.isFunction = false)
    (closed : draft.close = .ok next) : next.InOrder row := by
  have current := ordered.current
  rcases close_cases outermost closed with ⟨block, outer, node, found, plain, walk, rfl⟩ |
    ⟨block, function, found, opened, walk, rfl⟩
  · rw [row_of_walk found plain walk] at current
    exact add ordered.body ordered.functions current
  · have inside : draft.context.inFunction = true := by
      simp only [Draft.context, found, List.any_cons, opened, Bool.true_or]
    rw [Draft.row, if_pos inside, walk, List.nil_append] at current
    refine ⟨ordered.body, fun other member => ?_, ?_⟩
    · rcases List.mem_append.mp member with known | new
      · exact ordered.functions other known
      · rw [List.mem_singleton.mp new]
        exact current
    · have outside : Draft.row
          { draft with blocks := [], functions := draft.functions ++ [function] } =
            walkAll [] draft.body := List.append_nil _
      rw [outside]
      exact ordered.body

end Draft.InOrder

/-- A statement that may not stand after others: an `end` without an open block, a function in a block
or under a name that another has, a `return` outside of every function. -/
inductive Misplaced (before : List Entry) : Statement → Prop where
  | strayEnd (none_open : openBlocks before = []) : Misplaced before .closing
  | nested {name : String} {parameters : List String} (inside : openBlocks before ≠ []) :
      Misplaced before (.opening (.function name parameters))
  | repeated {name : String} {parameters : List String}
      (known : name ∈ (functionHeads before).map (·.name)) :
      Misplaced before (.opening (.function name parameters))
  | strayReturn {value : Option Rhs}
      (outside : ∀ heading ∈ openBlocks before, heading.opener.isFunction = false) :
      Misplaced before (.action (.ret value))

/-- What has been read is what the statements so far say. -/
structure Draft.Follows (draft : Draft) (entries : List Entry) : Prop where
  confined : draft.Confined
  headings : draft.headings = openBlocks entries
  visits : draft.visits = Script.visits [] entries
  order : draft.InOrder (Script.visits [] entries)
  heads : draft.heads = functionHeads entries
  distinct : ((functionHeads entries).map (·.name)).Nodup

variable {entries : List Entry} {place : Place} {statement : Statement}

theorem openBlocks_concat (entries : List Entry) (entry : Entry) :
    openBlocks (entries ++ [entry]) = entry.brackets (openBlocks entries) := by
  rw [openBlocks, List.foldl_append]
  rfl

theorem visits_concat (entries : List Entry) (entry : Entry) :
    visits [] (entries ++ [entry]) =
      visits [] entries ++ (entry.visit? (openBlocks entries)).toList := by
  rw [visits_append, visits, visits, List.append_nil]
  rfl

theorem functionHeads_concat (entries : List Entry) (entry : Entry) :
    functionHeads (entries ++ [entry]) = functionHeads entries ++ entry.function?.toList := by
  rw [functionHeads, List.filterMap_append]
  cases found : entry.function? <;> simp [functionHeads, found]

namespace Draft.Follows

theorem empty : Draft.empty.Follows [] where
  confined := .empty
  headings := rfl
  visits := rfl
  order := .empty
  heads := rfl
  distinct := .nil

theorem inFunction (follows : draft.Follows entries) :
    draft.context.inFunction = (openBlocks entries).any (·.opener.isFunction) := by
  rw [← follows.headings, Draft.headings, List.any_map]
  rfl

theorem atTop (follows : draft.Follows entries) :
    draft.context.atTop = true ↔ openBlocks entries = [] := by
  rw [← follows.headings, Draft.headings, List.map_eq_nil_iff]
  exact List.isEmpty_iff

theorem defined (follows : draft.Follows entries) (top : openBlocks entries = []) (name : String) :
    draft.context.defined name = true ↔ name ∈ (functionHeads entries).map (·.name) := by
  have closed : draft.heads = draft.functions.map Function.head := by
    rw [Draft.heads, follows.headings, top]
    exact List.append_nil _
  rw [← follows.heads, closed, List.map_map]
  change (draft.functions.find? (·.name == name)).isSome = true ↔ _
  simp [List.find?_isSome, Function.head]

/-- A statement may stand after others just if the draft's context lets it, and no `end` is stray. -/
theorem fits_iff (follows : draft.Follows entries) :
    statement.Fits draft.context ∧ (statement = .closing → draft.blocks ≠ []) ↔
      ¬ Misplaced entries statement := by
  cases statement with
  | action action =>
    cases action with
    | ret value =>
      constructor
      · rintro ⟨inside, -⟩ ⟨⟩
        rename_i outside
        change draft.context.inFunction = true at inside
        rw [follows.inFunction, List.any_eq_true] at inside
        obtain ⟨heading, member, function⟩ := inside
        rw [outside heading member] at function
        cases function
      · intro placed
        refine ⟨?_, nofun⟩
        change draft.context.inFunction = true
        by_contra outside
        rw [follows.inFunction, List.any_eq_true] at outside
        exact placed (.strayReturn fun heading member => by
          by_contra function
          exact outside ⟨heading, member, by simpa using function⟩)
    | _ => exact ⟨fun _ => nofun, fun _ => ⟨trivial, nofun⟩⟩
  | poll => exact ⟨fun _ => nofun, fun _ => ⟨trivial, nofun⟩⟩
  | opening opener =>
    cases opener with
    | function name parameters =>
      constructor
      · rintro ⟨⟨top, fresh⟩, -⟩ (_ | _ | _)
        · rename_i inside
          exact inside (follows.atTop.mp top)
        · rename_i known
          rw [← follows.defined (follows.atTop.mp top), fresh] at known
          cases known
      · intro placed
        have top : openBlocks entries = [] := by
          by_contra inside
          exact placed (.nested inside)
        refine ⟨⟨follows.atTop.mpr top, ?_⟩, nofun⟩
        rw [← Bool.not_eq_true, follows.defined top]
        exact fun known => placed (.repeated known)
    | _ => exact ⟨fun _ => nofun, fun _ => ⟨trivial, nofun⟩⟩
  | closing =>
    have none_open : openBlocks entries = [] ↔ draft.blocks = [] := by
      rw [← follows.headings, Draft.headings, List.map_eq_nil_iff]
    constructor
    · rintro ⟨-, some_open⟩ ⟨⟩
      rename_i stray
      exact some_open rfl (none_open.mp stray)
    · exact fun placed => ⟨trivial, fun _ stray => placed (.strayEnd (none_open.mpr stray))⟩

theorem concat (follows : draft.Follows entries) {entry : Entry} (confined : next.Confined)
    (headings : next.headings = entry.brackets draft.headings)
    (visits : next.visits = draft.visits + (entry.visit? draft.headings).toList)
    (order : next.InOrder (Script.visits [] entries ++ (entry.visit? draft.headings).toList))
    (heads : next.heads = draft.heads ++ entry.function?.toList)
    (fresh : ∀ head ∈ entry.function?, head.name ∉ (functionHeads entries).map (·.name)) :
    next.Follows (entries ++ [entry]) where
  confined := confined
  headings := by rw [headings, openBlocks_concat, follows.headings]
  visits := by
    rw [visits, follows.visits, visits_concat, follows.headings, ← Multiset.coe_add]
  order := by rwa [visits_concat, ← follows.headings]
  heads := by rw [heads, follows.heads, functionHeads_concat]
  distinct := by
    rw [functionHeads_concat]
    cases found : entry.function? with
    | none => simpa using follows.distinct
    | some head =>
      rw [List.map_append, List.nodup_append]
      refine ⟨follows.distinct, List.nodup_singleton _, ?_⟩
      rintro name known other new rfl
      rw [List.mem_singleton.mp new] at known
      exact fresh head found known

theorem addNode (follows : draft.Follows entries) {node : Node} {entry : Entry}
    (confined : (draft.add node).Confined)
    (plain : entry.brackets draft.headings = draft.headings) (noFunction : entry.function? = none)
    (visited : node.walk (draft.headings.map (·.place.offset)) =
      (entry.visit? draft.headings).toList) :
    (draft.add node).Follows (entries ++ [entry]) := by
  have around : draft.headings.map (·.place.offset) = draft.blocks.map (·.place.offset) := by
    rw [Draft.headings, List.map_map]
    rfl
  refine follows.concat confined ?_ ?_ ?_ ?_ ?_
  · rw [add_headings, plain]
  · rw [add_visits, ← around, visited]
  · rw [← visited, around]
    exact follows.order.addNode
  · rw [add_heads, noFunction]
    exact (List.append_nil _).symm
  · rw [noFunction]
    exact nofun

theorem addStatement (follows : draft.Follows entries) (fits : statement.Fits draft.context)
    (added : draft.addStatement place statement = .ok next) :
    next.Follows (entries ++ [⟨place, statement⟩]) := by
  have confined : next.Confined := follows.confined.addStatement fits.allowed added
  cases statement with
  | action action | poll =>
    cases added
    exact follows.addNode confined rfl rfl rfl
  | opening opener =>
    cases added
    have opened : Draft.visits { draft with blocks := ⟨opener, place, []⟩ :: draft.blocks } =
        draft.visits + (Entry.visit? draft.headings ⟨place, .opening opener⟩).toList := by
      rw [Draft.visits, Draft.visits, openWalk, walkAll, List.append_nil, ← Draft.headings,
        ← Multiset.coe_add]
      abel
    cases opener with
    | function name parameters =>
      obtain ⟨top, unknown⟩ := fits
      have none_open : openBlocks entries = [] := follows.atTop.mp top
      have top_level : draft.blocks = [] := List.isEmpty_iff.mp top
      refine follows.concat confined rfl opened (follows.order.opening fun _ => top_level) ?_ ?_
      · have none_around : draft.headings = [] := follows.headings.trans none_open
        change draft.functions.map Function.head ++ List.filterMap _ (_ :: draft.headings) =
          draft.functions.map Function.head ++ draft.headings.filterMap _ ++ _
        rw [none_around]
        exact (congrArg (· ++ _) (List.append_nil _)).symm
      · rintro head ⟨⟩ known
        rw [(follows.defined none_open name).mpr known] at unknown
        cases unknown
    | _ =>
      refine follows.concat confined rfl opened (follows.order.opening ?_)
        (List.append_nil _).symm (by rintro head ⟨⟩)
      exact fun isFunction => absurd isFunction Bool.false_ne_true
  | closing =>
    change draft.close = .ok next at added
    have outermost := follows.confined.outermost
    refine follows.concat confined (close_headings added) ?_ ?_ ?_ (by rintro head ⟨⟩)
    · rw [close_visits outermost added]
      exact (add_zero _).symm
    · exact (follows.order.close outermost added).append []
    · rw [close_heads outermost added]
      exact (List.append_nil _).symm

end Draft.Follows

theorem addStatement_succeeds (place : Place)
    (closable : statement = .closing → draft.blocks ≠ []) :
    ∃ next, draft.addStatement place statement = .ok next := by
  cases statement with
  | closing =>
    obtain ⟨body, blocks, functions⟩ := draft
    cases blocks with
    | nil => exact absurd rfl (closable rfl)
    | cons block outer =>
      obtain ⟨opener, place, inner⟩ := block
      cases opener <;> exact ⟨_, rfl⟩
  | _ => exact ⟨_, rfl⟩

variable {line : LogicalLine} {lines : List LogicalLine} {error : ParseError}

theorem Draft.Follows.addLine (follows : draft.Follows entries) (stated : line.States statement)
    (placed : ¬ Misplaced entries statement) : ∃ next, draft.addLine line = .ok next := by
  obtain ⟨content, tokens, scanned, written⟩ := stated
  obtain ⟨fits, closable⟩ := follows.fits_iff.mpr placed
  obtain ⟨next, added⟩ := addStatement_succeeds line.place closable
  rw [addLine_of_tokens content scanned (ofTokens_eq_ok.mpr ⟨written, fits⟩), added]
  exact ⟨next, rfl⟩

theorem Draft.Follows.addLine_cases (follows : draft.Follows entries)
    (added : draft.addLine line = .ok next) :
    (isComment line.content = true ∧ next = draft) ∨ ∃ statement, line.States statement ∧
      ¬ Misplaced entries statement ∧ next.Follows (entries ++ [⟨line.place, statement⟩]) := by
  by_cases blank : isComment line.content = true
  · left
    rw [Draft.addLine, if_pos blank] at added
    cases added
    exact ⟨blank, rfl⟩
  · right
    have content : isComment line.content = false := by simpa using blank
    obtain ⟨tokens, statement, scanned, reads, added⟩ := addLine_statement added content
    obtain ⟨written, fits⟩ := ofTokens_eq_ok.mp reads
    refine ⟨statement, ⟨content, tokens, scanned, written⟩, follows.fits_iff.mp ⟨fits, ?_⟩,
      follows.addStatement fits added⟩
    rintro rfl none_open
    change draft.close = _ at added
    rw [Draft.close, none_open] at added
    cases added

theorem Draft.Follows.addLines (follows : draft.Follows entries)
    (added : draft.addLines lines = .ok next) :
    ∃ more, Outlines lines more ∧ next.Follows (entries ++ more) := by
  induction lines generalizing draft entries with
  | nil =>
    cases added
    exact ⟨[], .nil, by simpa using follows⟩
  | cons line lines ih =>
    obtain ⟨middle, first, rest⟩ := addLines_cons added
    rcases follows.addLine_cases first with ⟨blank, rfl⟩ | ⟨statement, stated, -, after⟩
    · obtain ⟨more, outlines, done⟩ := ih follows rest
      exact ⟨more, .comment blank outlines, done⟩
    · obtain ⟨more, outlines, done⟩ := ih after rest
      refine ⟨⟨line.place, statement⟩ :: more, .statement stated outlines, ?_⟩
      simpa using done

theorem addLines_fails (failed : draft.addLines lines = .error error) :
    ∃ earlier line later middle, lines = earlier ++ line :: later ∧
      draft.addLines earlier = .ok middle ∧ middle.addLine line = .error error := by
  induction lines generalizing draft with
  | nil => cases failed
  | cons line lines ih =>
    rw [Draft.addLines] at failed
    split at failed
    · rename_i other first
      cases failed
      exact ⟨[], line, lines, draft, rfl, rfl, first⟩
    · rename_i after first
      obtain ⟨earlier, last, later, middle, rfl, before, here⟩ := ih failed
      refine ⟨line :: earlier, last, later, middle, rfl, ?_, here⟩
      rw [Draft.addLines, first]
      exact before

inductive Flawed (lines : List LogicalLine) : Prop where
  | unscanned {line : LogicalLine} {fault : TokenFault} (member : line ∈ lines)
      (content : isComment line.content = false)
      (failed : Token.scan line.content = .error fault) : Flawed lines
  | formless {line : LogicalLine} {tokens : List Token} (member : line ∈ lines)
      (content : isComment line.content = false) (scanned : Token.scan line.content = .ok tokens)
      (unwritten : ∀ statement : Statement, ¬ statement.Written tokens) : Flawed lines
  | misplaced {earlier later : List LogicalLine} {line : LogicalLine} {entries : List Entry}
      {statement : Statement} (split : lines = earlier ++ line :: later)
      (outlines : Outlines earlier entries) (stated : line.States statement)
      (wrong : Misplaced entries statement) : Flawed lines
  | unclosed {entries : List Entry} (outlines : Outlines lines entries)
      (some_open : openBlocks entries ≠ []) : Flawed lines

variable {text : List Char} {program : Program}

theorem parse_follows (read : parse text = .ok program) :
    ∃ draft entries, Draft.empty.addLines (logicalLines text) = .ok draft ∧
      Outlines (logicalLines text) entries ∧ draft.Follows entries ∧ draft.blocks = [] ∧
      program = ⟨draft.body, draft.functions⟩ := by
  obtain ⟨draft, added, finished⟩ := bind_eq_ok.mp read
  obtain ⟨entries, outlines, follows⟩ := Draft.Follows.empty.addLines added
  rw [Draft.finish] at finished
  split at finished
  · rename_i none_open
    cases finished
    exact ⟨draft, entries, added, outlines, follows, none_open, rfl⟩
  · cases finished

theorem Outlines.of_line (outlines : Outlines lines entries) (member : line ∈ lines) :
    isComment line.content = true ∨ ∃ statement, line.States statement := by
  induction outlines with
  | nil => cases member
  | comment blank _ ih =>
    rcases List.mem_cons.mp member with rfl | later
    · exact .inl blank
    · exact ih later
  | statement stated _ ih =>
    rcases List.mem_cons.mp member with rfl | later
    · exact .inr ⟨_, stated⟩
    · exact ih later

theorem Flawed.refused (flawed : Flawed (logicalLines text)) (read : parse text = .ok program) :
    False := by
  obtain ⟨draft, entries, added, outlines, follows, none_open, -⟩ := parse_follows read
  cases flawed with
  | unscanned member content failed =>
    rcases outlines.of_line member with blank | ⟨statement, -, tokens, scanned, -⟩
    · rw [content] at blank
      cases blank
    · rw [failed] at scanned
      cases scanned
  | formless member content scanned unwritten =>
    rcases outlines.of_line member with blank | ⟨statement, -, tokens, again, written⟩
    · rw [content] at blank
      cases blank
    · rw [scanned] at again
      cases again
      exact unwritten statement written
  | misplaced split before stated wrong =>
    rw [split] at added
    obtain ⟨middle, first, rest⟩ := addLines_append added
    obtain ⟨after, here, -⟩ := addLines_cons rest
    obtain ⟨known, sofar, reached⟩ := Draft.Follows.empty.addLines first
    obtain rfl := before.unique sofar
    rcases reached.addLine_cases here with ⟨blank, -⟩ | ⟨other, again, placed, -⟩
    · rw [stated.1] at blank
      cases blank
    · exact placed (again.unique stated ▸ wrong)
  | unclosed again some_open =>
    apply some_open
    rw [again.unique outlines, ← follows.headings, Draft.headings, none_open]
    rfl

theorem parse_flawed (failed : parse text = .error error) : Flawed (logicalLines text) := by
  unfold parse at failed
  cases added : Draft.empty.addLines (logicalLines text) with
  | error problem =>
    obtain ⟨earlier, line, later, middle, split, before, here⟩ := addLines_fails added
    obtain ⟨entries, outlines, follows⟩ := Draft.Follows.empty.addLines before
    have member : line ∈ logicalLines text := by
      rw [split]
      simp
    obtain ⟨content, -⟩ := addLine_error here
    cases scanned : Token.scan line.content with
    | error fault => exact .unscanned member content scanned
    | ok tokens =>
      by_cases formed : ∃ statement : Statement, statement.Written tokens
      · obtain ⟨statement, written⟩ := formed
        have stated : line.States statement := ⟨content, tokens, scanned, written⟩
        refine .misplaced split outlines stated ?_
        by_contra placed
        obtain ⟨next, reads⟩ := follows.addLine stated placed
        rw [here] at reads
        cases reads
      · exact .formless member content scanned (not_exists.mp formed)
  | ok draft =>
    rw [added] at failed
    change draft.finish = _ at failed
    obtain ⟨entries, outlines, follows⟩ := Draft.Follows.empty.addLines added
    refine .unclosed outlines fun none_open => ?_
    rw [List.nil_append] at follows
    rw [← follows.headings, Draft.headings, List.map_eq_nil_iff] at none_open
    rw [Draft.finish, none_open] at failed
    cases failed

theorem Draft.Follows.closed_heads (follows : draft.Follows entries)
    (none_open : draft.blocks = []) :
    draft.functions.map Function.head = functionHeads entries := by
  rw [← follows.heads, Draft.heads, Draft.headings, none_open]
  exact (List.append_nil _).symm

theorem parse_walk (read : parse text = .ok program) :
    ∃ entries, Outlines (logicalLines text) entries ∧ program.walk = visits [] entries ∧
      (walkAll [] program.body).Sublist (visits [] entries) ∧
      (∀ function ∈ program.functions, function.walk.Sublist (visits [] entries)) ∧
      program.functions.map Function.head = functionHeads entries := by
  obtain ⟨draft, entries, -, outlines, follows, none_open, rfl⟩ := parse_follows read
  refine ⟨entries, outlines, ?_, follows.order.body, follows.order.functions,
    follows.closed_heads none_open⟩
  have ordered := outlines.ordered (logicalLines_joins text).ordered.2
  refine walk_of_perm ?_ (visits_ordered ordered [])
  have same := follows.visits
  rw [Draft.visits, none_open, openWalk, Multiset.coe_nil, add_zero, Multiset.coe_add] at same
  exact Multiset.coe_eq_coe.mp same

theorem visit_stated (read : parse text = .ok program) {visit : Visit}
    (member : visit ∈ program.walk) :
    ∃ line ∈ logicalLines text, line.place = visit.place ∧ line.States visit.statement := by
  obtain ⟨entries, outlines, walk, -⟩ := parse_walk read
  rw [walk] at member
  exact outlines.of_mem (visits_of_mem member)

theorem function_stated (read : parse text = .ok program) {function : Function}
    (member : function ∈ program.functions) :
    ∃ line ∈ logicalLines text, line.offset = function.offset ∧
      line.States (.opening (.function function.name function.parameters)) := by
  obtain ⟨entries, outlines, -, -, -, heads⟩ := parse_walk read
  have known : function.head ∈ functionHeads entries := heads ▸ List.mem_map_of_mem member
  obtain ⟨entry, inside, found⟩ := List.mem_filterMap.mp known
  obtain ⟨line, stands, same, stated⟩ := outlines.of_mem inside
  obtain ⟨place, statement⟩ := entry
  cases statement with
  | opening opener =>
    cases opener with
    | function name parameters =>
      have head : (⟨name, parameters, place.offset⟩ : FunctionHead) = function.head :=
        Option.some.inj found
      obtain ⟨rfl, rfl, offset⟩ := FunctionHead.mk.inj head
      exact ⟨line, stands, (congrArg Place.offset same).trans offset, stated⟩
    | _ => cases found
  | _ => cases found

theorem parse_distinct (read : parse text = .ok program) :
    (program.functions.map (·.name)).Nodup := by
  obtain ⟨draft, entries, -, -, follows, none_open, rfl⟩ := parse_follows read
  have distinct := follows.distinct
  rw [← follows.closed_heads none_open, List.map_map] at distinct
  exact distinct

/-- A text that is accepted has one node for each statement with a node of its own: going through the
nodes in the order of their lines visits the statements in their order, each with its place and in the
blocks whose openings are not closed before it. The nodes of the body stand in that order themselves, and
so do those of each function. Its functions are those that its lines open, each under
its own name. A text is refused just for a flaw of its lines. -/
theorem parse_keeps_lines (text : List Char) :
    (∀ program, parse text = .ok program → ∃ entries, Outlines (logicalLines text) entries ∧
      program.walk = visits [] entries ∧
      (walkAll [] program.body).Sublist (visits [] entries) ∧
      (∀ function ∈ program.functions, function.walk.Sublist (visits [] entries)) ∧
      program.functions.map Function.head = functionHeads entries ∧
      (program.functions.map (·.name)).Nodup) ∧
      ((∃ error, parse text = .error error) ↔ Flawed (logicalLines text)) := by
  constructor
  · intro program read
    obtain ⟨entries, outlines, walk, body, functions, heads⟩ := parse_walk read
    exact ⟨entries, outlines, walk, body, functions, heads, parse_distinct read⟩
  · constructor
    · rintro ⟨error, failed⟩
      exact parse_flawed failed
    · intro flawed
      cases read : parse text with
      | error error => exact ⟨error, rfl⟩
      | ok program => exact absurd read flawed.refused

def bumping : List Char :=
  ("# counter\nfunc bump n\n  return n + 1\nend\nset i = 0\nwhile i < 3\n" ++
    "  set i = call bump i\n  if i == 2\n    print \"two\"\n  end\nend\n").toList

theorem bumping_keeps_lines : (∃ program entries, parse bumping = .ok program ∧
    Outlines (logicalLines bumping) entries ∧ program.walk = visits [] entries ∧
    (walkAll [] program.body).Sublist (visits [] entries) ∧
    (∀ function ∈ program.functions, function.walk.Sublist (visits [] entries)) ∧
    program.functions.map Function.head = functionHeads entries ∧
    (program.functions.map (·.name)).Nodup ∧
    program.walk.map (fun visit => (visit.inside, visit.place.line)) =
      [([10], 3), ([], 5), ([], 6), ([51], 7), ([51], 8), ([87, 51], 9)] ∧
    program.functions.map (·.walk.map (·.place.line)) = [[3]] ∧
    (walkAll [] program.body).map (·.place.line) = [5, 6, 7, 8, 9]) ∧
    Flawed (logicalLines "end".toList) := by
  constructor
  · have parts : ((parse bumping).toOption.map fun program =>
        ((program.functions.flatMap Function.walk ++ walkAll [] program.body).map
          fun visit => (visit.inside, visit.place.line),
        program.functions.map (·.walk.map (·.place.line)),
        (walkAll [] program.body).map (·.place.line))) =
        some ([([10], 3), ([], 5), ([], 6), ([51], 7), ([51], 8), ([87, 51], 9)],
          [[3]], [5, 6, 7, 8, 9]) := by
      decide +kernel
    obtain ⟨program, read, same⟩ := toOption_map_eq_some parts
    obtain ⟨lines, inFunctions, outside⟩ := Prod.mk.inj same |>.imp_right Prod.mk.inj
    have walk : program.walk =
        program.functions.flatMap Function.walk ++ walkAll [] program.body := by
      refine walk_of_perm List.perm_append_comm ?_
      have ordered : List.Pairwise (fun visit other : List Nat × Nat => visit.2 < other.2)
          [([10], 3), ([], 5), ([], 6), ([51], 7), ([51], 8), ([87, 51], 9)] := by decide
      rw [← lines, List.pairwise_map] at ordered
      exact ordered
    obtain ⟨entries, outlines, same, body, functions, heads, distinct⟩ :=
      (parse_keeps_lines bumping).1 program read
    exact ⟨program, entries, read, outlines, same, body, functions, heads, distinct, walk ▸ lines,
      inFunctions, outside⟩
  · have refused : (parse "end".toList).toOption.isNone = true := by decide +kernel
    refine (parse_keeps_lines "end".toList).2.mp ?_
    cases read : parse "end".toList with
    | error problem => exact ⟨problem, rfl⟩
    | ok program =>
      rw [read] at refused
      cases refused

end Metronome.Script
