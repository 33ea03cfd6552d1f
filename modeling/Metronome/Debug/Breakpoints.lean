namespace Metronome.Debug

/-- Lines in ascending order, each once. -/
structure Breakpoints where
  lines : List Nat
  deriving DecidableEq, Repr

def insertLine (line : Nat) : List Nat → List Nat
  | [] => [line]
  | other :: rest =>
    if line < other then line :: other :: rest
    else if line = other then other :: rest
    else other :: insertLine line rest

theorem mem_insertLine {line other : Nat} {lines : List Nat} :
    other ∈ insertLine line lines ↔ other = line ∨ other ∈ lines := by
  induction lines with
  | nil => simp [insertLine]
  | cons first rest ih =>
    unfold insertLine
    split
    · simp
    · split
      · next same => subst same; simp
      · simp only [List.mem_cons, ih]
        constructor
        · rintro (h | h | h) <;> simp [h]
        · rintro (h | h | h) <;> simp [h]

namespace Breakpoints

def empty : Breakpoints := ⟨[]⟩

def contains (breakpoints : Breakpoints) (line : Nat) : Bool :=
  breakpoints.lines.contains line

def add (breakpoints : Breakpoints) (line : Nat) : Breakpoints :=
  ⟨insertLine line breakpoints.lines⟩

def remove (breakpoints : Breakpoints) (line : Nat) : Breakpoints :=
  ⟨breakpoints.lines.filter (· != line)⟩

def toggle (breakpoints : Breakpoints) (line : Nat) : Breakpoints :=
  if breakpoints.contains line then breakpoints.remove line else breakpoints.add line

def ofList (lines : List Nat) : Breakpoints :=
  lines.foldl add empty

def isEmpty (breakpoints : Breakpoints) : Bool :=
  breakpoints.lines.isEmpty

theorem contains_add (breakpoints : Breakpoints) (line other : Nat) :
    (breakpoints.add line).contains other = (other == line || breakpoints.contains other) := by
  rw [Bool.eq_iff_iff]
  simp [add, contains, mem_insertLine]

theorem contains_remove (breakpoints : Breakpoints) (line other : Nat) :
    (breakpoints.remove line).contains other = (other != line && breakpoints.contains other) := by
  rw [Bool.eq_iff_iff]
  simp [remove, contains, and_comm]

theorem contains_ofList (lines : List Nat) (line : Nat) :
    (ofList lines).contains line = lines.contains line := by
  have added (first : Breakpoints) :
      (lines.foldl add first).contains line = (lines.contains line || first.contains line) := by
    induction lines generalizing first with
    | nil => rfl
    | cons other lines ih =>
      rw [List.foldl_cons, ih, contains_add, List.contains_cons, Bool.or_left_comm, Bool.or_assoc]
  rw [ofList, added]
  exact Bool.or_false _

end Breakpoints

end Metronome.Debug
