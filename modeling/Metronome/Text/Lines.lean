import Metronome.Text.Blank

namespace Metronome.Text

def linePieces : List Char → List (List Char)
  | [] => []
  | c :: rest =>
    if c = '\n' then [c] :: linePieces rest
    else match linePieces rest with
      | [] => [[c]]
      | piece :: pieces => (c :: piece) :: pieces

def lineContent (piece : List Char) : List Char :=
  dropFinal '\r' (dropFinal '\n' piece)

/-- A line without its end, where a carriage return counts as part of it only before a line feed. -/
def lineBody (piece : List Char) : List Char :=
  if piece.getLast? = some '\n' then lineContent piece else piece

def textLines (text : List Char) : List (List Char) :=
  (linePieces text).map lineBody

structure PhysicalLine where
  offset : Nat
  content : List Char
  deriving DecidableEq

/-- Lines of consecutive pieces, the first of which starts at byte `offset`. -/
def linesFrom (offset : Nat) : List (List Char) → List PhysicalLine
  | [] => []
  | piece :: pieces => ⟨offset, lineContent piece⟩ :: linesFrom (offset + byteLength piece) pieces

def physicalLines (text : List Char) : List PhysicalLine :=
  linesFrom 0 (linePieces text)

theorem linePieces_flatten (text : List Char) : (linePieces text).flatten = text := by
  induction text with
  | nil => rfl
  | cons c rest ih =>
    by_cases newline : c = '\n'
    · simp [linePieces, newline, ih]
    · cases pieces : linePieces rest with
      | nil => simp_all [linePieces]
      | cons piece more => simp_all [linePieces]

theorem length_linesFrom (offset : Nat) (pieces : List (List Char)) :
    (linesFrom offset pieces).length = pieces.length := by
  induction pieces generalizing offset with
  | nil => rfl
  | cons piece more ih => simp [linesFrom, ih]

end Metronome.Text
