import Metronome.Text.Lines

namespace Metronome.Script

open Metronome.Text

/-- A statement's text and the lines that hold it. -/
structure LogicalLine where
  content : List Char
  /-- The byte at which the first line starts, its leading blanks left out. -/
  offset : Nat
  /-- The first and the last line that belong to it, counted from zero. -/
  first : Nat
  last : Nat
  deriving DecidableEq

def isLineBlank (c : Char) : Bool :=
  c == ' ' || c == '\t'

def finalBackslashes (text : List Char) : Nat :=
  (text.reverse.takeWhile (· == '\\')).length

def continues (line : List Char) : Bool :=
  finalBackslashes (dropEndWhile isLineBlank line) % 2 == 1

def contribution (line : List Char) : List Char :=
  trim (if continues line then (dropEndWhile isLineBlank line).dropLast else line)

def appendPiece (gathered piece : List Char) : List Char :=
  if gathered = [] then piece else gathered ++ ' ' :: piece

/-- The byte of a line's first character that is no blank, or of its end. -/
def startOffset (line : PhysicalLine) : Nat :=
  line.offset + byteLength (line.content.takeWhile isBlank)

/-- Adds a line to the logical line that it continues, or begins one with it. -/
def extend (gathered : Option LogicalLine) (index : Nat) (line : PhysicalLine) : LogicalLine :=
  match gathered with
  | none => ⟨contribution line.content, startOffset line, index, index⟩
  | some logical =>
    { logical with
      content := appendPiece logical.content (contribution line.content)
      last := index }

def joinFrom (index : Nat) (gathered : Option LogicalLine) :
    List PhysicalLine → List LogicalLine
  | [] => gathered.toList
  | line :: lines =>
    let logical := extend gathered index line
    if continues line.content then joinFrom (index + 1) (some logical) lines
    else logical :: joinFrom (index + 1) none lines

def logicalLines (text : List Char) : List LogicalLine :=
  joinFrom 0 none (physicalLines text)

/-- For each line of a text, the index of the logical line that holds it. -/
def logicalIndices (lines : List LogicalLine) : List Nat :=
  lines.zipIdx.flatMap fun (line, index) => List.replicate (line.last - line.first + 1) index

def isComment (line : List Char) : Bool :=
  match trim line with
  | [] => true
  | '#' :: _ => true
  | trimmed => sameIgnoringCase (firstWord trimmed) "rem".toList

end Metronome.Script
