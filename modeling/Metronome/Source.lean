import Metronome.Text.Lines

namespace Metronome

open Metronome.Text (byteLength)

/-- A whole text and the bytes of it that the user wrote. -/
structure ProgramText where
  text : List Char
  userStart : Nat
  userLength : Nat
  deriving DecidableEq

def splitBytes : Nat → List Char → List Char × List Char
  | _, [] => ([], [])
  | bytes, c :: rest =>
    if c.utf8Size ≤ bytes then
      let (taken, left) := splitBytes (bytes - c.utf8Size) rest
      (c :: taken, left)
    else ([], c :: rest)

namespace ProgramText

def wrap (user epilogue : List Char) : ProgramText :=
  let ended := if user = [] || user.getLast? = some '\n' then user else user ++ ['\n']
  ⟨ended ++ epilogue, 0, byteLength ended⟩

def whole (text : List Char) : ProgramText :=
  ⟨text, 0, byteLength text⟩

def userSource (program : ProgramText) : List Char :=
  let stop := min (program.userStart + program.userLength) (byteLength program.text)
  let start := min program.userStart stop
  (splitBytes (stop - start) (splitBytes start program.text).2).1

end ProgramText

/-- Where the lines of a text start, and the region whose lines count. -/
structure LineMap where
  starts : List Nat
  userStart : Nat
  userLength : Nat
  deriving DecidableEq

def lineStartsFrom (offset : Nat) : List Char → List Nat
  | [] => []
  | c :: rest =>
    let next := offset + c.utf8Size
    if c = '\n' then next :: lineStartsFrom next rest else lineStartsFrom next rest

namespace LineMap

def ofText (text : List Char) (userStart userLength : Nat) : LineMap :=
  ⟨0 :: lineStartsFrom 0 text, userStart, userLength⟩

/-- The line of the whole text that holds a byte, counted from zero. -/
def absoluteLine (map : LineMap) (offset : Nat) : Nat :=
  map.starts.countP (· ≤ offset) - 1

/-- The line of the user's region that holds a byte, counted from one. -/
def userLine (map : LineMap) (offset : Nat) : Option Nat :=
  if offset < map.userStart || map.userStart + map.userLength ≤ offset then none
  else some (map.absoluteLine offset - map.absoluteLine map.userStart + 1)

/-- The first byte of a line of the user's region. The sum is one of 64 bits, so the largest lines wrap
around. -/
def userLineStart (map : LineMap) (line : Nat) : Option Nat :=
  if line = 0 then none
  else
    match map.starts[(map.absoluteLine map.userStart + (line - 1)) % UInt64.size]? with
    | none => none
    | some start =>
      let start := max start map.userStart
      if start < map.userStart + map.userLength then some start else none

def userLineCount (map : LineMap) : Nat :=
  if map.userLength = 0 then 0
  else
    map.absoluteLine (map.userStart + map.userLength - 1) - map.absoluteLine map.userStart + 1

end LineMap

def ProgramText.lineMap (program : ProgramText) : LineMap :=
  .ofText program.text program.userStart program.userLength

end Metronome
