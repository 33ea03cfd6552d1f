namespace Metronome.Text

inductive WordMode
  | gap | comment | word | escape | double | doubleEscape | single
  deriving DecidableEq

def separatesWords (c : Char) : Bool :=
  c == ' ' || c == '\t' || c == '\n'

def isDoubleEscapable (c : Char) : Bool :=
  c == '$' || c.toNat == 0x60 || c == '"' || c == '\\'

/-- Reads on in a mode; `word` holds the current word, its last character first. -/
def readWords : WordMode → List Char → List Char → Option (List String)
  | .gap, _, [] => some []
  | .gap, _, c :: rest =>
    if separatesWords c then readWords .gap [] rest
    else if c = '#' then readWords .comment [] rest
    else if c = '"' then readWords .double [] rest
    else if c = '\'' then readWords .single [] rest
    else if c = '\\' then readWords .escape [] rest
    else readWords .word [c] rest
  | .comment, _, [] => some []
  | .comment, _, c :: rest =>
    if c = '\n' then readWords .gap [] rest else readWords .comment [] rest
  | .word, word, [] => some [String.ofList word.reverse]
  | .word, word, c :: rest =>
    if separatesWords c then
      (readWords .gap [] rest).map (String.ofList word.reverse :: ·)
    else if c = '"' then readWords .double word rest
    else if c = '\'' then readWords .single word rest
    else if c = '\\' then readWords .escape word rest
    else readWords .word (c :: word) rest
  | .escape, _, [] => none
  | .escape, word, c :: rest => readWords .word (if c = '\n' then word else c :: word) rest
  | .double, _, [] => none
  | .double, word, c :: rest =>
    if c = '"' then readWords .word word rest
    else if c = '\\' then readWords .doubleEscape word rest
    else readWords .double (c :: word) rest
  | .doubleEscape, _, [] => none
  | .doubleEscape, word, c :: rest =>
    if isDoubleEscapable c then readWords .double (c :: word) rest
    else if c = '\n' then readWords .double word rest
    else readWords .double (c :: '\\' :: word) rest
  | .single, _, [] => none
  | .single, word, c :: rest =>
    if c = '\'' then readWords .word word rest else readWords .single (c :: word) rest

def shellWords (line : List Char) : Option (List String) :=
  readWords .gap [] line

end Metronome.Text
