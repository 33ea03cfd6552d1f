import Metronome.Decimal.Reading

/-!
Options of the command line. An option has a long name and perhaps a short one; its value follows
it, or an equals sign, or in the same word a short name. What starts with a dash is no value unless
it is the dash alone, and after `--` everything names a program. Options stand at most once, but for
breakpoints.
-/
namespace Metronome.CommandLine

structure Options where
  program : Option String
  serve : Bool
  config : Option String
  speed : Option Float
  breakpoints : List Nat
  stopOnEntry : Bool
  maxTicks : Option Nat

def Options.none : Options := ⟨.none, false, .none, .none, [], false, .none⟩

inductive Asked where
  | run (options : Options)
  | help
  | version
  | misuse

inductive Flag
  | serve | stopOnEntry | help | version
  deriving DecidableEq, Repr

inductive Setting
  | config | speed | breakpoint | maxTicks
  deriving DecidableEq, Repr

def longFlags : List (String × Flag) :=
  [("dap", .serve), ("debug-adapter", .serve), ("stop-on-entry", .stopOnEntry), ("help", .help),
    ("version", .version)]

def longSettings : List (String × Setting) :=
  [("config", .config), ("speed", .speed), ("break", .breakpoint), ("max-ticks", .maxTicks)]

def shortFlags : List (Char × Flag) :=
  [('h', .help), ('V', .version)]

def shortSettings : List (Char × Setting) :=
  [('c', .config), ('b', .breakpoint)]

namespace Options

def raise (options : Options) : Flag → Except Asked Options
  | .serve => if options.serve then .error .misuse else .ok { options with serve := true }
  | .stopOnEntry =>
    if options.stopOnEntry then .error .misuse else .ok { options with stopOnEntry := true }
  | .help => .error .help
  | .version => .error .version

def give (options : Options) (setting : Setting) (value : String) : Except Asked Options :=
  let given : Option Options := match setting with
    | .config =>
      if options.config.isSome || value.isEmpty then .none
      else some { options with config := some value }
    | .speed =>
      if options.speed.isSome then .none
      else (Decimal.float? value.toList).map ({ options with speed := some · })
    | .breakpoint =>
      (Decimal.unsigned? value.toList).map fun line =>
        { options with breakpoints := options.breakpoints ++ [line] }
    | .maxTicks =>
      if options.maxTicks.isSome then .none
      else (Decimal.unsigned? value.toList).map ({ options with maxTicks := some · })
  match given with
  | some options => .ok options
  | .none => .error .misuse

def name (options : Options) (program : String) : Except Asked Options :=
  if options.program.isSome || program.isEmpty then .error .misuse
  else .ok { options with program := some program }

end Options

/-- What the names in a word lead to: the options, or an option whose value is still to come. -/
inductive Taken where
  | done (options : Options)
  | wants (options : Options) (setting : Setting)

def takeLong (options : Options) (word : List Char) : Except Asked Taken :=
  let name := String.ofList (word.takeWhile (· != '='))
  let value := if word.contains '=' then
      some (String.ofList ((word.dropWhile (· != '=')).drop 1))
    else none
  match longFlags.lookup name, longSettings.lookup name, value with
  | some flag, _, none => (options.raise flag).map .done
  | none, some setting, some value => (options.give setting value).map .done
  | none, some setting, none => .ok (.wants options setting)
  | _, _, _ => .error .misuse

/-- Takes short names, after their dash; the first one with a value takes the rest of the word. -/
def takeShort (options : Options) : List Char → Except Asked Taken
  | [] => .ok (.done options)
  | c :: rest =>
    match shortFlags.lookup c, shortSettings.lookup c, rest with
    | some flag, _, rest => (options.raise flag).bind (takeShort · rest)
    | none, some setting, [] => .ok (.wants options setting)
    | none, some setting, '=' :: value => (options.give setting (String.ofList value)).map .done
    | none, some setting, value => (options.give setting (String.ofList value)).map .done
    | none, none, _ => .error .misuse

def takeWord (options : Options) (word : String) : Except Asked Taken :=
  match word.toList with
  | '-' :: '-' :: name => takeLong options name
  | '-' :: c :: names => takeShort options (c :: names)
  | _ => (options.name word).map .done

def isValue (word : String) : Bool :=
  word == "-" || word.toList.head? != some '-'

/-- Reads words; `wanted` is the option that waits for its value. -/
def readWords (options : Options) (wanted : Option Setting) : List String → Asked
  | [] => if wanted.isSome then .misuse else .run options
  | word :: words =>
    match wanted with
    | some setting =>
      if isValue word then
        match options.give setting word with
        | .ok options => readWords options none words
        | .error asked => asked
      else .misuse
    | none =>
      if word = "--" then
        match words.foldlM Options.name options with
        | .ok options => .run options
        | .error asked => asked
      else
        match takeWord options word with
        | .ok (.done options) => readWords options none words
        | .ok (.wants options setting) => readWords options (some setting) words
        | .error asked => asked

def read (words : List String) : Asked :=
  readWords .none none words

end Metronome.CommandLine
