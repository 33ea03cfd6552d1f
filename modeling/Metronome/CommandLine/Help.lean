namespace Metronome.CommandLine

def programName : String := "tickstep"

def versionText : String := programName ++ " 0.1.0\n"

def usageLine : String := "Usage: " ++ programName ++ " [OPTIONS] [PROGRAM]\n"

def helpText : String :=
  "Run and step through tick-scheduled scripts\n\n" ++ usageLine ++
  "\nArguments:\n" ++
  "  [PROGRAM]  Script to run. Not needed with --dap\n" ++
  "\nOptions:\n" ++
  "      --dap                    Serve the Debug Adapter Protocol on stdin/stdout\n" ++
  "  -c, --config <CONFIG>        TOML file with scheduler settings\n" ++
  "      --speed <SPEED>          Speed slider position in [0, 1]\n" ++
  "  -b, --break <LINE>           Breakpoint line (repeatable)\n" ++
  "      --stop-on-entry          Pause before the first line runs\n" ++
  "      --max-ticks <MAX_TICKS>  End the run as timed out after this many ticks\n" ++
  "  -h, --help                   Print help\n" ++
  "  -V, --version                Print version\n"

def misuseText : String :=
  "error: the arguments cannot be used\n\n" ++ usageLine ++
    "\nFor more information, try '--help'.\n"

end Metronome.CommandLine
