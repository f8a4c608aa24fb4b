import CallDebugger.Program.Arguments

/-!
# Usage

What the program says about its own arguments.
-/

namespace CallDebugger

namespace Arguments

/-- What the program prints when it is asked for its version. -/
def versionLine : String := "tracedbg 0.1.0"

/-- What the program prints when it is asked for help. -/
def usageLines : List String := [
  "Call-level debugger for traced graphics processes",
  "",
  "Usage: tracedbg [OPTIONS] <COMMAND>",
  "",
  "Commands:",
  "  attach [ENDPOINT]                    Connect to a traced process and control it from the console",
  "  demo-peer [ENDPOINT] [--frames <N>]  Run a synthetic traced process that waits for a controller",
  "  help                                 Print this message",
  "",
  "Options:",
  "      --config-dir <DIR>   Directory holding config.toml (defaults to the platform config dir)",
  "      --log-level <LEVEL>  Override the configured log level (trace, debug, info, warn, error)",
  "      --log-to-file        Log to the default log file when no log.file is configured",
  "  -h, --help               Print help",
  "  -V, --version            Print version"]

end Arguments

/-- The wording of what is wrong with a command line. -/
def ArgumentError.message : ArgumentError → String
  | displayHelp => "help was asked for"
  | displayVersion => "the version was asked for"
  | displayHelpOnMissing => "there are no arguments"
  | missingTask => "a command is missing"
  | unknownTask => "there is no such command"
  | unknownArgument => "there is no such argument here"
  | invalidValue => "a value is missing or empty"
  | badNumber => "a value is not a number"
  | tooManyValues => "a switch takes no value"
  | givenTwice => "an option is given twice"

end CallDebugger
