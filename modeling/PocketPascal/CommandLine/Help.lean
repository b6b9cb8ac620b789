import PocketPascal.CommandLine.Options

/-! # Help

What the command line says about itself.
-/

namespace PocketPascal.CommandLine

/-- How the program is called. -/
def usage : List String :=
  ["usage: minipas [-h] [-s] [-o DIR] [-c FILE] [--from-tokens] [-p] [--verbose]",
   "               [source]"]

/-- What every argument is for. -/
def help : List String :=
  usage ++
  ["",
   "positional arguments:",
   "  source                Source file, token ledger, or raw source (with -s)",
   "",
   "options:",
   "  -h, --help            show this help message and exit",
   "  -s, --string          Interpret source as literal string",
   "  -o DIR, --out-dir DIR",
   "                        Directory for output ledgers",
   "  -c FILE, --config FILE",
   "                        JSON configuration file",
   "  --from-tokens         Input is a token ledger; skip lexing",
   "  -p, --print           Print errors",
   "  --verbose             Verbose logging"]

/-- What is said where arguments are refused. -/
def complaint (e : UsageError) : List String :=
  usage ++ [s!"minipas: error: {e.message}"]

end PocketPascal.CommandLine
