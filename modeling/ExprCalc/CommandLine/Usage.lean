/-!
# The usage of the command line

The texts that explain the command line, for a terminal of 80 columns.
-/

namespace ExprCalc

namespace Usage

/-- Lines, each with its end. -/
def ofLines (lines : List String) : String := String.join (lines.map (· ++ "\n"))

/-- The form of a command. -/
def synopsis : String := ofLines [
  "usage: rpncalc [-h] [-e EVAL_EXPR] [--format \x7bjson,human\x7d] [--show-postfix]",
  "               [-v] [--log-level \x7bDEBUG,INFO,WARNING,ERROR\x7d]",
  "               [--log-file LOG_FILE] [--health-check]",
  "               [expression]"]

/-- The explanation of all arguments. -/
def help : String := synopsis ++ ofLines [
  "",
  "Evaluate integer arithmetic expressions via postfix notation",
  "",
  "positional arguments:",
  "  expression            Expression to evaluate (starts the interactive REPL if",
  "                        omitted)",
  "",
  "options:",
  "  -h, --help            show this help message and exit",
  "  -e EVAL_EXPR, --eval EVAL_EXPR",
  "                        Evaluate one expression and exit (non-interactive)",
  "  --format \x7bjson,human\x7d",
  "                        Output format: json (machine-readable) or human",
  "                        (human-readable)",
  "  --show-postfix        Also print the token list and the postfix form",
  "  -v, --version         Show program version",
  "  --log-level \x7bDEBUG,INFO,WARNING,ERROR\x7d",
  "                        Set logging level (default: RPNCALC_LOG_LEVEL or",
  "                        WARNING)",
  "  --log-file LOG_FILE   Write logs to file",
  "  --health-check        Run health check on every pipeline stage"]

/-- The text about an error in the arguments. -/
def complaint (message : String) : String := synopsis ++ s!"rpncalc: error: {message}\n"

end Usage

end ExprCalc
