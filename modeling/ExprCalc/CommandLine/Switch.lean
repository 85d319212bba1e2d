import ExprCalc.Text.Quoted

/-!
# Switches

The switches of the command line with their spellings, and the errors in their use.
-/

namespace ExprCalc

inductive Switch
  | help
  | eval
  | format
  | showPostfix
  | version
  | logLevel
  | logFile
  | healthCheck
deriving DecidableEq, Repr

namespace Switch

/-- The spellings of all switches, in the order in which they are documented. -/
def spellings : List (String × Switch) := [
  ("-h", help), ("--help", help), ("-e", eval), ("--eval", eval), ("--format", format),
  ("--show-postfix", showPostfix), ("-v", version), ("--version", version),
  ("--log-level", logLevel), ("--log-file", logFile), ("--health-check", healthCheck)]

/-- The switch with exactly this spelling. -/
def ofSpelling? (cs : List Char) : Option Switch := spellings.lookup (String.ofList cs)

def takesValue : Switch → Bool
  | eval | format | logLevel | logFile => true
  | help | showPostfix | version | healthCheck => false

/-- The switch with all its spellings, for messages. -/
def name (s : Switch) : String :=
  "/".intercalate ((spellings.filter (·.2 = s)).map Prod.fst)

/-- The values among which a switch lets choose; none if every value will do. -/
def choices : Switch → List String
  | format => ["json", "human"]
  | logLevel => ["DEBUG", "INFO", "WARNING", "ERROR"]
  | _ => []

end Switch

/-- Why the arguments cannot be used. -/
inductive UsageError
  /-- an abbreviation stands for more than one switch -/
  | ambiguous (argument : String) (candidates : List String)
  | missingValue (s : Switch)
  /-- a value for a switch that takes none -/
  | ignoredValue (s : Switch) (value : String)
  | invalidChoice (s : Switch) (value : String)
  | unrecognized (arguments : List String)
deriving DecidableEq, Repr

namespace UsageError

/-- The parts of the message. -/
def parts : UsageError → List String
  | ambiguous argument candidates =>
    ["ambiguous option: ", argument, " could match ", ", ".intercalate candidates]
  | missingValue s => ["argument ", s.name, ": expected one argument"]
  | ignoredValue s value => ["argument ", s.name, ": ignored explicit argument ", quoted value]
  | invalidChoice s value =>
    ["argument ", s.name, ": invalid choice: ", quoted value, " (choose from ",
      ", ".intercalate (s.choices.map quoted), ")"]
  | unrecognized arguments => ["unrecognized arguments: ", " ".intercalate arguments]

def message (e : UsageError) : String := String.join e.parts

end UsageError

end ExprCalc
