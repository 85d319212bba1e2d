import ExprCalc.CommandLine.Switch
import ExprCalc.Log
import ExprCalc.Report

/-!
# Options

What the arguments of a command ask for, and the effect of each switch on it. A wrong value and the
switch for help stop the reading of the arguments. A switch that has lost its value falls back to
what holds without it, but for the one that gives an expression: that it was given still counts.
-/

namespace ExprCalc

/-- What the arguments ask for. -/
structure Options where
  expression : Option String := none
  /-- what the switch for an expression gives: `none` without the switch, `some none` where it has
  lost its value -/
  evalExpression : Option (Option String) := none
  format : OutputFormat := .human
  showPostfix : Bool := false
  version : Bool := false
  logLevel : Option Level := none
  logFile : Option String := none
  healthCheck : Bool := false
deriving DecidableEq, Repr

/-- Why reading the arguments ends before the last one. -/
inductive Stop
  | help
  | usage (e : UsageError)
deriving DecidableEq, Repr

namespace Options

/-- The format with a name. -/
def format? : String → Option OutputFormat
  | "json" => some .json
  | "human" => some .human
  | _ => none

/-- The level with a name that may be asked for. -/
def level? (value : String) : Option Level :=
  if Switch.logLevel.choices.contains value then Level.ofName? value else none

/-- The reading of a value that has to be one of the choices of its switch. -/
def choose {α : Type} (s : Switch) (read? : String → Option α) (value : String) : Except Stop α :=
  match read? value with
  | some a => .ok a
  | none => .error (.usage (.invalidChoice s value))

/-- The options after a switch, with its value if it has one. -/
def apply (o : Options) (s : Switch) (value : Option String) : Except Stop Options :=
  match s with
  | .help => .error .help
  | .eval => .ok { o with evalExpression := some value }
  | .format => do return { o with format := (← value.mapM (choose s format?)).getD .human }
  | .showPostfix => .ok { o with showPostfix := true }
  | .version => .ok { o with version := true }
  | .logLevel => do return { o with logLevel := ← value.mapM (choose s level?) }
  | .logFile => .ok { o with logFile := value }
  | .healthCheck => .ok { o with healthCheck := true }

end Options

end ExprCalc
