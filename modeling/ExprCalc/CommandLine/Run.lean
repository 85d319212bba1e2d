import ExprCalc.CommandLine.Arguments
import ExprCalc.CommandLine.Usage
import ExprCalc.HealthCheck
import ExprCalc.Repl
import ExprCalc.Settings

/-!
# Running a command

A command sets up logging before anything else. Then it shows the version, checks the calculator,
evaluates one expression or converses; the first of these that is asked for counts. What it prints and its
exit code do not depend on how logging is set up (`Options.execute` knows nothing of it), unless the log
file cannot be opened; logging only decides which of its records are written where. `startCommand` is all
that precedes the work itself, so that what is left can be done on a list of inputs or at a terminal.
-/

namespace ExprCalc

/-- What a command does. -/
inductive Mode
  | version
  | healthCheck
  | evaluate (expression : String)
  | converse
deriving DecidableEq, Repr

/-- Why a command breaks off. -/
inductive CommandError
  /-- the switch for an expression has lost its value -/
  | noExpression
  /-- the log file cannot be opened -/
  | unopenable (reason : String)
  /-- a fault that is not reported -/
  | uncaught (f : Fault)
deriving DecidableEq, Repr

def CommandError.message : CommandError → String
  | noExpression => "'list' object has no attribute 'strip'"
  | unopenable reason => reason
  | uncaught f => f.message

namespace Options

/-- An expression given by a switch comes before one that is an operand. -/
def mode (o : Options) : Except CommandError Mode :=
  if o.version then .ok .version
  else if o.healthCheck then .ok .healthCheck
  else
    match o.evalExpression <|> o.expression.map some with
    | some (some expression) => .ok (.evaluate (trimBlanks expression))
    | some none => .error .noExpression
    | none => .ok .converse

/-- The set-up of logging that the options ask for, with the reason why it breaks off if it does. -/
def logging (o : Options) (files : Files) (fallback : String) : Logging × Option String :=
  Logging.unset.setUp files fallback (o.logLevel.map Level.name) o.logFile

/-- The record that an expression comes from the command line. -/
def evaluateRecord (expression : String) : Record :=
  ⟨.debug, "cli", s!"Evaluating {quoted expression} from the command line"⟩

/-- The answer to a command that does what `mode` says. -/
def execute (o : Options) (mode : Mode) (limits : Limits) (inputs : List Repl.Input) : Answer :=
  match mode with
  | .version => { output := programVersion ++ "\n" }
  | .healthCheck => HealthCheck.report limits
  | .evaluate expression =>
    let a := answer limits o.format o.showPostfix expression
    { a with records := evaluateRecord expression :: a.records }
  | .converse =>
    let a := Repl.converse limits o.format o.showPostfix inputs
    { a with output := Repl.banner ++ a.output }

end Options

/-- What a command leaves behind. -/
structure Outcome where
  exit : Nat
  output : String
  /-- the text about wrong arguments -/
  complaint : String := ""
  written : List (Sink × Record) := []
  /-- why the command broke off, if it did -/
  broken : Option CommandError := none

/-- What is left behind where no command is run. -/
def Stop.outcome : Stop → Outcome
  | .help => { exit := 0, output := Usage.help }
  | .usage e => { exit := 2, output := "", complaint := Usage.complaint e.message }

/-- What is left behind by a command that breaks off before it shows anything. -/
def CommandError.outcome (e : CommandError) : Outcome := { exit := 1, output := "", broken := some e }

/-- What is left behind by an answer under a set-up of logging. -/
def Answer.outcome (a : Answer) (logging : Logging) : Outcome :=
  { exit := a.exit, output := a.output, written := logging.deliver a.records
    broken := a.broken.map .uncaught }

/-- A command that has read its arguments and set up logging. -/
inductive Start
  /-- there is nothing left to do -/
  | over (outcome : Outcome)
  | underway (logging : Logging) (o : Options) (mode : Mode)

/-- The start of a command with some arguments. -/
def startCommand (files : Files) (settings : Settings) (arguments : List String) : Start :=
  match Options.ofArguments arguments with
  | .error stop => .over stop.outcome
  | .ok o =>
    match o.logging files settings.logLevel with
    | (_, some reason) => .over (CommandError.unopenable reason).outcome
    | (logging, none) =>
      match o.mode with
      | .error e => .over e.outcome
      | .ok mode => .underway logging o mode

/-- Runs the command with some arguments. -/
def runCommand (files : Files) (settings : Settings) (arguments : List String)
    (inputs : List Repl.Input) : Outcome :=
  match startCommand files settings arguments with
  | .over outcome => outcome
  | .underway logging o mode => (o.execute mode settings.limits inputs).outcome logging

end ExprCalc
