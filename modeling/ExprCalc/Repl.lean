import ExprCalc.Answer

/-!
# The interactive loop

After a banner, each line is answered on its own: a quit command ends the loop, `help` shows a text,
a blank line is passed over, and every other line is evaluated. An interrupt at the prompt starts a
new line. `turn` is one round of the loop, whoever asks for the inputs; `converse` is the whole loop on a
list of them.
-/

namespace ExprCalc

namespace Repl

/-- What the user does at the prompt. -/
inductive Input
  | line (text : String)
  | interrupt
deriving DecidableEq, Repr

def banner : String :=
  s!"{programName} {programVersion}. Type 'help' for usage, 'quit' to exit.\nTry: {sampleExpression}\n"

def prompt : String := ">>> "

def helpText : String := "\n".intercalate [
  "rpncalc - integer expression calculator",
  "",
  "Operators (highest precedence first):",
  "  **   power (left-associative: 2 ** 3 ** 2 is (2 ** 3) ** 2)",
  "  /    integer division, truncating toward zero",
  "  *    multiplication",
  "  -    subtraction",
  "  +    addition",
  "Parentheses group sub-expressions. Any other character is ignored.",
  "",
  "Commands:",
  "  help         show this text",
  "  quit, exit   leave the calculator",
  "",
  ""]

/-- What a line asks for. -/
inductive Command
  | nothing
  | quit
  | help
  | evaluate (expression : String)
deriving DecidableEq, Repr

/-- The command on a line; case and surrounding blanks do not matter. No character beyond ASCII has
a letter of a command's name as its lower case. -/
def Command.ofLine (text : String) : Command :=
  let expression := trimBlanks text
  if expression.isEmpty then .nothing
  else
    let word := expression.map Char.toLower
    if word = "quit" ∨ word = "exit" then .quit
    else if word = "help" then .help
    else .evaluate expression

/-- What is shown for one input, with the records; `last` if it ends the loop. -/
structure Response where
  output : String
  records : List Record := []
  last : Bool := false
  /-- the fault that breaks the loop off, if one does -/
  broken : Option Fault := none

def respond (limits : Limits) (format : OutputFormat) (showPostfix : Bool) : Input → Response
  | .interrupt => { output := "\n" }
  | .line text =>
    match Command.ofLine text with
    | .nothing => { output := "" }
    | .quit => { output := "", last := true }
    | .help => { output := helpText }
    | .evaluate expression =>
      let a := answer limits format showPostfix expression
      { output := a.output, records := a.records, last := a.broken.isSome, broken := a.broken }

/-- The response to an input, or to the end of the inputs, which ends the loop on a new line. -/
def turn (limits : Limits) (format : OutputFormat) (showPostfix : Bool) : Option Input → Response
  | none => { output := "\n", last := true }
  | some i => respond limits format showPostfix i

/-- The exit code of a loop that ends with a response. -/
def Response.exit (r : Response) : Nat := if r.broken.isSome then 1 else 0

/-- A last response as the end of an answer. -/
def Response.ending (r : Response) : Answer :=
  { output := prompt ++ r.output, exit := r.exit, records := r.records, broken := r.broken }

/-- The answer to all inputs, from the first prompt on. -/
def converse (limits : Limits) (format : OutputFormat) (showPostfix : Bool) : List Input → Answer
  | [] => (turn limits format showPostfix none).ending
  | i :: is =>
    let r := turn limits format showPostfix (some i)
    if r.last then r.ending
    else
      let rest := converse limits format showPostfix is
      { rest with
        output := prompt ++ r.output ++ rest.output
        records := r.records ++ rest.records }

end Repl

end ExprCalc
