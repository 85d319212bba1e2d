import ExprCalc.Json
import ExprCalc.Text.Quoted

/-!
# Reports

A report is the outcome of an expression as a record: its value and the tokens it was computed from,
or what went wrong. What does not apply is left out (`Report.members`). A report is printed as JSON
or as lines for people.
-/

namespace ExprCalc

structure Report where
  ok : Bool
  expression : String
  result : Option Int := none
  tokens : Option (List String) := none
  postfixForm : Option (List String) := none
  error : Option String := none
  errorCode : Option String := none
deriving DecidableEq, Repr

/-- How reports are printed. -/
inductive OutputFormat
  | json
  | human
deriving DecidableEq, Repr

namespace Report

/-- A list of texts as a JSON value. -/
def texts (ss : List String) : Json := .array (ss.map .string)

/-- The member `key`, if there is a value for it. -/
def member (key : String) (value : Option Json) : List (String × Json) :=
  value.toList.map (key, ·)

/-- The entries of a report that are present, in their order. -/
def members (r : Report) : List (String × Json) :=
  [("ok", .bool r.ok), ("expression", .string r.expression)] ++
  member "result" (r.result.map .int) ++
  member "tokens" (r.tokens.map texts) ++
  member "postfix" (r.postfixForm.map texts) ++
  member "error" (r.error.map .string) ++
  member "error_code" (r.errorCode.map .string)

/-- A text that may be missing, for people. -/
def orNone (s : Option String) : String := s.getD "None"

/-- The report on one line, for logs and failed checks. -/
def describe (r : Report) : String :=
  let parts :=
    if r.ok then
      ["ok=True", "expression=" ++ quoted r.expression] ++
      (r.result.map fun v => "result=" ++ decimal v).toList ++
      (r.postfixForm.map fun ls => "postfix=" ++ quotedList ls).toList
    else
      ["ok=False", "expression=" ++ quoted r.expression,
        "error=" ++ orNone (r.error.map quoted), "error_code=" ++ orNone (r.errorCode.map quoted)]
  "EvalResult(" ++ ", ".intercalate parts ++ ")"

/-- The tokens and their postfix form on lines for people, on request. -/
def forms (r : Report) (showPostfix : Bool) : String :=
  if showPostfix then
    "Tokens:  " ++ ", ".intercalate (r.tokens.getD []) ++ "\n" ++
    "Postfix: " ++ " ".intercalate (r.postfixForm.getD []) ++ "\n"
  else ""

/-- The lines for people: the error alone, or the value, after the forms. -/
def humanText (r : Report) (showPostfix : Bool) : String :=
  if !r.ok then s!"Error: {orNone r.error}\n"
  else r.forms showPostfix ++ s!"{r.expression} = {orNone (r.result.map decimal)}\n"

/-- What is printed for a report. -/
def print (r : Report) (format : OutputFormat) (showPostfix : Bool) : String :=
  match format with
  | .json => (Json.object r.members).render ++ "\n"
  | .human => r.humanText showPostfix

/-- What has been printed of a report on a value when it comes to writing the value. -/
def opening (r : Report) (format : OutputFormat) (showPostfix : Bool) : String :=
  match format with
  | .json => ""
  | .human => r.forms showPostfix

end Report

end ExprCalc
