import ExprCalc.CommandLine.Options
import ExprCalc.Text.ScriptDigit

/-!
# Reading the arguments

Each argument is first given its role (`Word`): a switch, which may be abbreviated and may have a
value joined to it, the separator `--`, behind which there are no switches, or an operand. Then the
words are read from left to right. The first operand is the expression; what finds no use is
complained about at the end. One-letter switches may share an argument, and the separator is dropped
also where it is joined to a switch as its value.
-/

namespace ExprCalc

/-- What is joined to a switch in the same argument. -/
inductive Joined
  | nothing
  /-- text directly behind a one-letter switch: its value, or more switches -/
  | glued (text : List Char)
  /-- text behind an equals sign -/
  | equals (text : List Char)
deriving DecidableEq, Repr

/-- What is joined to a one-letter switch: text is glued to it, with an equals sign or without. -/
def Joined.toLetter : Joined → Joined
  | .equals (c :: cs) => .glued (c :: cs)
  | joined => joined

/-- The role of an argument. -/
inductive Word
  | operand (text : String)
  | separator
  | switch (s : Switch) (joined : Joined)
  | unknown (text : String)
deriving DecidableEq, Repr

namespace Word

/-- A minus sign before a decimal number, perhaps with a line end behind it. -/
def isNegativeNumber : List Char → Bool
  | '-' :: cs =>
    let body := if cs.getLast? = some '\n' then cs.dropLast else cs
    match body.dropWhile isScriptDigit with
    | [] => !body.isEmpty
    | '.' :: places => !places.isEmpty && places.all isScriptDigit
    | _ => false
  | _ => false

/-- A text up to its first equals sign, and what is joined by that. -/
def splitEquals (cs : List Char) : List Char × Joined :=
  (cs.takeWhile (· ≠ '='),
    match cs.dropWhile (· ≠ '=') with
    | _ :: value => .equals value
    | [] => .nothing)

/-- The switches that an argument may stand for: a beginning of long spellings, or a one-letter
switch with something glued to it. -/
def candidates (cs : List Char) : List (String × Switch × Joined) :=
  match cs with
  | '-' :: '-' :: _ =>
    let (start, joined) := splitEquals cs
    (Switch.spellings.filter fun e => start.isPrefixOf e.1.toList).map fun (sp, s) => (sp, s, joined)
  | '-' :: c :: rest =>
    (Switch.spellings.filter fun e => e.1.toList = ['-', c]).map fun (sp, s) => (sp, s, .glued rest)
  | _ => []

/-- The role of an argument before any separator. -/
def classify (argument : String) : Except UsageError Word :=
  let cs := argument.toList
  if cs.head? ≠ some '-' then .ok (.operand argument) else
  match Switch.ofSpelling? cs with
  | some s => .ok (.switch s .nothing)
  | none =>
    if cs.length = 1 then .ok (.operand argument) else
    let (start, joined) := splitEquals cs
    match Switch.ofSpelling? start with
    | some s => .ok (.switch s (if start.length = 2 then joined.toLetter else joined))
    | none =>
      match candidates cs with
      | [(_, s, joined)] => .ok (.switch s joined)
      | _ :: _ :: _ => .error (.ambiguous argument ((candidates cs).map Prod.fst))
      | [] =>
        if isNegativeNumber cs || cs.contains ' ' then .ok (.operand argument)
        else .ok (.unknown argument)

/-- The roles of all arguments. -/
def ofArguments : List String → Except UsageError (List Word)
  | [] => .ok []
  | a :: as =>
    if a = "--" then .ok (.separator :: as.map .operand)
    else do return (← classify a) :: (← ofArguments as)

end Word

/-- The switches in one argument. -/
structure Bundle where
  /-- those that need nothing more, in order, each with its value if it has one -/
  complete : List (Switch × Option String) := []
  /-- a last one whose value is the next argument -/
  pending : Option Switch := none

namespace Bundle

/-- `b` behind a switch without a value. -/
def after (s : Switch) (b : Bundle) : Bundle := { b with complete := (s, none) :: b.complete }

def bare (s : Switch) : Bundle :=
  if s.takesValue then { pending := some s } else { complete := [(s, none)] }

/-- A switch and the value joined to it, which is lost if it is the separator. -/
def withValue (s : Switch) (value : List Char) : Except UsageError Bundle :=
  if s.takesValue then
    .ok { complete := [(s, if value = ['-', '-'] then none else some (String.ofList value))] }
  else .error (.ignoredValue s (String.ofList value))

/-- A one-letter switch and the text glued to it: its value if it takes one, else more one-letter
switches. -/
def glued (s : Switch) : List Char → Except UsageError Bundle
  | [] => .ok (bare s)
  | c :: cs =>
    if s.takesValue then withValue s (c :: cs)
    else
      match Switch.ofSpelling? ['-', c] with
      | none => .error (.ignoredValue s (String.ofList (c :: cs)))
      | some s' => do return (← glued s' cs).after s

def ofSwitch (s : Switch) : Joined → Except UsageError Bundle
  | .nothing => .ok (bare s)
  | .glued text => glued s text
  | .equals value => withValue s value

end Bundle

/-- How far the arguments are read. -/
structure Progress where
  options : Options := {}
  /-- a bundle whose last switch gets its value from the next word -/
  awaiting : Option (Bundle × Switch) := none
  /-- the last word read is the expression -/
  fresh : Bool := false
  /-- the arguments without use -/
  leftOver : List String := []

namespace Progress

/-- The switches `ss` take effect in order. -/
def take (p : Progress) (ss : List (Switch × Option String)) : Except Stop Progress := do
  let options ← ss.foldlM (fun o (s, value) => o.apply s value) p.options
  return { options, leftOver := p.leftOver }

def leave (p : Progress) (argument : String) : Progress :=
  { p with fresh := false, leftOver := p.leftOver ++ [argument] }

/-- An operand is the expression if there is none yet. -/
def operand (p : Progress) (text : String) : Progress :=
  if p.options.expression.isNone then
    { p with options := { p.options with expression := some text }, fresh := true }
  else p.leave text

/-- The separator is dropped next to the expression. -/
def separator (p : Progress) : Progress :=
  if p.options.expression.isNone || p.fresh then { p with fresh := false } else p.leave "--"

def switch (p : Progress) (b : Bundle) : Except Stop Progress :=
  match b.pending with
  | none => p.take b.complete
  | some s => .ok { p with awaiting := some (b, s), fresh := false }

/-- The reading of one word. -/
def step (p : Progress) (w : Word) : Except Stop Progress :=
  match p.awaiting, w with
  | some (b, s), .operand value => p.take (b.complete ++ [(s, some value)])
  | some (_, s), _ => .error (.usage (.missingValue s))
  | none, .operand text => .ok (p.operand text)
  | none, .separator => .ok p.separator
  | none, .unknown text => .ok (p.leave text)
  | none, .switch s joined => do p.switch (← (Bundle.ofSwitch s joined).mapError .usage)

/-- The options, once all words are read. -/
def finish (p : Progress) : Except Stop Options :=
  match p.awaiting with
  | some (_, s) => .error (.usage (.missingValue s))
  | none =>
    if p.leftOver.isEmpty then .ok p.options else .error (.usage (.unrecognized p.leftOver))

end Progress

/-- The options that some arguments set. -/
def Options.ofArguments (arguments : List String) : Except Stop Options := do
  let words ← (Word.ofArguments arguments).mapError .usage
  (← words.foldlM Progress.step {}).finish

end ExprCalc
