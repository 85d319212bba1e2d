import ExprCalc.About
import ExprCalc.Text.UpperCase

/-!
# Log records

A record has a level, the channel it comes from and a message. A set-up of logging sets the level, takes
all sinks away and then adds those that it asks for; if the file among them cannot be opened, it breaks
off before it has added one. A record that reaches the level goes to every sink, and where there is none
to a last resort, if it is a warning or worse.
-/

namespace ExprCalc

inductive Level
  | debug
  | info
  | warning
  | error
  | critical
deriving DecidableEq, Repr

namespace Level

def name : Level → String
  | debug => "DEBUG"
  | info => "INFO"
  | warning => "WARNING"
  | error => "ERROR"
  | critical => "CRITICAL"

def severity : Level → Nat
  | debug => 10
  | info => 20
  | warning => 30
  | error => 40
  | critical => 50

def all : List Level := [debug, info, warning, error, critical]

def ofName? (s : String) : Option Level := all.find? (·.name == s)

@[simp] theorem ofName?_name (l : Level) : ofName? l.name = some l := by cases l <;> rfl

/-- The level with a name in any letter case; warnings if there is none. -/
def resolve (s : String) : Level := (ofName? (upperCase s)).getD .warning

end Level

/-- A log record; its channel is part of that of the whole program. -/
structure Record where
  level : Level
  channel : String
  message : String
deriving DecidableEq, Repr

/-- A record as it is written, without its time. -/
def Record.line (r : Record) : String :=
  s!"[{r.level.name}] {programName}.{r.channel}: {r.message}"

/-- Where records are written. -/
inductive Sink
  | console
  | file (path : String)
  /-- the console again, for a record that finds no other sink -/
  | lastResort
deriving DecidableEq, Repr

/-- What a sink shows of a record, its time apart. -/
def Sink.render : Sink → Record → String
  | lastResort, r => r.message
  | console, r | file _, r => r.line

/-- Which files can be written to: the reason why one cannot be opened, or `none` if it can. -/
abbrev Files := String → Option String

/-- How logging is set up. -/
structure Logging where
  level : Level
  sinks : List Sink
deriving DecidableEq, Repr

namespace Logging

/-- What holds before the first set-up. -/
def unset : Logging := ⟨.warning, []⟩

def setLevel (l : Logging) (level : Level) : Logging := { l with level }

/-- Takes all sinks away. -/
def clear (l : Logging) : Logging := { l with sinks := [] }

def add (l : Logging) (sink : Sink) : Logging := { l with sinks := l.sinks ++ [sink] }

/-- The sinks for a file, which may be missing or empty; the console is always among them. The file is
opened, or the reason why it cannot be is given. -/
def openSinks (files : Files) (file : Option String) : Except String (List Sink) :=
  match file.filter (· ≠ "") with
  | none => .ok [.console]
  | some path =>
    match files path with
    | none => .ok [.console, .file path]
    | some reason => .error reason

/-- The set-up asked for by a level and a file, each of which may be missing or empty; the level is
then `fallback`. With the set-up comes the reason why the file could not be opened, if that broke it
off. -/
def setUp (l : Logging) (files : Files) (fallback : String) (level file : Option String) :
    Logging × Option String :=
  let asked := level.filter (· ≠ "")
  let cleared := (l.setLevel (.resolve (asked.getD fallback))).clear
  match openSinks files file with
  | .error reason => (cleared, some reason)
  | .ok sinks => (sinks.foldl add cleared, none)

def accepts (l : Logging) (r : Record) : Bool := l.level.severity ≤ r.level.severity

/-- The sinks that a record goes to if it reaches the level. -/
def receivers (l : Logging) (r : Record) : List Sink :=
  if l.sinks = [] then
    if Level.warning.severity ≤ r.level.severity then [.lastResort] else []
  else l.sinks

/-- What is written for some records, each of which comes to all its receivers. -/
def deliver (l : Logging) (rs : List Record) : List (Sink × Record) :=
  (rs.filter l.accepts).flatMap fun r => (l.receivers r).map (·, r)

end Logging

/-- What can happen to logging. -/
inductive LogEvent
  | setUp (files : Files) (level file : Option String)
  | record (r : Record)

namespace LogEvent

/-- The set-up after some events, and everything written during them, in order. -/
def run (fallback : String) : Logging → List LogEvent → Logging × List (Sink × Record)
  | state, [] => (state, [])
  | state, .setUp files level file :: es =>
    run fallback (state.setUp files fallback level file).1 es
  | state, .record r :: es =>
    let (last, written) := run fallback state es
    (last, state.deliver [r] ++ written)

end LogEvent

end ExprCalc
