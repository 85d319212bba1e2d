import ExprCalc.CommandLine.Run
import Std.Time.Zoned

/-!
# The program

Reads the environment, the arguments and the terminal, and writes what the library answers. Records
are stamped with the local time as they are written.
-/

namespace ExprCalc.Program

/-- The present local time, in the notation of ISO 8601. -/
def timeStamp : IO String := do
  let t ← Std.Time.PlainDateTime.now
  let filled (width n : Nat) := String.ofList ((Nat.toDigits 10 n).leftpad width '0')
  let micros := t.nanosecond.toNat / 1000
  let fraction := if micros = 0 then "" else "." ++ filled 6 micros
  return s!"{decimal t.year.toInt}-{filled 2 t.month.toNat}-{filled 2 t.day.toNat}" ++
    s!"T{filled 2 t.hour.toNat}:{filled 2 t.minute.toNat}:{filled 2 t.second.toNat}" ++ fraction

/-- Tries to open the file that records are to be written to besides the console; it is created even if
none come. -/
def openLogFile (arguments : List String) : IO (Files × (Sink → IO.FS.Stream)) := do
  let console ← IO.getStderr
  let path? := match Options.ofArguments arguments with
    | .ok o => o.logFile.filter (· ≠ "")
    | .error _ => none
  let some path := path? | return (fun _ => none, fun _ => console)
  try
    let file := IO.FS.Stream.ofHandle (← IO.FS.Handle.mk path .append)
    return (fun _ => none, fun sink => if sink = .file path then file else console)
  catch e =>
    return (fun p => if p = path then some e.toString else none, fun _ => console)

def emit (stream : Sink → IO.FS.Stream) (written : List (Sink × Record)) : IO Unit := do
  for (sink, record) in written do
    let stamp ← if sink = .lastResort then pure "" else (· ++ " ") <$> timeStamp
    (stream sink).putStr (stamp ++ sink.render record ++ "\n")
    (stream sink).flush

/-- The next input of the terminal, or `none` at its end. -/
def read : IO (Option Repl.Input) := do
  IO.print Repl.prompt
  (← IO.getStdout).flush
  let line ← (← IO.getStdin).getLine
  if line.isEmpty then return none
  return some (.line (if line.endsWith "\n" then (line.dropEnd 1).toString else line))

/-- Takes turns with the terminal until one is the last. -/
partial def converse (limits : Limits) (options : Options) (log : List Record → IO Unit) : IO Nat := do
  let r := Repl.turn limits options.format options.showPostfix (← read)
  log r.records
  IO.print r.output
  if let some f := r.broken then IO.eprintln f.message
  if r.last then return r.exit else converse limits options log

/-- Shows what a command leaves behind. -/
def leave (stream : Sink → IO.FS.Stream) (outcome : Outcome) : IO Nat := do
  emit stream outcome.written
  IO.eprint outcome.complaint
  IO.print outcome.output
  if let some e := outcome.broken then IO.eprintln e.message
  return outcome.exit

def run (arguments : List String) : IO Nat := do
  let values ← Settings.names.mapM fun name => return (name, ← IO.getEnv name)
  match Settings.ofEnvironment fun name => (values.lookup name).join with
  | .error e =>
    IO.eprintln e.message
    return 1
  | .ok settings =>
    let (files, stream) ← openLogFile arguments
    match startCommand files settings arguments with
    | .underway logging options .converse =>
      IO.print Repl.banner
      converse settings.limits options fun records => emit stream (logging.deliver records)
    | .underway logging options mode =>
      leave stream ((options.execute mode settings.limits []).outcome logging)
    | .over outcome => leave stream outcome

end ExprCalc.Program

def main (arguments : List String) : IO UInt32 :=
  return (← ExprCalc.Program.run arguments).toUInt32
