import Tabletop.Datum.Written
import Tabletop.Journal
import Tabletop.Payload
import Tabletop.Server

/-! The command line. The settings are taken from the environment; then every line of the standard
input is read as dice notation and answered by a line of the standard output, and the journal goes
to the standard error stream. -/
namespace Tabletop

def environment : IO Settings.Environment := do
  let names := [Settings.Field.serverName, .transport, .logLevel].map Settings.Field.variable
  let values ← names.mapM fun name => do return (name, ← IO.getEnv name)
  return fun name => (values.lookup name).join

def answer (line : String) : Except Failure Reading → String
  | .ok reading => (reading.outline line).describe
  | .error failure => failure.message

def withoutLineEnd (line : String) : String :=
  String.ofList (line.toList.reverse.dropWhile (· == '\n')).reverse

partial def serve (level : LogLevel) (input output : IO.FS.Stream) : IO Unit := do
  let line ← input.getLine
  if line.isEmpty then return
  let text := withoutLineEnd line
  let outcome := read text
  for entry in Journal.shown level (Journal.entries text outcome) do
    IO.eprintln entry.line
  output.putStrLn (answer text outcome)
  output.flush
  serve level input output

def start (unnamed : String) : IO UInt32 := do
  match Settings.load (← environment) with
  | .error faults =>
    for fault in faults do
      IO.eprintln (fault.field.name ++ ": " ++ fault.problem.message)
    return 1
  | .ok settings =>
    let launch := Launch.ofSettings unnamed settings
    serve launch.logLevel (← IO.getStdin) (← IO.getStdout)
    return 0

end Tabletop

def main : IO UInt32 := Tabletop.start "FastMCP"
