import TickGrid.Session

/-!
# Command line

With arguments, the arguments joined by spaces are run once as a command. Without, an
interactive session reads commands from standard input. The settings come from the
environment variables `LOG_LEVEL`, `SHOW_EXAMPLES` and `PROMPT`.
-/

namespace TickGrid

namespace CommandLine

/-- Writes a text to standard output and flushes it. -/
def emit (text : String) : IO Unit := do
  let out ← IO.getStdout
  out.putStr text
  out.flush

/-- Reports an error on standard error and answers the failure exit code. -/
def fail (message : String) : IO UInt32 := do
  (← IO.getStderr).putStrLn ("Error: " ++ message)
  return 1

/-- Reads and answers lines until a quit command or the end of input. -/
partial def interact (settings : Settings) (input : IO.FS.Stream) : IO UInt32 := do
  emit settings.prompt
  let line ← input.getLine
  if line.isEmpty then
    emit ("\n" ++ Report.goodbye)
    return 0
  match Session.step line with
  | .error o => fail o.message
  | .ok (text, flow) =>
    emit text
    match flow with
    | .quit => return 0
    | .proceed => interact settings input

/-- Runs a session on standard input. -/
def session (settings : Settings) : IO UInt32 := do
  emit Report.header
  if settings.showExamples then
    match Report.examples with
    | .error o => return ← fail o.message
    | .ok o =>
      emit o.text
      if let .error e := o.result then
        return ← fail (match e.message with | .ok m => m | .error o => o.message)
  interact settings (← IO.getStdin)

/-- Runs one command line. -/
def once (line : String) : IO UInt32 := do
  match Session.once line with
  | .error o => fail o.message
  | .ok t =>
    emit t.text
    match t.error with
    | none => return 0
    | some e => fail (match e.message with | .ok m => m | .error o => o.message)

end CommandLine

end TickGrid

/-- Reads the settings, then runs the arguments once or a session on standard input. -/
def main (args : List String) : IO UInt32 := do
  let logLevel ← IO.getEnv "LOG_LEVEL"
  let showExamples ← IO.getEnv "SHOW_EXAMPLES"
  let prompt ← IO.getEnv "PROMPT"
  let lookup (name : String) : Option String :=
    match name with
    | "LOG_LEVEL" => logLevel
    | "SHOW_EXAMPLES" => showExamples
    | "PROMPT" => prompt
    | _ => none
  match TickGrid.Settings.ofLookup lookup with
  | .error e => TickGrid.CommandLine.fail e.message
  | .ok settings =>
    if args.isEmpty then TickGrid.CommandLine.session settings
    else TickGrid.CommandLine.once (" ".intercalate args)
