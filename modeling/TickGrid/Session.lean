import TickGrid.Command.Report
import TickGrid.Settings

/-!
# Sessions

A session writes the header and, if the settings ask for them, the examples; then, for each
line of input, the prompt and the answer to the line. An error is written as `❌ Error:` with
its message, and the session goes on. A quit command ends the session after its farewell; the
end of the input ends it with an empty line and the farewell.

Lines are what a line reader returns: each line up to and including its newline, and a last
line without one if the input does not end with a newline. A carriage return stays in the line
and is trimmed as a blank when the line is read as a command.

A one-shot run (`Session.once`) answers a single line; a blank line is an error there.
-/

namespace TickGrid

/-- Why a line of a session or a one-shot run failed. -/
inductive LineError where
  /-- The line is not a command. -/
  | command (e : CommandError)
  /-- The command failed on a tick or price outside the grid. -/
  | range (e : RangeError)
  /-- A one-shot run was given a blank line. -/
  | noCommand
  deriving Repr

namespace LineError

/-- The text that describes the fault. -/
def message : LineError → Checked String
  | .command e => pure e.message
  | .range e => e.message
  | .noCommand => pure "No command given"

end LineError

/-- What a run wrote, and the error that ended it, if one did. -/
structure Transcript where
  /-- Everything written, in order. -/
  text : String
  /-- The error that ended the run. -/
  error : Option LineError

namespace Session

/-- The lines of an input: each up to and including its newline, then the rest if not empty. -/
def lines (input : String) : List String :=
  let pieces := input.toList.splitOn '\n'
  let complete := pieces.dropLast.map fun p => String.ofList (p ++ ['\n'])
  match pieces.getLast? with
  | some last => if last.isEmpty then complete else complete ++ [String.ofList last]
  | none => complete

/-- The error line of a session. -/
def errorLine (message : String) : String := "❌ Error: " ++ message ++ "\n"

/-- Answers one line of a session: what it writes and whether the session goes on. -/
def step (line : String) : Checked (String × Flow) := do
  match ← (Command.parse line).run with
  | .error e => return (errorLine e.message, .proceed)
  | .ok none => return ("", .proceed)
  | .ok (some c) =>
    let o ← c.execute
    match o.result with
    | .ok flow => return (o.text, flow)
    | .error e => return (o.text ++ errorLine (← e.message), .proceed)

/-- The transcript of the remaining lines: a prompt before each line, and a farewell when the
input runs out. -/
def feed (settings : Settings) : List String → Checked String
  | [] => pure (settings.prompt ++ "\n" ++ Report.goodbye)
  | line :: rest => do
    let (text, flow) ← step line
    match flow with
    | .quit => return settings.prompt ++ text
    | .proceed => return settings.prompt ++ text ++ (← feed settings rest)

/-- The transcript of a whole session over an input text. -/
def run (settings : Settings) (input : String) : Checked Transcript := do
  if settings.showExamples then
    let o ← Report.examples
    match o.result with
    | .error e => return ⟨Report.header ++ o.text, some (.range e)⟩
    | .ok _ => return ⟨Report.header ++ o.text ++ (← feed settings (lines input)), none⟩
  else
    return ⟨Report.header ++ (← feed settings (lines input)), none⟩

/-- A one-shot run of a single line. -/
def once (line : String) : Checked Transcript := do
  match ← (Command.parse line).run with
  | .error e => return ⟨"", some (.command e)⟩
  | .ok none => return ⟨"", some .noCommand⟩
  | .ok (some c) =>
    let o ← c.execute
    match o.result with
    | .ok _ => return ⟨o.text, none⟩
    | .error e => return ⟨o.text, some (.range e)⟩

end Session

end TickGrid
