import TickGrid.Text.Blank
import TickGrid.Text.Lower

/-!
# Settings

The settings of a session come from named variables: `LOG_LEVEL` (default `warn`),
`SHOW_EXAMPLES` (default on) and `PROMPT` (default `> `). The flag is read after trimming and
lower-casing: `1`, `true`, `yes`, `on` turn it on and `0`, `false`, `no`, `off` turn it off;
anything else is an error that quotes the value as given.
-/

namespace TickGrid

/-- How a session runs. -/
structure Settings where
  /-- The filter for diagnostic logging. -/
  logLevel : String := "warn"
  /-- Whether a session starts with the examples. -/
  showExamples : Bool := true
  /-- The text written before each line is read. -/
  prompt : String := "> "
  deriving Repr

/-- Why the variables do not give settings. -/
inductive SettingsError where
  /-- The variable `SHOW_EXAMPLES` holds a value that is not a flag. -/
  | invalidFlag (raw : String)
  deriving Repr

namespace SettingsError

/-- The text that describes the fault, with its context first. -/
def message : SettingsError → String
  | .invalidFlag raw => "Failed to parse SHOW_EXAMPLES: Invalid boolean: " ++ raw

end SettingsError

namespace Settings

/-- Reads a flag, trimmed and lower-cased. -/
def readFlag? (raw : String) : Option Bool :=
  match String.ofList (Text.toLower (Text.trimBlank raw.toList)) with
  | "1" | "true" | "yes" | "on" => some true
  | "0" | "false" | "no" | "off" => some false
  | _ => none

/-- The settings given by looking up the variables; an absent variable keeps its default. -/
def ofLookup (lookup : String → Option String) : Except SettingsError Settings := do
  let logLevel := (lookup "LOG_LEVEL").getD "warn"
  let showExamples ← match lookup "SHOW_EXAMPLES" with
    | none => pure true
    | some raw =>
      match readFlag? raw with
      | some flag => pure flag
      | none => throw (.invalidFlag raw)
  let prompt := (lookup "PROMPT").getD "> "
  return { logLevel, showExamples, prompt }

end Settings

end TickGrid
