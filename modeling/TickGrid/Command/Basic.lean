import TickGrid.Decimal.Reader
import TickGrid.Text.Lower

/-!
# Commands

A command line asks for the price of a tick (`t <tick>`), the tick of a price (`p <price>`),
help (`h`, `help`), examples (`e`, `examples`) or the end of the session (`q`, `quit`, `exit`).

`Command.parse` trims the line of blanks and lower-cases it; an empty line is no command. A
keyword must be the whole line. Otherwise the line must have exactly two words, separated by
blanks: the letter `t` with an optionally signed 64-bit integer, or the letter `p` with a
decimal number. The words in error messages are the lower-cased ones; a line of the wrong shape
is quoted as it was typed, trimmed.
-/

namespace TickGrid

/-- A request typed at the prompt. -/
inductive Command where
  /-- The price of a tick. -/
  | tickToPrice (tick : Int)
  /-- The tick of a price. -/
  | priceToTick (price : Decimal)
  /-- The help text and the examples. -/
  | help
  /-- The examples. -/
  | examples
  /-- The end of the session. -/
  | quit
  deriving Repr

/-- Why a line is not a command. -/
inductive CommandError where
  /-- Not a keyword and not two words. -/
  | invalidFormat (line : String)
  /-- Two words, the first of them neither `t` nor `p`. -/
  | unknownCommand (command : String)
  /-- A tick that is not a 64-bit integer. -/
  | invalidTick (value : String)
  /-- A price that is not a decimal number, and why. -/
  | invalidPrice (input : String) (source : ReadError)
  deriving Repr

namespace CommandError

/-- The text that describes the fault. -/
def message : CommandError → String
  | .invalidFormat line => "Invalid format: '" ++ line ++ "'. Use: t <tick> or p <price>"
  | .unknownCommand command =>
    "Unknown command: '" ++ command ++ "'. Use 't' for tick or 'p' for price"
  | .invalidTick value => "Invalid tick: '" ++ value ++ "' is not a valid integer"
  | .invalidPrice input _ => "Invalid price: '" ++ input ++ "' is not a valid number"

end CommandError

namespace Command

/-- Reads a tick: an optionally signed run of ASCII digits within the 64-bit range. -/
def readTick? (value : List Char) : Option Int :=
  match Text.readInteger? value with
  | some t => if Word64.Fits t then some t else none
  | none => none

/-- The command of a two-word line, from its lower-cased words. -/
def ofWords (command value : List Char) : ExceptT CommandError Checked Command := do
  let valueText := String.ofList value
  match String.ofList command with
  | "t" =>
    match readTick? value with
    | some t => return .tickToPrice t
    | none => throw (.invalidTick valueText)
  | "p" =>
    match ← ExceptT.lift (Decimal.read valueText).run with
    | .ok price => return .priceToTick price
    | .error e => throw (.invalidPrice valueText e)
  | other => throw (.unknownCommand other)

/-- The command of a line, or `none` for a blank line. -/
def parse (line : String) : ExceptT CommandError Checked (Option Command) := do
  let trimmed := Text.trimBlank line.toList
  let normalized := Text.toLower trimmed
  match String.ofList normalized with
  | "" => return none
  | "q" | "quit" | "exit" => return some .quit
  | "h" | "help" => return some .help
  | "e" | "examples" => return some .examples
  | _ =>
    match Text.words normalized with
    | [command, value] => return some (← ofWords command value)
    | _ => throw (.invalidFormat (String.ofList trimmed))

end Command

end TickGrid
