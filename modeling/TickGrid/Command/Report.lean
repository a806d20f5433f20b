import TickGrid.Command.Basic
import TickGrid.Conversion
import TickGrid.Grid.Display
import TickGrid.Binary64.Fixed

/-!
# Reports

What a command writes. `Command.execute` answers an `Outcome`: the text written and how the
command ended, with a flow that says whether the session goes on, or a range error. The text
is written as the command goes, so a command that fails part way keeps what it wrote before
the failure.

Prices are written with `Grid.showPrice`; the accuracy of a snap is written with six places.
-/

namespace TickGrid

/-- Whether the session goes on after a command. -/
inductive Flow where
  /-- Read the next line. -/
  | proceed
  /-- End the session. -/
  | quit
  deriving DecidableEq, Repr

/-- The text a command wrote and how it ended. -/
structure Outcome where
  /-- Everything written, in order. -/
  text : String
  /-- The flow after the command, or the range error that stopped it. -/
  result : Except RangeError Flow

namespace Report

/-- A rule of sixty `=`. -/
def rule : String := String.ofList (List.replicate 60 '=')

/-- The title and the list of commands. -/
def header : String :=
  "🔄 Interactive Tick-Price Calculator (price = 1.0001^tick)\n" ++ rule ++ "\n" ++
    "Commands:\n" ++
    "  t <tick>   - Convert tick to price\n" ++
    "  p <price>  - Convert price to tick\n" ++
    "  e          - Show examples\n" ++
    "  h or help  - Show this help\n" ++
    "  q or quit  - Exit\n" ++ rule ++ "\n"

/-- The farewell. -/
def goodbye : String := "👋 Goodbye!\n"

/-- A text right-aligned in a field of the given width, padded with spaces. -/
def padLeft (s : String) (width : Nat) : String :=
  String.ofList (List.replicate (width - s.length) ' ') ++ s

/-- One example line: the tick right-aligned in six places, the price in fifteen. -/
def exampleLine (row : ExampleRow) : Checked String := do
  let price ← Grid.showPrice row.price
  return "  Tick " ++ padLeft (toString row.tick) 6 ++ " = " ++ padLeft price 15 ++
    " (" ++ row.description ++ ")\n"

/-- The heading of the examples, written before the rows are computed. -/
def examplesHeading : String :=
  "\n💡 Examples:\n" ++ String.ofList (List.replicate 40 '-') ++ "\n"

/-- The examples: a heading, a line per example row and an empty line. -/
def examples : Checked Outcome := do
  match ← exampleRows.run with
  | .error e => return ⟨examplesHeading, .error e⟩
  | .ok rows =>
    let lines ← rows.mapM exampleLine
    return ⟨examplesHeading ++ String.join lines ++ "\n", .ok .proceed⟩

/-- The report of a tick: its price both ways and the round-trip check. -/
def tick (c : TickConversion) : Checked String := do
  let price ← Grid.showPrice c.price
  let inverse ← Grid.showPrice c.inverse
  let check := if c.roundTripOk then "   ✅ Round-trip accurate\n"
    else "   ⚠️  Round-trip has small error (normal for extreme values)\n"
  return "📊 Tick " ++ toString c.tick ++ ":\n" ++
    "   0to1 Price: " ++ price ++ "\n" ++
    "   1to0 Price: " ++ inverse ++ "\n" ++ check

/-- The report of a price: its tick, the tick's price, the reciprocal and the accuracy. -/
def price (c : PriceConversion) : Checked String := do
  let price ← Grid.showPrice c.price
  let verified ← Grid.showPrice c.verified
  let inverse ← Grid.showPrice c.inverse
  let percent := c.accuracy.toFixed 6
  let check := if c.highAccuracy then "   ✅ High accuracy (" ++ percent ++ "% difference)\n"
    else "   ⚠️  Accuracy: " ++ percent ++ "% difference\n"
  return "💰 Price " ++ price ++ ":\n" ++
    "   Tick: " ++ toString c.tick ++ "\n" ++
    "   Verified Price: " ++ verified ++ "\n" ++
    "   Inverse Price: " ++ inverse ++ "\n" ++ check

end Report

namespace Command

/-- Carries out a command, the tick searches starting from the estimates of `logBase`, and answers
what it wrote. -/
def executeWith (logBase : Binary64 → Int) : Command → Checked Outcome
  | .tickToPrice t => do
    match ← (TickConversion.ofTickWith logBase t).run with
    | .error e => return ⟨"", .error e⟩
    | .ok c => return ⟨← Report.tick c, .ok .proceed⟩
  | .priceToTick p => do
    match ← (PriceConversion.ofPriceWith logBase p).run with
    | .error e => return ⟨"", .error e⟩
    | .ok c => return ⟨← Report.price c, .ok .proceed⟩
  | .help => do
    let o ← Report.examples
    return { o with text := Report.header ++ o.text }
  | .examples => Report.examples
  | .quit => return ⟨Report.goodbye, .ok .quit⟩

/-- Carries out a command and answers what it wrote. -/
def execute (c : Command) : Checked Outcome := executeWith Grid.logTicks c

end Command

end TickGrid
