import TickGrid.Overflow
import TickGrid.Text.Blank
import TickGrid.Text.Integer
import TickGrid.Decimal.Basic
import TickGrid.Decimal.Arith
import TickGrid.Decimal.Printer
import TickGrid.Decimal.Reader
import TickGrid.Binary64.Basic
import TickGrid.Binary64.Shortest
import TickGrid.Binary64.Fixed
import TickGrid.Grid.Basic
import TickGrid.Grid.Tick
import TickGrid.Grid.Display
import TickGrid.Conversion
import TickGrid.Text.CaseClass
import TickGrid.Text.Lower
import TickGrid.Command.Basic
import TickGrid.Command.Report
import TickGrid.Settings
import TickGrid.Session
import TickGrid.Main
import TickGrid.Proofs.Decimal.Digits
import TickGrid.Proofs.Decimal.Rounding
import TickGrid.Proofs.Decimal.Order
import TickGrid.Proofs.Decimal.HalfEven
import TickGrid.Proofs.Decimal.Numeral
import TickGrid.Proofs.Decimal.Reading
import TickGrid.Proofs.Decimal.Writing
import TickGrid.Proofs.Decimal.Arith
import TickGrid.Proofs.Decimal.Outcomes
import TickGrid.Proofs.Decimal.Powers
import TickGrid.Proofs.Decimal.Width
import TickGrid.Proofs.Decimal.Faithful
import TickGrid.Proofs.Decimal.Quotient
import TickGrid.Proofs.Decimal.Distance
import TickGrid.Proofs.Grid.Prices
import TickGrid.Proofs.Grid.Search
import TickGrid.Proofs.Grid.Walk
import TickGrid.Proofs.Binary64.Normal
import TickGrid.Proofs.Grid.RoundTrip
import TickGrid.Proofs.Grid.ExactMidpoints
import TickGrid.Proofs.Grid.Reciprocal
import TickGrid.Proofs.Grid.Involution
import TickGrid.Proofs.Session
import TickGrid.Proofs.Decimal.Scientific
import TickGrid.Proofs.Decimal.PowerExponents
import TickGrid.Proofs.Decimal.Fixed
import TickGrid.Proofs.Grid.Display
import TickGrid.Proofs.Execute
