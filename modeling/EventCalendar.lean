import EventCalendar.Json.Reader
import EventCalendar.Main
import EventCalendar.Proofs.Time.Distance
import EventCalendar.Proofs.Time.Months
import EventCalendar.Proofs.Lattice.Starts
import EventCalendar.Proofs.Outcome
import EventCalendar.Proofs.Lattice.Rules
import EventCalendar.Proofs.Lattice.Jump
import EventCalendar.Proofs.Expansion.Periods
import EventCalendar.Proofs.Expansion.Weeks
import EventCalendar.Proofs.Materialization.AllDay
import EventCalendar.Proofs.Record.Rule
import EventCalendar.Proofs.Record.Readings
import EventCalendar.Proofs.Record.Event
import EventCalendar.Proofs.Record.Import
import EventCalendar.Proofs.Record.Candidates
import EventCalendar.Proofs.Record.Accounts
import EventCalendar.Proofs.Record.Overrides
import EventCalendar.Proofs.OrderedMap
import EventCalendar.Proofs.Overlay.Steps
import EventCalendar.Proofs.Overlay.Conservation
import EventCalendar.Proofs.Materialization.Shares
import EventCalendar.Proofs.Materialization.Unmatched
import EventCalendar.Proofs.Overlay.Repetition
import EventCalendar.Proofs.StableSort
import EventCalendar.Proofs.Expansion.Zones
import EventCalendar.Proofs.Materialization.Order
import EventCalendar.Proofs.Number.Rounding
import EventCalendar.Proofs.Time.EpochKey
import EventCalendar.Proofs.Time.InStep
import EventCalendar.Proofs.Expansion.Windows
import EventCalendar.Proofs.Expansion.WeekRuns
import EventCalendar.Proofs.Expansion.Bounds
import EventCalendar.Proofs.Expansion.Instants
import EventCalendar.Proofs.Materialization.Narrowing
import EventCalendar.Proofs.Materialization.Ascending
import EventCalendar.Proofs.DateToken
import EventCalendar.Proofs.Lattice.Days
import EventCalendar.Proofs.Record.Failures
import EventCalendar.Proofs.Record.WholeDays
import EventCalendar.Proofs.Lattice.NthWeekdays
import EventCalendar.Proofs.Expansion.Anchor
import EventCalendar.Proofs.Lattice.Landing
import EventCalendar.Proofs.DateToken.Grammar
import EventCalendar.Proofs.Record.InlineZones
import EventCalendar.Proofs.Expansion.WeeksAhead
import EventCalendar.Proofs.Record.ZoneNames
import EventCalendar.Proofs.Config.Environment
import EventCalendar.Proofs.Record.RuleText
import EventCalendar.Proofs.Expansion.Skipping
import EventCalendar.Proofs.Overlay.WholeMillis
import EventCalendar.Proofs.Weekdays
