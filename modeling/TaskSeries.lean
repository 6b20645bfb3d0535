import TaskSeries.Text.Blank
import TaskSeries.Text.Lowercase
import TaskSeries.Text.Ratio
import TaskSeries.Calendar.InstantText
import TaskSeries.Period.Text
import TaskSeries.Period.Parser
import TaskSeries.Period.Advance
import TaskSeries.DateExpr
import TaskSeries.Task.Basic
import TaskSeries.Json.Parser
import TaskSeries.Json.Printer
import TaskSeries.Task.Record
import TaskSeries.Series.Settings
import TaskSeries.Series.Propagation
import TaskSeries.Series.Integrity
import TaskSeries.Listing.Sort
import TaskSeries.Listing.Markdown
import TaskSeries.Config.Tiers
import TaskSeries.CommandLine.LogTarget
import TaskSeries.Store.Cell
import TaskSeries.Tracker.Command
import TaskSeries.CommandLine.Invocation
import TaskSeries.CommandLine.Session
import TaskSeries.Main
import TaskSeries.Proofs.Ends
import TaskSeries.Proofs.Calendar.Rank
import TaskSeries.Proofs.Calendar.Millis
import TaskSeries.Proofs.Calendar.Days
import TaskSeries.Proofs.Period.Weekends
import TaskSeries.Proofs.Period.Advance
import TaskSeries.Proofs.Task.Draw
import TaskSeries.Proofs.Series.Latest
import TaskSeries.Proofs.Series.Reference
import TaskSeries.Proofs.Series.CatchUp
import TaskSeries.Proofs.Series.Added
import TaskSeries.Proofs.Series.Passes
import TaskSeries.Proofs.Series.GoesOn
import TaskSeries.Proofs.Series.Structure
import TaskSeries.Proofs.Series.Integrity
import TaskSeries.Proofs.Store.Rows
import TaskSeries.Proofs.Store.Reading
import TaskSeries.Proofs.Store.Writing
import TaskSeries.Proofs.Store.WellFormed
import TaskSeries.Proofs.Tracker.Trigger
import TaskSeries.Proofs.Tracker.Commands
import TaskSeries.Proofs.Tracker.Reachable
import TaskSeries.Proofs.Tracker.Generation
import TaskSeries.Proofs.Tracker.Expiry
import TaskSeries.Proofs.Tracker.Again
import TaskSeries.Proofs.Store.Changing
import TaskSeries.Proofs.Tracker.Calls
import TaskSeries.Proofs.Tracker.Runs
import TaskSeries.Proofs.Tracker.DueDates
import TaskSeries.Proofs.Tracker.Propagation
import TaskSeries.Proofs.Tracker.Definitions
import TaskSeries.Proofs.Calendar.Date
import TaskSeries.Proofs.Period.Forward
import TaskSeries.Proofs.Tracker.LookAhead
import TaskSeries.Proofs.Tracker.Lifecycle
import TaskSeries.Proofs.Text.Ratio
import TaskSeries.Proofs.Period.Duration
import TaskSeries.Proofs.Period.RoundTrip
import TaskSeries.Proofs.Tracker.Failing
import TaskSeries.Proofs.Tracker.Success
import TaskSeries.Proofs.Tracker.Apart
import TaskSeries.Proofs.Series.Stops
import TaskSeries.Proofs.Store.Cells
import TaskSeries.Proofs.Store.RoundTrip
import TaskSeries.Proofs.Calendar.Signs
import TaskSeries.Proofs.DateExpr
import TaskSeries.Proofs.Period.Grammar
import TaskSeries.Proofs.Period.Magnitude
import TaskSeries.Proofs.Calendar.Moment
import TaskSeries.Proofs.Period.Units
import TaskSeries.Proofs.Period.Range
import TaskSeries.Proofs.Period.WayBack
import TaskSeries.Proofs.Series.Workdays
import TaskSeries.Proofs.Series.Months
import TaskSeries.Proofs.Series.Places
import TaskSeries.Proofs.Series.Horizon
import TaskSeries.Proofs.Config.Files
import TaskSeries.Proofs.Config.Assignments
import TaskSeries.Proofs.Config.Precedence
import TaskSeries.Proofs.Series.Undated
import TaskSeries.Proofs.Series.Diagnosis
import TaskSeries.Proofs.Series.Proposals
import TaskSeries.Proofs.Listing.Order
import TaskSeries.Proofs.Period.Nominal
import TaskSeries.Proofs.Tracker.Touched
import TaskSeries.Proofs.Tracker.Lookup
import TaskSeries.Proofs.Json.Tiers
import TaskSeries.Proofs.Config.Blanks
import TaskSeries.Proofs.DateExpr.Weekday
import TaskSeries.Proofs.Period.Spelling
