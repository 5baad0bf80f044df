import Chartbook.Calendar.Date
import Chartbook.Calendar.Instant
import Chartbook.Calendar.Month
import Chartbook.Calendar.Pattern
import Chartbook.Calendar.Reading
import Chartbook.Calendar.Timestamp
import Chartbook.Cell
import Chartbook.Chart.Basic
import Chartbook.Chart.Grouping
import Chartbook.Classification
import Chartbook.CommandLine.Arguments
import Chartbook.CommandLine.Help
import Chartbook.CommandLine.Run
import Chartbook.Dashboard.Assembly
import Chartbook.Dashboard.Document
import Chartbook.Dashboard.Settings
import Chartbook.Dataset.Basic
import Chartbook.Dataset.DateAxis
import Chartbook.Dataset.Monthly
import Chartbook.Dataset.Normalization
import Chartbook.Dataset.Profile
import Chartbook.Error
import Chartbook.Json.Basic
import Chartbook.Json.Merge
import Chartbook.Json.Printer
import Chartbook.Json.Reader
import Chartbook.Json.Record
import Chartbook.Json.Token
import Chartbook.Keyed
import Chartbook.Kpi.Evaluation
import Chartbook.Kpi.Expression
import Chartbook.Kpi.Function
import Chartbook.Main
import Chartbook.Number.Binary
import Chartbook.Number.Decimal
import Chartbook.Number.Digits
import Chartbook.Number.Literal
import Chartbook.Number.Locale
import Chartbook.Number.Shortest
import Chartbook.Plan.Basic
import Chartbook.Plan.Codec
import Chartbook.Proofs.Calendar.Month
import Chartbook.Proofs.Chart.OverTime
import Chartbook.Proofs.Classification
import Chartbook.Proofs.Dashboard.Policies
import Chartbook.Proofs.Dataset.Monthly
import Chartbook.Proofs.Except
import Chartbook.Proofs.Json.Real
import Chartbook.Proofs.Keyed
import Chartbook.Proofs.Kpi.Grammar
import Chartbook.Proofs.Kpi.Sandbox
import Chartbook.Proofs.Number.Digits
import Chartbook.Proofs.Service.Coherence
import Chartbook.Proofs.Service.FailedCall
import Chartbook.Proofs.Service.Flow
import Chartbook.Proofs.Service.Operations
import Chartbook.Proofs.Service.Pipeline
import Chartbook.Proofs.Service.Session
import Chartbook.Proofs.Table.QuotedImport
import Chartbook.Proofs.Table.QuotedRecords
import Chartbook.Proofs.Text.Blank
import Chartbook.Proofs.Text.Joined
import Chartbook.Row
import Chartbook.Service.Id
import Chartbook.Service.Operations
import Chartbook.Service.Pipeline
import Chartbook.Service.Reply
import Chartbook.Service.Store
import Chartbook.Table.Basic
import Chartbook.Table.Csv
import Chartbook.Table.Import
import Chartbook.Table.Preview
import Chartbook.Text.Blank
import Chartbook.Text.LetterCase
import Chartbook.Text.LetterCase.Ranges
import Chartbook.Proofs.Number.Bits
import Chartbook.Proofs.Number.Nearest
import Chartbook.Proofs.Number.ReadBack
import Chartbook.Proofs.Dataset.Normalization
import Chartbook.Proofs.Kpi.RawTotals
import Chartbook.Proofs.Dashboard.DateAxis
import Chartbook.Proofs.Dashboard.MonthCheck
import Chartbook.Proofs.Chart.Outcomes
import Chartbook.Proofs.Number.Finite
import Chartbook.Proofs.Table.Shape
import Chartbook.Proofs.Json.Members
import Chartbook.Proofs.Chart.Grouping
import Chartbook.Proofs.Chart.Categories
import Chartbook.Proofs.Dashboard.Settings
import Chartbook.Proofs.Json.Numerals
import Chartbook.Proofs.Json.Tokens
import Chartbook.Proofs.Json.RoundTrip
import Chartbook.Proofs.Service.Fence
import Chartbook.Proofs.Plan.Codec
import Chartbook.Proofs.Service.Reply
import Chartbook.Proofs.Number.Rounding
import Chartbook.Proofs.Number.Canonical
import Chartbook.Proofs.Number.Range
import Chartbook.Proofs.Dashboard.Record
import Chartbook.Proofs.Kpi.Finite
import Chartbook.Proofs.Kpi.Growth
import Chartbook.Proofs.Dashboard.Finite
import Chartbook.Proofs.Dataset.Occurring
import Chartbook.Proofs.Dataset.Continuous
import Chartbook.Proofs.Dataset.Series
import Chartbook.Proofs.Calendar.Layout
import Chartbook.Proofs.Calendar.Separators
import Chartbook.Proofs.Calendar.Tolerant
import Chartbook.Proofs.CommandLine.Arguments
import Chartbook.Proofs.CommandLine.Run
import Chartbook.Proofs.Number.Order
import Chartbook.Proofs.Chart.Ranking
import Chartbook.Proofs.Chart.Bars
import Chartbook.Proofs.Calendar.DayFirst
import Chartbook.Proofs.Calendar.RoundTrip
import Chartbook.Proofs.Calendar.Column
import Chartbook.Proofs.Number.Literal
import Chartbook.Proofs.Number.Locale
import Chartbook.Proofs.Number.Spelling
import Chartbook.Proofs.Calendar.Literal
import Chartbook.Proofs.Table.Field
import Chartbook.Proofs.Dataset.Labels
import Chartbook.Proofs.Dataset.Profile
import Chartbook.Proofs.Lookup
import Chartbook.Proofs.Descending
import Chartbook.Proofs.Kpi.Extremes
import Chartbook.Proofs.Json.Merge
import Chartbook.Proofs.Service.Snapshots
import Chartbook.Json.Rounding
import Chartbook.Proofs.Number.Monotone
import Chartbook.Proofs.Number.Operations
import Chartbook.Proofs.Json.QuickReading
