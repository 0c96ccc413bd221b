import LoudHeaders.Main
import LoudHeaders.Machine.Program
import LoudHeaders.Proofs.Path.Route
import LoudHeaders.Proofs.Path.Walk
import LoudHeaders.Proofs.BuildInputs
import LoudHeaders.Proofs.Selection
import LoudHeaders.Proofs.Gather.Steps
import LoudHeaders.Proofs.HeaderIndex
import LoudHeaders.Proofs.Gather.Account
import LoudHeaders.Proofs.Gather.Pool
import LoudHeaders.Proofs.Git.Tree
import LoudHeaders.Proofs.ChangeCounts
import LoudHeaders.Proofs.Git.Line
import LoudHeaders.Proofs.Git.Gathering
import LoudHeaders.Proofs.Date
import LoudHeaders.Proofs.Git.Counts
import LoudHeaders.Proofs.Git.Ending
import LoudHeaders.Proofs.Git.Extent
import LoudHeaders.Proofs.Gather.Failure
import LoudHeaders.Proofs.Sorting
import LoudHeaders.Proofs.Ranking.Order
import LoudHeaders.Proofs.Ranking.Stable
import LoudHeaders.Proofs.Path.Absolute
import LoudHeaders.Proofs.Gather.Weighted
import LoudHeaders.Proofs.MakeRule
import LoudHeaders.Proofs.Git.Failing
import LoudHeaders.Proofs.Git.Keys
import LoudHeaders.Proofs.CommandWords.Line
import LoudHeaders.Proofs.CommandWords.Quoting
import LoudHeaders.Proofs.CommandWords.Blanks
import LoudHeaders.Proofs.Git.Splitting
import LoudHeaders.Proofs.Extraction
import LoudHeaders.Proofs.Text.Numeral
import LoudHeaders.Proofs.Version
import LoudHeaders.Proofs.Resolution
import LoudHeaders.Proofs.Path.Order
import LoudHeaders.Proofs.Path.Shape
import LoudHeaders.Proofs.ChangeListing
import LoudHeaders.Proofs.Report
import LoudHeaders.Proofs.Arguments.Line
import LoudHeaders.Proofs.Arguments.Record
import LoudHeaders.Proofs.Json.Quotation
import LoudHeaders.Proofs.Json.Value
import LoudHeaders.Proofs.CompileDatabase.Entries
import LoudHeaders.Proofs.CompileDatabase.Reading
