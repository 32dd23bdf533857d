import FamilyStore.Binary64.Basic
import FamilyStore.Binary64.Text
import FamilyStore.Region
import FamilyStore.Buffer
import FamilyStore.Bytes
import FamilyStore.Config.File
import FamilyStore.Config.Settings
import FamilyStore.DataConfig
import FamilyStore.DataFuncs.Argument
import FamilyStore.DataFuncs.Basic
import FamilyStore.DataFuncs.Builtin
import FamilyStore.DataFuncs.Callbacks
import FamilyStore.DataFuncs.Counter
import FamilyStore.DataFuncs.Recipe
import FamilyStore.Demo.Basic
import FamilyStore.Demo.Programs
import FamilyStore.Engine.Cursors
import FamilyStore.Engine.Databases
import FamilyStore.Engine.EntryPoint
import FamilyStore.Engine.Families
import FamilyStore.Engine.Interface
import FamilyStore.Engine.Library
import FamilyStore.Engine.Lookups
import FamilyStore.Engine.Memory
import FamilyStore.Engine.Misuse
import FamilyStore.Engine.Sort
import FamilyStore.Engine.Sort.Merge
import FamilyStore.Engine.Sort.Runs
import FamilyStore.Engine.Sort.Search
import FamilyStore.Engine.State
import FamilyStore.Failure
import FamilyStore.Failure.Argument
import FamilyStore.Failure.Kind
import FamilyStore.Failure.Report
import FamilyStore.Failure.Store
import FamilyStore.Files.Fault
import FamilyStore.Files.Path
import FamilyStore.Files.Tree
import FamilyStore.Ini.Document
import FamilyStore.Ini.Fault
import FamilyStore.Ini.Interpolation
import FamilyStore.Ini.Line
import FamilyStore.Ini.Reader
import FamilyStore.Ini.Writer
import FamilyStore.Log
import FamilyStore.LookupResult
import FamilyStore.Proofs.Engine.SameCursors
import FamilyStore.Proofs.Operation
import FamilyStore.Proofs.Table
import FamilyStore.Proofs.Work
import FamilyStore.Release
import FamilyStore.Script.Answer
import FamilyStore.Script.HandleKind
import FamilyStore.Script.Observe
import FamilyStore.Script.Run
import FamilyStore.Script.State
import FamilyStore.Script.Step
import FamilyStore.Slice
import FamilyStore.Status
import FamilyStore.Store.Databases
import FamilyStore.Store.Families
import FamilyStore.Store.Iterators
import FamilyStore.Store.Keeping
import FamilyStore.Store.State
import FamilyStore.Store.Views
import FamilyStore.Table
import FamilyStore.Text.Blank
import FamilyStore.Text.Blocks
import FamilyStore.Text.Charset
import FamilyStore.Text.CodeRange
import FamilyStore.Text.Decimal
import FamilyStore.Text.Digit
import FamilyStore.Text.Lines
import FamilyStore.Text.Lowercase
import FamilyStore.Text.Printable
import FamilyStore.Text.Quoted
import FamilyStore.Text.Utf8
import FamilyStore.Value.Basic
import FamilyStore.Value.Convert
import FamilyStore.Value.Text
import FamilyStore.Proofs.SameHandles
import FamilyStore.Proofs.Engine.Cursor
import FamilyStore.Proofs.Engine.Lent
import FamilyStore.Proofs.Iteration.Linked
import FamilyStore.Proofs.Iteration.Moves
import FamilyStore.Proofs.Iteration.Steps
import FamilyStore.Proofs.Iteration.Lifetime
import FamilyStore.Proofs.Iteration.Course
import FamilyStore.Proofs.Iteration.Snapshot
import FamilyStore.Proofs.Iteration.Staleness
import FamilyStore.Proofs.Engine.Growth
import FamilyStore.Proofs.Engine.Points
import FamilyStore.Proofs.SameFamilies
import FamilyStore.Proofs.Founded
import FamilyStore.Proofs.Points.Maps
import FamilyStore.Proofs.Points.Calls
import FamilyStore.Proofs.Points.Refinement
import FamilyStore.Proofs.Engine.Sort.Merge
import FamilyStore.Proofs.Engine.Sort.Runs
import FamilyStore.Proofs.Engine.Arrivals
import FamilyStore.Proofs.Engine.Selection
import FamilyStore.Proofs.Iteration.Exhaustion
import FamilyStore.Proofs.Iteration.Order
import FamilyStore.Proofs.Engine.Exchange
import FamilyStore.Proofs.Accounts.SameCounts
import FamilyStore.Proofs.Opening
import FamilyStore.Proofs.Accounts.Databases
import FamilyStore.Proofs.Accounts.Families
import FamilyStore.Proofs.Accounts.Cursors
import FamilyStore.Proofs.Accounts.Closing
import FamilyStore.Proofs.Accounts.Balance
import FamilyStore.Proofs.Creation
import FamilyStore.Proofs.BufferTypes
import FamilyStore.Proofs.ClosedDatabase
import FamilyStore.Proofs.SizeLimits
import FamilyStore.Proofs.Engine.Requests
import FamilyStore.Proofs.Engine.Twins
import FamilyStore.Proofs.Engine.Spending
import FamilyStore.Proofs.Agreement
import FamilyStore.Proofs.Asking
import FamilyStore.Proofs.Failing
import FamilyStore.Proofs.Retry
import FamilyStore.Proofs.Reopening.Paths
import FamilyStore.Proofs.Reopening.Shelves
import FamilyStore.Proofs.Reopening.Outcomes
import FamilyStore.Proofs.Reopening.Writing
import FamilyStore.Proofs.Reopening.Ledger
import FamilyStore.Proofs.Reopening.Upkeep
import FamilyStore.Proofs.Engine.SameFiles
import FamilyStore.Proofs.SameFiles
import FamilyStore.Proofs.Reopening.Meantime
import FamilyStore.Proofs.Reopening.Durability
import FamilyStore.Proofs.Plain
import FamilyStore.Proofs.Iteration.Release
import FamilyStore.Proofs.Iteration.Tracking
import FamilyStore.Proofs.Iteration.Ending
import FamilyStore.Proofs.Iteration.Blocked
import FamilyStore.Proofs.Iteration.Stopping
import FamilyStore.Proofs.Iteration.Breaking
import FamilyStore.Proofs.ClosingFamilies
import FamilyStore.Proofs.Propriety.Replies
import FamilyStore.Proofs.Propriety.Runs
import FamilyStore.Proofs.Bytes
import FamilyStore.Proofs.Engine.StrictOrder
import FamilyStore.Proofs.Iteration.History
import FamilyStore.Proofs.Engine.Merging
import FamilyStore.Proofs.Merging
import FamilyStore.Proofs.Counters.Arithmetic
import FamilyStore.Proofs.Counters.Workers
import FamilyStore.Proofs.Similar
import FamilyStore.Proofs.Engine.Kindred
import FamilyStore.Proofs.Kindred
import FamilyStore.Proofs.Comparisons
import FamilyStore.Proofs.ArgumentChecks
import FamilyStore.Proofs.Engine.Mirror
import FamilyStore.Proofs.Iteration.Mirror
import FamilyStore.Proofs.Text.Decimal
import FamilyStore.Proofs.Text.Files
import FamilyStore.Proofs.Ini.Options
import FamilyStore.Proofs.Ini.Reading
import FamilyStore.Proofs.Ini.Written
import FamilyStore.Proofs.Ini.Reordering
import FamilyStore.Proofs.Config.Loading
import FamilyStore.Proofs.Config.RoundTrip
import FamilyStore.Proofs.Config.Soundness
import FamilyStore.Proofs.Text.Utf8
import FamilyStore.Proofs.Rendering
import FamilyStore.Proofs.MergeCallbacks
import FamilyStore.Proofs.Region
import FamilyStore.Proofs.Buffer
import FamilyStore.Proofs.Slices
