import OpenLedger.Lib.Tally
import OpenLedger.Lib.Numbering
import OpenLedger.Lib.OrdMap
import OpenLedger.Lib.Program
import OpenLedger.Lib.Bytes
import OpenLedger.Lib.PrefixCode
import OpenLedger.Lib.Decimal
import OpenLedger.Domain
import OpenLedger.Postings
import OpenLedger.Accounts
import OpenLedger.Periods
import OpenLedger.Calendar
import OpenLedger.JsonText
import OpenLedger.Canonical
import OpenLedger.Schema
import OpenLedger.Writes
import OpenLedger.Apply
import OpenLedger.Kept
import OpenLedger.Repository
import OpenLedger.Service
import OpenLedger.Postgres.Repository
import OpenLedger.Runs
import OpenLedger.Numberings
import OpenLedger.Postgres.Marshalling
import OpenLedger.Amount
import OpenLedger.Brackets
import OpenLedger.Sequential
import OpenLedger.Reports.Recon
import OpenLedger.Reports.BalanceSweep
import OpenLedger.Reports.Position
import OpenLedger.BalanceCache
import OpenLedger.Interleaving
import OpenLedger.Interleaved
import OpenLedger.Traces
import OpenLedger.Refusals
import OpenLedger.Footing
import OpenLedger.Bridge
import OpenLedger.Supersession
import OpenLedger.Lib.Drain
import OpenLedger.Reports.Cursor
import OpenLedger.Reports.Statements
import OpenLedger.Reports.ChartVersions
import OpenLedger.Reports.PinnedChart
import OpenLedger.Reports.AccountStatement
import OpenLedger.Reports.Moments
import OpenLedger.Reports.Store
import OpenLedger.Reports.Service
import OpenLedger.Reports.Served
import OpenLedger.Reports.Checkpoint
import OpenLedger.Reports.BalanceSheet
import OpenLedger.Reports.JournalBridge
import OpenLedger.Reports.Articulation
import OpenLedger.Reports.BoundedCheck
import OpenLedger.Horizon
import OpenLedger.Reports.Reproducible
import OpenLedger.Reports.CursorRule
import OpenLedger.Lib.Keyset
import OpenLedger.Reports.Paging
import OpenLedger.Reports.Walks
import OpenLedger.Promises
import OpenLedger.Provenance
import OpenLedger.DerivedKey
import OpenLedger.Landed
import OpenLedger.Sweep
import OpenLedger.Closing
import OpenLedger.CloseFits
import OpenLedger.Reports.Disclosures
import OpenLedger.Reports.SweptOnce
import OpenLedger.Beside
import OpenLedger.Reports.LateArrivals
import OpenLedger.Reports.SweepBeside
import OpenLedger.BatchAnswers
import OpenLedger.Lib.WaitsFor
import OpenLedger.Locks
import OpenLedger.Batching
import OpenLedger.Dispatchers
import OpenLedger.Reversal
import OpenLedger.Admission
import OpenLedger.Storable
import OpenLedger.Reports.PageKeys
import OpenLedger.Reports.AccountListing
import OpenLedger.ExactlyOnce
import OpenLedger.Reports.TenantReads
import OpenLedger.Serial
import OpenLedger.Reports.ReadBack
