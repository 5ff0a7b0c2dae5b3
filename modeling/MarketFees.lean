import MarketFees.CommandLine.Disk
import MarketFees.Dataset.Document
import MarketFees.Ledger.Overwrite
import MarketFees.Ledger.Read
import MarketFees.Main
import MarketFees.Proofs.Calendar
import MarketFees.Proofs.DecimalText
import MarketFees.Proofs.Visibility
import MarketFees.Proofs.Ledger.Import
import MarketFees.Proofs.Projection
import MarketFees.Proofs.Retain
import MarketFees.Proofs.Table
import MarketFees.Proofs.TimeText
import MarketFees.Report.Build
import MarketFees.Report.Document
import MarketFees.Snapshot
import MarketFees.Proofs.ZeroSigns
import MarketFees.Proofs.Stores
import MarketFees.Proofs.Position
import MarketFees.Proofs.Blocks
import MarketFees.Proofs.Hierarchy
import MarketFees.Proofs.ExactSums
import MarketFees.Proofs.Scopes
import MarketFees.Proofs.Selection
import MarketFees.Proofs.ExactTotals
import MarketFees.Proofs.Summaries
import MarketFees.Ledger.Session
import MarketFees.Proofs.Overflows
import MarketFees.Proofs.Parting
import MarketFees.Proofs.Ledger.Session
import MarketFees.Proofs.Ledger.Loading
import MarketFees.Proofs.Narrowing
import MarketFees.Proofs.Additivity
import MarketFees.Proofs.Lines
import MarketFees.Proofs.Windows
import MarketFees.Proofs.Ledger.ReadBack
import MarketFees.Proofs.OrderSet
import MarketFees.Proofs.DetailRows
import MarketFees.Proofs.Subtotals
import MarketFees.Proofs.Rearranged
import MarketFees.Proofs.Ledger.Loads
import MarketFees.Proofs.Rounding
import MarketFees.Proofs.RowNumbers
import MarketFees.Proofs.ListingOrder
import MarketFees.Proofs.DatasetText
import MarketFees.Proofs.Ledger.Answers
import MarketFees.Proofs.ScopeTotals
import MarketFees.Proofs.Join
import MarketFees.Proofs.ReportText
import MarketFees.Proofs.ReportDocument
import MarketFees.Proofs.Days
import MarketFees.Proofs.OwnerReads
import MarketFees.Proofs.References
import MarketFees.Proofs.Memo
import MarketFees.Proofs.Ledger.Overwritten
