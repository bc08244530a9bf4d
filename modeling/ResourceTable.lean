import ResourceTable.Access
import ResourceTable.Filter.Tagged
import ResourceTable.Proofs.Acceptance
import ResourceTable.Proofs.AcceptedRequest
import ResourceTable.Proofs.Alike
import ResourceTable.Proofs.AvoidedPrint
import ResourceTable.Proofs.CellOrder
import ResourceTable.Proofs.ClauseBinding
import ResourceTable.Proofs.Compilation
import ResourceTable.Proofs.Confinement
import ResourceTable.Proofs.Covering
import ResourceTable.Proofs.CrownScope
import ResourceTable.Proofs.CrownedStatement
import ResourceTable.Proofs.FilterPrint
import ResourceTable.Proofs.FilterReading
import ResourceTable.Proofs.Formula
import ResourceTable.Proofs.FreshName
import ResourceTable.Proofs.Instant
import ResourceTable.Proofs.MatchAll
import ResourceTable.Proofs.Meaning
import ResourceTable.Proofs.PlanSoundness
import ResourceTable.Proofs.Print
import ResourceTable.Proofs.PrintBinding
import ResourceTable.Proofs.PrintPlaceholders
import ResourceTable.Proofs.PrintTokens
import ResourceTable.Proofs.Reading
import ResourceTable.Proofs.Renaming
import ResourceTable.Proofs.RowFrame
import ResourceTable.Proofs.RowTruth
import ResourceTable.Proofs.RowVisits
import ResourceTable.Proofs.RulePrint
import ResourceTable.Proofs.RuleReading
import ResourceTable.Proofs.StatementPrint
import ResourceTable.Proofs.StatementReading
import ResourceTable.Proofs.StoredInteger
import ResourceTable.Proofs.StoredOrder
import ResourceTable.Proofs.TermReading
import ResourceTable.Proofs.TimeFilter
import ResourceTable.Proofs.Totality
import ResourceTable.Proofs.UpdateBinding
import ResourceTable.Proofs.ValueIndependence
import ResourceTable.Query.Tagged
import ResourceTable.Settings
import ResourceTable.Proofs.Rereading
import ResourceTable.Proofs.CountPage
import ResourceTable.Proofs.TouchedRows
import ResourceTable.Proofs.PaddedDigits
import ResourceTable.Proofs.IdentifierText
import ResourceTable.Proofs.SaturatingSum
import ResourceTable.Proofs.RowInsertion
import ResourceTable.Proofs.CounterTable
import ResourceTable.Proofs.Reservation
import ResourceTable.Proofs.ExclusiveIdentifiers
import ResourceTable.Proofs.InsertReading
import ResourceTable.Proofs.BatchCreation
import ResourceTable.Proofs.CalendarReading
import ResourceTable.Proofs.ColumnTests
import ResourceTable.Proofs.PageRows
import ResourceTable.Proofs.Paging
import ResourceTable.Proofs.SourceAgreement
import ResourceTable.Proofs.FlatRecord
import ResourceTable.Proofs.RecordReading
import ResourceTable.Proofs.WireFilter
import ResourceTable.Proofs.ShownRow
import ResourceTable.Proofs.Whitelist
import ResourceTable.Proofs.StoredLeaf
import ResourceTable.Proofs.SingleTest
import ResourceTable.Proofs.CreatedListed
import ResourceTable.Proofs.RenamedBinding
import ResourceTable.Proofs.FailedReservation
import ResourceTable.Proofs.PatternMatching
import ResourceTable.Proofs.CaseFolding
import ResourceTable.Proofs.TextSearch
import ResourceTable.Proofs.RulePriority
import ResourceTable.Proofs.FieldOrder
import ResourceTable.Proofs.WrittenColumns
import ResourceTable.Proofs.Traversal
import ResourceTable.Proofs.RegistryMerge
import ResourceTable.Proofs.PlaceholderReading
import ResourceTable.Proofs.PositionalBinding
import ResourceTable.Proofs.StoredMoment
import ResourceTable.Proofs.InsertBinding
import ResourceTable.Proofs.PlaceholderRewriting
import ResourceTable.Proofs.NameSearch
