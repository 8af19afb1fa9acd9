import SeriesIngest.Text.CodeRanges
import SeriesIngest.Text.Alphanumeric
import SeriesIngest.Text.Printable
import SeriesIngest.Text.Blank
import SeriesIngest.Text.Escape
import SeriesIngest.Float.Binary
import SeriesIngest.Float.Shortest
import SeriesIngest.Float.Text
import SeriesIngest.Float.Parse
import SeriesIngest.Number.Signed
import SeriesIngest.Bytes.Basic
import SeriesIngest.Hash.XxHash64
import SeriesIngest.Time.Timestamp
import SeriesIngest.Time.Civil
import SeriesIngest.Float.Word
import SeriesIngest.Point.Tags
import SeriesIngest.Point.Error
import SeriesIngest.Point.Identity
import SeriesIngest.Point.Value
import SeriesIngest.Point.Line
import SeriesIngest.Ids.Kind
import SeriesIngest.Store.Error
import SeriesIngest.Error
import SeriesIngest.Codec.Value
import SeriesIngest.Codec.Qualifier
import SeriesIngest.Codec.Append
import SeriesIngest.Bytes.Map
import SeriesIngest.Store.Memory
import SeriesIngest.Store.Calls
import SeriesIngest.Ids.Registry
import SeriesIngest.Row.Layout
import SeriesIngest.Row.Salt
import SeriesIngest.Row.Key
import SeriesIngest.Write.Buffer
import SeriesIngest.Write.Compaction
import SeriesIngest.Config.Basic
import SeriesIngest.Write.Filter
import SeriesIngest.Write.Db
import SeriesIngest.Write.Session
import SeriesIngest.Write.Pending
import SeriesIngest.Write.Writer
import SeriesIngest.Json.Reader
import SeriesIngest.Json.Settings
import SeriesIngest.Import.Dump
import SeriesIngest.Import.Schedule
import SeriesIngest.Import.Tool
import SeriesIngest.Main
import SeriesIngest.Proofs.Codec.QualifierOffset
import SeriesIngest.Proofs.Time.BaseTime
import SeriesIngest.Proofs.Ids.Keeps
import SeriesIngest.Proofs.Row.Rebase
import SeriesIngest.Proofs.Ids.Allocation
import SeriesIngest.Proofs.Write.BufferRoom
import SeriesIngest.Proofs.Write.Run
import SeriesIngest.Proofs.Write.Filling
import SeriesIngest.Proofs.Write.Invariant
import SeriesIngest.Proofs.Write.Guarantees
import SeriesIngest.Proofs.Write.PerSession
import SeriesIngest.Proofs.Write.Effects
import SeriesIngest.Proofs.Client.Run
import SeriesIngest.Proofs.Client.Atomicity
import SeriesIngest.Proofs.Client.Admission
import SeriesIngest.Proofs.Client.Rows
import SeriesIngest.Proofs.Client.Rollover
import SeriesIngest.Proofs.Codec.Samples
import SeriesIngest.Proofs.Client.ReadBack
import SeriesIngest.Proofs.Client.Outcomes
import SeriesIngest.Proofs.Client.Durability
import SeriesIngest.Proofs.Codec.AppendFraming
import SeriesIngest.Proofs.Codec.QualifierExact
import SeriesIngest.Proofs.Client.AppendMode
import SeriesIngest.Proofs.Store.Commute
import SeriesIngest.Proofs.Row.Separation
import SeriesIngest.Proofs.Client.HandleOrder
import SeriesIngest.Proofs.Import.Loop
import SeriesIngest.Proofs.Import.Report
import SeriesIngest.Proofs.Import.Routing
import SeriesIngest.Proofs.Client.CallView
import SeriesIngest.Proofs.Client.AwaitOrder
import SeriesIngest.Proofs.Codec.AppendExact
import SeriesIngest.Proofs.Store.KeyOrder
import SeriesIngest.Proofs.Codec.ColumnOrder
import SeriesIngest.Proofs.Float.ExactRounding
import SeriesIngest.Proofs.Codec.ValueExact
import SeriesIngest.Proofs.Row.Template
import SeriesIngest.Proofs.Row.Frame
import SeriesIngest.Proofs.Store.MapModel
import SeriesIngest.Proofs.Point.IdentityGrammar
import SeriesIngest.Proofs.Compaction.FiniteMap
import SeriesIngest.Proofs.Row.Salting
import SeriesIngest.Proofs.Number.Decimal
import SeriesIngest.Proofs.Import.LineFormat
import SeriesIngest.Proofs.Point.SeriesString
import SeriesIngest.Proofs.Write.BatchImport
import SeriesIngest.Proofs.Write.BufferGrowth
import SeriesIngest.Proofs.Client.NoLostUpdate
