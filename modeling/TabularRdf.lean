import TabularRdf.Document.Build
import TabularRdf.Generation.Form
import TabularRdf.Generation.Run
import TabularRdf.Json.Reader
import TabularRdf.Json.Writer
import TabularRdf.Mapping.Form
import TabularRdf.Mapping.Reload
import TabularRdf.Rdf.Form
import TabularRdf.Rdf.Order
import TabularRdf.Table.OfJson
import TabularRdf.Table.OfRecords
import TabularRdf.Proofs.ExecutionOrder
import TabularRdf.Proofs.SortedKeys
import TabularRdf.Proofs.SubjectForms
import TabularRdf.Proofs.EntryForms
import TabularRdf.Proofs.BuiltMaps
import TabularRdf.Proofs.WellFormedTerms
import TabularRdf.Proofs.CompiledForms
import TabularRdf.Proofs.WellFormedQuads
import TabularRdf.Proofs.NamedUpdates
import TabularRdf.Proofs.Preparation
import TabularRdf.Proofs.JoinRows
import TabularRdf.Proofs.RowSpans
import TabularRdf.Proofs.RunStages
import TabularRdf.Proofs.NestedLoop
import TabularRdf.Proofs.RowProduct
import TabularRdf.Proofs.Locality
import TabularRdf.Proofs.SettledOutputs
import TabularRdf.Proofs.Schedules
import TabularRdf.Proofs.Noninterference
import TabularRdf.Proofs.TemplateFaults
import TabularRdf.Proofs.RunFailures
import TabularRdf.Proofs.SilentRows
import TabularRdf.Proofs.ReportCounts
import TabularRdf.Proofs.RunStatistics
import TabularRdf.Proofs.SourceKeys
import TabularRdf.Proofs.Alignment
import TabularRdf.Proofs.Together
import TabularRdf.Proofs.LockStep
import TabularRdf.Proofs.SealedPayloads
import TabularRdf.Proofs.InertExpressions
import TabularRdf.Proofs.TermOutlines
import TabularRdf.Proofs.OtherEncoding
import TabularRdf.Proofs.Respelling
import TabularRdf.Proofs.RespelledPayloads
import TabularRdf.Proofs.RespelledReferences
import TabularRdf.Proofs.RespelledMaps
import TabularRdf.Proofs.RespelledDocuments
import TabularRdf.Proofs.TemplateOrigins
import TabularRdf.Proofs.TermOrigins
import TabularRdf.Proofs.FilledTemplates
import TabularRdf.Proofs.NonEmptyIris
import TabularRdf.Proofs.SeparateSubjects
import TabularRdf.Proofs.FilterTexts
import TabularRdf.Proofs.DirectReadings
import TabularRdf.Proofs.QuadLines
import TabularRdf.Proofs.RunLines
import TabularRdf.Proofs.Substitution
import TabularRdf.Proofs.TemplateGrammar
import TabularRdf.Proofs.ReloadedTemplates
import TabularRdf.Proofs.LateBinding
import TabularRdf.Proofs.DistinctIris
import TabularRdf.Proofs.AbsoluteIris
import TabularRdf.Proofs.AssembledTables
import TabularRdf.Proofs.RecordTables
import TabularRdf.Proofs.InferredTables
import TabularRdf.Proofs.WholeNumbers
import TabularRdf.Proofs.CellTexts
import TabularRdf.Proofs.ExpandedEntries
import TabularRdf.Proofs.ShortEntries
import TabularRdf.Proofs.InlineCalls
import TabularRdf.Proofs.JoinSpellings
import TabularRdf.Proofs.JoinArguments
import TabularRdf.Proofs.CanonicalKeys
import TabularRdf.Proofs.FunctionPayloads
import TabularRdf.Proofs.SubjectOrder
import TabularRdf.Proofs.ListedSources
import TabularRdf.Proofs.LiteralTexts
import TabularRdf.Proofs.ReportedCycle
import TabularRdf.Proofs.ScannedIndexes
import TabularRdf.Proofs.CallGrammar
import TabularRdf.Proofs.CallSlices
import TabularRdf.Proofs.AuthorLines
