import VariableRegistry.BoundedText
import VariableRegistry.Calendar
import VariableRegistry.CommandLine
import VariableRegistry.Document.Basic
import VariableRegistry.Document.Json
import VariableRegistry.Document.Json.Number
import VariableRegistry.Document.Json.Text
import VariableRegistry.Document.Data
import VariableRegistry.Document.Formats
import VariableRegistry.Document.Toml
import VariableRegistry.Document.Toml.Scalar
import VariableRegistry.Document.Toml.Text
import VariableRegistry.Document.Toml.Tree
import VariableRegistry.Document.Toml.Value
import VariableRegistry.Error
import VariableRegistry.Fallible
import VariableRegistry.Float.Decimal
import VariableRegistry.Float.Layout
import VariableRegistry.Float.Rounding
import VariableRegistry.Float.Text
import VariableRegistry.Format
import VariableRegistry.Handle
import VariableRegistry.Main
import VariableRegistry.Numeral
import VariableRegistry.Power
import VariableRegistry.Registry.Access
import VariableRegistry.Registry.Basic
import VariableRegistry.Registry.Bound
import VariableRegistry.Registry.Call
import VariableRegistry.Registry.Descriptor
import VariableRegistry.Registry.Directory
import VariableRegistry.Registry.Dump
import VariableRegistry.Registry.Gate
import VariableRegistry.Registry.Number
import VariableRegistry.Registry.Shared
import VariableRegistry.Registry.Store
import VariableRegistry.Registry.Text
import VariableRegistry.Rights
import VariableRegistry.Shape
import VariableRegistry.TableFile
import VariableRegistry.Tables.Blob
import VariableRegistry.Tables.Builder
import VariableRegistry.Tables.Declaration
import VariableRegistry.Tables.Fault
import VariableRegistry.Tables.Record
import VariableRegistry.Tables.TableSet
import VariableRegistry.Text.Blank
import VariableRegistry.Text.Printable
import VariableRegistry.Text.Quoted
import VariableRegistry.Text.Utf8
import VariableRegistry.Value
import VariableRegistry.ValueText
import VariableRegistry.VarType
import VariableRegistry.Proofs.Addressing
import VariableRegistry.Proofs.Outcomes
import VariableRegistry.Proofs.Effects
import VariableRegistry.Proofs.NoEffect
import VariableRegistry.Proofs.BlobOffsets
import VariableRegistry.Proofs.EnumerationWords
import VariableRegistry.Proofs.Utf8Codec
import VariableRegistry.Proofs.Acceptance
import VariableRegistry.Proofs.AccessErrors
import VariableRegistry.Proofs.TypedContract
import VariableRegistry.Proofs.Resetting
import VariableRegistry.Proofs.BoundedWrites
import VariableRegistry.Proofs.BuilderAcceptance
import VariableRegistry.Proofs.BuiltRegistries
import VariableRegistry.Proofs.DividedCells
import VariableRegistry.Proofs.EnumerationCells
import VariableRegistry.Proofs.CellWrites
import VariableRegistry.Proofs.StringCells
import VariableRegistry.Proofs.LocalCalls
import VariableRegistry.Proofs.Interleavings
import VariableRegistry.Proofs.ValueTexts
import VariableRegistry.Proofs.TextAccess
import VariableRegistry.Proofs.BlobLists
import VariableRegistry.Proofs.Constants
import VariableRegistry.Proofs.Denial
import VariableRegistry.Proofs.DocumentLeaves
import VariableRegistry.Proofs.Runs
import VariableRegistry.Proofs.JsonNumbers
import VariableRegistry.Proofs.JsonTexts
import VariableRegistry.Proofs.JsonDocuments
import VariableRegistry.Proofs.DataDocuments
import VariableRegistry.Proofs.JsonTables
import VariableRegistry.Proofs.NearestMagnitudes
import VariableRegistry.Proofs.DecimalMagnitudes
import VariableRegistry.Proofs.DecimalTexts
import VariableRegistry.Proofs.FloatTexts
import VariableRegistry.Proofs.FixedTexts
import VariableRegistry.Proofs.TomlScalars
import VariableRegistry.Proofs.TomlTexts
import VariableRegistry.Proofs.TomlValues
import VariableRegistry.Proofs.TomlLines
import VariableRegistry.Proofs.TomlDocuments
import VariableRegistry.Proofs.TomlTables
import VariableRegistry.Proofs.NumeralGrammar
import VariableRegistry.Proofs.BoundedDumps
import VariableRegistry.Proofs.CheckOrder
import VariableRegistry.Proofs.MemberSymbols
import VariableRegistry.Proofs.CalendarDays
import VariableRegistry.Proofs.DateTexts
import VariableRegistry.Proofs.DateAccess
import VariableRegistry.Proofs.FixedAccess
import VariableRegistry.Proofs.DirectoryWords
import VariableRegistry.Proofs.BoundAccess
import VariableRegistry.Proofs.QuotedTexts
import VariableRegistry.Proofs.DumpFidelity
import VariableRegistry.Proofs.RelaxedPolicies
import VariableRegistry.Proofs.StoreSizes
import VariableRegistry.Proofs.CommandOutcomes
import VariableRegistry.Proofs.Utf8Boundaries
import VariableRegistry.Proofs.BoundedWriting
import VariableRegistry.Proofs.DescriptorFaults
import VariableRegistry.Proofs.ModifierChains
