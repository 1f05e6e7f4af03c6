import SearchCompiler.Main
import SearchCompiler.Proofs.Leaves
import SearchCompiler.Proofs.Meaning
import SearchCompiler.Proofs.Decoding
import SearchCompiler.Proofs.Outcome
import SearchCompiler.Proofs.Precedence
import SearchCompiler.Proofs.FilterDocuments
import SearchCompiler.Proofs.Nodes
import SearchCompiler.Proofs.DocumentReading
import SearchCompiler.Proofs.NormalForm
import SearchCompiler.Proofs.SearchedText
import SearchCompiler.Proofs.DistinctNames
import SearchCompiler.Proofs.WrittenOptions
import SearchCompiler.Proofs.CanonicalOptions
import SearchCompiler.Proofs.Grammar
import SearchCompiler.Proofs.Discovery
import SearchCompiler.Proofs.Ancestors
import SearchCompiler.Proofs.MergedSettings
import SearchCompiler.Proofs.Shielding
import SearchCompiler.Proofs.GlobalFile
import SearchCompiler.Proofs.TomlStrings
import SearchCompiler.Proofs.TomlLines
import SearchCompiler.Proofs.PrintedSettings
import SearchCompiler.Proofs.Agreement
import SearchCompiler.Proofs.UnusedSettings
import SearchCompiler.Proofs.AddedSwitch
import SearchCompiler.Proofs.PrintedDocument
import SearchCompiler.Proofs.Respelling
import SearchCompiler.Proofs.CommentedOut
import SearchCompiler.Proofs.GrownFiles
import SearchCompiler.Proofs.Sessions
import SearchCompiler.Proofs.RewrittenLevels
import SearchCompiler.Proofs.MemberOrder
import SearchCompiler.Proofs.IncludedForms
import SearchCompiler.Proofs.FirstFault
import SearchCompiler.Proofs.EquivalentForms
import SearchCompiler.Proofs.BoostPresence
import SearchCompiler.Proofs.UnambiguousLeaves
import SearchCompiler.Proofs.LeafPlaces
import SearchCompiler.Proofs.InsertionOrder
import SearchCompiler.Proofs.AggregationDocuments
import SearchCompiler.Proofs.AggregationDescriptions
import SearchCompiler.Proofs.ConditionRows
import SearchCompiler.Proofs.OneLineTexts
import SearchCompiler.Proofs.TextLines
import SearchCompiler.Proofs.OutlineNodes
import SearchCompiler.Proofs.DelimitedTexts
import SearchCompiler.Proofs.OutlineReading
import SearchCompiler.Proofs.ListedFiles
import SearchCompiler.Proofs.NearestDefinition
import SearchCompiler.Proofs.SettingWarnings
import SearchCompiler.Proofs.TomlTables
import SearchCompiler.Proofs.KnownSettings
