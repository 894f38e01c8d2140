import SqlDialects.Main
import SqlDialects.Service.Live
import SqlDialects.Wire
import SqlDialects.Proofs.Lexer
import SqlDialects.Proofs.Reader
import SqlDialects.Proofs.Spelling
import SqlDialects.Proofs.OperatorTree
import SqlDialects.Proofs.Climbing
import SqlDialects.Proofs.RoundTrip
import SqlDialects.Proofs.Canonical
import SqlDialects.Proofs.Engines
import SqlDialects.Proofs.Translation
import SqlDialects.Proofs.RuleOrder
import SqlDialects.Proofs.Quoting
import SqlDialects.Proofs.Coverage
import SqlDialects.Proofs.CallNames
import SqlDialects.Proofs.Renaming
import SqlDialects.Proofs.Reach
import SqlDialects.Proofs.Overrides
import SqlDialects.Proofs.Reload
import SqlDialects.Proofs.Overlap
import SqlDialects.Proofs.ResultCache
import SqlDialects.Proofs.Unmappable
import SqlDialects.Proofs.Aliases
import SqlDialects.Proofs.Enclosed
import SqlDialects.Proofs.Bindings
import SqlDialects.Proofs.Registration
import SqlDialects.Proofs.Rounds
import SqlDialects.Proofs.TableColumns
import SqlDialects.Proofs.CharWidths
import SqlDialects.Proofs.KeyTypes
import SqlDialects.Proofs.PartitionSources
import SqlDialects.Proofs.PatternMeaning
import SqlDialects.Proofs.NativeTypes
import SqlDialects.Proofs.DorisTypes
import SqlDialects.Proofs.IntervalNumbers
import SqlDialects.Proofs.PatternWriting
import SqlDialects.Proofs.CaseValues
import SqlDialects.Proofs.JsonKeys
import SqlDialects.Proofs.FinerUnits
import SqlDialects.Proofs.FoldedArithmetic
import SqlDialects.Proofs.AggregateFilters
import SqlDialects.Proofs.StatementProgress
import SqlDialects.Proofs.RecentLines
import SqlDialects.Proofs.TypeEquality
import SqlDialects.Proofs.Layout
import SqlDialects.Proofs.ParsedShapes
import SqlDialects.Proofs.QueryTrees
import SqlDialects.Proofs.ErrorPlaces
import SqlDialects.Proofs.ScriptTrees
import SqlDialects.Proofs.StatementTexts
