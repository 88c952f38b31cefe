import Packrat.Formula.Grammar
import Packrat.Item.Expression
import Packrat.Json.Grammar
import Packrat.Scalar.Grammar
import Packrat.Proofs.Grammar.Registry
import Packrat.Proofs.Grammar.WellFormed
import Packrat.Proofs.Grammar.AliasOrder
import Packrat.Proofs.Grammar.AliasIndex
import Packrat.Proofs.Grammar.AliasSort
import Packrat.Proofs.Grammar.Faults
import Packrat.Proofs.Grammar.Calls
import Packrat.Proofs.Grammar.Records
import Packrat.Proofs.Grammar.Validation
import Packrat.Proofs.Chart.Cells
import Packrat.Proofs.Chart.Evaluates
import Packrat.Proofs.Derivation.Basic
import Packrat.Proofs.Derivation.Sound
import Packrat.Proofs.Chart.Termination
import Packrat.Proofs.Chart.Reachable
import Packrat.Proofs.Chart.Lookup
import Packrat.Proofs.Chart.Leaves
import Packrat.Proofs.Reference.Basic
import Packrat.Proofs.Derivation.Counted
import Packrat.Proofs.Reference.Guarded
import Packrat.Proofs.Reference.Erase
import Packrat.Proofs.Reference.Region
import Packrat.Proofs.Reference.Refines
import Packrat.Proofs.Reference.Growth
import Packrat.Proofs.Reference.Lookup
import Packrat.Proofs.Derivation.Tiling
import Packrat.Proofs.Scan.Cuts
import Packrat.Proofs.History.Basic
import Packrat.Proofs.History.Orderly
import Packrat.Proofs.History.Moves
import Packrat.Proofs.History.Identity
import Packrat.Proofs.History.Stability
import Packrat.Proofs.History.Tiling
import Packrat.Proofs.Regex.Backtrack
import Packrat.Proofs.Regex.Recognizes
import Packrat.Proofs.Regex.Firm
import Packrat.Proofs.Regex.Enclosed
import Packrat.Proofs.Regex.Relocated
import Packrat.Proofs.Regex.Ways
import Packrat.Proofs.Scan.Longest
import Packrat.Proofs.Scan.Spelling
import Packrat.Proofs.Scan.Leaves
import Packrat.Proofs.Evaluation.Numbering
import Packrat.Proofs.Evaluation.Worth
import Packrat.Proofs.Evaluation.Lookups
import Packrat.Proofs.Evaluation.Once
import Packrat.Proofs.Evaluation.Calls
import Packrat.Proofs.Evaluation.Idle
import Packrat.Proofs.Evaluation.Replay
import Packrat.Proofs.Evaluation.FirstCase
import Packrat.Proofs.Derivation.Inversion
import Packrat.Proofs.Reading.Lexemes
import Packrat.Proofs.Reading.Frontier
import Packrat.Proofs.Reading.Steps
import Packrat.Proofs.Reading.Whole
import Packrat.Proofs.Json.Ready
import Packrat.Proofs.Json.Tokens
import Packrat.Proofs.Json.Document
import Packrat.Proofs.Json.Values
import Packrat.Proofs.Json.Complete
import Packrat.Proofs.Json.Sound
import Packrat.Proofs.Json.Read
import Packrat.Proofs.Json.Escapes
import Packrat.Proofs.Json.Strings
import Packrat.Proofs.Formula.Trees
import Packrat.Proofs.Formula.Ready
import Packrat.Proofs.Formula.Tokens
import Packrat.Proofs.Formula.Chain
import Packrat.Proofs.Formula.Priorities
import Packrat.Proofs.Formula.Machine
import Packrat.Proofs.Formula.Values
import Packrat.Proofs.Formula.Complete
import Packrat.Proofs.Formula.Sound
import Packrat.Proofs.Formula.Read
import Packrat.Proofs.Bridge.Basic
import Packrat.Proofs.Bridge.Simulation
import Packrat.Proofs.Bridge.Moved
import Packrat.Proofs.Bridge.Reentry
import Packrat.Proofs.Bridge.Gaps
import Packrat.Proofs.Bridge.Spacing
import Packrat.Proofs.Scan.Aliases
import Packrat.Proofs.Scan.Selection
import Packrat.Proofs.Derivation.Carried
import Packrat.Proofs.History.Origins
import Packrat.Proofs.History.Positions
import Packrat.Proofs.History.Requests
import Packrat.Proofs.Reading.Written
import Packrat.Proofs.Scan.Lengths
import Packrat.Proofs.Scan.Greatest
import Packrat.Proofs.Regex.Anchored
import Packrat.Proofs.Reference.Placed
import Packrat.Proofs.Reference.Mirrors
import Packrat.Proofs.Reference.Reordered
import Packrat.Proofs.Reference.SeedOrder
import Packrat.Proofs.Reference.GrowthOrder
import Packrat.Proofs.Decimal.Digits
import Packrat.Proofs.Formula.Numerals
import Packrat.Proofs.Json.Nulls
import Packrat.Proofs.Grammar.Attachments
import Packrat.Proofs.Evaluation.Descent
import Packrat.Proofs.Scan.Slices
import Packrat.Proofs.Evaluation.Searches
