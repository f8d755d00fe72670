import TypedConfig.Main
import TypedConfig.Proofs.Lists
import TypedConfig.Proofs.Accepted
import TypedConfig.Proofs.Reachability
import TypedConfig.Proofs.Evaluator
import TypedConfig.Proofs.Refinement
import TypedConfig.Proofs.Discipline
import TypedConfig.Proofs.Values
import TypedConfig.Proofs.Preservation
import TypedConfig.Proofs.StackSafety
import TypedConfig.Proofs.Conformance
import TypedConfig.Proofs.Members
import TypedConfig.Proofs.Effects
import TypedConfig.Proofs.Boundaries
import TypedConfig.Proofs.FailedRuns
import TypedConfig.Proofs.Likeness
import TypedConfig.Proofs.Pruning
import TypedConfig.Proofs.Grammar
import TypedConfig.Proofs.Readers
import TypedConfig.Proofs.ParserSound
import TypedConfig.Proofs.ParserComplete
import TypedConfig.Proofs.Rendering
import TypedConfig.Proofs.Gaps
import TypedConfig.Proofs.Tokenizing
import TypedConfig.Proofs.Coverage
import TypedConfig.Proofs.Joining
import TypedConfig.Proofs.Outlines
import TypedConfig.Proofs.WellFormed
import TypedConfig.Proofs.ErrorPlaces
import TypedConfig.Proofs.ParserSpans
import TypedConfig.Proofs.ParserFaults
import TypedConfig.Proofs.Limits
import TypedConfig.Proofs.Needs
import TypedConfig.Proofs.Histories
import TypedConfig.Proofs.Nesting
import TypedConfig.Proofs.Acceptance
import TypedConfig.Proofs.Initializers
import TypedConfig.Proofs.Dispatch
import TypedConfig.Proofs.Origins
import TypedConfig.Proofs.Reading
import TypedConfig.Proofs.Mentions
import TypedConfig.Proofs.Commuting
import TypedConfig.Proofs.Aliases
import TypedConfig.Proofs.SyntaxErrors
import TypedConfig.Proofs.Cursors
import TypedConfig.Proofs.Following
import TypedConfig.Proofs.WrittenTypes
import TypedConfig.Proofs.TypeNames
import TypedConfig.Proofs.Vocabulary
import TypedConfig.Proofs.Mismatches
import TypedConfig.Proofs.TypeTexts
import TypedConfig.Proofs.Decimals
import TypedConfig.Proofs.JsonReader
import TypedConfig.Proofs.JsonNumbers
import TypedConfig.Proofs.JsonTrees
import TypedConfig.Proofs.Dumps
import TypedConfig.Proofs.Listings
import TypedConfig.Proofs.Inputs
import TypedConfig.Proofs.LogLevels
import TypedConfig.Proofs.ScopeStack
