import NumberedBasic.Main
import NumberedBasic.Proofs.Footprint
import NumberedBasic.Proofs.OrdinaryFaults
import NumberedBasic.Proofs.EvaluationFrame
import NumberedBasic.Proofs.StatementRules
import NumberedBasic.Proofs.LexemeReaders
import NumberedBasic.Proofs.EnoughDepth
import NumberedBasic.Proofs.CursorReading
import NumberedBasic.Proofs.BlockReading
import NumberedBasic.Proofs.Loading
import NumberedBasic.Proofs.SessionInvariant
import NumberedBasic.Proofs.BudgetIndependence
import NumberedBasic.Proofs.LastDefinition
import NumberedBasic.Proofs.NameTags
import NumberedBasic.Proofs.LoopStack
import NumberedBasic.Proofs.ExpressionReading
import NumberedBasic.Proofs.Precedence
import NumberedBasic.Proofs.SteadyReading
import NumberedBasic.Proofs.SteadyStatements
import NumberedBasic.Proofs.Rescanning
import NumberedBasic.Proofs.ListedText
import NumberedBasic.Proofs.Merging
import NumberedBasic.Proofs.Joining
import NumberedBasic.Proofs.ListedTokens
import NumberedBasic.Proofs.ListingRoundTrip
import NumberedBasic.Proofs.RunHistory
import NumberedBasic.Proofs.Subroutines
import NumberedBasic.Proofs.ValueTypes
import NumberedBasic.Proofs.WrittenText
import NumberedBasic.Proofs.EndOfRun
import NumberedBasic.Proofs.EvaluationEnds
import NumberedBasic.Proofs.ProgramOrder
import NumberedBasic.Proofs.StraightLine
import NumberedBasic.Proofs.PassedLoops
import NumberedBasic.Proofs.ArrayStore
import NumberedBasic.Proofs.Replies
import NumberedBasic.Proofs.ReplyFields
import NumberedBasic.Proofs.ParameterBinding
import NumberedBasic.Proofs.DataLists
import NumberedBasic.Proofs.PrintColumn
import NumberedBasic.Proofs.DataOrder
import NumberedBasic.Proofs.LetterCase
import NumberedBasic.Proofs.Layout
import NumberedBasic.Proofs.Columns
import NumberedBasic.Proofs.Separators
import NumberedBasic.Proofs.LineNumbers
import NumberedBasic.Proofs.Doubles
import NumberedBasic.Proofs.Rounding
import NumberedBasic.Proofs.Nearest
import NumberedBasic.Proofs.IntegerParts
import NumberedBasic.Proofs.NumberReaders
import NumberedBasic.Proofs.WholeNumbers
import NumberedBasic.Proofs.CheckedReading
import NumberedBasic.Proofs.CheckedRuns
