import LCode.Command.Run
import LCode.Cursor.Move
import LCode.Diagnostic
import LCode.Main
import LCode.Scan
import LCode.Proofs.LexemePattern
import LCode.Proofs.MaximalMunch
import LCode.Proofs.ReferenceScan
import LCode.Proofs.LineTiling
import LCode.Proofs.SourceTiling
import LCode.Proofs.Coverage
import LCode.Proofs.DigitRun
import LCode.Proofs.FloatReading
import LCode.Proofs.Spelling
import LCode.Proofs.Concatenation
import LCode.Proofs.LiteralGrammar
import LCode.Proofs.NumeralRun
import LCode.Proofs.ScanRun
import LCode.Proofs.ErrorPlace
import LCode.Proofs.NumberStep
import LCode.Proofs.Separation
import LCode.Proofs.WrittenText
import LCode.Proofs.CutText
import LCode.Proofs.EditedLines
import LCode.Proofs.LineEndings
import LCode.Proofs.Juncture
import LCode.Proofs.CommentStripping
import LCode.Proofs.BlankInsertion
import LCode.Proofs.Adjacency
import LCode.Proofs.CaretPlace
import LCode.Proofs.CheckedDiagnostic
import LCode.Proofs.PatternOrder
import LCode.Proofs.NearestNumber
import LCode.Proofs.LoneLexeme
import LCode.Proofs.Lookup
import LCode.Proofs.FloatRounding
import LCode.Proofs.NumberText
import LCode.Proofs.ValueText
import LCode.Proofs.RenderedToken
import LCode.Proofs.CheckedScan
import LCode.Proofs.CommandRun
import LCode.Proofs.ErrorMessage
import LCode.Proofs.ArgumentRules
import LCode.Proofs.ArgumentLanguage
import LCode.Proofs.CursorMoves
import LCode.Proofs.ScanIterations
