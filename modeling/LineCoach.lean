import LineCoach.Main
import LineCoach.Proofs.Report.Views
import LineCoach.Proofs.Concrete.Spans
import LineCoach.Proofs.Analyzer.BuiltIn
import LineCoach.Proofs.Analyzer.Scope
import LineCoach.Proofs.Analyzer.Limit
import LineCoach.Proofs.Finder.Exclusion
import LineCoach.Proofs.Analyzer.Exclusion
import LineCoach.Proofs.Classifier.Reporter
import LineCoach.Proofs.Command.Selection
import LineCoach.Proofs.Analyzer.Loosening
import LineCoach.Proofs.Tree.Successor
import LineCoach.Proofs.Tree.SameLine
import LineCoach.Proofs.Classifier.Unwrap
import LineCoach.Proofs.Classifier.Operands
import LineCoach.Proofs.Analyzer.Warnings
import LineCoach.Proofs.Concrete.FirstError
import LineCoach.Proofs.Text.Lines
import LineCoach.Proofs.Text.Positions
import LineCoach.Proofs.Concrete.Kept
import LineCoach.Proofs.Classifier.LoneComment
import LineCoach.Proofs.Concrete.Extras
import LineCoach.Proofs.Pattern.Reading
import LineCoach.Proofs.Pattern.Cutting
import LineCoach.Proofs.Finder.Acceptance
import LineCoach.Proofs.Path.Names
import LineCoach.Proofs.Pattern.Literal
import LineCoach.Proofs.Finder.SpelledNames
import LineCoach.Proofs.FileTree.Order
import LineCoach.Proofs.Analyzer.Once
import LineCoach.Proofs.Finder.Discovery
import LineCoach.Proofs.Path.Short
import LineCoach.Proofs.Text.Words
import LineCoach.Proofs.Concrete.ParameterList
import LineCoach.Proofs.Concrete.Literals
import LineCoach.Path.Raw
import LineCoach.Proofs.Path.Raw
