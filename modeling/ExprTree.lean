import ExprTree.Parser.Outcome
import ExprTree.Parser.Chain
import ExprTree.Text.Alphabetic
import ExprTree.Text.Numeric
import ExprTree.Text.Blank
import ExprTree.Text.Combining
import ExprTree.Text.Unprintable
import ExprTree.Stack
import ExprTree.AvlMap.Basic
import ExprTree.Ty.Delegate
import ExprTree.Decimal
import ExprTree.Binary.Numeral
import ExprTree.Binary.Shortest
import ExprTree.Expr.Printer
import ExprTree.Builder.Standard
import ExprTree.Scope
import ExprTree.Main
import ExprTree.Proofs.Parser.Repetition
import ExprTree.Proofs.Grammar.Unambiguous
import ExprTree.Proofs.Grammar.Scoping
import ExprTree.Proofs.Grammar.Soundness
import ExprTree.Proofs.Grammar.Binding
import ExprTree.Proofs.Grammar.RoundTrip
import ExprTree.Proofs.Parser.Safety
import ExprTree.Proofs.Parser.Chain
import ExprTree.Proofs.Parser.Acceptance
import ExprTree.Proofs.Grammar.Descent
import ExprTree.Proofs.Grammar.Relevance
import ExprTree.Proofs.Grammar.TypeNames
import ExprTree.Proofs.Grammar.Parameters
import ExprTree.Proofs.Decimal
import ExprTree.Proofs.Scope.History
import ExprTree.Proofs.Grammar.PrintedNumbers
import ExprTree.Proofs.Grammar.PrintedText
import ExprTree.Proofs.AvlMap.Height
import ExprTree.Proofs.AvlMap.Range
import ExprTree.Proofs.AvlMap.Equality
import ExprTree.Proofs.AvlMap.Rebinding
import ExprTree.Proofs.Builder.Selection
import ExprTree.Proofs.Ty.Delegate
import ExprTree.Proofs.Grammar.Words
