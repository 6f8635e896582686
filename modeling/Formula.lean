import Formula.Binary64
import Formula.Calculation
import Formula.Character
import Formula.Character.Alphabetic
import Formula.Character.Blank
import Formula.Character.Numeric
import Formula.Character.Ranges
import Formula.Decimal
import Formula.Decimal.Reading
import Formula.Decimal.Shortest
import Formula.Environment
import Formula.Event
import Formula.Expr
import Formula.Expr.Display
import Formula.Expr.Evaluation
import Formula.Expr.Variables
import Formula.Grammar
import Formula.Json
import Formula.Json.Interchange
import Formula.Json.Lexeme
import Formula.Json.Number
import Formula.Json.Reading
import Formula.Proofs.Grammar.Acceptance
import Formula.Proofs.Grammar.Derivation
import Formula.Proofs.Grammar.Reading
import Formula.Proofs.Grammar.Soundness
import Formula.Session
import Formula.Token
import Formula.Token.Scan
import Formula.Proofs.Grammar.Height
import Formula.Proofs.Decimal.Exact
import Formula.Proofs.Decimal.RoundTrip
import Formula.Proofs.Display.Scan
import Formula.Proofs.Display.RoundTrip
import Formula.Proofs.Token.Lexeme
import Formula.Proofs.Token.Segmentation
import Formula.Proofs.Grammar.Stopping
import Formula.Proofs.Grammar.Failure
import Formula.Proofs.Grammar.FirstError
import Formula.Proofs.Grammar.Threshold
import Formula.Proofs.Grammar.Ending
import Formula.Proofs.Grammar.Machine
import Formula.Proofs.Binary64.Sign
import Formula.Proofs.Binary64.Unsigned
import Formula.Proofs.Display.Signed
import Formula.Proofs.Token.Concatenation
import Formula.Proofs.Token.Separator
import Formula.Proofs.Token.Cut
import Formula.Proofs.Token.Fault
import Formula.Proofs.Token.Literal
import Formula.Proofs.Token.Breakdown
import Formula.Proofs.Grammar.Position
import Formula.Proofs.Grammar.Leaves
import Formula.Proofs.Expr.Arithmetic
import Formula.Proofs.Expr.Faults
import Formula.Proofs.Expr.Variables
import Formula.Proofs.Expr.Visits
import Formula.Proofs.Expr.Missing
import Formula.Proofs.Decimal.Overflow
import Formula.Proofs.Calculation.Layout
import Formula.Proofs.Calculation.Composition
import Formula.Proofs.Calculation.Log
import Formula.Proofs.Calculation.Inputs
import Formula.Proofs.Calculation.ErrorPlace
import Formula.Proofs.Calculation.Numbers
import Formula.Proofs.Json.Interchange
import Formula.Proofs.Grammar.Counter
import Formula.Proofs.Grammar.Execution
import Formula.Proofs.Grammar.Discipline
import Formula.Proofs.Grammar.Nesting
