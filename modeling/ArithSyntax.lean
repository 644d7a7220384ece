import ArithSyntax.Cursor.Command
import ArithSyntax.Proofs.Blame
import ArithSyntax.Proofs.Commitment
import ArithSyntax.Proofs.Completion
import ArithSyntax.Proofs.Composition
import ArithSyntax.Proofs.Coverage
import ArithSyntax.Proofs.Embedding
import ArithSyntax.Proofs.Foreign
import ArithSyntax.Proofs.Spacing
import ArithSyntax.Session
import ArithSyntax.Proofs.Strictness
import ArithSyntax.Proofs.Elasticity
import ArithSyntax.Proofs.Substitution
import ArithSyntax.Proofs.Operators
import ArithSyntax.Proofs.History
import ArithSyntax.Proofs.Journal
import ArithSyntax.Proofs.Unclosed
import ArithSyntax.Proofs.LiteralFault
import ArithSyntax.Proofs.Leftover
import ArithSyntax.Proofs.Numeral
import ArithSyntax.Proofs.DigitLimit
import ArithSyntax.Proofs.Quotation
import ArithSyntax.Proofs.Display
import ArithSyntax.Proofs.Excerpt
import ArithSyntax.Proofs.CaretLine
import ArithSyntax.Proofs.Command
import ArithSyntax.Proofs.Locality
import ArithSyntax.Proofs.Progress
import ArithSyntax.Proofs.LongestLiteral
