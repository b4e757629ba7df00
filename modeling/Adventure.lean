import Adventure.Main
import Adventure.Proofs.Transitions
import Adventure.Proofs.Lookahead
import Adventure.Proofs.Progress
import Adventure.Proofs.Nesting
import Adventure.Proofs.Termination
import Adventure.Proofs.Scopes
import Adventure.Proofs.Balance
import Adventure.Proofs.Lexing
import Adventure.Proofs.Syntax
import Adventure.Proofs.Printing
import Adventure.Proofs.Bindings
import Adventure.Proofs.Reading
import Adventure.Proofs.Precedence
import Adventure.Proofs.Spelling
import Adventure.Proofs.Expressions
import Adventure.Proofs.Programs
import Adventure.Proofs.Statements
import Adventure.Proofs.Invariants
import Adventure.Proofs.Agreement
import Adventure.Proofs.Reports
import Adventure.Proofs.Limits
import Adventure.Proofs.Lexemes
import Adventure.Proofs.Meaning
import Adventure.Proofs.Standing
import Adventure.Proofs.Occurrences
import Adventure.Proofs.Declarations
import Adventure.Proofs.Undefined
import Adventure.Proofs.Independence
import Adventure.Proofs.Freshness
import Adventure.Proofs.Uses
import Adventure.Proofs.Languages
import Adventure.Proofs.Positions
import Adventure.Proofs.Boundaries
import Adventure.Proofs.Passing
import Adventure.Proofs.Tracing
import Adventure.Proofs.ExpressionTraces
import Adventure.Proofs.StatementTraces
import Adventure.Proofs.Soundness
import Adventure.Proofs.Naturality
import Adventure.Proofs.StatementNaturality
import Adventure.Proofs.Forgetting
import Adventure.Proofs.Layout
import Adventure.Proofs.Anchors
import Adventure.Proofs.Isolation
import Adventure.Proofs.Histories
import Adventure.Proofs.Frames
import Adventure.Proofs.Reservations
import Adventure.Proofs.Shapes
import Adventure.Proofs.Exports
import Adventure.Proofs.Resolution
import Adventure.Proofs.Shifting
import Adventure.Proofs.Recovery
import Adventure.Proofs.Mending
import Adventure.Proofs.Semicolons
import Adventure.Proofs.Rendering
import Adventure.Proofs.StatementSurveys
import Adventure.Proofs.Levels
import Adventure.Proofs.Braces
import Adventure.Proofs.Mirroring
import Adventure.Proofs.SourceOrder
import Adventure.Proofs.Registrations
import Adventure.Proofs.Separation
import Adventure.Proofs.Checking
import Adventure.Proofs.Operators
