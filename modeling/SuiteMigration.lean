import SuiteMigration.Arguments
import SuiteMigration.Batch
import SuiteMigration.Discovery
import SuiteMigration.Expectation
import SuiteMigration.Expectation.Throwing
import SuiteMigration.Failure
import SuiteMigration.FileAccess
import SuiteMigration.FileTree
import SuiteMigration.Import
import SuiteMigration.Lexeme
import SuiteMigration.LineDiff
import SuiteMigration.Main
import SuiteMigration.Migration
import SuiteMigration.Pass
import SuiteMigration.Path
import SuiteMigration.Piece
import SuiteMigration.Pool
import SuiteMigration.Reading.Cursor
import SuiteMigration.Reading.Grammar
import SuiteMigration.Reading.Header
import SuiteMigration.Reading.Lookahead
import SuiteMigration.Reading.Runs
import SuiteMigration.Reading.Source
import SuiteMigration.Reading.Words
import SuiteMigration.Report
import SuiteMigration.Run
import SuiteMigration.Settings
import SuiteMigration.Span
import SuiteMigration.Strategy
import SuiteMigration.Suite.Conversion
import SuiteMigration.Suite.Lifecycle
import SuiteMigration.Suite.Qualification
import SuiteMigration.Suite.Symbols
import SuiteMigration.Suite.Writes
import SuiteMigration.Text.Identifier
import SuiteMigration.Text.Lines
import SuiteMigration.Text.Ranges
import SuiteMigration.Text.Uppercase
import SuiteMigration.Text.WhiteSpace
import SuiteMigration.Token
import SuiteMigration.Token.Attachment
import SuiteMigration.Tree
import SuiteMigration.Tree.Layout
import SuiteMigration.Tree.Names
import SuiteMigration.Tree.Tokens
import SuiteMigration.Tree.Transform
import SuiteMigration.Tree.Walk
import SuiteMigration.Trivia
import SuiteMigration.Workspace
import SuiteMigration.Yaml.Document
import SuiteMigration.Yaml.Property
import SuiteMigration.Yaml.Reader
import SuiteMigration.Yaml.Scalar
import SuiteMigration.Yaml.Token
import SuiteMigration.Yaml.Tokenizer
import SuiteMigration.Proofs.Reading.Consumption
import SuiteMigration.Proofs.Reading.Header
import SuiteMigration.Proofs.Reading.Settlement
import SuiteMigration.Proofs.Reading.Expressions
import SuiteMigration.Proofs.Reading.Statements
import SuiteMigration.Proofs.Reading.Losslessness
import SuiteMigration.Proofs.Reading.Range
import SuiteMigration.Proofs.Reading.Safety
import SuiteMigration.Proofs.Reading.Shapes
import SuiteMigration.Proofs.Reading.Echoes
import SuiteMigration.Proofs.Reading.Extents
import SuiteMigration.Proofs.Reading.Foresight
import SuiteMigration.Proofs.Reading.Mirrors
import SuiteMigration.Proofs.Reading.Lockstep
import SuiteMigration.Proofs.Reading.Locality
import SuiteMigration.Proofs.Reading.Arrival
import SuiteMigration.Proofs.Reading.Operands
import SuiteMigration.Proofs.Reading.Continuation
import SuiteMigration.Proofs.Lexing.Comments
import SuiteMigration.Proofs.Lexing.Extent
import SuiteMigration.Proofs.Lexing.Words
import SuiteMigration.Proofs.Lexing.Boundaries
import SuiteMigration.Proofs.Lexing.Literals
import SuiteMigration.Proofs.Lexing.Leading
import SuiteMigration.Proofs.Lexing.Gaps
import SuiteMigration.Proofs.Lexing.Legibility
import SuiteMigration.Proofs.Lexing.Exchange
import SuiteMigration.Proofs.Lexing.Excision
import SuiteMigration.Proofs.Lexing.Renaming
import SuiteMigration.Proofs.Reading.Progress
import SuiteMigration.Proofs.Reading.Calls
import SuiteMigration.Proofs.Reading.Imports
import SuiteMigration.Proofs.Reading.Declarations
import SuiteMigration.Proofs.Tree.LegacyCalls
import SuiteMigration.Proofs.Tree.Filling
import SuiteMigration.Proofs.Tree.Retouching
import SuiteMigration.Proofs.Tree.Counting
import SuiteMigration.Proofs.Tree.Shapes
import SuiteMigration.Proofs.Tree.Molding
import SuiteMigration.Proofs.Tree.Rendering
import SuiteMigration.Proofs.Tree.Outlines
import SuiteMigration.Proofs.Tree.Spacing
import SuiteMigration.Proofs.Tree.Tracing
import SuiteMigration.Proofs.Tree.Assembly
import SuiteMigration.Proofs.Tree.Lenses
import SuiteMigration.Proofs.Tree.Margins
import SuiteMigration.Proofs.Tree.Traversals
import SuiteMigration.Proofs.Tree.Cuts
import SuiteMigration.Proofs.Tree.Reworking
import SuiteMigration.Proofs.Tree.Ends
import SuiteMigration.Proofs.Tree.Bodies
import SuiteMigration.Proofs.Tree.Places
import SuiteMigration.Proofs.Tree.Spots
import SuiteMigration.Proofs.Expectation.Assertions
import SuiteMigration.Proofs.Expectation.Throwing
import SuiteMigration.Proofs.Expectation.Handlers
import SuiteMigration.Proofs.Expectation.Bindings
import SuiteMigration.Proofs.Expectation.Comments
import SuiteMigration.Proofs.Expectation.Stripping
import SuiteMigration.Proofs.Expectation.Conditions
import SuiteMigration.Proofs.Expectation.Rereading
import SuiteMigration.Proofs.Expectation.Negation
import SuiteMigration.Proofs.Expectation.Comparison
import SuiteMigration.Proofs.Expectation.Refusals
import SuiteMigration.Proofs.Expectation.Redirecting
import SuiteMigration.Proofs.Expectation.Conservation
import SuiteMigration.Proofs.Expectation.Placing
import SuiteMigration.Proofs.Expectation.Flattening
import SuiteMigration.Proofs.Expectation.Layout
import SuiteMigration.Proofs.Expectation.Reindentation
import SuiteMigration.Proofs.Suite.Bodies
import SuiteMigration.Proofs.Suite.Members
import SuiteMigration.Proofs.Suite.Inheritance
import SuiteMigration.Proofs.Suite.Lifecycle
import SuiteMigration.Proofs.Suite.Nesting
import SuiteMigration.Proofs.Suite.Hooks
import SuiteMigration.Proofs.Suite.Mutating
import SuiteMigration.Proofs.Suite.Writes
import SuiteMigration.Proofs.Suite.Qualification
import SuiteMigration.Proofs.Migration.Assertions
import SuiteMigration.Proofs.Migration.Changes
import SuiteMigration.Proofs.Migration.Untouched
import SuiteMigration.Proofs.Migration.Shapes
import SuiteMigration.Proofs.Migration.Imports
import SuiteMigration.Proofs.Migration.Removal
import SuiteMigration.Proofs.Migration.Repetition
import SuiteMigration.Proofs.Pool.Schedules
import SuiteMigration.Proofs.Files.Trees
import SuiteMigration.Proofs.Files.Batches
import SuiteMigration.Proofs.Files.Discovery
import SuiteMigration.Proofs.Files.Runs
import SuiteMigration.Proofs.Lexing.Lineation
import SuiteMigration.Proofs.Files.Sorting
import SuiteMigration.Proofs.Files.Differences
import SuiteMigration.Proofs.Suite.Shadowing
