import PanelCalc.Alignment
import PanelCalc.Announcements
import PanelCalc.Arithmetic
import PanelCalc.Arity
import PanelCalc.Batch.Basic
import PanelCalc.Batch.Request
import PanelCalc.Bindings
import PanelCalc.Builtin.Basic
import PanelCalc.Builtin.Call
import PanelCalc.Calendar.Date
import PanelCalc.Calendar.DateText
import PanelCalc.Cell
import PanelCalc.Cellwise
import PanelCalc.CompileError
import PanelCalc.Double.Notation
import PanelCalc.Double.Parts
import PanelCalc.Double.Shortest
import PanelCalc.EvalError
import PanelCalc.Formula.Basic
import PanelCalc.Formula.Builder
import PanelCalc.Formula.Eval
import PanelCalc.Formula.Grammar
import PanelCalc.Formula.Infix
import PanelCalc.Formula.Program
import PanelCalc.Formula.Reader
import PanelCalc.Formula.Simplify
import PanelCalc.Inspect
import PanelCalc.Invoke
import PanelCalc.Lexeme.Basic
import PanelCalc.Lexeme.Scan
import PanelCalc.Lexeme.Symbols
import PanelCalc.Panel.Basic
import PanelCalc.Panel.Reorder
import PanelCalc.Panel.ShapeError
import PanelCalc.Panel.Wire
import PanelCalc.Proofs.Batch.Compiling
import PanelCalc.Proofs.Batch.Inlining
import PanelCalc.Proofs.Batch.Inputs
import PanelCalc.Proofs.Batch.Parsing
import PanelCalc.Proofs.Double.Naturals
import PanelCalc.Proofs.Double.Order
import PanelCalc.Proofs.Double.Unsigned
import PanelCalc.Proofs.Double.Values
import PanelCalc.Proofs.Evaluation.Alike
import PanelCalc.Proofs.Evaluation.Answers
import PanelCalc.Proofs.Evaluation.AverageRanks
import PanelCalc.Proofs.Evaluation.Blame
import PanelCalc.Proofs.Evaluation.ByName
import PanelCalc.Proofs.Evaluation.Causality
import PanelCalc.Proofs.Evaluation.Contexts
import PanelCalc.Proofs.Evaluation.Invariants
import PanelCalc.Proofs.Evaluation.NoLookAhead
import PanelCalc.Proofs.Evaluation.Operands
import PanelCalc.Proofs.Evaluation.Pairs
import PanelCalc.Proofs.Evaluation.PanelMaps
import PanelCalc.Proofs.Evaluation.RankedPairs
import PanelCalc.Proofs.Evaluation.Refusals
import PanelCalc.Proofs.Evaluation.Securities
import PanelCalc.Proofs.Evaluation.SideBySide
import PanelCalc.Proofs.Evaluation.Simulation
import PanelCalc.Proofs.Evaluation.Spellings
import PanelCalc.Proofs.Evaluation.StackFaults
import PanelCalc.Proofs.Evaluation.Validity
import PanelCalc.Proofs.Evaluation.Views
import PanelCalc.Proofs.Evaluation.Windows
import PanelCalc.Proofs.Formula.Compiled
import PanelCalc.Proofs.Formula.Heights
import PanelCalc.Proofs.Formula.NormalForms
import PanelCalc.Proofs.Formula.Normalizing
import PanelCalc.Proofs.Formula.NumericOperators
import PanelCalc.Proofs.Formula.Pending
import PanelCalc.Proofs.Formula.Resolution
import PanelCalc.Proofs.Formula.Running
import PanelCalc.Proofs.Formula.SimplifySoundness
import PanelCalc.Proofs.Formula.Spellings
import PanelCalc.Proofs.Formula.TermValues
import PanelCalc.Proofs.Formula.TreeValues
import PanelCalc.Proofs.Formula.Trimming
import PanelCalc.Proofs.Lexeme.Columns
import PanelCalc.Proofs.Lexeme.Known
import PanelCalc.Proofs.Lexeme.Lookahead
import PanelCalc.Proofs.Lexeme.Meanings
import PanelCalc.Proofs.Lexeme.Next
import PanelCalc.Proofs.Lexeme.Padding
import PanelCalc.Proofs.Lexeme.Quotation
import PanelCalc.Proofs.Lexeme.Renaming
import PanelCalc.Proofs.Lexeme.Scanning
import PanelCalc.Proofs.Lexeme.Spelling
import PanelCalc.Proofs.Lexeme.Tiling
import PanelCalc.Proofs.Lexeme.Trailing
import PanelCalc.Proofs.Lexeme.Trivia
import PanelCalc.Proofs.Panel.Aligning
import PanelCalc.Proofs.Panel.Building
import PanelCalc.Proofs.Panel.Cells
import PanelCalc.Proofs.Panel.Conforming
import PanelCalc.Proofs.Panel.Counting
import PanelCalc.Proofs.Panel.Cuts
import PanelCalc.Proofs.Panel.Exchange
import PanelCalc.Proofs.Panel.Latest
import PanelCalc.Proofs.Panel.Mapped
import PanelCalc.Proofs.Panel.Names
import PanelCalc.Proofs.Panel.Observations
import PanelCalc.Proofs.Panel.Ranks
import PanelCalc.Proofs.Panel.Reordering
import PanelCalc.Proofs.Panel.Restriction
import PanelCalc.Proofs.Printing.Boundaries
import PanelCalc.Proofs.Printing.Brackets
import PanelCalc.Proofs.Printing.Canonical
import PanelCalc.Proofs.Printing.Depth
import PanelCalc.Proofs.Printing.Inorder
import PanelCalc.Proofs.Printing.Merging
import PanelCalc.Proofs.Printing.Neighbours
import PanelCalc.Proofs.Printing.Recovery
import PanelCalc.Proofs.Printing.Rightmost
import PanelCalc.Proofs.Printing.RoundTrip
import PanelCalc.Proofs.Printing.Separation
import PanelCalc.Proofs.Printing.Spellable
import PanelCalc.Proofs.Printing.Text
import PanelCalc.Proofs.Stats.Exact
import PanelCalc.Proofs.Stats.PowerSums
import PanelCalc.Proofs.Stats.Textbook
import PanelCalc.Proofs.Storage.Accessors
import PanelCalc.Proofs.Storage.Alignments
import PanelCalc.Proofs.Storage.Buffers
import PanelCalc.Proofs.Storage.Columns
import PanelCalc.Proofs.Storage.Functions
import PanelCalc.Proofs.Storage.Rows
import PanelCalc.Proofs.Storage.Runs
import PanelCalc.Proofs.Storage.Ties
import PanelCalc.Proofs.Syntax.Acceptance
import PanelCalc.Proofs.Syntax.Accepting
import PanelCalc.Proofs.Syntax.Balance
import PanelCalc.Proofs.Syntax.Building
import PanelCalc.Proofs.Syntax.Completeness
import PanelCalc.Proofs.Syntax.Equivalence
import PanelCalc.Proofs.Syntax.Nesting
import PanelCalc.Proofs.Syntax.Origin
import PanelCalc.Proofs.Syntax.Overflow
import PanelCalc.Proofs.Syntax.Phrases
import PanelCalc.Proofs.Syntax.Reading
import PanelCalc.Proofs.Syntax.Renaming
import PanelCalc.Proofs.Syntax.Settling
import PanelCalc.Proofs.Syntax.Splicing
import PanelCalc.Proofs.Syntax.Term
import PanelCalc.Proofs.Syntax.Tree
import PanelCalc.Proofs.Syntax.UnderWay
import PanelCalc.Proofs.Syntax.Viability
import PanelCalc.Proofs.Text.LowerCase
import PanelCalc.Proofs.Text.Quoted
import PanelCalc.Proofs.Text.Words
import PanelCalc.Proofs.Vocabulary.BuiltinOperators
import PanelCalc.Proofs.Vocabulary.Extension
import PanelCalc.Proofs.Vocabulary.Histories
import PanelCalc.Proofs.Vocabulary.Invocation
import PanelCalc.Proofs.Vocabulary.Keyed
import PanelCalc.Proofs.Vocabulary.Reachable
import PanelCalc.Proofs.Vocabulary.Spellings
import PanelCalc.Proofs.Vocabulary.Usage
import PanelCalc.Ranking
import PanelCalc.Series
import PanelCalc.Stats.JointMoments
import PanelCalc.Stats.Moments
import PanelCalc.Stats.Reducers
import PanelCalc.Text.Alphabetic
import PanelCalc.Text.Blank
import PanelCalc.Text.CaseIgnorable
import PanelCalc.Text.Cased
import PanelCalc.Text.CharRanges
import PanelCalc.Text.Cursor
import PanelCalc.Text.DoubleQuoted
import PanelCalc.Text.Hidden
import PanelCalc.Text.Lowercase
import PanelCalc.Text.Numeric
import PanelCalc.Text.Quoted
import PanelCalc.Text.Word
import PanelCalc.Value
import PanelCalc.Vocabulary.Basic
import PanelCalc.Vocabulary.Builtin
import PanelCalc.Vocabulary.Priority
import PanelCalc.Vocabulary.Register
