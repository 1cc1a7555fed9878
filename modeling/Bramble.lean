import Bramble.Eval.Basic
import Bramble.Eval.Builtin
import Bramble.Eval.Call
import Bramble.Eval.Error
import Bramble.Eval.Operator
import Bramble.Eval.Tree
import Bramble.Grammar.Cursor
import Bramble.Grammar.Error
import Bramble.Grammar.Expression
import Bramble.Grammar.Parser
import Bramble.Grammar.Reading
import Bramble.Grammar.Statement
import Bramble.Machine.Basic
import Bramble.Machine.Description
import Bramble.Machine.Frame
import Bramble.Machine.Value
import Bramble.Main
import Bramble.Program.Basic
import Bramble.Proofs.Eval.Arguments
import Bramble.Proofs.Eval.Arithmetic
import Bramble.Proofs.Eval.CallLimit
import Bramble.Proofs.Eval.Congruence
import Bramble.Proofs.Eval.Conservative
import Bramble.Proofs.Eval.Encapsulation
import Bramble.Proofs.Eval.Groups
import Bramble.Proofs.Eval.Names
import Bramble.Proofs.Eval.Passing
import Bramble.Proofs.Eval.Prelude
import Bramble.Proofs.Eval.Renaming
import Bramble.Proofs.Eval.Sequence
import Bramble.Proofs.Eval.Termination
import Bramble.Proofs.Eval.Translation
import Bramble.Proofs.Eval.WellFormed
import Bramble.Proofs.Grammar.Advance
import Bramble.Proofs.Grammar.Canonical
import Bramble.Proofs.Grammar.Completeness
import Bramble.Proofs.Grammar.Congruence
import Bramble.Proofs.Grammar.Delimiters
import Bramble.Proofs.Grammar.ErrorPlace
import Bramble.Proofs.Grammar.Following
import Bramble.Proofs.Grammar.Inversion
import Bramble.Proofs.Grammar.Joining
import Bramble.Proofs.Grammar.Layout
import Bramble.Proofs.Grammar.Lookahead
import Bramble.Proofs.Grammar.Range
import Bramble.Proofs.Grammar.Reader
import Bramble.Proofs.Grammar.Reading
import Bramble.Proofs.Grammar.RenderedTokens
import Bramble.Proofs.Grammar.Rendering
import Bramble.Proofs.Grammar.Reuse
import Bramble.Proofs.Grammar.Rounds
import Bramble.Proofs.Grammar.Script
import Bramble.Proofs.Grammar.Soundness
import Bramble.Proofs.Grammar.Termination
import Bramble.Proofs.Grammar.Timeliness
import Bramble.Proofs.Grammar.Writing
import Bramble.Proofs.Host.Description
import Bramble.Proofs.Host.Evaluation
import Bramble.Proofs.Host.Identity
import Bramble.Proofs.Host.Operations
import Bramble.Proofs.Host.Shadowing
import Bramble.Proofs.Interpreter.Counting
import Bramble.Proofs.Interpreter.Reuse
import Bramble.Proofs.Machine.Names
import Bramble.Proofs.Machine.Objects
import Bramble.Proofs.Machine.Region
import Bramble.Proofs.Program.Induction
import Bramble.Proofs.Program.Vocabulary
import Bramble.Proofs.Session.BlankLines
import Bramble.Proofs.Session.Layout
import Bramble.Proofs.Session.Lines
import Bramble.Proofs.Session.Literals
import Bramble.Proofs.Session.RoundTrip
import Bramble.Proofs.Session.Safety
import Bramble.Proofs.Session.Settings
import Bramble.Proofs.Source.Position
import Bramble.Proofs.Stateful
import Bramble.Proofs.Text.Blank
import Bramble.Proofs.Text.Order
import Bramble.Proofs.Text.Quoted
import Bramble.Proofs.Token.LexicalGrammar
import Bramble.Proofs.Token.Lines
import Bramble.Proofs.Token.LongestMatch
import Bramble.Proofs.Token.Spacing
import Bramble.Session.CommandLine
import Bramble.Session.Config
import Bramble.Session.Interpret
import Bramble.Source.Basic
import Bramble.Source.Position
import Bramble.Text.Blank
import Bramble.Text.CodeRange
import Bramble.Text.Decimal
import Bramble.Text.DefaultIgnorable
import Bramble.Text.ExtendingMark
import Bramble.Text.Line
import Bramble.Text.Offset
import Bramble.Text.Order
import Bramble.Text.Quoted
import Bramble.Text.Unprintable
import Bramble.Token.Basic
import Bramble.Token.Kind
import Bramble.Token.Power
import Bramble.Token.Scan
