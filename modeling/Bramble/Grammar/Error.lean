import Bramble.Token.Basic

/-!
# Errors of grammar

Why a list of tokens is not a program. Each error carries the span at which it is reported.
-/

set_option autoImplicit false

namespace Bramble

/-- How deeply expressions and blocks may be nested. -/
def maxNesting : Nat := 256

/-- What the grammar allows at a place. -/
inductive Expectation where
  | expression
  | operator
  | quotedString
  | token (kind : Token.Kind)
deriving DecidableEq, Repr

/-- An expectation in words. -/
def Expectation.describe : Expectation → String
  | .expression => "an expression"
  | .operator => "an operator"
  | .quotedString => "a quoted string literal"
  | .token kind => kind.describe

/-- The errors of grammar. -/
inductive ParseError where
  /-- A token that does not fit at its place. -/
  | unexpectedToken (lexeme : String) (expected : Expectation) (span : Span)
  /-- The input ends where more is needed. -/
  | unexpectedEnd (expected : Expectation) (span : Span)
  /-- An opening delimiter whose closing one is missing. -/
  | unmatchedDelimiter (opening : Char) (span : Span)
  /-- An assignment to something other than a name. -/
  | invalidAssignmentTarget (span : Span)
  /-- A numeral that is not an integer of the language. -/
  | integerOutOfRange (lexeme : String) (span : Span)
  /-- Expressions or blocks nested beyond `maxNesting`. -/
  | nestingTooDeep (span : Span)
deriving DecidableEq, Repr

namespace ParseError

/-- The text of an error. -/
def message : ParseError → String
  | .unexpectedToken lexeme expected _ =>
      "Unexpected token `" ++ lexeme ++ "`, expected " ++ expected.describe
  | .unexpectedEnd expected _ => "Unexpected end of input, expected " ++ expected.describe
  | .unmatchedDelimiter opening _ => "Unmatched delimiter `" ++ opening.toString ++ "`"
  | .invalidAssignmentTarget _ => "Invalid assignment target"
  | .integerOutOfRange lexeme _ => "Integer literal `" ++ lexeme ++ "` is out of range"
  | .nestingTooDeep _ => "Nesting is deeper than " ++ toString maxNesting ++ " levels"

/-- Where an error is reported. -/
def span : ParseError → Span
  | .unexpectedToken _ _ span => span
  | .unexpectedEnd _ span => span
  | .unmatchedDelimiter _ span => span
  | .invalidAssignmentTarget span => span
  | .integerOutOfRange _ span => span
  | .nestingTooDeep span => span

end ParseError

end Bramble
