import Bramble.Grammar.Reading
import Bramble.Program.Basic
import Bramble.Text.Decimal
import Bramble.Token.Power

/-!
# Expressions

An expression is a prefix form followed by operators that bind more tightly than their
surroundings. How tightly a token binds is its binding power. Every expression inside another
one is a level of nesting, and how the levels are counted is left to the reader: the rules of one
level are built from the reader of the next one, here called `operand`, which takes the power that
the operators of its expression have to exceed.
-/

set_option autoImplicit false

universe u

namespace Bramble

/-- The text between the quotation marks of a string literal. -/
def unquoted? (lexeme : String) : Option String :=
  match lexeme.toList with
  | '"' :: rest =>
      if rest.getLast? = some '"' then some (String.ofList rest.dropLast) else none
  | _ => none

namespace Grammar

variable {M : Type → Type u} [Monad M] [Reading M]

/-- The value of an integer literal. -/
def integer (token : Token) : M Expr :=
  match (Text.signed? token.lexeme.toList).bind int64? with
  | some n => return .literal (.int n)
  | none => fail (.integerOutOfRange token.lexeme token.span)

/-- The value of a string literal. -/
def string (token : Token) : M Expr :=
  match unquoted? token.lexeme with
  | some s => return .literal (.str s)
  | none => fail (.unexpectedToken token.lexeme .quotedString token.span)

variable (operand : Nat → M Expr)

/-- The expression that begins with a token, which is already taken. -/
def prefixRest (token : Token) (power : Nat) : M Expr :=
  match token.kind with
  | .intLit => integer token
  | .stringLit => string token
  | .trueWord => return .literal (.bool true)
  | .falseWord => return .literal (.bool false)
  | .identifier => return .name token.lexeme
  | .openParen => do
      let inner ← operand power
      close .closeParen token
      return .group inner
  | op => return .unary op (← operand power)

/-- An expression without operators after it. -/
def prefixForm : M Expr := do
  match ← take? Token.Kind.prefixPower? with
  | some (token, power) => prefixRest operand token power
  | none => unexpected .expression

/-- An expression together with the operator after it, which is already taken. -/
def infixRest (lhs : Expr) (token : Token) (power : Nat) : M Expr :=
  match token.kind with
  | .openParen => return .call lhs (← listed (operand power) token)
  | .equals =>
      match lhs with
      | .name x => return .assign x (← operand power)
      | _ => fail (.invalidAssignmentTarget token.span)
  | .comma => fail (.unexpectedToken token.lexeme .operator token.span)
  | op => return .binary op lhs (← operand power)

/-- An expression with one more operator, if one follows whose left power exceeds `min`. -/
def infixForm? (min : Nat) (lhs : Expr) : M (Option Expr) := do
  match ← take? (Token.Kind.infixAbove? min) with
  | some (token, power) => return some (← infixRest operand lhs token power.right)
  | none => return none

/-- A prefix form and the operators after it whose left powers exceed `min`. -/
def operators (min : Nat) : M Expr := do
  let first ← prefixForm operand
  iterate (infixForm? operand min) first

end Grammar
end Bramble
