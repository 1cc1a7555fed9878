import Bramble.Token.Kind

/-!
# Binding powers

How tightly the kinds of tokens hold the expressions next to them. A kind that can begin an
expression has a power for its operand, which is zero where no operand follows directly. A kind
that can follow an expression has a power toward its left and one toward its right: of two
operators the one with the higher power takes the expression between them. A right power below
the left power, as for `=`, groups a chain of the operator from the right.
-/

set_option autoImplicit false

namespace Bramble
namespace Token

/-- The powers of an infix operator toward its two sides. -/
structure InfixPower where
  left : Nat
  right : Nat
deriving DecidableEq, Repr

namespace Kind

/-- The power toward the operand of a kind that can begin an expression. -/
def prefixPower? : Kind → Option Nat
  | .intLit | .stringLit | .trueWord | .falseWord | .identifier | .openParen => some 0
  | .bang | .minus => some 13
  | _ => none

/-- The powers of a kind that can follow an expression. -/
def infixPower? : Kind → Option InfixPower
  | .openParen => some ⟨15, 1⟩
  | .asterisk | .slash => some ⟨11, 11⟩
  | .plus | .minus => some ⟨9, 9⟩
  | .greater | .greaterEquals | .less | .lessEquals => some ⟨7, 7⟩
  | .equalsEquals | .notEquals => some ⟨5, 5⟩
  | .equals => some ⟨3, 2⟩
  | .comma => some ⟨1, 1⟩
  | _ => none

/-- The powers of a kind that can follow an expression, if the left one exceeds `min`. -/
def infixAbove? (min : Nat) (kind : Kind) : Option InfixPower :=
  kind.infixPower?.filter (min < ·.left)

end Kind
end Token
end Bramble
