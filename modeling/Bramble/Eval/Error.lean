import Bramble.Machine.Value

/-!
# Errors of evaluation

Why a program stops without a value. An error ends the whole evaluation; the bindings made and
the text printed before it remain.
-/

set_option autoImplicit false

namespace Bramble

/-- The parts of the language that ask for values of certain kinds. -/
inductive Construct where
  | operator (op : Token.Kind)
  | condition
  | assertion
deriving DecidableEq, Repr

/-- A part of the language in words. -/
def Construct.describe : Construct → String
  | .operator op => op.describe
  | .condition => "if"
  | .assertion => "assert"

/-- The errors of evaluation. -/
inductive EvalError where
  /-- A name that its frame binds already. -/
  | duplicateIdentifier (name : String)
  /-- A name that no frame of the scope binds. -/
  | unknownIdentifier (name : String)
  /-- Operands of kinds that a part of the language has no meaning for. -/
  | typeMismatch (construct : Construct) (operands : List Value.Kind)
  /-- A call of something other than a function. -/
  | notCallable (found : Value.Kind)
  /-- A call with too few or too many arguments. -/
  | arityMismatch (callee : String) (expected found : Nat)
  /-- A division by zero. -/
  | divisionByZero
  /-- A result outside the integers of the language. -/
  | integerOverflow (op : Token.Kind)
  /-- Calls nested beyond the limit. -/
  | callTooDeep (limit : Nat)
  /-- An assertion of a false value. -/
  | assertedFalse
  /-- An assertion that two different values are equal, with their texts. -/
  | assertedUnequal (left right : String)
  /-- A function of the prelude run on fewer arguments than it reads. A call checks the number
  first, so no program ends with it. -/
  | missingArgument (callee : Builtin)
deriving DecidableEq, Repr

/-- The text of an error. -/
def EvalError.message : EvalError → String
  | .duplicateIdentifier name => "Identifier `" ++ name ++ "` is already defined in this scope"
  | .unknownIdentifier name => "Cannot resolve identifier `" ++ name ++ "`"
  | .typeMismatch construct operands =>
      "Can't apply `" ++ construct.describe ++ "` to "
        ++ String.intercalate " and " (operands.map Value.Kind.name)
  | .notCallable found => "Value of type " ++ found.name ++ " is not callable"
  | .arityMismatch callee expected found =>
      "Function `" ++ callee ++ "` expects " ++ toString expected ++ " argument(s) but got "
        ++ toString found
  | .divisionByZero => "Division by zero"
  | .integerOverflow op => "Integer overflow in `" ++ op.describe ++ "`"
  | .callTooDeep limit => "Maximum call depth of " ++ toString limit ++ " exceeded"
  | .assertedFalse => "Assertion failed: assertion evaluated to false"
  | .assertedUnequal left right => "Assertion failed: left: " ++ left ++ ", right: " ++ right
  | .missingArgument callee => "Missing argument of `" ++ callee.name ++ "`"

end Bramble
