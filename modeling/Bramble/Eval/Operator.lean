import Bramble.Eval.Error
import Bramble.Machine.Description

/-!
# Operators

The meaning of the operators on values. Integers have 64 bits, and a result outside their range
is an error and never another integer: each operation is done on the whole numbers and then
checked. Division drops the fraction, toward zero.
-/

set_option autoImplicit false

namespace Bramble
namespace Operator

/-- The error of an operator that has no meaning for its operands. -/
def mismatch {α : Type} (op : Token.Kind) (operands : List Value) : Except EvalError α :=
  .error (.typeMismatch (.operator op) (operands.map Value.kind))

/-- The result of an operation on integers. -/
def checked (op : Token.Kind) (n : Int) : Except EvalError Value :=
  match int64? n with
  | some n => .ok (.int n)
  | none => .error (.integerOverflow op)

/-- The value of a unary operator. -/
def unary (op : Token.Kind) (v : Value) : Except EvalError Value :=
  match op, v with
  | .minus, .int n => checked op (-n.toInt)
  | .bang, .bool b => .ok (.bool !b)
  | _, _ => mismatch op [v]

/-- The sum of two integers, or two texts one after the other. An integer beside a text stands
for its numeral. -/
def add (v w : Value) : Except EvalError Value :=
  match v, w with
  | .int a, .int b => checked .plus (a.toInt + b.toInt)
  | .str s, .str t => .ok (.str (s ++ t))
  | .str s, .int b => .ok (.str (s ++ toString b.toInt))
  | .int a, .str t => .ok (.str (toString a.toInt ++ t))
  | _, _ => mismatch .plus [v, w]

/-- An operation on two integers. -/
def arithmetic (op : Token.Kind) (f : Int → Int → Except EvalError Value) (v w : Value) :
    Except EvalError Value :=
  match v, w with
  | .int a, .int b => f a.toInt b.toInt
  | _, _ => mismatch op [v, w]

/-- Whether two values of one kind are equal. -/
def same (op : Token.Kind) (v w : Value) : Except EvalError Bool :=
  if v.kind = w.kind then .ok (decide (v = w)) else mismatch op [v, w]

/-- The value of a binary operator. -/
def binary (op : Token.Kind) (v w : Value) : Except EvalError Value :=
  match op with
  | .plus => add v w
  | .minus => arithmetic op (fun a b => checked op (a - b)) v w
  | .asterisk => arithmetic op (fun a b => checked op (a * b)) v w
  | .slash =>
      arithmetic op
        (fun a b => if b = 0 then .error .divisionByZero else checked op (a.tdiv b)) v w
  | .less => arithmetic op (fun a b => .ok (.bool (decide (a < b)))) v w
  | .lessEquals => arithmetic op (fun a b => .ok (.bool (decide (a ≤ b)))) v w
  | .greater => arithmetic op (fun a b => .ok (.bool (decide (b < a)))) v w
  | .greaterEquals => arithmetic op (fun a b => .ok (.bool (decide (b ≤ a)))) v w
  | .equalsEquals => (same op v w).map fun b => .bool b
  | .notEquals => (same op v w).map fun b => .bool !b
  | _ => mismatch op [v, w]

end Operator
end Bramble
