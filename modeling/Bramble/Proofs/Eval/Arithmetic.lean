import Bramble.Eval.Call

/-!
# Arithmetic

Expressions that are made of integers, parentheses, negation and the four operations mean numbers,
and what they mean is said here without any bounds. Integers of the language have bounds. Evaluation
has the number that an expression means, if that of every part of the expression is an integer of
the language. Otherwise it fails, and the part to blame is the first one without such a number, in
an order in which the operands of an operator come before it, from left to right. So a result is
never another number than the one that is meant (`arithmetic_exact_or_fails`).
-/

set_option autoImplicit false

namespace Bramble

/-- The operations on two numbers. -/
inductive Arithmetic.Operation where
  | sum
  | difference
  | product
  | quotient
deriving DecidableEq, Repr

/-- Expressions made of integers, parentheses, negation and the operations on two numbers. -/
inductive Arithmetic where
  | literal (n : Int64)
  | group (inner : Arithmetic)
  | negation (arg : Arithmetic)
  | binary (op : Arithmetic.Operation) (lhs rhs : Arithmetic)
deriving DecidableEq, Repr

namespace Arithmetic

/-- How an operation is written. -/
def Operation.kind : Operation → Token.Kind
  | .sum => .plus
  | .difference => .minus
  | .product => .asterisk
  | .quotient => .slash

/-- Arithmetic as an expression of the language. -/
def toExpr : Arithmetic → Expr
  | .literal n => .literal (.int n)
  | .group inner => .group inner.toExpr
  | .negation arg => .unary .minus arg.toExpr
  | .binary op lhs rhs => .binary op.kind lhs.toExpr rhs.toExpr

/-! ## Meaning -/

/-- A quotient without its fraction: that of the magnitudes, with the sign of the product. -/
def truncated (a b : Int) : Int := a.sign * b.sign * (a.natAbs / b.natAbs : Nat)

/-- The number that an operation makes of two numbers. There is none for a division by zero. -/
def Operation.result? : Operation → Int → Int → Option Int
  | .sum, a, b => some (a + b)
  | .difference, a, b => some (a - b)
  | .product, a, b => some (a * b)
  | .quotient, a, b => if b = 0 then none else some (truncated a b)

/-- The number that is meant, whatever its size. -/
def meaning? : Arithmetic → Option Int
  | .literal n => some n.toInt
  | .group inner => inner.meaning?
  | .negation arg => arg.meaning?.map fun a => -a
  | .binary op lhs rhs => lhs.meaning?.bind fun a => rhs.meaning?.bind fun b => op.result? a b

/-- Whether a number is meant, and one of 64 bits. -/
def fits (e : Arithmetic) : Bool :=
  e.meaning?.any fun n => decide (-9223372036854775808 ≤ n ∧ n ≤ 9223372036854775807)

/-- All parts of an expression, operands from left to right and each operator after its operands. -/
def parts : Arithmetic → List Arithmetic
  | .literal n => [.literal n]
  | .group inner => inner.parts ++ [.group inner]
  | .negation arg => arg.parts ++ [.negation arg]
  | .binary op lhs rhs => lhs.parts ++ rhs.parts ++ [.binary op lhs rhs]

/-- The first of some parts that means no number of 64 bits. -/
def firstUnfit? (parts : List Arithmetic) : Option Arithmetic := parts.find? fun part => !part.fits

/-- The error of the operator that a part ends with, if it is that operator that fails. -/
def failure? : Arithmetic → Option EvalError
  | .literal _ => none
  | .group _ => none
  | .negation _ => some (.integerOverflow .minus)
  | .binary op _ rhs =>
      if op = .quotient ∧ rhs.meaning? = some 0 then some .divisionByZero
      else some (.integerOverflow op.kind)

/-! ## Operators on integers -/

theorem truncated_eq_tdiv (a b : Int) : truncated a b = a.tdiv b := by
  have magnitude : (a.tdiv b).natAbs = a.natAbs / b.natAbs := Int.natAbs_tdiv a b
  rw [truncated, ← magnitude]
  by_cases small : a.natAbs < b.natAbs
  · have zero : (a.tdiv b).natAbs = 0 := magnitude.trans (Nat.div_eq_of_lt small)
    rw [zero, Int.natAbs_eq_zero.mp zero, Int.natCast_zero, Int.mul_zero]
  · have sign : (a.tdiv b).sign = a.sign * b.sign := by
      rw [Int.sign_tdiv, if_neg small]
    rw [← sign, Int.sign_mul_natAbs]

/-- A part fits if and only if an integer of the language is meant. -/
theorem fits_iff {e : Arithmetic} : e.fits = true ↔ ∃ n : Int64, e.meaning? = some n.toInt := by
  rw [fits, Option.any_eq_true]
  constructor
  · rintro ⟨n, means, range⟩
    have range := of_decide_eq_true range
    refine ⟨Int64.ofInt n, ?_⟩
    rw [means, Int64.toInt_ofInt_of_le range.1 (by omega)]
  · rintro ⟨n, means⟩
    have lower := n.minValue_le_toInt
    have upper := n.toInt_le
    rw [Int64.toInt_minValue] at lower
    rw [Int64.toInt_maxValue] at upper
    exact ⟨_, means, decide_eq_true ⟨lower, upper⟩⟩

/-- A number is checked to be an integer of the language. -/
theorem checked_eq_ok {op : Token.Kind} {n : Int} {k : Int64} (same : k.toInt = n) :
    Operator.checked op n = .ok (.int k) := by
  rw [Operator.checked, int64?_eq_some_iff.mpr same]

theorem checked_eq_error {op : Token.Kind} {n : Int} (large : ∀ k : Int64, k.toInt ≠ n) :
    Operator.checked op n = .error (.integerOverflow op) := by
  have none : int64? n = none :=
    Option.eq_none_iff_forall_ne_some.mpr fun k found => large k (int64?_eq_some_iff.mp found)
  rw [Operator.checked, none]

/-- Each operation is done on numbers and then checked. -/
theorem binary_of_result? {op : Operation} {a b : Int64} {n : Int}
    (applied : op.result? a.toInt b.toInt = some n) :
    Operator.binary op.kind (.int a) (.int b) = Operator.checked op.kind n := by
  cases op with
  | sum =>
      cases applied
      rfl
  | difference =>
      cases applied
      rfl
  | product =>
      cases applied
      rfl
  | quotient =>
      rw [Operation.result?] at applied
      split at applied
      · cases applied
      · next divisor =>
          cases applied
          rw [truncated_eq_tdiv]
          exact if_neg divisor

/-- Only the division by zero has no number. -/
theorem binary_of_result?_none {op : Operation} {a b : Int64}
    (applied : op.result? a.toInt b.toInt = none) :
    op = .quotient ∧ b.toInt = 0 ∧
      Operator.binary op.kind (.int a) (.int b) = .error .divisionByZero := by
  cases op with
  | sum => cases applied
  | difference => cases applied
  | product => cases applied
  | quotient =>
      rw [Operation.result?] at applied
      split at applied
      · next divisor => exact ⟨rfl, divisor, if_pos divisor⟩
      · cases applied

/-! ## Evaluation -/

theorem firstUnfit?_append (parts more : List Arithmetic) :
    firstUnfit? (parts ++ more) = (firstUnfit? parts).or (firstUnfit? more) :=
  List.find?_append

theorem firstUnfit?_eq_none_iff {parts : List Arithmetic} :
    firstUnfit? parts = none ↔ ∀ part ∈ parts, part.fits = true := by
  simp [firstUnfit?]

theorem firstUnfit?_of_fits {e : Arithmetic} (fit : e.fits = true) : firstUnfit? [e] = none :=
  firstUnfit?_eq_none_iff.mpr (List.forall_mem_singleton.mpr fit)

theorem firstUnfit?_cons {e : Arithmetic} (unfit : e.fits = false) (more : List Arithmetic) :
    firstUnfit? (e :: more) = some e :=
  List.find?_cons_of_pos (by simp [unfit])

/-- What evaluation comes to: the number that is meant if all parts fit, and otherwise the error of
the first one that does not. -/
inductive Ends (e : Arithmetic) : Except EvalError Value → Prop where
  | exact {n : Int64} (fit : firstUnfit? e.parts = none) (means : e.meaning? = some n.toInt) :
      Ends e (.ok (.int n))
  | fails {part : Arithmetic} {error : EvalError} (first : firstUnfit? e.parts = some part)
      (failure : part.failure? = some error) : Ends e (.error error)

section Operators

variable {e : Arithmetic} {operands : List Arithmetic}

/-- An error in the operands is one of the whole. -/
theorem ends_of_operands (parts : e.parts = operands ++ [e]) {part : Arithmetic}
    {error : EvalError} (first : firstUnfit? operands = some part)
    (failure : part.failure? = some error) : e.Ends (.error error) := by
  refine .fails ?_ failure
  rw [parts, firstUnfit?_append, first, Option.some_or]

/-- An operator whose operands all fit, with a number that is checked. -/
theorem ends_checked (parts : e.parts = operands ++ [e]) (fit : firstUnfit? operands = none)
    {n : Int} (means : e.meaning? = some n) {op : Token.Kind}
    (failure : e.failure? = some (.integerOverflow op)) : e.Ends (Operator.checked op n) := by
  by_cases own : e.fits = true
  · obtain ⟨k, same⟩ := fits_iff.mp own
    rw [checked_eq_ok (Option.some.inj (same.symm.trans means))]
    refine .exact ?_ same
    rw [parts, firstUnfit?_append, fit, firstUnfit?_of_fits own, Option.none_or]
  · have large : ∀ k : Int64, k.toInt ≠ n := by
      rintro k rfl
      exact own (fits_iff.mpr ⟨k, means⟩)
    rw [checked_eq_error large]
    refine .fails ?_ failure
    rw [parts, firstUnfit?_append, fit, firstUnfit?_cons (Bool.eq_false_iff.mpr own),
      Option.none_or]

/-- An operator whose operands all fit, and that has no number for them. -/
theorem ends_undefined (parts : e.parts = operands ++ [e]) (fit : firstUnfit? operands = none)
    (means : e.meaning? = none) {error : EvalError} (failure : e.failure? = some error) :
    e.Ends (.error error) := by
  have unfit : e.fits = false := by
    rw [fits, means, Option.any_none]
  refine .fails ?_ failure
  rw [parts, firstUnfit?_append, fit, firstUnfit?_cons unfit, Option.none_or]

end Operators

theorem ends_literal (n : Int64) : (literal n).Ends (.ok (.int n)) :=
  .exact (firstUnfit?_of_fits (fits_iff.mpr ⟨n, rfl⟩)) rfl

theorem ends_group {inner : Arithmetic} {result : Except EvalError Value}
    (ends : inner.Ends result) : (group inner).Ends result := by
  cases ends with
  | exact fit means =>
      have own : (group inner).fits = true := fits_iff.mpr ⟨_, means⟩
      refine .exact ?_ means
      rw [parts, firstUnfit?_append, fit, firstUnfit?_of_fits own, Option.none_or]
  | fails first failure => exact ends_of_operands rfl first failure

theorem ends_negation {arg : Arithmetic} {n : Int64} (ends : arg.Ends (.ok (.int n))) :
    (negation arg).Ends (Operator.unary .minus (.int n)) := by
  cases ends with
  | exact fit means =>
      refine ends_checked (n := -n.toInt) rfl fit ?_ rfl
      rw [meaning?, means, Option.map_some]

theorem ends_binary {op : Operation} {lhs rhs : Arithmetic} {a b : Int64}
    (left : lhs.Ends (.ok (.int a))) (right : rhs.Ends (.ok (.int b))) :
    (binary op lhs rhs).Ends (Operator.binary op.kind (.int a) (.int b)) := by
  cases left with
  | exact fitLeft meansLeft =>
  cases right with
  | exact fitRight meansRight =>
      have fit : firstUnfit? (lhs.parts ++ rhs.parts) = none := by
        rw [firstUnfit?_append, fitLeft, fitRight, Option.none_or]
      have means : (binary op lhs rhs).meaning? = op.result? a.toInt b.toInt := by
        rw [meaning?, meansLeft, meansRight, Option.bind_some, Option.bind_some]
      cases applied : op.result? a.toInt b.toInt with
      | none =>
          obtain ⟨quotient, zero, same⟩ := binary_of_result?_none applied
          rw [same]
          refine ends_undefined rfl fit (means.trans applied) ?_
          rw [failure?, meansRight, zero, if_pos ⟨quotient, rfl⟩]
      | some n =>
          rw [binary_of_result? applied]
          refine ends_checked rfl fit (means.trans applied) ?_
          rw [failure?, meansRight, if_neg]
          rintro ⟨rfl, zero⟩
          rw [Option.some.inj zero] at applied
          cases applied

/-- Evaluation comes to what it should, and leaves the machine alone. -/
theorem eval_toExpr (e : Arithmetic) (call : Call) (scope : Scope) :
    ∃ result, e.Ends result ∧ e.toExpr.eval call scope = Eval.ofExcept result := by
  induction e with
  | literal n => exact ⟨_, ends_literal n, rfl⟩
  | group inner ih =>
      obtain ⟨result, ends, same⟩ := ih
      exact ⟨result, ends_group ends, same⟩
  | negation arg ih =>
      obtain ⟨result, ends, same⟩ := ih
      rw [toExpr, Expr.eval, same]
      cases ends with
      | fails first failure => exact ⟨_, ends_of_operands rfl first failure, rfl⟩
      | exact fit means => exact ⟨_, ends_negation (.exact fit means), rfl⟩
  | binary op lhs rhs ihLeft ihRight =>
      obtain ⟨left, endsLeft, sameLeft⟩ := ihLeft
      obtain ⟨right, endsRight, sameRight⟩ := ihRight
      rw [toExpr, Expr.eval, sameLeft, sameRight]
      cases endsLeft with
      | @fails part error first failure =>
          have earlier : firstUnfit? (lhs.parts ++ rhs.parts) = some part := by
            rw [firstUnfit?_append, first, Option.some_or]
          exact ⟨_, ends_of_operands rfl earlier failure, rfl⟩
      | exact fitLeft meansLeft =>
          cases endsRight with
          | @fails part error first failure =>
              have earlier : firstUnfit? (lhs.parts ++ rhs.parts) = some part := by
                rw [firstUnfit?_append, fitLeft, first, Option.none_or]
              exact ⟨_, ends_of_operands rfl earlier failure, rfl⟩
          | exact fitRight meansRight =>
              exact ⟨_, ends_binary (.exact fitLeft meansLeft) (.exact fitRight meansRight), rfl⟩

end Arithmetic

/-- Arithmetic is exact or fails, in every scope and on every machine, which it leaves alone. If all
parts of an expression mean numbers of 64 bits, the value is the number that is meant. Otherwise the
first part that does not is an operator, and evaluation fails with its error: a division by zero, or
else an overflow that names it. No value is another number than the one that is meant. -/
theorem arithmetic_exact_or_fails (e : Arithmetic) (call : Call) (scope : Scope) (m : Machine) :
    ((∀ part ∈ e.parts, part.fits = true) →
      ∃ n : Int64, e.meaning? = some n.toInt ∧ e.toExpr.eval call scope m = .ok (.int n) m) ∧
    (∀ before part after, e.parts = before ++ part :: after →
      (∀ earlier ∈ before, earlier.fits = true) → part.fits = false →
        ∃ error, part.failure? = some error ∧ e.toExpr.eval call scope m = .error error m) ∧
    (∀ v m', e.toExpr.eval call scope m = .ok v m' →
      ∃ n : Int64, v = .int n ∧ e.meaning? = some n.toInt) := by
  obtain ⟨result, ends, same⟩ := e.eval_toExpr call scope
  rw [same]
  cases ends with
  | @exact n fit means =>
      refine ⟨fun _ => ⟨n, means, rfl⟩, fun before part after whole _ unfit => ?_, ?_⟩
      · have inside : part ∈ e.parts := by
          rw [whole]
          exact List.mem_append_right _ List.mem_cons_self
        cases unfit.symm.trans (Arithmetic.firstUnfit?_eq_none_iff.mp fit part inside)
      · intro v m' ended
        cases ended
        exact ⟨n, rfl, means⟩
  | @fails part error first failure =>
      refine ⟨fun fit => ?_, fun before other after whole fit unfit => ?_, fun v m' ended => ?_⟩
      · cases (Arithmetic.firstUnfit?_eq_none_iff.mpr fit).symm.trans first
      · rw [whole, Arithmetic.firstUnfit?_append, Arithmetic.firstUnfit?_eq_none_iff.mpr fit,
          Option.none_or, Arithmetic.firstUnfit?_cons unfit] at first
        cases first
        exact ⟨error, failure, rfl⟩
      · cases ended

/-- The sum `9223372036854775807 + 1`. -/
def largeSum : Arithmetic := .binary .sum (.literal 9223372036854775807) (.literal 1)

/-- The quotient `1 / 0`. -/
def zeroDivisor : Arithmetic := .binary .quotient (.literal 1) (.literal 0)

theorem largeSum_fails_first :
    (Arithmetic.binary .product (.group largeSum) zeroDivisor).toExpr.eval (call 1) 0 {}
      = .error (.integerOverflow .plus) {} := by
  obtain ⟨_, fails, _⟩ := arithmetic_exact_or_fails
    (.binary .product (.group largeSum) zeroDivisor) (call 1) 0 {}
  obtain ⟨error, failure, ends⟩ := fails [.literal 9223372036854775807, .literal 1] largeSum _ rfl
    (by decide) (by decide)
  cases failure
  exact ends

end Bramble
