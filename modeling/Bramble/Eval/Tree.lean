import Bramble.Eval.Basic
import Bramble.Eval.Operator

/-!
# Evaluation of programs

Evaluation by recursion on the program. A call leaves the program at hand and goes on in the body
of a function, so what a call does is a parameter here.

A statement ends in one of two ways. Either the program goes on after it, and the statement has a
value, or it has returned from the function that it stands in. The value of a list of statements
is that of the last one.
-/

set_option autoImplicit false

namespace Bramble

/-- What a call does with a callee and its arguments. -/
abbrev Call := Value → List Value → Eval Value

mutual

/-- The value of an expression. Operands and arguments are evaluated from left to right. -/
def Expr.eval (call : Call) (scope : Scope) : Expr → Eval Value
  | .literal l => return .ofLiteral l
  | .name x => Eval.lookup scope x
  | .unary op arg => do
      let v ← arg.eval call scope
      Eval.ofExcept (Operator.unary op v)
  | .binary op lhs rhs => do
      let v ← lhs.eval call scope
      let w ← rhs.eval call scope
      Eval.ofExcept (Operator.binary op v w)
  | .group inner => inner.eval call scope
  | .call callee args => do
      let f ← callee.eval call scope
      let vs ← Expr.evalAll call scope args
      call f vs
  | .assign x value => do
      let v ← value.eval call scope
      Eval.assign scope x v
      return v

/-- The values of expressions, from left to right. -/
def Expr.evalAll (call : Call) (scope : Scope) : List Expr → Eval (List Value)
  | [] => return []
  | e :: es => do
      let v ← e.eval call scope
      let vs ← Expr.evalAll call scope es
      return v :: vs

end

/-- How a statement ends. -/
inductive Flow where
  | next (v : Value)
  | returned (v : Value)
deriving DecidableEq, Repr

/-- The value that a statement ends with. -/
def Flow.value : Flow → Value
  | .next v => v
  | .returned v => v

/-- The truth value of a condition. -/
def Expr.test (call : Call) (scope : Scope) (cond : Expr) : Eval Bool := do
  let v ← cond.eval call scope
  match v.toBool? with
  | some b => return b
  | none => throw (.typeMismatch .condition [v.kind])

mutual

/-- Runs a statement. -/
def Stmt.run (call : Call) (scope : Scope) : Stmt → Eval Flow
  | .letDecl x init => do
      Eval.requireFresh scope x
      let v ← init.eval call scope
      Eval.define scope x v
      return .next .void
  | .funDecl x params body => do
      let f ← Eval.newFunction (.closure ⟨x, params, body, scope⟩)
      Eval.define scope x f
      return .next .void
  | .block body => do
      let inner ← Eval.child scope
      Stmt.runAll call inner .void body
  | .ifThen cond body => do
      if ← cond.test call scope then
        let inner ← Eval.child scope
        Stmt.runAll call inner .void body
      else
        return .next .void
  | .ifElse cond body other => do
      if ← cond.test call scope then
        let inner ← Eval.child scope
        Stmt.runAll call inner .void body
      else
        let inner ← Eval.child scope
        Stmt.runAll call inner .void other
  | .expr e => return .next (← e.eval call scope)
  | .ret e => return .returned (← e.eval call scope)

/-- Runs statements in order, up to the first that returns. `last` is the value so far. -/
def Stmt.runAll (call : Call) (scope : Scope) (last : Value) : List Stmt → Eval Flow
  | [] => return .next last
  | s :: ss => do
      match ← s.run call scope with
      | .next v => Stmt.runAll call scope v ss
      | .returned v => return .returned v

end

end Bramble
