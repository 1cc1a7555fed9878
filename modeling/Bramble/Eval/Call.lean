import Bramble.Eval.Builtin
import Bramble.Eval.Tree

/-!
# Calls

A call of a closure runs its body in a new scope inside the one that it was declared in. The
calls in that body are one level deeper, and the number of levels is limited. The levels left are
counted down, so evaluation always ends.
-/

set_option autoImplicit false

namespace Bramble

/-- How deeply calls may be nested unless a setting says otherwise. -/
def defaultCallLimit : Nat := 256

/-- Fails unless the number of arguments fits. -/
def Callable.checkArity (f : Callable) (args : List Value) : Eval Unit :=
  if args.length = f.arity then pure ()
  else throw (.arityMismatch f.name f.arity args.length)

/-- Calls a value. `inner` is what the calls in the body of a closure do; it is missing where the
limit is reached. -/
def callWith (limit : Nat) (inner : Option Call) : Call := fun callee args => do
  match callee with
  | .function id =>
      match (← get).functions[id]? with
      | some (.closure c) => do
          Callable.checkArity (.closure c) args
          match inner with
          | none => throw (.callTooDeep limit)
          | some call => do
              let scope ← Eval.child c.scope
              Eval.defineAll scope (c.params.zip args)
              match ← Stmt.runAll call scope .void c.body with
              | .next _ => return .void
              | .returned v => return v
      | some (.builtin b) => do
          Callable.checkArity (.builtin b) args
          b.run args
      | none => throw (.notCallable .function)
  | v => throw (.notCallable v.kind)

/-- Calls a value with `left` levels of calls left, of `limit` in all. -/
def callLeft (limit : Nat) : Nat → Value → List Value → Eval Value
  | 0, callee, args => callWith limit none callee args
  | left + 1, callee, args => callWith limit (some (callLeft limit left)) callee args

/-- Calls a value from the outermost level. -/
def call (limit : Nat) : Call := callLeft limit limit

namespace Program

/-- The value of a program: that of its last statement, or the one that it returns. -/
def eval (limit : Nat) (scope : Scope) (program : Program) : Eval Value := do
  return (← Stmt.runAll (call limit) scope .void program).value

end Program

end Bramble
