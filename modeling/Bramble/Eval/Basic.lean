import Bramble.Eval.Error
import Bramble.Machine.Basic

/-!
# Evaluation and names

Evaluation changes a machine and gives a result or an error. The machine is kept in both cases,
so what was bound and printed before an error stays.
-/

set_option autoImplicit false

namespace Bramble

/-- Computations that change a machine and may fail. -/
abbrev Eval (α : Type) := EStateM EvalError Machine α

namespace Eval

/-- A computation that leaves the machine alone. -/
def ofExcept {α : Type} : Except EvalError α → Eval α
  | .ok a => pure a
  | .error e => throw e

/-- The value of a name. -/
def lookup (scope : Scope) (x : String) : Eval Value := fun m =>
  match m.lookup? scope x with
  | some v => .ok v m
  | none => .error (.unknownIdentifier x) m

/-- Fails if the scope's own frame binds a name already. -/
def requireFresh (scope : Scope) (x : String) : Eval Unit := fun m =>
  if m.bindsIn scope x then .error (.duplicateIdentifier x) m else .ok () m

/-- Binds a name in the scope's own frame, which must not bind it yet. -/
def define (scope : Scope) (x : String) (v : Value) : Eval Unit := do
  requireFresh scope x
  modify (·.bind scope x v)

/-- Binds names to values, first to last. -/
def defineAll (scope : Scope) : List (String × Value) → Eval Unit
  | [] => pure ()
  | (x, v) :: rest => do
      define scope x v
      defineAll scope rest

/-- Gives a name another value in the nearest frame that binds it. -/
def assign (scope : Scope) (x : String) (v : Value) : Eval Unit := fun m =>
  match m.resolve? scope x with
  | some frame => .ok () (m.rebind frame x v)
  | none => .error (.unknownIdentifier x) m

/-- A new scope inside another one. -/
def child (scope : Scope) : Eval Scope := modifyGet (·.child scope)

/-- A new function object. -/
def newFunction (f : Callable) : Eval Value := modifyGet (·.addFunction f)

/-- Prints a text. -/
def print (text : String) : Eval Unit := modify (·.print text)

end Eval

end Bramble
