import Bramble.Proofs.Eval.Congruence

/-!
# An interpreter that counts its calls

Evaluation hands the number of levels left down from call to call, so that there is nothing to be
put back when a call has ended. An interpreter has a single counter instead. It counts up when the
body of a function is entered and down when it is left, whatever the body has ended with, and it
compares the counter with its limit. It is used for one request after the other, and the counter
goes on from where the last one has left it.

The bodies that have been entered and not left yet are on a stack, which has room for so many of
them. The interpreter does not look at the stack, and it crashes if there is no room.

The counter is shown to be back where it was after each computation. What an interpreter does is
then what evaluation does with the levels that the counter leaves, and it does not crash if the
stack has room for as many bodies as the limit allows (`does_callValue`).
-/

set_option autoImplicit false

namespace Bramble

/-- An interpreter: its limit on nested calls and the number of calls that it is in. The values that
it has set its counter to are kept as well, the latest first. Nothing depends on them. -/
structure Interpreter where
  limit : Nat
  depth : Nat := 0
  counted : List Nat := []

namespace Interpreter

/-- Sets the counter. -/
def setDepth (i : Interpreter) (depth : Nat) : Interpreter :=
  { i with depth := depth, counted := depth :: i.counted }

/-- Computations that change an interpreter and a machine and may crash. -/
abbrev Counting := StateT (Interpreter × Machine) Option

/-- Computations of this kind that may fail. -/
abbrev Running (α : Type) := ExceptT EvalError Counting α

/-- What a computation on a machine has ended with, and the machine that it has left. -/
def ending {ε α : Type} : EStateM.Result ε Machine α → Except ε α × Machine
  | .ok a m => (.ok a, m)
  | .error e m => (.error e, m)

/-- A computation that has nothing to do with the interpreter. -/
def ofEval {α : Type} (p : Eval α) : Running α := fun (i, m) =>
  some ((ending (p m)).1, i, (ending (p m)).2)

/-- Fails if the limit is reached. -/
def checkDepth : Running Unit := fun (i, m) =>
  some (if i.limit ≤ i.depth then .error (.callTooDeep i.limit) else .ok (), i, m)

/-- Changes the counter. -/
def count (change : Nat → Nat) : Counting Unit := fun (i, m) =>
  some ((), i.setDepth (change i.depth), m)

/-- The truth value of the value of a condition. -/
def truth (v : Value) : Eval Bool :=
  match v.toBool? with
  | some b => return b
  | none => throw (.typeMismatch .condition [v.kind])

/-- What the interpreter does with a callee and its arguments. -/
abbrev Calling := Value → List Value → Running Value

mutual

/-- The value of an expression. -/
def evalExpr (calling : Calling) (scope : Scope) : Expr → Running Value
  | .literal l => return .ofLiteral l
  | .name x => ofEval (Eval.lookup scope x)
  | .unary op arg => do
      let v ← evalExpr calling scope arg
      ofEval (Eval.ofExcept (Operator.unary op v))
  | .binary op lhs rhs => do
      let v ← evalExpr calling scope lhs
      let w ← evalExpr calling scope rhs
      ofEval (Eval.ofExcept (Operator.binary op v w))
  | .group inner => evalExpr calling scope inner
  | .call callee args => do
      let f ← evalExpr calling scope callee
      let vs ← evalExprs calling scope args
      calling f vs
  | .assign x value => do
      let v ← evalExpr calling scope value
      ofEval (Eval.assign scope x v)
      return v

/-- The values of expressions, from left to right. -/
def evalExprs (calling : Calling) (scope : Scope) : List Expr → Running (List Value)
  | [] => return []
  | e :: es => do
      let v ← evalExpr calling scope e
      let vs ← evalExprs calling scope es
      return v :: vs

end

/-- The truth value of a condition. -/
def evalTest (calling : Calling) (scope : Scope) (cond : Expr) : Running Bool := do
  let v ← evalExpr calling scope cond
  ofEval (truth v)

mutual

/-- Runs a statement. -/
def runStmt (calling : Calling) (scope : Scope) : Stmt → Running Flow
  | .letDecl x init => do
      ofEval (Eval.requireFresh scope x)
      let v ← evalExpr calling scope init
      ofEval (Eval.define scope x v)
      return .next .void
  | .funDecl x params body => do
      let f ← ofEval (Eval.newFunction (.closure ⟨x, params, body, scope⟩))
      ofEval (Eval.define scope x f)
      return .next .void
  | .block body => do
      let inner ← ofEval (Eval.child scope)
      runStmts calling inner .void body
  | .ifThen cond body => do
      if ← evalTest calling scope cond then
        let inner ← ofEval (Eval.child scope)
        runStmts calling inner .void body
      else
        return .next .void
  | .ifElse cond body other => do
      if ← evalTest calling scope cond then
        let inner ← ofEval (Eval.child scope)
        runStmts calling inner .void body
      else
        let inner ← ofEval (Eval.child scope)
        runStmts calling inner .void other
  | .expr e => return .next (← evalExpr calling scope e)
  | .ret e => return .returned (← evalExpr calling scope e)

/-- Runs statements in order, up to the first that returns. `last` is the value so far. -/
def runStmts (calling : Calling) (scope : Scope) (last : Value) : List Stmt → Running Flow
  | [] => return .next last
  | s :: ss => do
      match ← runStmt calling scope s with
      | .next v => runStmts calling scope v ss
      | .returned v => return .returned v

end

/-- Runs the body of a function, which is one more call until it has ended. An error in the body
does not leave it here, so that the counter is set back in any case. Without room on the stack it
cannot be run. -/
def runCounted (inner : Option Calling) (scope : Scope) (body : List Stmt) : Running Flow :=
  match inner with
  | none => fun _ => none
  | some calling => show Counting _ from do
      count (· + 1)
      let result ← ExceptT.run (runStmts calling scope .void body)
      count (· - 1)
      return result

/-- Runs a closure. The limit is looked at and the parameters are bound before the counter is
changed. -/
def enter (inner : Option Calling) (c : Closure) (args : List Value) : Running Value := do
  checkDepth
  let scope ← ofEval (Eval.child c.scope)
  ofEval (Eval.defineAll scope (c.params.zip args))
  match ← runCounted inner scope c.body with
  | .next _ => return .void
  | .returned v => return v

/-- Calls a value. `inner` is what the calls in the body of a closure do; it is missing where there
is no room for the body. -/
def callThrough (inner : Option Calling) : Calling := fun callee args => do
  let f ← ofEval (Eval.callable callee)
  ofEval (f.checkArity args)
  match f with
  | .closure c => enter inner c args
  | .builtin b => ofEval (b.run args)

/-- Calls a value, with room for `stack` bodies. -/
def callValue : Nat → Calling
  | 0 => callThrough none
  | stack + 1 => callThrough (some (callValue stack))

/-! ## Sequences -/

section Sequences

variable {α β : Type} {s s' : Interpreter × Machine}

theorem running_bind_ok {p : Running α} {f : α → Running β} {a : α}
    (ok : p s = some (.ok a, s')) : (p >>= f) s = f a s' := by
  show (p s >>= fun (result, next) => ExceptT.bindCont f result next) = _
  rw [ok]
  rfl

theorem running_bind_error {p : Running α} {f : α → Running β} {e : EvalError}
    (error : p s = some (.error e, s')) : (p >>= f) s = some (.error e, s') := by
  show (p s >>= fun (result, next) => ExceptT.bindCont f result next) = _
  rw [error]
  rfl

end Sequences

/-! ## The interpreter does what evaluation does -/

section Does

variable {limit depth : Nat} {α β : Type}

/-- From every machine the interpreter ends as evaluation does, with the counter back where it
was. On the way the counter has not been above the limit. -/
def Does (limit depth : Nat) (p : Running α) (q : Eval α) : Prop :=
  ∀ counted m, ∃ more, (∀ d ∈ more, d ≤ limit) ∧
    p (⟨limit, depth, counted⟩, m)
      = some ((ending (q m)).1, ⟨limit, depth, more ++ counted⟩, (ending (q m)).2)

theorem does_ofEval (q : Eval α) : Does limit depth (ofEval q) q :=
  fun _ _ => ⟨[], List.forall_mem_nil _, rfl⟩

theorem does_pure (a : α) : Does limit depth (pure a) (pure a) :=
  fun _ _ => ⟨[], List.forall_mem_nil _, rfl⟩

theorem Does.bind {p : Running α} {q : Eval α} {f : α → Running β} {g : α → Eval β}
    (first : Does limit depth p q) (second : ∀ a, Does limit depth (f a) (g a)) :
    Does limit depth (p >>= f) (q >>= g) := by
  intro counted m
  obtain ⟨more, bounded, ends⟩ := first counted m
  cases result : q m with
  | ok a m' =>
      rw [result] at ends
      obtain ⟨later, bounded', ends'⟩ := second a (more ++ counted) m'
      refine ⟨later ++ more, List.forall_mem_append.mpr ⟨bounded', bounded⟩, ?_⟩
      rw [running_bind_ok ends, bind_ok result, List.append_assoc]
      exact ends'
  | error e m' =>
      rw [result] at ends
      refine ⟨more, bounded, ?_⟩
      rw [running_bind_error ends, bind_error result]
      rfl

/-- After a failure, nothing else is done. -/
theorem Does.stop {p : Running α} {e : EvalError} (failed : Does limit depth p (throw e))
    (f : α → Running β) : Does limit depth (p >>= f) (throw e) := by
  intro counted m
  obtain ⟨more, bounded, ends⟩ := failed counted m
  exact ⟨more, bounded, running_bind_error ends⟩

/-- At a depth, the interpreter does for every call what evaluation does. -/
def DoesCalls (limit depth : Nat) (calling : Calling) (call : Call) : Prop :=
  ∀ callee args, Does limit depth (calling callee args) (call callee args)

variable {calling : Calling} {call : Call} {scope : Scope}

theorem does_evalExprs {es : List Expr}
    (each : ∀ e ∈ es, Does limit depth (evalExpr calling scope e) (e.eval call scope)) :
    Does limit depth (evalExprs calling scope es) (Expr.evalAll call scope es) := by
  induction es with
  | nil => exact does_pure []
  | cons e es ih =>
      refine (each e List.mem_cons_self).bind fun v => ?_
      refine (ih fun e member => each e (List.mem_cons_of_mem _ member)).bind fun vs => ?_
      exact does_pure (v :: vs)

theorem does_evalExpr (calls : DoesCalls limit depth calling call) (e : Expr) :
    Does limit depth (evalExpr calling scope e) (e.eval call scope) := by
  induction e with
  | literal l => exact does_pure _
  | name x => exact does_ofEval _
  | unary op arg ih => exact ih.bind fun v => does_ofEval _
  | binary op lhs rhs left right => exact left.bind fun v => right.bind fun w => does_ofEval _
  | group inner ih => exact ih
  | call callee args called passed =>
      exact called.bind fun f => (does_evalExprs passed).bind fun vs => calls f vs
  | assign x value ih => exact ih.bind fun v => (does_ofEval _).bind fun _ => does_pure v

theorem does_evalTest (calls : DoesCalls limit depth calling call) (cond : Expr) :
    Does limit depth (evalTest calling scope cond) (cond.test call scope) :=
  (does_evalExpr calls cond).bind fun v => does_ofEval (truth v)

theorem does_runStmts {ss : List Stmt}
    (each : ∀ s ∈ ss, Does limit depth (runStmt calling scope s) (s.run call scope))
    (last : Value) :
    Does limit depth (runStmts calling scope last ss) (Stmt.runAll call scope last ss) := by
  induction ss generalizing last with
  | nil => exact does_pure _
  | cons s ss ih =>
      refine (each s List.mem_cons_self).bind fun flow => ?_
      cases flow with
      | next v => exact ih (fun s member => each s (List.mem_cons_of_mem _ member)) v
      | returned v => exact does_pure _

theorem does_block {body : List Stmt}
    (each : ∀ s ∈ body, ∀ inner, Does limit depth (runStmt calling inner s) (s.run call inner)) :
    Does limit depth (ofEval (Eval.child scope) >>= fun inner => runStmts calling inner .void body)
      (Eval.child scope >>= fun inner => Stmt.runAll call inner .void body) :=
  (does_ofEval _).bind fun inner => does_runStmts (fun s member => each s member inner) .void

theorem does_runStmt (calls : DoesCalls limit depth calling call) (s : Stmt) :
    Does limit depth (runStmt calling scope s) (s.run call scope) := by
  induction s generalizing scope with
  | letDecl x init =>
      refine (does_ofEval _).bind fun _ => (does_evalExpr calls init).bind fun v => ?_
      exact (does_ofEval _).bind fun _ => does_pure _
  | funDecl x params body =>
      exact (does_ofEval _).bind fun f => (does_ofEval _).bind fun _ => does_pure _
  | block body ih => exact does_block fun s member _ => ih s member
  | ifThen cond body ih =>
      refine (does_evalTest calls cond).bind fun holds => ?_
      cases holds with
      | true => exact does_block fun s member _ => ih s member
      | false => exact does_pure _
  | ifElse cond body other ihBody ihOther =>
      refine (does_evalTest calls cond).bind fun holds => ?_
      cases holds with
      | true => exact does_block fun s member _ => ihBody s member
      | false => exact does_block fun s member _ => ihOther s member
  | expr e => exact (does_evalExpr calls e).bind fun v => does_pure _
  | ret e => exact (does_evalExpr calls e).bind fun v => does_pure _

theorem does_statements (calls : DoesCalls limit depth calling call) (scope : Scope)
    (ss : List Stmt) :
    Does limit depth (runStmts calling scope .void ss) (Stmt.runAll call scope .void ss) :=
  does_runStmts (fun s _ => does_runStmt calls s) .void

/-! ## Calls -/

/-- The counter goes up by one and comes back, whatever the body ends with. -/
theorem does_runCounted (room : depth < limit) {body : List Stmt} {q : Eval Flow}
    (inside : Does limit (depth + 1) (runStmts calling scope .void body) q) :
    Does limit depth (runCounted (some calling) scope body) q := by
  intro counted m
  obtain ⟨more, bounded, ends⟩ := inside ((depth + 1) :: counted) m
  refine ⟨depth :: (more ++ [depth + 1]), ?_, ?_⟩
  · refine List.forall_mem_cons.mpr ⟨Nat.le_of_lt room, ?_⟩
    exact List.forall_mem_append.mpr ⟨bounded, List.forall_mem_singleton.mpr room⟩
  · have back : depth + 1 - 1 = depth := Nat.add_sub_cancel depth 1
    show (runStmts calling scope .void body (⟨limit, depth + 1, (depth + 1) :: counted⟩, m) >>=
      fun (result, i, m) => some (result, i.setDepth (i.depth - 1), m)) = _
    rw [ends, List.cons_append, List.append_assoc]
    show some (_, setDepth _ (depth + 1 - 1), _) = _
    rw [back]
    rfl

theorem does_checkDepth (room : depth < limit) : Does limit depth checkDepth (pure ()) := by
  refine fun counted m => ⟨[], List.forall_mem_nil _, ?_⟩
  rw [checkDepth, if_neg (Nat.not_le_of_lt room)]
  rfl

theorem does_checkDepth_of_le (full : limit ≤ depth) :
    Does limit depth checkDepth (throw (.callTooDeep limit)) := by
  refine fun counted m => ⟨[], List.forall_mem_nil _, ?_⟩
  rw [checkDepth, if_pos full]
  rfl

/-- At the limit no body is run, so that no room is needed. -/
theorem does_enter_of_le (full : limit ≤ depth) (inner : Option Calling) (c : Closure)
    (args : List Value) : Does limit depth (enter inner c args) (Closure.enter limit none c args) :=
  (does_checkDepth_of_le full).stop _

theorem does_enter (room : depth < limit) (calls : DoesCalls limit (depth + 1) calling call)
    (c : Closure) (args : List Value) :
    Does limit depth (enter (some calling) c args) (Closure.enter limit (some call) c args) := by
  have body (scope : Scope) : Does limit depth (runCounted (some calling) scope c.body)
      (Stmt.runAll call scope .void c.body) :=
    does_runCounted room (does_statements calls scope c.body)
  rw [enter, Closure.enter, ← pure_bind () fun _ => Eval.child c.scope >>= _]
  refine (does_checkDepth room).bind fun _ => (does_ofEval _).bind fun scope => ?_
  refine (does_ofEval _).bind fun _ => (body scope).bind fun flow => ?_
  cases flow with
  | next _ => exact does_pure _
  | returned v => exact does_pure v

theorem does_callThrough {inner : Option Calling} {deeper : Option Call}
    (enters : ∀ c args, Does limit depth (enter inner c args) (Closure.enter limit deeper c args)) :
    DoesCalls limit depth (callThrough inner) (callWith limit deeper) := by
  intro callee args
  rw [callThrough, callWith_eq]
  refine (does_ofEval _).bind fun f => (does_ofEval _).bind fun _ => ?_
  cases f with
  | closure c => exact enters c args
  | builtin b => exact does_ofEval _

/-- What the interpreter does for calls is what evaluation does with the levels that the counter
leaves, if there is room for as many bodies. The induction is on the room. -/
theorem does_callValue {stack : Nat} (room : limit - depth ≤ stack) :
    DoesCalls limit depth (callValue stack) (callLeft limit (limit - depth)) := by
  induction stack generalizing depth with
  | zero =>
      have full : limit ≤ depth := by omega
      rw [Nat.sub_eq_zero_of_le full]
      exact does_callThrough (does_enter_of_le full none)
  | succ stack ih =>
      by_cases full : limit ≤ depth
      · rw [Nat.sub_eq_zero_of_le full]
        exact does_callThrough (does_enter_of_le full _)
      · have one : limit - depth = limit - (depth + 1) + 1 := by omega
        rw [one]
        exact does_callThrough (does_enter (Nat.lt_of_not_le full) (ih (by omega)))

end Does

end Interpreter
end Bramble
