import Bramble.Proofs.Eval.Prelude
import Mathlib.Order.WellFounded

/-!
# Evaluation ends

Calls make evaluation recursive in a way that no tree limits: the body of a function is found on
the machine, it may be larger than the expression that calls it, and it may call itself. Here the
recursion is written down as such, with the depth of calls counted up and compared with the limit,
and without any reason given why it should end. A task is anything that evaluation can be asked to
do. What it takes to do a task is a computation that may ask for other tasks, and to run such a
computation is to run what it takes to do those.

Each task that is asked for has less left of the limit, or as much and less to read. So every task
has a run, of finitely many steps. It has no other one, and it ends as evaluation does, which counts
the levels left down instead. If it ends with an error, this is never because a function of the
prelude has been run on too few arguments (`evaluation_ends`).
-/

set_option autoImplicit false

namespace Bramble

/-! ## Sizes of trees -/

mutual

/-- The number of nodes of an expression. -/
def Expr.size : Expr → Nat
  | .literal _ => 1
  | .name _ => 1
  | .unary _ arg => arg.size + 1
  | .binary _ lhs rhs => lhs.size + rhs.size + 1
  | .group inner => inner.size + 1
  | .call callee args => callee.size + Expr.sizeAll args + 1
  | .assign _ value => value.size + 1

/-- The number of nodes of expressions. -/
def Expr.sizeAll : List Expr → Nat
  | [] => 0
  | e :: es => e.size + Expr.sizeAll es

end

mutual

/-- The number of nodes of a statement. -/
def Stmt.size : Stmt → Nat
  | .letDecl _ init => init.size + 1
  | .funDecl _ _ body => Stmt.sizeAll body + 1
  | .block body => Stmt.sizeAll body + 1
  | .ifThen cond body => cond.size + Stmt.sizeAll body + 1
  | .ifElse cond body other => cond.size + Stmt.sizeAll body + Stmt.sizeAll other + 1
  | .expr e => e.size + 1
  | .ret e => e.size + 1

/-- The number of nodes of a list of statements. The list is a node of its own. -/
def Stmt.sizeAll : List Stmt → Nat
  | [] => 1
  | s :: ss => s.size + Stmt.sizeAll ss

end

theorem Stmt.sizeAll_pos (ss : List Stmt) : 0 < Stmt.sizeAll ss := by
  induction ss with
  | nil => exact Nat.one_pos
  | cons s ss ih => exact Nat.add_pos_right s.size ih

/-! ## Tasks -/

/-- What evaluation can be asked for, and what it then returns. -/
inductive Task : Type → Type where
  | expr (scope : Scope) (e : Expr) : Task Value
  | stmt (scope : Scope) (s : Stmt) : Task Flow
  | stmts (scope : Scope) (ss : List Stmt) : Task Flow
  | program (scope : Scope) (statements : Program) : Task Value
  | call (callee : Value) (args : List Value) : Task Value

/-- Computations that may ask for tasks, at a depth of calls. -/
inductive Recursive : Type → Type 1 where
  | run {α : Type} (p : Eval α) : Recursive α
  | ask {α : Type} (depth : Nat) (task : Task α) : Recursive α
  | bind {α β : Type} (first : Recursive α) (next : α → Recursive β) : Recursive β

instance : Monad Recursive where
  pure a := .run (pure a)
  bind := .bind

namespace Recursive

variable {α β : Type} {limit : Nat}

/-- The values of expressions, each asked for in turn. -/
def askAll (depth : Nat) (scope : Scope) : List Expr → Recursive (List Value)
  | [] => return []
  | e :: es => do
      let v ← ask depth (.expr scope e)
      let vs ← askAll depth scope es
      return v :: vs

/-- Statements, each asked for in turn, up to the first that returns. -/
def askEach (depth : Nat) (scope : Scope) (last : Value) : List Stmt → Recursive Flow
  | [] => return .next last
  | s :: ss => do
      match ← ask depth (.stmt scope s) with
      | .next v => askEach depth scope v ss
      | .returned v => return .returned v

/-- The statements of a block, in a scope of their own. -/
def askBlock (depth : Nat) (scope : Scope) (body : List Stmt) : Recursive Flow := do
  let inner ← run (Eval.child scope)
  ask depth (.stmts inner body)

/-- The truth value of a condition. -/
def askTest (depth : Nat) (scope : Scope) (cond : Expr) : Recursive Bool := do
  let v ← ask depth (.expr scope cond)
  match v.toBool? with
  | some b => return b
  | none => run (throw (.typeMismatch .condition [v.kind]))

/-- The body of a closure, if the calls around it leave room for one more. -/
def askBody (limit depth : Nat) (c : Closure) (args : List Value) : Recursive Value :=
  if limit ≤ depth then run (throw (.callTooDeep limit))
  else do
    let scope ← run (Eval.child c.scope)
    run (Eval.defineAll scope (c.params.zip args))
    match ← ask (depth + 1) (.stmts scope c.body) with
    | .next _ => return .void
    | .returned v => return v

end Recursive

namespace Task

open Recursive

variable {α : Type}

/-- What it takes to do a task. -/
def body (limit depth : Nat) : {α : Type} → Task α → Recursive α
  | _, .expr scope e =>
      match e with
      | .literal l => return .ofLiteral l
      | .name x => run (Eval.lookup scope x)
      | .unary op arg => do
          let v ← ask depth (.expr scope arg)
          run (Eval.ofExcept (Operator.unary op v))
      | .binary op lhs rhs => do
          let v ← ask depth (.expr scope lhs)
          let w ← ask depth (.expr scope rhs)
          run (Eval.ofExcept (Operator.binary op v w))
      | .group inner => ask depth (.expr scope inner)
      | .call callee args => do
          let f ← ask depth (.expr scope callee)
          let vs ← askAll depth scope args
          ask depth (.call f vs)
      | .assign x value => do
          let v ← ask depth (.expr scope value)
          run (Eval.assign scope x v)
          return v
  | _, .stmt scope s =>
      match s with
      | .letDecl x init => do
          run (Eval.requireFresh scope x)
          let v ← ask depth (.expr scope init)
          run (Eval.define scope x v)
          return .next .void
      | .funDecl x params body => do
          let f ← run (Eval.newFunction (.closure ⟨x, params, body, scope⟩))
          run (Eval.define scope x f)
          return .next .void
      | .block body => askBlock depth scope body
      | .ifThen cond body => do
          if ← askTest depth scope cond then askBlock depth scope body
          else return .next .void
      | .ifElse cond body other => do
          if ← askTest depth scope cond then askBlock depth scope body
          else askBlock depth scope other
      | .expr e => return .next (← ask depth (.expr scope e))
      | .ret e => return .returned (← ask depth (.expr scope e))
  | _, .stmts scope ss => askEach depth scope .void ss
  | _, .program scope statements => return (← ask depth (.stmts scope statements)).value
  | _, .call callee args => do
      match ← run (Eval.callable callee) with
      | .closure c => do
          run (Callable.checkArity (.closure c) args)
          askBody limit depth c args
      | .builtin b => run (do Callable.checkArity (.builtin b) args; b.run args)

/-- The size of what there is to read. A call has nothing to read yet. -/
def size : {α : Type} → Task α → Nat
  | _, .expr _ e => e.size
  | _, .stmt _ s => s.size
  | _, .stmts _ ss => Stmt.sizeAll ss
  | _, .program _ statements => Stmt.sizeAll statements + 1
  | _, .call _ _ => 0

/-- What is left of the limit, and the size of what there is to read. -/
def measure (limit depth : Nat) (task : Task α) : Nat × Nat := (limit - depth, task.size)

/-- What evaluation does for a task, begun at a depth of calls. -/
def eval (limit depth : Nat) : {α : Type} → Task α → Eval α
  | _, .expr scope e => e.eval (callLeft limit (limit - depth)) scope
  | _, .stmt scope s => s.run (callLeft limit (limit - depth)) scope
  | _, .stmts scope ss => Stmt.runAll (callLeft limit (limit - depth)) scope .void ss
  | _, .program scope statements => do
      return (← Stmt.runAll (callLeft limit (limit - depth)) scope .void statements).value
  | _, .call callee args => callLeft limit (limit - depth) callee args

end Task

/-- Pairs of numbers, compared by the first one, and by the second one where that is the same. -/
abbrev Below : Nat × Nat → Nat × Nat → Prop := Prod.Lex (· < ·) (· < ·)

namespace Recursive

variable {α β : Type} {limit : Nat} {bound : Nat × Nat}

/-- The finite runs of a computation: the machine that it begins on, and how it ends. -/
inductive Ends (limit : Nat) : {α : Type} → Recursive α → Machine →
    EStateM.Result EvalError Machine α → Prop where
  | run {α : Type} (p : Eval α) (m : Machine) : Ends limit (.run p) m (p m)
  | ask {α : Type} {depth : Nat} {task : Task α} {m : Machine}
      {r : EStateM.Result EvalError Machine α} (done : Ends limit (task.body limit depth) m r) :
      Ends limit (.ask depth task) m r
  | next {α β : Type} {first : Recursive α} {next : α → Recursive β} {m m' : Machine} {a : α}
      {r : EStateM.Result EvalError Machine β} (done : Ends limit first m (.ok a m'))
      (more : Ends limit (next a) m' r) : Ends limit (.bind first next) m r
  | stop {α β : Type} {first : Recursive α} {next : α → Recursive β} {m m' : Machine}
      {e : EvalError} (failed : Ends limit first m (.error e m')) :
      Ends limit (.bind first next) m (.error e m')

/-- The tasks that a computation may ask for. -/
inductive Asks {γ : Type} (depth : Nat) (task : Task γ) : {α : Type} → Recursive α → Prop where
  | here : Asks depth task (.ask depth task)
  | first {α β : Type} {first : Recursive α} {next : α → Recursive β}
      (asks : Asks depth task first) : Asks depth task (.bind first next)
  | next {α β : Type} {first : Recursive α} {next : α → Recursive β} (a : α)
      (asks : Asks depth task (next a)) : Asks depth task (.bind first next)

/-- A computation that asks for smaller tasks at its own depth of calls, or for any tasks one level
deeper if the limit allows that. -/
inductive Orderly (limit depth size : Nat) : {α : Type} → Recursive α → Prop where
  | run {α : Type} (p : Eval α) : Orderly limit depth size (.run p)
  | ask {α : Type} {task : Task α} (smaller : task.size < size) :
      Orderly limit depth size (.ask depth task)
  | enter {α : Type} (task : Task α) (room : depth < limit) :
      Orderly limit depth size (.ask (depth + 1) task)
  | bind {α β : Type} {first : Recursive α} {next : α → Recursive β}
      (before : Orderly limit depth size first) (after : ∀ a, Orderly limit depth size (next a)) :
      Orderly limit depth size (.bind first next)

namespace Orderly

variable {depth size : Nat}

theorem below_smaller {task : Task α} (smaller : task.size < size) :
    Below (task.measure limit depth) (limit - depth, size) :=
  .right _ smaller

theorem below_deeper (task : Task α) (room : depth < limit) :
    Below (task.measure limit (depth + 1)) (limit - depth, size) :=
  .left _ _ (by omega)

/-- The tasks of an orderly computation are below its own measure, and not above the limit. -/
theorem asks_below {p : Recursive α} (orderly : Orderly limit depth size p) {deep : Nat}
    {task : Task β} (asks : Asks deep task p) :
    Below (task.measure limit deep) (limit - depth, size) ∧ deep ≤ max depth limit := by
  induction asks with
  | here =>
      cases orderly with
      | ask smaller => exact ⟨below_smaller smaller, Nat.le_max_left _ _⟩
      | enter _ room => exact ⟨below_deeper task room, Nat.le_trans room (Nat.le_max_right _ _)⟩
  | first _ ih =>
      cases orderly with
      | bind before _ => exact ih before
  | next a _ ih =>
      cases orderly with
      | bind _ after => exact ih (after a)

/-- If all tasks below it have runs, then an orderly computation has one. -/
theorem ends {p : Recursive α} (orderly : Orderly limit depth size p)
    (smaller : ∀ (γ : Type) (deep : Nat) (task : Task γ),
      Below (task.measure limit deep) (limit - depth, size) →
        ∀ m, ∃ r, Ends limit (.ask deep task) m r) (m : Machine) :
    ∃ r, Ends limit p m r := by
  induction orderly generalizing m with
  | run _ => exact ⟨_, .run _ m⟩
  | ask less => exact smaller _ _ _ (below_smaller less) m
  | enter task room => exact smaller _ _ _ (below_deeper task room) m
  | bind _ _ first next =>
      obtain ⟨r, done⟩ := first m
      cases r with
      | ok a m' =>
          obtain ⟨r', more⟩ := next a m'
          exact ⟨r', .next done more⟩
      | error e m' => exact ⟨_, .stop done⟩

end Orderly

/-! ## What it takes to do a task is orderly -/

section Orderly

variable {depth size : Nat} {scope : Scope}

theorem orderly_askAll {es : List Expr} (smaller : Expr.sizeAll es < size) :
    Orderly limit depth size (askAll depth scope es) := by
  induction es with
  | nil => exact .run _
  | cons e es ih =>
      rw [Expr.sizeAll] at smaller
      have first : e.size < size := by omega
      have others : Expr.sizeAll es < size := by omega
      exact .bind (.ask first) fun v => .bind (ih others) fun vs => .run _

theorem orderly_askEach {ss : List Stmt} (room : Stmt.sizeAll ss ≤ size) (last : Value) :
    Orderly limit depth size (askEach depth scope last ss) := by
  induction ss generalizing last with
  | nil => exact .run _
  | cons s ss ih =>
      rw [Stmt.sizeAll] at room
      have first : s.size < size := by
        have := Stmt.sizeAll_pos ss
        omega
      have others : Stmt.sizeAll ss ≤ size := by omega
      refine .bind (.ask first) fun flow => ?_
      cases flow with
      | next v => exact ih others v
      | returned v => exact .run _

theorem orderly_askBlock {body : List Stmt} (smaller : Stmt.sizeAll body < size) :
    Orderly limit depth size (askBlock depth scope body) :=
  .bind (.run _) fun _ => .ask smaller

theorem orderly_askTest {cond : Expr} (smaller : cond.size < size) :
    Orderly limit depth size (askTest depth scope cond) := by
  refine .bind (.ask smaller) fun v => ?_
  cases v.toBool? with
  | some b => exact .run _
  | none => exact .run _

/-- The body of a closure may have any size. It is asked for one level deeper, and only after a
look at the limit. -/
theorem orderly_askBody (c : Closure) (args : List Value) :
    Orderly limit depth size (askBody limit depth c args) := by
  unfold askBody
  split
  · exact .run _
  · next room =>
      refine .bind (.run _) fun scope => .bind (.run _) fun _ => .bind ?_ fun flow => ?_
      · exact .enter _ (Nat.lt_of_not_le room)
      · cases flow with
        | next _ => exact .run _
        | returned v => exact .run _

theorem orderly_expr (scope : Scope) (e : Expr) :
    Orderly limit depth e.size ((Task.expr scope e).body limit depth) := by
  cases e with
  | literal l => exact .run _
  | name x => exact .run _
  | unary op arg =>
      rw [Expr.size]
      exact .bind (.ask (Nat.lt_succ_self _)) fun v => .run _
  | binary op lhs rhs =>
      have left : lhs.size < (Expr.binary op lhs rhs).size := by
        rw [Expr.size]
        omega
      have right : rhs.size < (Expr.binary op lhs rhs).size := by
        rw [Expr.size]
        omega
      exact .bind (.ask left) fun v => .bind (.ask right) fun w => .run _
  | group inner =>
      rw [Expr.size]
      exact .ask (Nat.lt_succ_self _)
  | call callee args =>
      have called : callee.size < (Expr.call callee args).size := by
        rw [Expr.size]
        omega
      have passed : Expr.sizeAll args < (Expr.call callee args).size := by
        rw [Expr.size]
        omega
      refine .bind (.ask called) fun f => .bind (orderly_askAll passed) fun vs => ?_
      rw [Expr.size]
      exact .ask (Nat.zero_lt_succ _)
  | assign x value =>
      rw [Expr.size]
      exact .bind (.ask (Nat.lt_succ_self _)) fun v => .bind (.run _) fun _ => .run _

theorem orderly_stmt (scope : Scope) (s : Stmt) :
    Orderly limit depth s.size ((Task.stmt scope s).body limit depth) := by
  cases s with
  | letDecl x init =>
      rw [Stmt.size]
      refine .bind (.run _) fun _ => .bind (.ask (Nat.lt_succ_self _)) fun v => ?_
      exact .bind (.run _) fun _ => .run _
  | funDecl x params body => exact .bind (.run _) fun f => .bind (.run _) fun _ => .run _
  | block body =>
      rw [Stmt.size]
      exact orderly_askBlock (Nat.lt_succ_self _)
  | ifThen cond body =>
      rw [Stmt.size]
      refine .bind (orderly_askTest (by omega)) fun holds => ?_
      cases holds with
      | true => exact orderly_askBlock (by omega)
      | false => exact .run _
  | ifElse cond body other =>
      rw [Stmt.size]
      refine .bind (orderly_askTest (by omega)) fun holds => ?_
      cases holds with
      | true => exact orderly_askBlock (by omega)
      | false => exact orderly_askBlock (by omega)
  | expr e =>
      rw [Stmt.size]
      exact .bind (.ask (Nat.lt_succ_self _)) fun v => .run _
  | ret e =>
      rw [Stmt.size]
      exact .bind (.ask (Nat.lt_succ_self _)) fun v => .run _

/-- Whatever the task, what it takes asks for tasks below it only. -/
theorem orderly_body (depth : Nat) (task : Task α) :
    Orderly limit depth task.size (task.body limit depth) := by
  cases task with
  | expr scope e => exact orderly_expr scope e
  | stmt scope s => exact orderly_stmt scope s
  | stmts scope ss => exact orderly_askEach (Nat.le_refl _) .void
  | program scope statements =>
      exact .bind (.ask (Nat.lt_succ_self _)) fun flow => .run _
  | call callee args =>
      refine .bind (.run _) fun f => ?_
      cases f with
      | closure c => exact .bind (.run _) fun _ => orderly_askBody c args
      | builtin b => exact .run _

end Orderly

/-- Every task has a run. The induction is on what is left of the limit and then on the size. -/
theorem exists_ends (limit depth : Nat) (task : Task α) (m : Machine) :
    ∃ r, Ends limit (.ask depth task) m r := by
  have wellFounded : WellFounded Below :=
    WellFounded.prod_lex Nat.lt_wfRel.wf Nat.lt_wfRel.wf
  generalize same : task.measure limit depth = measure
  induction measure using wellFounded.induction generalizing α depth m with
  | _ measure ih =>
      subst same
      have orderly : Orderly limit depth task.size (task.body limit depth) :=
        orderly_body depth task
      obtain ⟨r, done⟩ := orderly.ends (fun _ deep inner below m' => ih _ below deep inner m' rfl) m
      exact ⟨r, .ask done⟩

/-! ## Runs and evaluation -/

/-- A computation whose tasks are done as evaluation does them. -/
def eval (limit : Nat) : {α : Type} → Recursive α → Eval α
  | _, .run p => p
  | _, .ask depth task => task.eval limit depth
  | _, .bind first next => eval limit first >>= fun a => eval limit (next a)

theorem eval_askAll (depth : Nat) (scope : Scope) (es : List Expr) :
    (askAll depth scope es).eval limit
      = Expr.evalAll (callLeft limit (limit - depth)) scope es := by
  induction es with
  | nil => rfl
  | cons e es ih =>
      rw [Expr.evalAll, ← ih]
      rfl

theorem eval_askEach (depth : Nat) (scope : Scope) (ss : List Stmt) (last : Value) :
    (askEach depth scope last ss).eval limit
      = Stmt.runAll (callLeft limit (limit - depth)) scope last ss := by
  induction ss generalizing last with
  | nil => rfl
  | cons s ss ih =>
      show (Stmt.run _ scope s >>= fun flow => eval limit _) = _
      rw [Stmt.runAll]
      congr 1
      funext flow
      cases flow with
      | next v => exact ih v
      | returned v => rfl

theorem eval_askTest (depth : Nat) (scope : Scope) (cond : Expr) :
    (askTest depth scope cond).eval limit = cond.test (callLeft limit (limit - depth)) scope := by
  show (Expr.eval _ scope cond >>= fun v => eval limit _) = _
  rw [Expr.test]
  congr 1
  funext v
  cases v.toBool? <;> rfl

theorem eval_askBody (depth : Nat) (c : Closure) (args : List Value) :
    (askBody limit depth c args).eval limit
      = Closure.enter limit (callInner limit (limit - depth)) c args := by
  unfold askBody
  split
  · next reached =>
      rw [Nat.sub_eq_zero_of_le reached]
      rfl
  · next room =>
      have one : limit - depth = limit - (depth + 1) + 1 := by omega
      rw [one, callInner, Closure.enter]
      show (Eval.child c.scope >>= fun scope => Eval.defineAll scope _ >>= fun _ =>
        Stmt.runAll _ scope .void c.body >>= fun flow => eval limit _) = _
      congr 1
      funext scope
      congr 1
      funext _
      congr 1
      funext flow
      cases flow <;> rfl

end Recursive

/-- Evaluation does a task by doing what it takes. -/
theorem Task.eval_body {α : Type} (limit depth : Nat) (task : Task α) :
    (task.body limit depth).eval limit = task.eval limit depth := by
  cases task with
  | expr scope e =>
      cases e with
      | call callee args =>
          show (Expr.eval _ scope callee >>= fun f =>
            (Recursive.askAll depth scope args).eval limit >>= fun vs => _) = _
          rw [Recursive.eval_askAll]
          rfl
      | _ => rfl
  | stmt scope s =>
      cases s with
      | ifThen cond body =>
          show ((Recursive.askTest depth scope cond).eval limit >>= fun b =>
            Recursive.eval limit _) = _
          rw [Recursive.eval_askTest, eval, Stmt.run]
          congr 1
          funext b
          cases b <;> rfl
      | ifElse cond body other =>
          show ((Recursive.askTest depth scope cond).eval limit >>= fun b =>
            Recursive.eval limit _) = _
          rw [Recursive.eval_askTest, eval, Stmt.run]
          congr 1
          funext b
          cases b <;> rfl
      | _ => rfl
  | stmts scope ss => exact Recursive.eval_askEach depth scope ss .void
  | program scope statements => rfl
  | call callee args =>
      rw [eval, callLeft_eq, callWith_eq]
      show (Eval.callable callee >>= fun f => Recursive.eval limit _) = _
      congr 1
      funext f
      cases f with
      | closure c =>
          show (Callable.checkArity (.closure c) args >>= fun _ =>
            (Recursive.askBody limit depth c args).eval limit) = _
          rw [Recursive.eval_askBody]
          rfl
      | builtin b => rfl

/-- A run ends as evaluation does. -/
theorem Recursive.Ends.eq_eval {α : Type} {limit : Nat} {p : Recursive α} {m : Machine}
    {r : EStateM.Result EvalError Machine α} (ends : Ends limit p m r) : r = p.eval limit m := by
  induction ends with
  | run p m => rfl
  | ask _ ih =>
      rw [ih, Task.eval_body]
      rfl
  | next _ _ first second =>
      rw [Recursive.eval, bind_ok first.symm]
      exact second
  | stop _ first =>
      rw [Recursive.eval, bind_error first.symm]

/-- Whatever the task and the machine, no function of the prelude misses an argument. -/
theorem Task.eval_supplied {α : Type} (limit depth : Nat) (task : Task α) {m m' : Machine}
    {e : EvalError} (stops : task.eval limit depth m = .error e m') : e.isMissing = false := by
  have calls := Eval.supplying.relatesCalls_callLeft limit (limit - depth)
  have anywhere (scope : Scope) : Eval.supplying.scopes () scope scope := trivial
  cases task with
  | expr scope e =>
      exact (Eval.Congruence.related_eval calls (anywhere scope) e).arguments _ _ _ stops
  | stmt scope s =>
      exact (Eval.Congruence.related_run calls (anywhere scope) s).arguments _ _ _ stops
  | stmts scope ss =>
      have run := Eval.Congruence.related_statements calls (anywhere scope) ss .void
      exact run.arguments _ _ _ stops
  | program scope statements =>
      have run := Eval.Congruence.related_statements calls (anywhere scope) statements .void
      cases ending : Stmt.runAll (callLeft limit (limit - depth)) scope .void statements m with
      | ok flow m'' =>
          rw [eval, bind_ok ending] at stops
          cases stops
      | error e' m'' =>
          rw [eval, bind_error ending] at stops
          cases stops
          exact run.arguments _ _ _ ending
  | call callee args =>
      have like := List.forall₂_same.mpr fun v (_ : v ∈ args) => Value.Like.refl v
      exact (calls () callee callee args args (.refl callee) like).arguments _ _ _ stops

/-- Evaluation ends, whatever the trees, the machine and the functions on it, the limit and the
depth of calls that it begins at. Each task has a run of finitely many steps, which ends as
evaluation does, with a result or with an error of the program. Each task that is asked for on the
way is below the one that asks for it, with respect to what is left of the limit and then to the
size of what there is to read, and the limit is never exceeded. -/
theorem evaluation_ends {α : Type} (limit depth : Nat) (task : Task α) (m : Machine) :
    (Recursive.Ends limit (.ask depth task) m (task.eval limit depth m) ∧
      (∀ r, Recursive.Ends limit (.ask depth task) m r → r = task.eval limit depth m) ∧
      ∀ e m', task.eval limit depth m = .error e m' → e.isMissing = false) ∧
    (∀ (β : Type) (deep : Nat) (inner : Task β),
      Recursive.Asks deep inner (task.body limit depth) →
        Prod.Lex (· < ·) (· < ·) (limit - deep, inner.size) (limit - depth, task.size) ∧
          deep ≤ max depth limit) ∧
    (∀ scope program, (Task.program scope program).eval limit 0 = program.eval limit scope) := by
  refine ⟨⟨?_, fun r ends => ends.eq_eval, ?_⟩, ?_, fun scope program => rfl⟩
  · obtain ⟨r, ends⟩ := Recursive.exists_ends limit depth task m
    rwa [← show r = task.eval limit depth m from ends.eq_eval]
  · intro e m' stops
    exact task.eval_supplied limit depth stops
  · intro β deep inner asks
    exact (Recursive.orderly_body depth task).asks_below asks

end Bramble
