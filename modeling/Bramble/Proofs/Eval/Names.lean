import Bramble.Eval.Call
import Bramble.Proofs.Eval.Sequence
import Bramble.Proofs.Machine.Names
import Bramble.Proofs.Program.Induction

/-!
# Evaluation declares names only where it should

A computation is quiet if no frame that was there before has gained a name when it ends. Every
expression (`Expr.quiet_eval`) and every call (`quiet_callLeft`) is quiet, although closures run
arbitrary statements: a call declares in a new frame, which was not there before. The two facts
depend on each other. Expressions and statements are treated for any call that is quiet, and then
calls by the number of levels left.

A statement adds the names that it declares to its own scope when it is completed, and nothing when
it stops. A list of statements has then added what the completed ones among them declare
(`names_grow_only_by_declarations`). Since the first value of a `let` is computed quietly, its name
is still free afterwards.
-/

set_option autoImplicit false

namespace Bramble

open Machine (Grows nowhere onlyIn)

namespace Eval

variable {α β : Type}

/-- The machine that a computation leaves behind, also when it fails. -/
def after (p : Eval α) (m : Machine) : Machine :=
  match p m with
  | .ok _ m' => m'
  | .error _ m' => m'

theorem after_ok {p : Eval α} {m m' : Machine} {a : α} (ok : p m = .ok a m') :
    p.after m = m' := by
  unfold after
  rw [ok]

theorem after_error {p : Eval α} {m m' : Machine} {e : EvalError} (error : p m = .error e m') :
    p.after m = m' := by
  unfold after
  rw [error]

theorem after_bind_ok {p : Eval α} {f : α → Eval β} {m m' : Machine} {a : α}
    (ok : p m = .ok a m') : (p >>= f).after m = (f a).after m' := by
  unfold after
  rw [bind_ok ok]

/-! ## Computations that add no name -/

/-- Whatever the computation ends with, no frame has gained a name. -/
def Quiet (p : Eval α) : Prop := ∀ m, Grows nowhere m (p.after m)

theorem Quiet.bind {p : Eval α} {f : α → Eval β} (first : Quiet p) (second : ∀ a, Quiet (f a)) :
    Quiet (p >>= f) := by
  intro m
  have before := first m
  cases result : p m with
  | ok a m' =>
      rw [after_ok result] at before
      rw [after_bind_ok result]
      exact before.thenNowhere (second a m')
  | error e m' =>
      rw [after_error result] at before
      rw [after_error (bind_error result)]
      exact before

theorem quiet_pure (a : α) : Quiet (pure a) := Grows.refl

theorem quiet_throw (e : EvalError) : Quiet (throw e : Eval α) := Grows.refl

theorem quiet_get : Quiet (get : Eval Machine) := Grows.refl

theorem quiet_ofExcept (result : Except EvalError α) : Quiet (ofExcept result) := by
  cases result with
  | ok a => exact quiet_pure a
  | error e => exact quiet_throw e

theorem quiet_lookup (scope : Scope) (x : String) : Quiet (lookup scope x) := by
  intro m
  unfold after lookup
  cases m.lookup? scope x <;> exact .refl m

theorem quiet_requireFresh (scope : Scope) (x : String) : Quiet (requireFresh scope x) := by
  intro m
  unfold after requireFresh
  cases m.bindsIn scope x <;> exact .refl m

theorem quiet_assign (scope : Scope) (x : String) (v : Value) : Quiet (assign scope x v) := by
  intro m
  unfold after assign
  cases m.resolve? scope x with
  | none => exact .refl m
  | some frame => exact Machine.grows_rebind m frame x v

theorem quiet_newFunction (f : Callable) : Quiet (newFunction f) :=
  fun m => Machine.grows_addFunction m f

theorem quiet_print (text : String) : Quiet (Eval.print text) :=
  fun m => Machine.grows_print m text

theorem quiet_checkArity (f : Callable) (args : List Value) : Quiet (f.checkArity args) := by
  unfold Callable.checkArity
  split
  · exact quiet_pure _
  · exact quiet_throw _

theorem quiet_builtin (b : Builtin) (args : List Value) : Quiet (b.run args) := by
  unfold Builtin.run
  split
  · exact quiet_get.bind fun _ => (quiet_print _).bind fun _ => quiet_pure _
  · exact quiet_get.bind fun _ => (quiet_print _).bind fun _ => quiet_pure _
  · split
    · exact quiet_pure _
    · exact quiet_get.bind fun _ => quiet_throw _
  · split
    · exact quiet_pure _
    · exact quiet_throw _
    · exact quiet_throw _
  · exact quiet_throw _

/-! ## Computations that add names to one scope -/

/-- Whatever the computation ends with, only `scope` may have gained names. -/
def Within (scope : Scope) (p : Eval α) : Prop :=
  ∀ m, scope < m.frames.size → ∃ xs, Grows (onlyIn scope xs) m (p.after m)

theorem Quiet.within {p : Eval α} (quiet : Quiet p) (scope : Scope) : Within scope p := by
  intro m _
  refine ⟨[], ?_⟩
  rw [Machine.onlyIn_nil]
  exact quiet m

theorem Within.bind {scope : Scope} {p : Eval α} {f : α → Eval β} (first : Within scope p)
    (second : ∀ a, Within scope (f a)) : Within scope (p >>= f) := by
  intro m exist
  obtain ⟨xs, before⟩ := first m exist
  cases result : p m with
  | ok a m' =>
      rw [after_ok result] at before
      obtain ⟨ys, next⟩ := second a m' (Nat.lt_of_lt_of_le exist before.size)
      refine ⟨ys ++ xs, ?_⟩
      rw [after_bind_ok result]
      exact before.transIn next
  | error e m' =>
      rw [after_error result] at before
      refine ⟨xs, ?_⟩
      rw [after_error (bind_error result)]
      exact before

/-- A new scope takes the names that are declared in it away with it. -/
theorem quiet_inChild {scope : Scope} {f : Scope → Eval β}
    (inner : ∀ inner, Within inner (f inner)) : Quiet (child scope >>= f) := by
  intro m
  obtain ⟨new, exist⟩ := Machine.addFrame_new m (m.chain scope)
  obtain ⟨xs, grows⟩ := inner _ (m.child scope).2 exist
  exact (Machine.grows_addFrame m (m.chain scope)).beyond new grows

/-- A definition adds its name if and only if it succeeds. -/
theorem define_grows (scope : Scope) (x : String) (v : Value) (m : Machine)
    (exist : scope < m.frames.size) :
    (x ∈ m.namesIn scope ∧ define scope x v m = .error (.duplicateIdentifier x) m) ∨
      (define scope x v m = .ok () (m.bind scope x v) ∧
        Grows (onlyIn scope [x]) m (m.bind scope x v)) := by
  cases bound : m.bindsIn scope x with
  | true =>
      refine .inl ⟨Machine.bindsIn_iff.mp bound, bind_error ?_⟩
      unfold requireFresh
      rw [if_pos bound]
  | false =>
      refine .inr ⟨?_, Machine.grows_bind v exist (Machine.bindsIn_eq_false_iff.mp bound)⟩
      have fresh : requireFresh scope x m = .ok () m := by
        unfold requireFresh
        rw [if_neg (by simp [bound])]
      exact bind_ok fresh

theorem within_define (scope : Scope) (x : String) (v : Value) :
    Within scope (define scope x v) := by
  intro m exist
  rcases define_grows scope x v m exist with ⟨_, error⟩ | ⟨ok, grows⟩
  · refine ⟨[], ?_⟩
    rw [after_error error, Machine.onlyIn_nil]
    exact .refl m
  · refine ⟨[x], ?_⟩
    rw [after_ok ok]
    exact grows

theorem within_defineAll (scope : Scope) (bindings : List (String × Value)) :
    Within scope (defineAll scope bindings) := by
  induction bindings with
  | nil => exact (quiet_pure ()).within scope
  | cons binding rest ih =>
      exact (within_define scope binding.1 binding.2).bind fun _ => ih

end Eval

/-! ## Declarations -/

/-- The names that a statement declares in the scope that it stands in. -/
def Stmt.declares : Stmt → List String
  | .letDecl x _ => [x]
  | .funDecl x _ _ => [x]
  | _ => []

/-- The names that statements declare in their scope, in order. -/
def Stmt.declared (ss : List Stmt) : List String := ss.flatMap Stmt.declares

namespace Eval

/-- When it is completed, a computation has added the names `xs` to `scope`. When it stops before,
it has added nothing. -/
structure Declares (scope : Scope) (xs : List String) (p : Eval Flow) : Prop where
  completed : ∀ m v m', scope < m.frames.size → p m = .ok (.next v) m' →
    Grows (onlyIn scope xs) m m'
  stopped : ∀ m, scope < m.frames.size → Stopped (p m) → Grows nowhere m (p.after m)

theorem Quiet.declares {p : Eval Flow} (quiet : Quiet p) (scope : Scope) :
    Declares scope [] p where
  completed := by
    intro m v m' _ ok
    rw [Machine.onlyIn_nil, ← after_ok ok]
    exact quiet m
  stopped := fun m _ _ => quiet m

/-- A definition at the end is what a declaration adds. -/
theorem Quiet.declares_define {p : Eval Value} (quiet : Quiet p) (scope : Scope) (x : String) :
    Declares scope [x] (p >>= fun v => define scope x v >>= fun _ => pure (.next .void)) where
  completed := by
    intro m v m' exist ok
    obtain ⟨value, mid, valued, defining⟩ := of_bind ok
    obtain ⟨_, last, defined, done⟩ := of_bind defining
    cases done
    have before := quiet m
    rw [after_ok valued] at before
    have still := Nat.lt_of_lt_of_le exist before.size
    rcases define_grows scope x value mid still with ⟨_, error⟩ | ⟨ok, grows⟩
    · rw [error] at defined
      cases defined
    · rw [ok] at defined
      cases defined
      exact before.afterNowhere grows
  stopped := by
    intro m exist stopped
    have before := quiet m
    cases valued : p m with
    | error e mid =>
        rw [after_error valued] at before
        rw [after_error (bind_error valued)]
        exact before
    | ok value mid =>
        rw [after_ok valued] at before
        rw [after_bind_ok valued]
        have still := Nat.lt_of_lt_of_le exist before.size
        rcases define_grows scope x value mid still with ⟨_, error⟩ | ⟨ok, _⟩
        · rw [after_error (bind_error error)]
          exact before
        · rw [bind_ok valued, bind_ok ok] at stopped
          exact absurd rfl (stopped .void _)

theorem Declares.within {scope : Scope} {xs : List String} {p : Eval Flow}
    (declares : Declares scope xs p) : Within scope p := by
  intro m exist
  rcases next_or_stopped (p m) with ⟨v, m', ok⟩ | stopped
  · refine ⟨xs, ?_⟩
    rw [after_ok ok]
    exact declares.completed m v m' exist ok
  · refine ⟨[], ?_⟩
    rw [Machine.onlyIn_nil]
    exact declares.stopped m exist stopped

end Eval

theorem Stmt.within_runAll {call : Call} {scope : Scope} {ss : List Stmt}
    (each : ∀ s ∈ ss, Eval.Declares scope s.declares (s.run call scope)) (last : Value) :
    Eval.Within scope (Stmt.runAll call scope last ss) := by
  induction ss generalizing last with
  | nil => exact (Eval.quiet_pure _).within scope
  | cons s ss ih =>
      have others := ih fun s member => each s (List.mem_cons_of_mem _ member)
      refine (each s List.mem_cons_self).within.bind fun flow => ?_
      cases flow with
      | next v => exact others v
      | returned v => exact (Eval.quiet_pure _).within scope

/-- A block keeps what it declares to itself. -/
theorem Stmt.quiet_block {call : Call} {scope : Scope} {body : List Stmt}
    (each : ∀ inner, ∀ s ∈ body, Eval.Declares inner s.declares (s.run call inner)) :
    Eval.Quiet (Eval.child scope >>= fun inner => Stmt.runAll call inner .void body) :=
  Eval.quiet_inChild fun inner => within_runAll (each inner) .void

/-! ## Expressions -/

theorem Expr.quiet_evalAll {call : Call} {scope : Scope} {es : List Expr}
    (each : ∀ e ∈ es, Eval.Quiet (e.eval call scope)) :
    Eval.Quiet (Expr.evalAll call scope es) := by
  induction es with
  | nil => exact Eval.quiet_pure []
  | cons e es ih =>
      have first := each e List.mem_cons_self
      have others := ih fun e member => each e (List.mem_cons_of_mem _ member)
      exact first.bind fun _ => others.bind fun _ => Eval.quiet_pure _

section Trees

variable {call : Call} (calls : ∀ f args, Eval.Quiet (call f args))

include calls

/-- No expression adds a name, if no call does. -/
theorem Expr.quiet_eval (scope : Scope) (e : Expr) : Eval.Quiet (e.eval call scope) := by
  induction e with
  | literal l => exact Eval.quiet_pure _
  | name x => exact Eval.quiet_lookup scope x
  | unary op arg ih => exact ih.bind fun _ => Eval.quiet_ofExcept _
  | binary op lhs rhs left right =>
      exact left.bind fun _ => right.bind fun _ => Eval.quiet_ofExcept _
  | group inner ih => exact ih
  | call callee args called passed =>
      exact called.bind fun f => (quiet_evalAll passed).bind fun vs => calls f vs
  | assign x value ih =>
      exact ih.bind fun v => (Eval.quiet_assign scope x v).bind fun _ => Eval.quiet_pure v

theorem Expr.quiet_test (scope : Scope) (cond : Expr) : Eval.Quiet (cond.test call scope) := by
  refine (cond.quiet_eval calls scope).bind fun v => ?_
  split
  · exact Eval.quiet_pure _
  · exact Eval.quiet_throw _

/-! ## Statements -/

theorem Stmt.declares_run (scope : Scope) (s : Stmt) :
    Eval.Declares scope s.declares (s.run call scope) := by
  induction s generalizing scope with
  | letDecl x init =>
      -- Up to its definition at the end, a `let` is quiet.
      have value := (Eval.quiet_requireFresh scope x).bind fun _ => init.quiet_eval calls scope
      rw [Stmt.run, ← bind_assoc]
      exact value.declares_define scope x
  | funDecl x params body =>
      exact (Eval.quiet_newFunction _).declares_define scope x
  | block body ih =>
      exact (quiet_block fun inner s member => ih s member inner).declares scope
  | ifThen cond body ih =>
      refine Eval.Quiet.declares ((cond.quiet_test calls scope).bind fun holds => ?_) scope
      cases holds with
      | true => exact quiet_block fun inner s member => ih s member inner
      | false => exact Eval.quiet_pure _
  | ifElse cond body other ihBody ihOther =>
      refine Eval.Quiet.declares ((cond.quiet_test calls scope).bind fun holds => ?_) scope
      cases holds with
      | true => exact quiet_block fun inner s member => ihBody s member inner
      | false => exact quiet_block fun inner s member => ihOther s member inner
  | expr e => exact ((e.quiet_eval calls scope).bind fun _ => Eval.quiet_pure _).declares scope
  | ret e => exact ((e.quiet_eval calls scope).bind fun _ => Eval.quiet_pure _).declares scope

/-- Statements that are completed have added all that they declare. -/
theorem Stmt.grows_of_completed {scope : Scope} {last v : Value} {ss : List Stmt}
    {m m' : Machine} (exist : scope < m.frames.size)
    (ok : Stmt.runAll call scope last ss m = .ok (.next v) m') :
    Grows (onlyIn scope (Stmt.declared ss).reverse) m m' := by
  induction ss generalizing last m with
  | nil =>
      cases ok
      rw [declared, List.flatMap_nil, List.reverse_nil, Machine.onlyIn_nil]
      exact .refl m'
  | cons s ss ih =>
      rcases next_or_stopped (s.run call scope m) with ⟨w, mid, first⟩ | stopped
      · have one := (s.declares_run calls scope).completed m w mid exist first
        rw [runAll_cons_next first] at ok
        have others := ih (Nat.lt_of_lt_of_le exist one.size) ok
        have both := one.transIn others
        have atMostOne : s.declares.reverse = s.declares := by cases s <;> rfl
        rw [declared, List.flatMap_cons, List.reverse_append, atMostOne]
        exact both
      · rw [runAll_cons_stopped stopped] at ok
        exact absurd ok (stopped v m')

end Trees

/-! ## Calls -/

theorem quiet_callWith (limit : Nat) {inner : Option Call}
    (calls : ∀ call, inner = some call → ∀ f args, Eval.Quiet (call f args)) (callee : Value)
    (args : List Value) : Eval.Quiet (callWith limit inner callee args) := by
  unfold callWith
  split
  · refine Eval.quiet_get.bind fun m => ?_
    split
    · next c _ =>
      refine (Eval.quiet_checkArity _ args).bind fun _ => ?_
      cases inner with
      | none => exact Eval.quiet_throw _
      | some call =>
          -- Parameters and body declare in a scope that did not exist before the call.
          refine Eval.quiet_inChild fun scope => ?_
          refine (Eval.within_defineAll scope _).bind fun _ => ?_
          have body : Eval.Within scope (Stmt.runAll call scope .void c.body) :=
            Stmt.within_runAll (fun s _ => s.declares_run (calls call rfl) scope) .void
          refine body.bind fun flow => ?_
          split
          · exact (Eval.quiet_pure _).within scope
          · exact (Eval.quiet_pure _).within scope
    · exact (Eval.quiet_checkArity _ args).bind fun _ => Eval.quiet_builtin _ args
    · exact Eval.quiet_throw _
  · exact Eval.quiet_throw _

/-- A call adds names to the new scope of its body only, at every depth of calls. -/
theorem quiet_callLeft (limit left : Nat) (callee : Value) (args : List Value) :
    Eval.Quiet (callLeft limit left callee args) := by
  induction left generalizing callee args with
  | zero =>
      refine quiet_callWith limit (fun call same => ?_) callee args
      cases same
  | succ left ih =>
      refine quiet_callWith limit (fun call same => ?_) callee args
      cases same
      exact ih

/-- Expressions and calls add no name to a frame that was there before. Statements add names to
their own scope only: those that the completed statements of the list declare, which are all of
them unless one has stopped. And a name that was free before the first value of a `let` was
computed can be defined afterwards. -/
theorem names_grow_only_by_declarations (limit left : Nat) (scope : Scope) (m : Machine) :
    (∀ e : Expr, Grows nowhere m ((e.eval (callLeft limit left) scope).after m)) ∧
    (∀ callee args, Grows nowhere m ((callLeft limit left callee args).after m)) ∧
    (scope < m.frames.size →
      (∀ (last : Value) (ss : List Stmt),
        (∀ v m', Stmt.runAll (callLeft limit left) scope last ss m = .ok (.next v) m' →
          Grows (onlyIn scope (Stmt.declared ss).reverse) m m') ∧
        (Stopped (Stmt.runAll (callLeft limit left) scope last ss m) →
          ∃ done s rest v mid, ss = done ++ s :: rest ∧
            Stmt.runAll (callLeft limit left) scope last done m = .ok (.next v) mid ∧
            Stmt.runAll (callLeft limit left) scope last ss m
              = s.run (callLeft limit left) scope mid ∧
            Grows (onlyIn scope (Stmt.declared done).reverse) m
              ((Stmt.runAll (callLeft limit left) scope last ss).after m))) ∧
      ∀ (x : String) (init : Expr) (v : Value) (m' : Machine), m.bindsIn scope x = false →
        init.eval (callLeft limit left) scope m = .ok v m' →
          Eval.define scope x v m' = .ok () (m'.bind scope x v)) := by
  have calls := quiet_callLeft limit left
  refine ⟨fun e => e.quiet_eval calls scope m, fun callee args => calls callee args m, ?_⟩
  intro exist
  refine ⟨fun last ss => ⟨?_, ?_⟩, ?_⟩
  · intro v m' ok
    exact Stmt.grows_of_completed calls exist ok
  · intro stopped
    obtain ⟨done, s, rest, v, mid, split, completed, here, same⟩ := Stmt.exists_of_stopped stopped
    refine ⟨done, s, rest, v, mid, split, completed, same, ?_⟩
    -- What was completed has added its names, and the statement that stopped has added none.
    have before := Stmt.grows_of_completed calls exist completed
    have last := (s.declares_run calls scope).stopped mid
      (Nat.lt_of_lt_of_le exist before.size) here
    have whole := before.thenNowhere last
    unfold Eval.after at whole ⊢
    rw [same]
    exact whole
  · intro x init v m' fresh valued
    have before := init.quiet_eval calls scope m
    rw [Eval.after_ok valued] at before
    have still := Nat.lt_of_lt_of_le exist before.size
    rcases Eval.define_grows scope x v m' still with ⟨bound, _⟩ | ⟨ok, _⟩
    · rw [before.names scope exist] at bound
      exact absurd bound (Machine.bindsIn_eq_false_iff.mp fresh)
    · exact ok

/-- The machine with one outermost scope, which is empty. -/
def oneScope : Machine := (Machine.newScope {}).2

/-- The statements of `let x = 1; fun f(a) { let x = a; return x; } let y = f(x);` and then
`y = z; let w = y;`, of which the first fails. -/
def shadowing : List Stmt :=
  [.letDecl "x" (.literal (.int 1)),
    .funDecl "f" ["a"] [.letDecl "x" (.name "a"), .ret (.name "x")],
    .letDecl "y" (.call (.name "f") [.name "x"]),
    .expr (.assign "y" (.name "z")),
    .letDecl "w" (.name "y")]

theorem shadowing_names :
    (∃ m', Stmt.runAll (callLeft 4 4) 0 .void (shadowing.take 3) oneScope = .ok (.next .void) m' ∧
      m'.namesIn 0 = ["y", "f", "x"]) ∧
    ∃ done s rest, shadowing = done ++ s :: rest ∧
      ((Stmt.runAll (callLeft 4 4) 0 .void shadowing).after oneScope).namesIn 0
        = (Stmt.declared done).reverse := by
  obtain ⟨_, _, inScope⟩ := names_grow_only_by_declarations 4 4 0 oneScope
  obtain ⟨runs, _⟩ := inScope (by decide)
  have completed : Stmt.runAll (callLeft 4 4) 0 .void (shadowing.take 3) oneScope
      = .ok (.next .void)
        ((Stmt.runAll (callLeft 4 4) 0 .void (shadowing.take 3)).after oneScope) := by rfl
  have failed : Stmt.runAll (callLeft 4 4) 0 .void shadowing oneScope
      = .error (.unknownIdentifier "z")
        ((Stmt.runAll (callLeft 4 4) 0 .void shadowing).after oneScope) := by rfl
  refine ⟨⟨_, completed, ?_⟩, ?_⟩
  · exact ((runs .void (shadowing.take 3)).1 _ _ completed).names 0 (by decide)
  · obtain ⟨done, s, rest, _, _, split, _, _, grows⟩ :=
      (runs .void shadowing).2 fun v m same => by
        rw [failed] at same
        cases same
    refine ⟨done, s, rest, split, ?_⟩
    have names := grows.names 0 (by decide)
    rw [Machine.onlyIn_self] at names
    rw [names]
    exact List.append_nil _

end Bramble
