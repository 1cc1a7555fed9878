import Bramble.Proofs.Eval.Names
import Bramble.Proofs.Eval.Sequence
import Bramble.Proofs.Host.Shadowing

/-!
# How values are passed on

A value gets a name by a `let`, by an assignment or as an argument of a call, and a call gives back
the value that its body has returned. No copy is made on the way: what is found under the name, and
what the call gives back, is the value that an expression had before (`Machine.passesValues`).

For a call that takes a way to speak about the `return` that ends its body. A run of statements
comes to a certain one, in a certain scope and on a certain machine, and it returns a value if and
only if it comes to a `return` whose expression has this value there (`runAll_eq_returned_iff`).
-/

set_option autoImplicit false

namespace Bramble

namespace Machine

/-- The function object that a value stands for, if it stands for one. -/
def callable? (m : Machine) : Value → Option Callable
  | .function id => m.functions[id]?
  | _ => none

variable {m : Machine} {scope : Scope} {x : String} {v : Value}

theorem lookup?_of_getIn? (bound : m.getIn? scope x = some v) : m.lookup? scope x = some v := by
  rw [lookup?, chain, List.findSome?_cons, bound]

theorem lookup?_bind_self (has : m.Has (.frame scope)) :
    (m.bind scope x v).lookup? scope x = some v :=
  lookup?_of_getIn? ((getIn?_bind m scope scope x x v has).trans (if_pos ⟨rfl, rfl⟩))

end Machine

variable {m m' mid : Machine} {scope : Scope} {x : String} {v : Value} {e : Expr}

theorem Eval.callable_of_callable? {f : Callable} (found : m.callable? v = some f) :
    Eval.callable v m = .ok f m := by
  cases v with
  | function id =>
      have there : m.functions[id]? = some f := found
      simp only [Eval.callable, there]
  | _ => cases found

/-- A function that gets as many arguments as it takes does what its object says. -/
theorem callLeft_of_callable? {callee : Value} {args : List Value} {f : Callable}
    (found : m.callable? callee = some f) (fits : args.length = f.arity) (limit left : Nat) :
    callLeft limit left callee args m
      = f.apply (Closure.enter limit (callInner limit left)) Builtin.run args m := by
  have checked : f.checkArity args m = .ok () m := congrFun (if_pos fits) m
  rw [callLeft_eq, callWith_eq, bind_ok (Eval.callable_of_callable? found), bind_ok checked]

/-! ## Declarations and assignments -/

/-- A `let` gives its name the value of its expression. -/
theorem Stmt.run_letDecl {limit left : Nat} (has : m.Has (.frame scope))
    (fresh : m.bindsIn scope x = false) (value : e.eval (callLeft limit left) scope m = .ok v mid) :
    ∃ m', (Stmt.letDecl x e).run (callLeft limit left) scope m = .ok (.next .void) m' ∧
      m'.lookup? scope x = some v := by
  have grows := e.quiet_eval (quiet_callLeft limit left) scope m
  rw [Eval.after_ok value] at grows
  have still : mid.Has (.frame scope) := Nat.lt_of_lt_of_le has grows.size
  have required : Eval.requireFresh scope x m = .ok () m := if_neg (Bool.eq_false_iff.mp fresh)
  rcases Eval.define_grows scope x v mid still with ⟨bound, _⟩ | ⟨defined, _⟩
  · rw [grows.names scope has] at bound
    exact absurd bound (Machine.bindsIn_eq_false_iff.mp fresh)
  · refine ⟨mid.bind scope x v, ?_, Machine.lookup?_bind_self still⟩
    rw [Stmt.run, bind_ok required, bind_ok value, bind_ok defined]
    rfl

/-- An assignment gives its name the value of its expression, and has this value itself. -/
theorem Expr.eval_assign {call : Call} {frame : FrameId} (value : e.eval call scope m = .ok v mid)
    (found : mid.resolve? scope x = some frame) :
    ∃ m', (Expr.assign x e).eval call scope m = .ok v m' ∧ m'.lookup? scope x = some v := by
  have assigned : Eval.assign scope x v mid = .ok () (mid.rebind frame x v) := by
    simp only [Eval.assign, found]
  have binds : mid.bindsIn frame x = true := List.find?_some (p := (mid.bindsIn · x)) found
  refine ⟨mid.rebind frame x v, ?_, (Machine.reveals_rebind binds).seen scope x ⟨rfl, found⟩⟩
  rw [Expr.eval, bind_ok value, bind_ok assigned]
  rfl

/-! ## Parameters -/

/-- Names that differ and that a frame does not bind yet can be bound one after the other, and each
of them then has its own value. -/
theorem Eval.defineAll_ok {bindings : List (String × Value)} (has : m.Has (.frame scope))
    (distinct : (bindings.map Prod.fst).Nodup)
    (free : ∀ x ∈ bindings.map Prod.fst, m.bindsIn scope x = false) :
    ∃ m', Eval.defineAll scope bindings m = .ok () m' ∧
      (∀ frame, m'.outer frame = m.outer frame) ∧
      (∀ x ∉ bindings.map Prod.fst, m'.getIn? scope x = m.getIn? scope x) ∧
      ∀ x v, (x, v) ∈ bindings → m'.getIn? scope x = some v := by
  induction bindings generalizing m with
  | nil => exact ⟨m, rfl, fun _ => rfl, fun _ _ => rfl, fun _ _ member => nomatch member⟩
  | cons binding bindings ih =>
      obtain ⟨x, v⟩ := binding
      obtain ⟨new, distinct⟩ := List.nodup_cons.mp distinct
      have defined : Eval.define scope x v m = .ok () (m.bind scope x v) := by
        rw [Eval.define_eq, free x List.mem_cons_self]
        rfl
      have getIn? := fun y => m.getIn?_bind scope scope x y v has
      -- The other names are still free when the first one is bound.
      have others : ∀ y ∈ bindings.map Prod.fst, (m.bind scope x v).bindsIn scope y = false := by
        intro y member
        have ne : y ≠ x := fun same => new (same ▸ member)
        rw [Machine.bindsIn, getIn? y, if_neg fun both => ne both.2]
        exact free y (List.mem_cons_of_mem _ member)
      obtain ⟨m', done, outer, kept, bound⟩ := ih (Machine.within_bind _ has) distinct others
      refine ⟨m', (bind_ok defined).trans done, ?_, ?_, ?_⟩
      · exact fun frame => (outer frame).trans (m.outer_bind scope x v frame)
      · intro y absent
        obtain ⟨ne, absent⟩ := not_or.mp (mt List.mem_cons.mpr absent)
        rw [kept y absent, getIn? y, if_neg fun both => ne both.2]
      · intro y w member
        rcases List.mem_cons.mp member with same | member
        · cases same
          rw [kept x new, getIn? x, if_pos ⟨rfl, rfl⟩]
        · exact bound y w member

/-- The value of a call whose body has ended so. -/
def Flow.result : Flow → Value
  | .next _ => .void
  | .returned v => v

/-- A closure is called by running its body in a new scope inside its own one, in which every
parameter has the value of its argument. -/
theorem callLeft_closure {callee : Value} {args : List Value} {c : Closure}
    (found : m.callable? callee = some (.closure c)) (distinct : c.params.Nodup)
    (fits : args.length = c.params.length) (limit left : Nat) :
    ∃ scope m₁, m₁.parent? scope = some c.scope ∧
      (∀ x v, (x, v) ∈ c.params.zip args → m₁.lookup? scope x = some v) ∧
      callLeft limit (left + 1) callee args m
        = (Stmt.runAll (callLeft limit left) scope .void c.body >>=
            fun flow => pure flow.result) m₁ := by
  have differ : ((c.params.zip args).map Prod.fst).Nodup := by
    rwa [List.map_fst_zip (Nat.le_of_eq fits.symm)]
  have free : ∀ x, (m.child c.scope).2.bindsIn (m.child c.scope).1 x = false := by
    intro x
    rw [Machine.bindsIn_eq_false_iff, Machine.child, Machine.namesIn_addFrame, Machine.namesIn,
      Machine.addFrame, Array.getElem?_eq_none (Nat.le_refl _)]
    exact List.not_mem_nil
  obtain ⟨m₁, defined, outer, _, bound⟩ :=
    Eval.defineAll_ok (Machine.has_addFrame (m.chain c.scope)) differ fun x _ => free x
  refine ⟨(m.child c.scope).1, m₁, ?_, ?_, ?_⟩
  · rw [Machine.parent?, outer]
    exact m.parent?_child c.scope
  · exact fun x v member => Machine.lookup?_of_getIn? (bound x v member)
  · have entered : Eval.child c.scope m = .ok (m.child c.scope).1 (m.child c.scope).2 := rfl
    rw [callLeft_of_callable? found fits]
    refine (bind_ok entered).trans ((bind_ok defined).trans (congrFun (congrArg _ ?_) m₁))
    funext flow
    cases flow <;> rfl

/-! ## Returns -/

/-- A run of statements comes to `return e`, in the scope `place` and on the machine `now`. -/
inductive Stmt.ComesTo (call : Call) (e : Expr) (place : Scope) (now : Machine) :
    Scope → Machine → List Stmt → Prop where
  | here (ss : List Stmt) : ComesTo call e place now place now (.ret e :: ss)
  | later {scope : Scope} {m m' : Machine} {s : Stmt} {v : Value} {ss : List Stmt}
      (completed : s.run call scope m = .ok (.next v) m')
      (comes : ComesTo call e place now scope m' ss) : ComesTo call e place now scope m (s :: ss)
  | block {scope : Scope} {m : Machine} {body : List Stmt} (ss : List Stmt)
      (comes : ComesTo call e place now (m.child scope).1 (m.child scope).2 body) :
      ComesTo call e place now scope m (.block body :: ss)
  | ifThen {scope : Scope} {m m' : Machine} {cond : Expr} {body : List Stmt} (ss : List Stmt)
      (holds : cond.test call scope m = .ok true m')
      (comes : ComesTo call e place now (m'.child scope).1 (m'.child scope).2 body) :
      ComesTo call e place now scope m (.ifThen cond body :: ss)
  | thenBranch {scope : Scope} {m m' : Machine} {cond : Expr} {body other : List Stmt}
      (ss : List Stmt) (holds : cond.test call scope m = .ok true m')
      (comes : ComesTo call e place now (m'.child scope).1 (m'.child scope).2 body) :
      ComesTo call e place now scope m (.ifElse cond body other :: ss)
  | elseBranch {scope : Scope} {m m' : Machine} {cond : Expr} {body other : List Stmt}
      (ss : List Stmt) (fails : cond.test call scope m = .ok false m')
      (comes : ComesTo call e place now (m'.child scope).1 (m'.child scope).2 other) :
      ComesTo call e place now scope m (.ifElse cond body other :: ss)

namespace Stmt

variable {call : Call} {s : Stmt} {ss : List Stmt} {place : Scope} {now : Machine}

/-- A statement that returns ends its list. -/
theorem runAll_cons_returned (returned : s.run call scope m = .ok (.returned v) m') (last : Value)
    (ss : List Stmt) : runAll call scope last (s :: ss) m = .ok (.returned v) m' := by
  rw [runAll]
  exact bind_ok returned

/-- A run that comes to a `return` returns the value that the expression has there. -/
theorem ComesTo.runAll (comes : ComesTo call e place now scope m ss)
    (value : e.eval call place now = .ok v m') (last : Value) :
    runAll call scope last ss m = .ok (.returned v) m' := by
  induction comes generalizing last with
  | here ss =>
      refine runAll_cons_returned ?_ last ss
      rw [run, bind_ok value]
      rfl
  | later completed _ ih => exact (runAll_cons_next completed last _).trans (ih _)
  | block ss _ ih =>
      refine runAll_cons_returned ?_ last ss
      rw [run]
      exact ih .void
  | ifThen ss holds _ ih =>
      refine runAll_cons_returned ?_ last ss
      rw [run, bind_ok holds]
      exact ih .void
  | thenBranch ss holds _ ih =>
      refine runAll_cons_returned ?_ last ss
      rw [run, bind_ok holds]
      exact ih .void
  | elseBranch ss fails _ ih =>
      refine runAll_cons_returned ?_ last ss
      rw [run, bind_ok fails]
      exact ih .void

/-- The run of the statements comes to a `return` whose expression has the value `v` there. Nothing
happens after that. -/
def ReturnsValue (call : Call) (scope : Scope) (m : Machine) (ss : List Stmt) (v : Value)
    (m' : Machine) : Prop :=
  ∃ e place now, ComesTo call e place now scope m ss ∧ e.eval call place now = .ok v m'

theorem ReturnsValue.imp {scope' : Scope} {mid : Machine} {ts : List Stmt}
    (returns : ReturnsValue call scope m ss v m')
    (further : ∀ e place now, ComesTo call e place now scope m ss →
      ComesTo call e place now scope' mid ts) : ReturnsValue call scope' mid ts v m' := by
  obtain ⟨e, place, now, comes, value⟩ := returns
  exact ⟨e, place, now, further e place now comes, value⟩

/-- Statements return a value only if one of them does. -/
theorem returnsValue_of_each (each : ∀ s ∈ ss, ∀ scope m v m',
      s.run call scope m = .ok (.returned v) m' →
        ∀ ts, ReturnsValue call scope m (s :: ts) v m') (last : Value)
    (returned : Stmt.runAll call scope last ss m = .ok (.returned v) m') :
    ReturnsValue call scope m ss v m' := by
  induction ss generalizing last m with
  | nil => cases returned
  | cons s ss ih =>
      rcases next_or_stopped (s.run call scope m) with ⟨w, mid, completed⟩ | stopped
      · rw [runAll_cons_next completed] at returned
        have more := ih (fun t member => each t (List.mem_cons_of_mem _ member)) w returned
        exact more.imp fun _ _ _ => .later completed
      · rw [runAll_cons_stopped stopped] at returned
        exact each s List.mem_cons_self scope m v m' returned ss

/-- A statement that returns a value has come to a `return` for it. -/
theorem returnsValue_of_run (s : Stmt) : ∀ (scope : Scope) (m : Machine) (v : Value) (m' : Machine),
    s.run call scope m = .ok (.returned v) m' →
      ∀ ts, ReturnsValue call scope m (s :: ts) v m' := by
  intro scope m v m' returned ts
  induction s generalizing scope m v m' ts with
  | letDecl x init =>
      obtain ⟨_, _, _, returned⟩ := of_bind returned
      obtain ⟨_, _, _, returned⟩ := of_bind returned
      obtain ⟨_, _, _, returned⟩ := of_bind returned
      cases returned
  | funDecl x params body _ =>
      obtain ⟨_, _, _, returned⟩ := of_bind returned
      obtain ⟨_, _, _, returned⟩ := of_bind returned
      cases returned
  | block body ih =>
      exact (returnsValue_of_each ih .void returned).imp fun _ _ _ => .block ts
  | ifThen cond body ih =>
      rw [run] at returned
      obtain ⟨holds, mid, tested, returned⟩ := of_bind returned
      cases holds with
      | true => exact (returnsValue_of_each ih .void returned).imp fun _ _ _ => .ifThen ts tested
      | false => cases returned
  | ifElse cond body other ih ihOther =>
      rw [run] at returned
      obtain ⟨holds, mid, tested, returned⟩ := of_bind returned
      cases holds with
      | true =>
          exact (returnsValue_of_each ih .void returned).imp fun _ _ _ => .thenBranch ts tested
      | false =>
          exact (returnsValue_of_each ihOther .void returned).imp fun _ _ _ => .elseBranch ts tested
  | expr e =>
      obtain ⟨_, _, _, returned⟩ := of_bind returned
      cases returned
  | ret e =>
      rw [run] at returned
      obtain ⟨w, mid, value, returned⟩ := of_bind returned
      cases returned
      exact ⟨e, scope, m, .here ts, value⟩

/-- Statements return a value if and only if their run comes to a `return` whose expression has
it. -/
theorem runAll_eq_returned_iff (last : Value) :
    Stmt.runAll call scope last ss m = .ok (.returned v) m' ↔
      ReturnsValue call scope m ss v m' := by
  constructor
  · exact returnsValue_of_each (fun s _ => returnsValue_of_run s) last
  · rintro ⟨e, place, now, comes, value⟩
    exact comes.runAll value last

end Stmt

/-! ## All ways together -/

/-- Values are passed on as they are. What a `let` or an assignment has computed is found under its
name. A call finds its arguments under the parameters, where it runs its body, and it gives back
what the body returns, or nothing if the body comes to its end. -/
structure Machine.PassesValues (m : Machine) (limit left : Nat) : Prop where
  letDecl : ∀ scope x (e : Expr) v mid, m.Has (.frame scope) → m.bindsIn scope x = false →
    e.eval (callLeft limit left) scope m = .ok v mid →
      ∃ m', (Stmt.letDecl x e).run (callLeft limit left) scope m = .ok (.next .void) m' ∧
        m'.lookup? scope x = some v
  assign : ∀ scope x (e : Expr) v mid frame, e.eval (callLeft limit left) scope m = .ok v mid →
    mid.resolve? scope x = some frame →
      ∃ m', (Expr.assign x e).eval (callLeft limit left) scope m = .ok v m' ∧
        m'.lookup? scope x = some v
  closure : ∀ callee args (c : Closure), m.callable? callee = some (.closure c) →
    c.params.Nodup → args.length = c.params.length →
      ∃ scope start, start.parent? scope = some c.scope ∧
        (∀ x v, (x, v) ∈ c.params.zip args → start.lookup? scope x = some v) ∧
        ∀ v m', callLeft limit (left + 1) callee args m = .ok v m' ↔
          Stmt.ReturnsValue (callLeft limit left) scope start c.body v m' ∨
            v = .void ∧ ∃ last,
              Stmt.runAll (callLeft limit left) scope .void c.body start = .ok (.next last) m'

theorem Machine.passesValues (m : Machine) (limit left : Nat) : m.PassesValues limit left where
  letDecl := fun _ _ _ _ _ has fresh value => Stmt.run_letDecl has fresh value
  assign := fun _ _ _ _ _ _ value found => Expr.eval_assign value found
  closure := by
    intro callee args c found distinct fits
    obtain ⟨scope, start, inside, bound, called⟩ :=
      callLeft_closure found distinct fits limit left
    refine ⟨scope, start, inside, bound, fun v m' => ?_⟩
    rw [called, ← Stmt.runAll_eq_returned_iff .void]
    constructor
    · intro ended
      obtain ⟨flow, mid, ran, done⟩ := of_bind ended
      cases flow with
      | next last =>
          cases done
          exact .inr ⟨rfl, last, ran⟩
      | returned w =>
          cases done
          exact .inl ran
    · rintro (returned | ⟨rfl, last, completed⟩)
      · exact bind_ok returned
      · exact bind_ok completed

end Bramble
