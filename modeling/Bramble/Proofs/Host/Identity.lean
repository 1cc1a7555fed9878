import Bramble.Proofs.Eval.Arguments
import Bramble.Proofs.Eval.Passing

/-!
# The identity of functions

A function value is the number of a function object, and the operator `==` compares the numbers.
That this means something rests on two facts about everything that a host can do. A number keeps
its object: nothing changes an object or takes it away, so equal values stand for the same function,
also if one of them was seen long before the other one. And a new object gets a number that no value
has yet, so the functions that two evaluations of one declaration make are told apart.

Since values are also passed on as they are, `==` is an equivalence on the values of each kind, and
the function of the prelude that asserts equality agrees with it (`function_identity`).
-/

set_option autoImplicit false

namespace Bramble

/-! ## Equality of values -/

/-- The operator `==` gives `true` for two values. -/
def Value.Equals (v w : Value) : Prop := Operator.binary .equalsEquals v w = .ok (.bool true)

namespace Value

variable {v w : Value}

/-- Values of one kind are compared, and `!=` gives the opposite of `==`. -/
theorem compared (same : v.kind = w.kind) :
    Operator.binary .equalsEquals v w = .ok (.bool (decide (v = w))) ∧
      Operator.binary .notEquals v w = .ok (.bool !decide (v = w)) := by
  rw [Operator.binary, Operator.binary, Operator.same, Operator.same, if_pos same, if_pos same]
  exact ⟨rfl, rfl⟩

/-- Values are equal by `==` only if they are the same. -/
theorem equals_iff : v.Equals w ↔ v = w := by
  unfold Equals
  by_cases same : v.kind = w.kind
  · rw [(compared same).1]
    simp
  · rw [Operator.binary, Operator.same, if_neg same]
    constructor
    · intro equal
      cases equal
    · intro equal
      exact absurd (congrArg kind equal) same

theorem equals_equivalence (kind : Kind) :
    Equivalence fun v w : { v : Value // v.kind = kind } => v.1.Equals w.1 where
  refl := fun _ => equals_iff.mpr rfl
  symm := fun equal => equals_iff.mpr (equals_iff.mp equal).symm
  trans := fun first second => equals_iff.mpr ((equals_iff.mp first).trans (equals_iff.mp second))

end Value

/-! ## Function objects stay -/

/-- What a value stands for in one machine, it stands for in another one. -/
def Machine.KeepsFunctions (m m' : Machine) : Prop :=
  ∀ v f, m.callable? v = some f → m'.callable? v = some f

theorem Machine.KeepsFunctions.trans {m m' m'' : Machine} (first : m.KeepsFunctions m')
    (second : m'.KeepsFunctions m'') : m.KeepsFunctions m'' :=
  fun v f found => second v f (first v f found)

theorem Machine.keepsFunctions_addFunction (m : Machine) (f : Callable) :
    m.KeepsFunctions (m.addFunction f).2 := by
  intro v g found
  cases v with
  | function id =>
      have there : m.functions[id]? = some g := found
      obtain ⟨exist, _⟩ := Array.getElem?_eq_some_iff.mp there
      have kept : (m.functions.push f)[id]? = m.functions[id]? :=
        (Array.getElem?_push_lt exist).trans (Array.getElem?_eq_getElem exist).symm
      exact kept.trans there
  | _ => cases found

namespace Host

variable {h h' : Host} {v : Value}

theorem Operation.keepsFunctions (operation : Operation h h') :
    h.machine.KeepsFunctions h'.machine := by
  cases operation with
  | newFunction _ => exact h.machine.keepsFunctions_addFunction _
  | newScope | child | parent | captured | lookup | define | assign | print =>
      exact fun _ _ found => found

theorem Leads.keepsFunctions (leads : h.Leads h') : h.machine.KeepsFunctions h'.machine := by
  induction leads with
  | refl => exact fun _ _ found => found
  | tail _ operation ih => exact ih.trans operation.keepsFunctions

theorem Step.keepsFunctions (step : Step h h') : h.machine.KeepsFunctions h'.machine := by
  obtain ⟨h'', leads, covers⟩ := step.leads
  exact covers.machine ▸ Leads.keepsFunctions leads

theorem Reaches.keepsFunctions (reaches : h.Reaches h') :
    h.machine.KeepsFunctions h'.machine := by
  induction reaches with
  | refl => exact fun _ _ found => found
  | tail _ step ih => exact ih.trans step.keepsFunctions

/-! ## The values that there are -/

/-- A value is there if it is held or if a frame binds it to a name. -/
def HasValue (h : Host) (v : Value) : Prop :=
  h.Holds v ∨ ∃ frame x, h.machine.getIn? frame x = some v

/-- A function value that is there stands for a function object. -/
theorem HasValue.exists_callable? (there : h.HasValue v) (sound : h.Sound)
    (function : v.kind = .function) : ∃ f, h.machine.callable? v = some f := by
  cases v with
  | function id =>
      have exist : h.machine.Has (.function id) := by
        rcases there with held | ⟨frame, x, bound⟩
        · exact sound.exist _ (held _ (List.mem_singleton.mpr rfl))
        · exact sound.wellFormed.exist _ _ (.bound bound)
      exact ⟨_, Array.getElem?_eq_getElem exist⟩
  | _ => cases function

end Host

/-! ## Declarations of functions -/

/-- A declaration makes a closure with the number of objects so far. -/
theorem Stmt.run_funDecl {m : Machine} {scope : Scope} {x : String} (has : m.Has (.frame scope))
    (fresh : m.bindsIn scope x = false) (call : Call) (params : List String) (body : List Stmt) :
    ∃ m', (Stmt.funDecl x params body).run call scope m = .ok (.next .void) m' ∧
      m'.lookup? scope x = some (.function m.functions.size) ∧
      m'.callable? (.function m.functions.size) = some (.closure ⟨x, params, body, scope⟩) := by
  have made : Eval.newFunction (.closure ⟨x, params, body, scope⟩) m
      = .ok (.function m.functions.size) (m.addFunction (.closure ⟨x, params, body, scope⟩)).2 :=
    rfl
  have still : (m.addFunction (.closure ⟨x, params, body, scope⟩)).2.Has (.frame scope) := has
  have defined : Eval.define scope x (.function m.functions.size)
      (m.addFunction (.closure ⟨x, params, body, scope⟩)).2 = .ok () _ :=
    (Eval.define_eq ..).trans (if_neg (Bool.eq_false_iff.mp fresh))
  refine ⟨_, ?_, Machine.lookup?_bind_self still, Array.getElem?_push_size⟩
  rw [Stmt.run, bind_ok made, bind_ok defined]
  rfl

/-- No value that is there at some time equals the number of objects at a later time. -/
theorem Host.HasValue.not_equals_new {h h' : Host} {v : Value} (there : h.HasValue v)
    (sound : h.Sound) (later : h.Reaches h') :
    ¬ v.Equals (.function h'.machine.functions.size) := by
  intro equal
  obtain rfl := Value.equals_iff.mp equal
  obtain ⟨f, found⟩ := there.exists_callable? sound rfl
  have missing : h'.machine.callable? (.function h'.machine.functions.size) = none :=
    Array.getElem?_eq_none (Nat.le_refl _)
  cases missing.symm.trans (Host.Reaches.keepsFunctions later _ f found)

/-! ## Asserting equality -/

theorem Eval.ofExcept_eq_ok_iff {α : Type} {result : Except EvalError α} {a : α} {m m' : Machine} :
    Eval.ofExcept result m = .ok a m' ↔ result = .ok a ∧ m = m' := by
  cases result with
  | ok b =>
      constructor
      · rintro ⟨⟩
        exact ⟨rfl, rfl⟩
      · rintro ⟨⟨⟩, rfl⟩
        rfl
  | error e =>
      constructor
      · rintro ⟨⟩
      · rintro ⟨⟨⟩, _⟩

/-- The function of the prelude that asserts equality. -/
theorem callLeft_assertEq {m : Machine} {f : Value}
    (found : m.callable? f = some (.builtin .assertEq)) (limit left : Nat) (v w : Value) :
    callLeft limit left f [v, w] m
      = if v = w then .ok .void m
        else .error (.assertedUnequal (m.inspect v) (m.inspect w)) m := by
  refine (callLeft_of_callable? found rfl limit left).trans ?_
  show Builtin.run .assertEq [v, w] m = _
  by_cases same : v = w
  · rw [if_pos same, Builtin.run, if_pos same]
    rfl
  · rw [if_neg same, Builtin.run, if_neg same]
    rfl

namespace Host

variable {h : Host} {scope : Scope} {limit left : Nat}

/-- Evaluation that has given a value, as a step of the host. -/
theorem Step.eval_ok {e : Expr} {v : Value} {m : Machine} (held : .frame scope ∈ h.held)
    (value : e.eval (callLeft limit left) scope h.machine = .ok v m) :
    h.Step ⟨m, v.objects ++ h.held⟩ := by
  have step := Step.eval limit left e held
  unfold perform at step
  rwa [value] at step

/-- An assertion that two expressions are equal succeeds if and only if `==` gives `true` for them,
and it leaves the machine that `==` leaves. -/
theorem assertEq_iff {x : String} {f : Value} (held : .frame scope ∈ h.held)
    (bound : h.machine.lookup? scope x = some f)
    (found : h.machine.callable? f = some (.builtin .assertEq)) (a b : Expr) (m : Machine) :
    (∃ v, (Expr.call (.name x) [a, b]).eval (callLeft limit left) scope h.machine = .ok v m) ↔
      (Expr.binary .equalsEquals a b).eval (callLeft limit left) scope h.machine
        = .ok (.bool true) m := by
  have name : (Expr.name x).eval (callLeft limit left) scope h.machine = .ok f h.machine := by
    simp only [Expr.eval, Eval.lookup, bound]
  rw [Expr.eval_call name, Expr.eval]
  cases first : a.eval (callLeft limit left) scope h.machine with
  | error e m₁ =>
      rw [bind_error (Expr.evalAll_cons_error first [b]), bind_error first]
      simp
  | ok v m₁ =>
      have one := Step.eval_ok held first
      cases second : b.eval (callLeft limit left) scope m₁ with
      | error e m₂ =>
          have failed : Expr.evalAll (callLeft limit left) scope [a, b] h.machine
              = .error e m₂ := by
            rw [Expr.evalAll_cons_ok first, bind_error (Expr.evalAll_cons_error second [])]
          rw [bind_error failed, bind_ok first, bind_error second]
          simp
      | ok w m₂ =>
          have two := Step.eval_ok (h := ⟨m₁, v.objects ++ h.held⟩)
            (List.mem_append_right _ held) second
          -- The arguments have left the function as it was.
          have still := two.keepsFunctions f _ (one.keepsFunctions f _ found)
          have passed : Expr.evalAll (callLeft limit left) scope [a, b] h.machine
              = .ok [v, w] m₂ := by
            rw [Expr.evalAll_cons_ok first, bind_ok (Expr.evalAll_cons_ok second [])]
            rfl
          rw [bind_ok passed, bind_ok first, bind_ok second, callLeft_assertEq still,
            Eval.ofExcept_eq_ok_iff]
          have compared : Operator.binary .equalsEquals v w = .ok (.bool true) ↔ v = w :=
            Value.equals_iff
          rw [compared]
          by_cases same : v = w
          · simp [same]
          · simp [same]

end Host

/-- The identity of functions, for everything that a host has done from the start. Function values
that `==` calls equal stand for one function object, with its name, parameters, body and scope, at
the time of each of them. A declaration makes a function that differs from every value that there
was before, at any time. This holds in the middle of evaluation as well, since evaluation is made
of operations and each of them leads to a host of which all this is said. Values are passed on as
they are. On the values of one kind, `==` is an equivalence and `!=` its negation. An assertion that
two expressions are equal succeeds if and only if `==` gives `true` for them. -/
theorem function_identity {h : Host} (reached : Host.Reaches {} h) :
    (∀ h', h.Reaches h' → ∀ v w, h.HasValue v → h'.HasValue w → v.kind = .function → v.Equals w →
      ∃ f, h.machine.callable? v = some f ∧ h'.machine.callable? w = some f) ∧
    (∀ h', h.Reaches h' → ∀ call scope x params body, .frame scope ∈ h'.held →
      h'.machine.bindsIn scope x = false →
        ∃ f m, (Stmt.funDecl x params body).run call scope h'.machine = .ok (.next .void) m ∧
          m.lookup? scope x = some f ∧ m.callable? f = some (.closure ⟨x, params, body, scope⟩) ∧
          ∀ v, h.HasValue v → ¬ v.Equals f) ∧
    (∀ h', h.Step h' → ∃ h'', h.Leads h'' ∧ h''.Covers h') ∧
    (∀ limit left, h.machine.PassesValues limit left) ∧
    (∀ kind, Equivalence fun v w : { v : Value // v.kind = kind } => v.1.Equals w.1) ∧
    (∀ v w : Value, v.kind = w.kind → ∃ equal,
      Operator.binary .equalsEquals v w = .ok (.bool equal) ∧
        Operator.binary .notEquals v w = .ok (.bool !equal)) ∧
    (∀ limit left scope x f, .frame scope ∈ h.held → h.machine.lookup? scope x = some f →
      h.machine.callable? f = some (.builtin .assertEq) → ∀ a b m,
        (∃ v, (Expr.call (.name x) [a, b]).eval (callLeft limit left) scope h.machine = .ok v m) ↔
          (Expr.binary .equalsEquals a b).eval (callLeft limit left) scope h.machine
            = .ok (.bool true) m) := by
  have sound := Host.Reaches.sound reached Host.sound_empty
  refine ⟨?_, ?_, fun h' step => step.leads, h.machine.passesValues, Value.equals_equivalence,
    fun v w same => ⟨_, Value.compared same⟩, ?_⟩
  · intro h' later v w there _ function equal
    obtain rfl := Value.equals_iff.mp equal
    obtain ⟨f, found⟩ := there.exists_callable? sound function
    exact ⟨f, found, Host.Reaches.keepsFunctions later v f found⟩
  · intro h' later call scope x params body held fresh
    have has := (Host.Reaches.sound later sound).exist _ held
    obtain ⟨m, declared, bound, closure⟩ := Stmt.run_funDecl has fresh call params body
    refine ⟨_, m, declared, bound, closure, fun v there => ?_⟩
    exact there.not_equals_new sound later
  · intro limit left scope x f held bound found a b m
    exact Host.assertEq_iff held bound found a b m

/-- A host that has run `fun f() { } let g = f;` in a new scope and has then made a scope inside
it. -/
def namedTwice : Host :=
  let h := Host.perform ⟨(Machine.programScope {}).2, [.frame 1]⟩ Value.objects
    (Program.eval 1 1 [.funDecl "f" [] [], .letDecl "g" (.name "f")])
  ⟨(h.machine.child 1).2, .frame (h.machine.child 1).1 :: h.held⟩

/-- Both names have one function there, and the same declaration inside makes another one. -/
theorem namedTwice_declared_again :
    Host.Reaches {} namedTwice ∧
      ∃ v f w m, namedTwice.machine.lookup? 1 "f" = some v ∧
        namedTwice.machine.lookup? 1 "g" = some v ∧ namedTwice.machine.callable? v = some f ∧
        (Stmt.funDecl "f" [] []).run (call 1) 2 namedTwice.machine = .ok (.next .void) m ∧
        m.lookup? 2 "f" = some w ∧ ¬ v.Equals w := by
  have start : Host.Step {} ⟨(Machine.programScope {}).2, [.frame 1]⟩ := .programScope {}
  have ran := (Relation.ReflTransGen.single start).tail
    (.program 1 [.funDecl "f" [] [], .letDecl "g" (.name "f")] List.mem_cons_self)
  have reached : Host.Reaches {} namedTwice :=
    ran.tail (.operation (.child (by with_unfolding_all exact List.mem_cons_self)))
  have bound : namedTwice.machine.getIn? 1 "g" = some (.function 4) := by with_unfolding_all rfl
  have there : namedTwice.HasValue (.function 4) := .inr ⟨1, "g", bound⟩
  obtain ⟨coherent, fresh, _⟩ := function_identity reached
  obtain ⟨f, found, _⟩ := coherent namedTwice .refl _ _ there there rfl (Value.equals_iff.mpr rfl)
  obtain ⟨w, m, declared, seen, _, differs⟩ :=
    fresh namedTwice .refl (call 1) 2 "f" [] [] (by with_unfolding_all exact List.mem_cons_self)
      (by with_unfolding_all rfl)
  exact ⟨reached, .function 4, f, w, m, by with_unfolding_all rfl, by with_unfolding_all rfl, found,
    declared, seen, differs _ there⟩

end Bramble
