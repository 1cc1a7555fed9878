import Bramble.Proofs.Eval.WellFormed
import Bramble.Proofs.Machine.Region

/-!
# Frames out of reach

Evaluation has no business with frames that its scope does not reach. It does not change them, it
does not get hold of them, and it does not depend on what they bind
(`unreachable_frames_encapsulated`).

The argument runs evaluation on two machines that agree on a closed region which holds the scope.
The two runs do the same, and the region stays closed. It holds what the scope reached in the
beginning and what has been made since, so all three facts can be read off.
-/

set_option autoImplicit false

namespace Bramble
namespace Eval

open Machine (Closed AgreesOn Spares)

variable {α β γ δ : Type} {r : Object → Prop} {m m' : Machine}

/-! ## Two runs inside a region -/

/-- What is true of a region after two runs, the first of which began on `m`. -/
structure LeavesRegion (r : Object → Prop) (m n n' : Machine) : Prop where
  closed : Closed r n
  agrees : AgreesOn r n n'
  spares : Spares r m n

/-- How two runs end that do the same inside a region. -/
inductive EndsAlike (r : Object → Prop) (results : α → β → Prop) (m : Machine) :
    EStateM.Result EvalError Machine α → EStateM.Result EvalError Machine β → Prop where
  | ok {a : α} {b : β} {n n' : Machine} (together : results a b) (leaves : LeavesRegion r m n n') :
      EndsAlike r results m (.ok a n) (.ok b n')
  | error (e : EvalError) {n n' : Machine} (leaves : LeavesRegion r m n n') :
      EndsAlike r results m (.error e n) (.error e n')

/-- Computations that do the same on machines that agree on a closed region, and leave what is
outside of it alone. -/
def Confined (r : Object → Prop) (results : α → β → Prop) (p : Eval α) (p' : Eval β) : Prop :=
  ∀ m m', Closed r m → AgreesOn r m m' → EndsAlike r results m (p m) (p' m')

theorem EndsAlike.inversion {results : α → β → Prop}
    {x : EStateM.Result EvalError Machine α} {y : EStateM.Result EvalError Machine β}
    (alike : EndsAlike r results m x y) :
    (∃ a b n n', x = .ok a n ∧ y = .ok b n' ∧ results a b ∧ LeavesRegion r m n n') ∨
      ∃ e n n', x = .error e n ∧ y = .error e n' ∧ LeavesRegion r m n n' := by
  cases alike with
  | ok together leaves => exact .inl ⟨_, _, _, _, rfl, rfl, together, leaves⟩
  | error e leaves => exact .inr ⟨e, _, _, rfl, rfl, leaves⟩

/-- What is spared by the first part of a run and then by the second is spared by both. -/
theorem EndsAlike.from {results : α → β → Prop} {n : Machine}
    {x : EStateM.Result EvalError Machine α} {y : EStateM.Result EvalError Machine β}
    (spares : Spares r m n) (alike : EndsAlike r results n x y) : EndsAlike r results m x y := by
  cases alike with
  | ok together leaves =>
      exact .ok together ⟨leaves.closed, leaves.agrees, spares.trans leaves.spares⟩
  | error e leaves => exact .error e ⟨leaves.closed, leaves.agrees, spares.trans leaves.spares⟩

theorem Confined.bind {results : α → β → Prop} {more : γ → δ → Prop} {p : Eval α} {p' : Eval β}
    {f : α → Eval γ} {f' : β → Eval δ} (first : Confined r results p p')
    (second : ∀ a b, results a b → Confined r more (f a) (f' b)) :
    Confined r more (p >>= f) (p' >>= f') := by
  intro m m' closed agrees
  rcases (first m m' closed agrees).inversion with
    ⟨a, b, n, n', ok, ok', together, leaves⟩ | ⟨e, n, n', error, error', leaves⟩
  · rw [bind_ok ok, bind_ok ok']
    exact (second a b together n n' leaves.closed leaves.agrees).from leaves.spares
  · rw [bind_error error, bind_error error']
    exact .error e leaves

/-! ## Operations -/

section Operations

variable {scope : Scope} {x : String} {v : Value}

theorem confined_lookup (inside : r (.frame scope)) :
    Confined r (Value.Like (FunctionIn r)) (lookup scope x) (lookup scope x) := by
  intro m m' closed agrees
  unfold lookup
  rw [agrees.lookup?_eq inside closed x]
  cases found : m.lookup? scope x with
  | none => exact .error _ ⟨closed, agrees, .refl r m⟩
  | some v =>
      refine .ok (Value.like_functionIn.mpr ⟨rfl, fun o member => ?_⟩) ⟨closed, agrees, .refl r m⟩
      obtain ⟨id, rfl, rfl⟩ := Value.mem_objects.mp member
      obtain ⟨frame, around, binds⟩ := List.exists_of_findSome?_eq_some found
      exact closed.refers _ _ (closed.chain inside around) (.bound binds)

theorem confined_requireFresh (inside : r (.frame scope)) :
    Confined r (fun _ _ => True) (requireFresh scope x) (requireFresh scope x) := by
  intro m m' closed agrees
  unfold requireFresh
  rw [agrees.bindsIn_eq inside x]
  split
  · exact .error _ ⟨closed, agrees, .refl r m⟩
  · exact .ok trivial ⟨closed, agrees, .refl r m⟩

theorem confined_define (inside : r (.frame scope)) (held : ∀ o ∈ v.objects, r o) :
    Confined r (fun _ _ => True) (define scope x v) (define scope x v) := by
  intro m m' closed agrees
  rw [define_eq, define_eq, agrees.bindsIn_eq inside x]
  by_cases bound : m.bindsIn scope x = true
  · rw [if_pos bound, if_pos bound]
    exact .error _ ⟨closed, agrees, .refl r m⟩
  · rw [if_neg bound, if_neg bound]
    exact .ok trivial ⟨closed.bind held, agrees.modify _ _, Machine.spares_modify inside _⟩

theorem confined_assign (inside : r (.frame scope)) (held : ∀ o ∈ v.objects, r o) :
    Confined r (fun _ _ => True) (assign scope x v) (assign scope x v) := by
  intro m m' closed agrees
  unfold assign
  rw [agrees.resolve?_eq inside closed x]
  cases found : m.resolve? scope x with
  | none => exact .error _ ⟨closed, agrees, .refl r m⟩
  | some frame =>
      have near := closed.chain inside (List.mem_of_find?_eq_some found)
      exact .ok trivial ⟨closed.rebind held, agrees.modify _ _, Machine.spares_modify near _⟩

theorem confined_child (inside : r (.frame scope)) :
    Confined r (ScopeIn r) (child scope) (child scope) := by
  intro m m' closed agrees
  have new : ScopeIn r (m.child scope).1 (m'.child scope).1 :=
    ⟨agrees.frameCount.symm, closed.new _ (Nat.lt_irrefl _)⟩
  exact .ok new ⟨closed.child inside, agrees.child inside, Machine.spares_child closed⟩

theorem confined_newFunction {f : Callable} (held : ∀ o ∈ f.objects, r o) :
    Confined r (Value.Like (FunctionIn r)) (newFunction f) (newFunction f) := by
  intro m m' closed agrees
  have new : FunctionIn r m.functions.size m'.functions.size :=
    ⟨agrees.functionCount.symm, closed.new _ (Nat.lt_irrefl _)⟩
  exact .ok (.function new) ⟨closed.addFunction held, agrees.addFunction f, fun _ _ => rfl⟩

theorem confined_callable (held : ∀ o ∈ v.objects, r o) :
    Confined r (Callable.Like (ScopeIn r)) (callable v) (callable v) := by
  intro m m' closed agrees
  cases v with
  | function id =>
      have inside : r (.function id) := held _ (List.mem_singleton.mpr rfl)
      simp only [callable, agrees.function id inside]
      cases found : m.functions[id]? with
      | none => exact .error _ ⟨closed, agrees, .refl r m⟩
      | some f =>
          refine .ok (Callable.like_scopeIn.mpr ⟨rfl, fun o member => ?_⟩)
            ⟨closed, agrees, .refl r m⟩
          obtain ⟨c, rfl, rfl⟩ := Callable.mem_objects.mp member
          exact closed.refers _ _ inside (.captured found)
  | _ => exact .error _ ⟨closed, agrees, .refl r m⟩

/-- The texts of values that both machines show alike decide what a function of the prelude
does. -/
theorem answer_congr {display display' inspect inspect' : Value → String} (b : Builtin)
    {args : List Value} (shown : ∀ v ∈ args, display' v = display v)
    (inspected : ∀ v ∈ args, inspect' v = inspect v) :
    b.answer display' inspect' args = b.answer display inspect args := by
  match b, args with
  | .print, [] | .println, [] | .assertEq, [] | .assertEq, [_] | .assert, [] => rfl
  | .print, v :: _ | .println, v :: _ =>
      rw [Builtin.answer, Builtin.answer, shown v List.mem_cons_self]
  | .assertEq, v :: w :: _ =>
      rw [Builtin.answer, Builtin.answer, inspected v List.mem_cons_self,
        inspected w (List.mem_cons_of_mem _ List.mem_cons_self)]
  | .assert, v :: _ => rfl

theorem confined_builtin (b : Builtin) {args : List Value}
    (held : ∀ v ∈ args, ∀ o ∈ v.objects, r o) :
    Confined r (Value.Like (FunctionIn r)) (b.run args) (b.run args) := by
  intro m m' closed agrees
  have same : b.answer m'.display m'.inspect args = b.answer m.display m.inspect args :=
    answer_congr b (fun v member => agrees.display_eq (held v member))
      fun v member => agrees.inspect_eq (held v member)
  rw [b.run_eq, b.run_eq, same]
  cases b.answer m.display m.inspect args with
  | ok text => exact .ok .void ⟨closed.print text, agrees.print text, fun _ _ => rfl⟩
  | error e => exact .error e ⟨closed, agrees, .refl r m⟩

end Operations

/-- The congruence of runs inside a region. -/
def confining (r : Object → Prop) : Congruence where
  World := Unit
  later := fun _ _ => True
  scopes := fun _ => ScopeIn r
  functions := fun _ => FunctionIn r
  related := fun w results => Confined r (results w)
  scopes_later := fun _ same => same
  functions_later := fun _ same => same
  functions_oneToOne := by
    rintro w a a' b b' ⟨rfl, _⟩ ⟨rfl, _⟩
    rfl
  related_pure := fun together m _ closed agrees => .ok together ⟨closed, agrees, .refl r m⟩
  related_bind := fun first second => first.bind (second _ trivial)
  related_throw := fun _ m _ closed agrees => .error _ ⟨closed, agrees, .refl r m⟩
  related_lookup := by
    rintro w scope _ x ⟨rfl, inside⟩
    exact confined_lookup inside
  related_requireFresh := by
    rintro w scope _ x ⟨rfl, inside⟩
    exact confined_requireFresh inside
  related_define := by
    rintro w scope _ x v v' ⟨rfl, inside⟩ like
    obtain ⟨rfl, held⟩ := Value.like_functionIn.mp like
    exact confined_define inside held
  related_assign := by
    rintro w scope _ x v v' ⟨rfl, inside⟩ like
    obtain ⟨rfl, held⟩ := Value.like_functionIn.mp like
    exact confined_assign inside held
  related_child := by
    rintro w scope _ ⟨rfl, inside⟩
    exact confined_child inside
  related_newFunction := by
    intro w f f' like
    obtain ⟨rfl, held⟩ := Callable.like_scopeIn.mp like
    exact confined_newFunction held
  related_callable := by
    intro w v v' like
    obtain ⟨rfl, held⟩ := Value.like_functionIn.mp like
    exact confined_callable held
  related_builtin := by
    intro w b args args' _ likeAll
    obtain ⟨rfl, held⟩ := Value.likeAll_functionIn.mp likeAll
    exact confined_builtin b held

/-! ## Encapsulation -/

/-- A computation that was given `roots` on the machine `m`, and whose result stands for some
objects, has no business with frames that `roots` does not reach. -/
structure Encapsulated (objects : α → List Object) (p : Eval α) (m : Machine)
    (roots : List Object) : Prop where
  /-- It does not change them. -/
  unchanged : ∀ id, m.Has (.frame id) → ¬ m.Reaches roots (.frame id) →
    (p.after m).frames[id]? = m.frames[id]?
  /-- It does not get hold of them: what is reached afterwards, from its result or from what was
  reached before, was reached before or has been made by it. -/
  confined : ∀ start o, (m.Reaches roots start ∨ ∃ a m', p m = .ok a m' ∧ start ∈ objects a) →
    (p.after m).Reaches [start] o → m.Reaches roots o ∨ (¬ m.Has o ∧ (p.after m).Has o)
  /-- It does not depend on them: on another machine that differs in them only, it ends alike, has
  printed the same, and leaves the same in what is reached or new. -/
  independent : ∀ m', AgreesOn (m.seen roots) m m' →
    (∃ a n n', p m = .ok a n ∧ p m' = .ok a n' ∧ AgreesOn (m.seen roots) n n') ∨
      ∃ e n n', p m = .error e n ∧ p m' = .error e n' ∧ AgreesOn (m.seen roots) n n'

/-- The two runs of a region and the one run of a well-formed machine, put together. -/
theorem Confined.encapsulated {objects : α → List Object} {results : α → α → Prop} {p : Eval α}
    {roots : List Object} (wellFormed : m.WellFormed) (exist : ∀ o ∈ roots, m.Has o)
    (confined : Confined (m.seen roots) results p p)
    (known : ∀ a b, results a b → a = b ∧ ∀ o ∈ objects a, m.seen roots o)
    (keeps : Keeps m objects p) : Encapsulated objects p m roots := by
  have closed := wellFormed.closed_seen roots
  have alike := (confined m m closed (.refl _ m)).inversion
  have leaves : LeavesRegion (m.seen roots) m (p.after m) (p.after m) := by
    rcases alike with ⟨a, b, n, n', ok, ok', _, leaves⟩ | ⟨e, n, n', error, error', leaves⟩
    · cases ok.symm.trans ok'
      rwa [after_ok ok]
    · cases error.symm.trans error'
      rwa [after_error error]
  refine ⟨?_, ?_, ?_⟩
  · intro id has out
    refine leaves.spares id ?_
    rintro (reached | absent)
    · exact out reached
    · exact absent has
  · intro start o given reached
    have begun : m.seen roots start ∧ (p.after m).Has start := by
      rcases given with before | ⟨a, m', ok, member⟩
      · exact ⟨.inl before, keeps.within start (before.has wellFormed exist)⟩
      · rcases alike with ⟨_, _, _, _, ok', _, together, _⟩ | ⟨e, _, _, error, _, _⟩
        · cases ok.symm.trans ok'
          rw [after_ok ok]
          exact ⟨(known _ _ together).2 start member, keeps.result a m' ok start member⟩
        · cases ok.symm.trans error
    have there : (p.after m).Has o := by
      refine reached.has keeps.wellFormed fun root member => ?_
      rw [List.mem_singleton.mp member]
      exact begun.2
    obtain ⟨root, member, path⟩ := reached
    rw [List.mem_singleton.mp member] at path
    rcases leaves.closed.reaches begun.1 path with before | new
    · exact .inl before
    · exact .inr ⟨new, there⟩
  · intro m' agrees
    rcases (confined m m' closed agrees).inversion with
      ⟨a, b, n, n', ok, ok', together, leaves⟩ | ⟨e, n, n', error, error', leaves⟩
    · obtain ⟨rfl, _⟩ := known a b together
      exact .inl ⟨a, n, n', ok, ok', leaves.agrees⟩
    · exact .inr ⟨e, n, n', error, error', leaves.agrees⟩

/-- The case of computations that end with a value. -/
theorem encapsulated_value {p : Eval Value} {roots : List Object} (wellFormed : m.WellFormed)
    (exist : ∀ o ∈ roots, m.Has o)
    (confined : (confining (m.seen roots)).related () (confining (m.seen roots)).values p p)
    (keeps : Keeps m Value.objects p) : Encapsulated Value.objects p m roots := by
  refine Confined.encapsulated wellFormed exist confined ?_ keeps
  intro v v' like
  exact Value.like_functionIn.mp like

/-- The case of statements. -/
theorem encapsulated_flow {p : Eval Flow} {roots : List Object} (wellFormed : m.WellFormed)
    (exist : ∀ o ∈ roots, m.Has o)
    (confined : (confining (m.seen roots)).related () (confining (m.seen roots)).flows p p)
    (keeps : Keeps m (fun flow => flow.value.objects) p) :
    Encapsulated (fun flow => flow.value.objects) p m roots := by
  refine Confined.encapsulated wellFormed exist confined ?_ keeps
  intro flow flow' like
  refine ⟨like.eq_of_forall fun same => same.1, ?_⟩
  cases like with
  | next value => exact (Value.like_functionIn.mp value).2
  | returned value => exact (Value.like_functionIn.mp value).2

/-- What a callee and its arguments stand for. -/
def callObjects (callee : Value) (args : List Value) : List Object :=
  callee.objects ++ args.flatMap Value.objects

theorem like_callObjects {callee : Value} {args : List Value}
    (held : ∀ o ∈ callObjects callee args, r o) :
    callee.Like (FunctionIn r) callee ∧ Value.LikeAll (FunctionIn r) args args := by
  constructor
  · refine Value.like_functionIn.mpr ⟨rfl, fun o member => ?_⟩
    exact held o (List.mem_append_left _ member)
  · refine Value.likeAll_functionIn.mpr ⟨rfl, fun v passed o member => ?_⟩
    exact held o (List.mem_append_right _ (List.mem_flatMap.mpr ⟨v, passed, member⟩))

end Eval

/-- What no scope in play can reach is out of bounds for evaluation. On every machine that arises,
whether it ends with a result or with an error, evaluation in a scope, and likewise a call, does
not change the frames that the scope does not reach, or that the callee and the arguments do not
reach; it does not get hold of any of them; and it does not depend on them. -/
theorem unreachable_frames_encapsulated (m : Machine) (arises : m.Arises) (limit left : Nat) :
    (∀ scope, m.Has (.frame scope) →
      (∀ e : Expr, Eval.Encapsulated Value.objects (e.eval (callLeft limit left) scope) m
        [.frame scope]) ∧
      (∀ s : Stmt, Eval.Encapsulated (fun flow => flow.value.objects)
        (s.run (callLeft limit left) scope) m [.frame scope]) ∧
      (∀ ss : List Stmt, Eval.Encapsulated (fun flow => flow.value.objects)
        (Stmt.runAll (callLeft limit left) scope .void ss) m [.frame scope]) ∧
      ∀ program : Program, Eval.Encapsulated Value.objects (program.eval limit scope) m
        [.frame scope]) ∧
    ∀ callee args, (∀ o ∈ Eval.callObjects callee args, m.Has o) →
      Eval.Encapsulated Value.objects (callLeft limit left callee args) m
        (Eval.callObjects callee args) := by
  have wellFormed := arises.wellFormed
  constructor
  · intro scope has
    have exist : ∀ o ∈ [Object.frame scope], m.Has o := by
      intro o member
      rwa [List.mem_singleton.mp member]
    let region := Eval.confining (m.seen [.frame scope])
    have inside : region.scopes () scope scope :=
      ⟨rfl, .inl (m.reaches_root (List.mem_singleton.mpr rfl))⟩
    have held : .frame scope ∈ (Host.owner m).held := Machine.mem_objects.mpr has
    have calls := region.relatesCalls_callLeft limit left
    refine ⟨?_, ?_, ?_, ?_⟩
    · intro e
      exact Eval.encapsulated_value wellFormed exist
        (Eval.Congruence.related_eval calls inside e)
        (Eval.keeps_of_step wellFormed (.eval limit left e held))
    · intro s
      exact Eval.encapsulated_flow wellFormed exist
        (Eval.Congruence.related_run calls inside s)
        (Eval.keeps_of_step wellFormed (.run limit left s held))
    · intro ss
      exact Eval.encapsulated_flow wellFormed exist
        (Eval.Congruence.related_statements calls inside ss .void)
        (Eval.keeps_of_step wellFormed (.runAll limit left ss held))
    · intro program
      exact Eval.encapsulated_value wellFormed exist
        (Eval.Congruence.related_program (region.relatesCalls_callLeft limit limit) inside program)
        (Eval.keeps_of_step wellFormed (.program limit program held))
  · intro callee args exist
    let region := Eval.confining (m.seen (Eval.callObjects callee args))
    obtain ⟨like, likeAll⟩ := Eval.like_callObjects fun o member =>
      (Or.inl (m.reaches_root member) : m.seen (Eval.callObjects callee args) o)
    obtain ⟨given, givenAll⟩ := List.forall_mem_append.mp fun o member =>
      (Machine.mem_objects.mpr (exist o member) : o ∈ (Host.owner m).held)
    have givenEach : ∀ v ∈ args, (Host.owner m).Holds v := fun v passed o member =>
      givenAll o (List.mem_flatMap.mpr ⟨v, passed, member⟩)
    exact Eval.encapsulated_value wellFormed exist
      (region.relatesCalls_callLeft limit left () callee callee args args like likeAll)
      (Eval.keeps_of_step wellFormed (.call limit left given givenEach))

/-- Two scopes that do not know of each other. The second one binds `n`. -/
def twoScopes : Machine :=
  (Eval.define 1 "n" (.int 1)).after (Machine.newScope (Machine.newScope {}).2).2

theorem twoScopes_arises : twoScopes.Arises := by
  have first : Machine.Arises (Machine.newScope {}).2 :=
    .step .empty (.operation (.newScope (.owner {})))
  have second : Machine.Arises (Machine.newScope (Machine.newScope {}).2).2 :=
    .step first (.operation (.newScope (.owner (Machine.newScope {}).2)))
  have held : .frame 1 ∈ (Host.owner (Machine.newScope (Machine.newScope {}).2).2).held := by decide
  have given : (Host.owner (Machine.newScope (Machine.newScope {}).2).2).Holds (.int 1) := by
    intro o member
    cases member
  exact .step second (.define "n" held given)

theorem twoScopes_apart : ¬ twoScopes.Reaches [.frame 0] (.frame 1) := by
  rintro ⟨root, member, path⟩
  cases List.mem_singleton.mp member
  rcases path.cases_head with same | ⟨next, refers, _⟩
  · cases same
  · cases refers with
    | parent inside => cases inside
    | bound binds => cases binds

theorem twoScopes_second_unchanged :
    twoScopes.Arises ∧ twoScopes.Has (.frame 0) ∧ ¬ twoScopes.Reaches [.frame 0] (.frame 1) ∧
      ((Stmt.run (callLeft 1 1) 0 (.letDecl "n" (.literal (.int 2)))).after twoScopes).frames[1]?
        = twoScopes.frames[1]? := by
  have has : twoScopes.Has (.frame 0) := by decide
  obtain ⟨_, statements, _⟩ :=
    (unreachable_frames_encapsulated twoScopes twoScopes_arises 1 1).1 0 has
  refine ⟨twoScopes_arises, has, twoScopes_apart, ?_⟩
  exact (statements _).unchanged 1 (by decide) twoScopes_apart

end Bramble
