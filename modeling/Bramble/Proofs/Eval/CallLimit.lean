import Bramble.Proofs.Eval.Congruence
import Bramble.Proofs.Eval.Names

/-!
# A higher limit on calls

With a higher limit on nested calls a program does what it did before, only perhaps more of it. A
run that ended for any other reason than the limit ends just so under a higher one, on the same
machine. A run that the limit has cut off is continued, so what it had printed by then is a
beginning of what is printed now (`higher_limit_extends`).

Two runs of this kind begin on the same machine and stay together until the first of them is cut
off. From there on nothing is known of the second run but that it goes on printing. This is why
the relation between the runs has a part about the second one alone.
-/

set_option autoImplicit false

namespace Bramble

/-! ## Printing goes on -/

/-- What was printed in `m` is the beginning of what was printed in `m'`. -/
def Machine.Printed (m m' : Machine) : Prop := ∃ more, m'.output = m.output ++ more

namespace Machine.Printed

variable {m m' m'' : Machine}

theorem of_eq (same : m'.output = m.output) : Printed m m' :=
  ⟨"", by rw [same, String.append_empty]⟩

theorem refl (m : Machine) : Printed m m := of_eq rfl

theorem trans (first : Printed m m') (second : Printed m' m'') : Printed m m'' := by
  obtain ⟨more, printed⟩ := first
  obtain ⟨rest, printed'⟩ := second
  exact ⟨more ++ rest, by rw [printed', printed, String.append_assoc]⟩

end Machine.Printed

namespace Eval

variable {α β γ δ : Type}

/-- Whatever the computation ends with, nothing printed has been taken back. -/
def Prints (p : Eval α) : Prop := ∀ m : Machine, m.Printed (p.after m)

theorem prints_of_output {p : Eval α} (same : ∀ m, (p.after m).output = m.output) : Prints p :=
  fun m => .of_eq (same m)

theorem prints_lookup (scope : Scope) (x : String) : Prints (lookup scope x) := by
  refine prints_of_output fun m => ?_
  unfold after lookup
  cases m.lookup? scope x <;> rfl

theorem prints_requireFresh (scope : Scope) (x : String) : Prints (requireFresh scope x) := by
  refine prints_of_output fun m => ?_
  unfold after requireFresh
  cases m.bindsIn scope x <;> rfl

theorem prints_define (scope : Scope) (x : String) (v : Value) : Prints (define scope x v) := by
  refine prints_of_output fun m => ?_
  unfold after
  rw [define_eq]
  cases m.bindsIn scope x <;> rfl

theorem prints_assign (scope : Scope) (x : String) (v : Value) : Prints (assign scope x v) := by
  refine prints_of_output fun m => ?_
  unfold after assign
  cases m.resolve? scope x <;> rfl

theorem prints_callable (callee : Value) : Prints (callable callee) := by
  refine prints_of_output fun m => ?_
  unfold after callable
  cases callee with
  | function id => cases found : m.functions[id]? <;> simp [found]
  | _ => rfl

theorem prints_builtin (b : Builtin) (args : List Value) : Prints (b.run args) := by
  intro m
  unfold after
  rw [b.run_eq args m]
  cases b.answer m.display m.inspect args with
  | ok text => exact ⟨text, rfl⟩
  | error e => exact .refl m

/-! ## Runs that go further -/

/-- From every machine, `p'` does what `p` does, or `p` is cut off by the limit on calls and `p'`
has printed what `p` had printed by then. -/
structure Extends (results : α → β → Prop) (p : Eval α) (p' : Eval β) : Prop where
  prints : Prints p'
  known : ∀ m b m', p' m = .ok b m' → ∃ a, results a b
  ends : ∀ m, (∃ a b m', p m = .ok a m' ∧ p' m = .ok b m' ∧ results a b) ∨
    (∃ e m', p m = .error e m' ∧ p' m = .error e m') ∨
    ∃ limit m', p m = .error (.callTooDeep limit) m' ∧ m'.Printed (p'.after m)

namespace Extends

variable {results : α → β → Prop} {more : γ → δ → Prop}

/-- A computation goes as far as itself. -/
theorem same {results : α → α → Prop} {p : Eval α} (prints : Prints p)
    (refl : ∀ a, results a a) : Extends results p p where
  prints := prints
  known := fun _ b _ _ => ⟨b, refl b⟩
  ends := by
    intro m
    cases ending : p m with
    | ok a m' => exact .inl ⟨a, a, m', rfl, rfl, refl a⟩
    | error e m' => exact .inr (.inl ⟨e, m', rfl, rfl⟩)

theorem pure {a : α} {b : β} (together : results a b) :
    Extends results (Pure.pure a) (Pure.pure b) where
  prints := Machine.Printed.refl
  known := by
    intro m b' m' ok
    cases ok
    exact ⟨a, together⟩
  ends := fun m => .inl ⟨a, b, m, rfl, rfl, together⟩

theorem bind {p : Eval α} {p' : Eval β} {f : α → Eval γ} {f' : β → Eval δ}
    (first : Extends results p p') (second : ∀ a b, results a b → Extends more (f a) (f' b)) :
    Extends more (p >>= f) (p' >>= f') where
  prints := by
    intro m
    have before := first.prints m
    cases ending : p' m with
    | ok b m' =>
        obtain ⟨a, together⟩ := first.known m b m' ending
        rw [after_ok ending] at before
        rw [after_bind_ok ending]
        exact before.trans ((second a b together).prints m')
    | error e m' =>
        rw [after_error ending] at before
        rw [after_error (bind_error ending)]
        exact before
  known := by
    intro m d m' ok
    obtain ⟨b, mid, begun, ended⟩ := of_bind ok
    obtain ⟨a, together⟩ := first.known m b mid begun
    exact (second a b together).known mid d m' ended
  ends := by
    intro m
    rcases first.ends m with ⟨a, b, mid, ok, ok', together⟩ | ⟨e, mid, error, error'⟩ |
      ⟨limit, mid, cut, printed⟩
    · have next := (second a b together).ends mid
      rwa [bind_ok ok, bind_ok ok', after_bind_ok ok']
    · exact .inr (.inl ⟨e, mid, bind_error error, bind_error error'⟩)
    · refine .inr (.inr ⟨limit, mid, bind_error cut, printed.trans ?_⟩)
      -- The second run goes on alone, with a result that a first run could have had.
      cases ending : p' m with
      | ok b m' =>
          obtain ⟨a, together⟩ := first.known m b m' ending
          rw [after_ok ending, after_bind_ok ending]
          exact (second a b together).prints m'
      | error e m' =>
          rw [after_error ending, after_error (bind_error ending)]
          exact .refl m'

/-- Whatever goes as far as itself goes further than a run that is cut off at once. -/
theorem ofCutOff {results : α → α → Prop} {p : Eval α} (self : Extends results p p)
    (limit : Nat) : Extends results (throw (.callTooDeep limit)) p where
  prints := self.prints
  known := self.known
  ends := fun m => .inr (.inr ⟨limit, m, rfl, self.prints m⟩)

end Extends

/-! ## Two limits -/

/-- The congruence of runs with two limits: everything is the same in both as long as both go
on. -/
def goesOn : Congruence where
  World := Unit
  later := fun _ _ => True
  scopes := fun _ => Eq
  functions := fun _ => Eq
  related := fun w results => Extends (results w)
  scopes_later := fun _ same => same
  functions_later := fun _ same => same
  functions_oneToOne := by
    rintro w a a' b b' rfl rfl
    rfl
  related_pure := .pure
  related_bind := fun first second => .bind first (second _ trivial)
  related_throw := by
    intro α β w results e raised
    refine ⟨Machine.Printed.refl, ?_, fun m => .inr (.inl ⟨e, m, rfl, rfl⟩)⟩
    intro m b m' ok
    cases ok
  related_lookup := by
    rintro w scope _ x rfl
    exact .same (prints_lookup scope x) Value.Like.refl
  related_requireFresh := by
    rintro w scope _ x rfl
    exact .same (prints_requireFresh scope x) fun _ => trivial
  related_define := by
    rintro w scope _ x v v' rfl like
    obtain rfl := like.eq_of_forall id
    exact .same (prints_define scope x v) fun _ => trivial
  related_assign := by
    rintro w scope _ x v v' rfl like
    obtain rfl := like.eq_of_forall id
    exact .same (prints_assign scope x v) fun _ => trivial
  related_child := by
    rintro w scope _ rfl
    exact .same (prints_of_output fun _ => rfl) fun _ => rfl
  related_newFunction := by
    rintro w f f' like
    have same : f = f' := by cases like <;> simp_all
    subst same
    exact .same (prints_of_output fun _ => rfl) Value.Like.refl
  related_callable := by
    intro w v v' like
    obtain rfl := like.eq_of_forall id
    refine .same (prints_callable v) fun f => ?_
    cases f with
    | closure c => exact .closure c.name c.params c.body rfl
    | builtin b => exact .builtin b
  related_builtin := by
    intro w b args args' _ like
    obtain rfl := Value.Like.all_eq_of_forall id like
    exact .same (prints_builtin b args) Value.Like.refl

/-- The body of a closure goes further than a call that is cut off before it. -/
theorem extends_cutOff (limit limit' left : Nat) (c : Closure) (args : List Value) :
    Extends (Value.Like Eq) (c.enter limit none args)
      (c.enter limit' (callInner limit' left) args) := by
  refine .ofCutOff ?_ limit
  change goesOn.related () goesOn.values _ _
  cases left with
  | zero => exact goesOn.related_throw rfl
  | succ left =>
      have calls := goesOn.relatesCalls_callLeft limit' left
      have likeAll : Value.LikeAll Eq args args := List.forall₂_same.mpr fun v _ => .refl v
      exact Congruence.related_enter calls rfl limit' limit' c.name c.params c.body likeAll

/-- A call goes further with more levels left. -/
theorem relatesCalls_further (limit limit' : Nat) {left left' : Nat} (le : left ≤ left') :
    goesOn.RelatesCalls (callLeft limit left) (callLeft limit' left') := by
  induction left generalizing left' with
  | zero =>
      rw [callLeft_eq limit']
      apply Congruence.relatesCalls_callWith
      rintro w name params body scope _ args args' rfl like
      obtain rfl := Value.Like.all_eq_of_forall id like
      exact extends_cutOff limit limit' left' ⟨name, params, body, scope⟩ args
  | succ left ih =>
      cases left' with
      | zero => omega
      | succ left' =>
          apply Congruence.relatesCalls_callWith
          intro w name params body scope scope' args args' same like
          exact Congruence.related_enter (ih (by omega)) same limit limit' name params body like

/-- How a run under a higher limit ends, seen from one under a lower limit. -/
structure Raised (p p' : Eval α) (m : Machine) : Prop where
  same : (∀ limit m', p m ≠ .error (.callTooDeep limit) m') → p' m = p m
  printed : ∀ limit m', p m = .error (.callTooDeep limit) m' → m'.Printed (p'.after m)

theorem Extends.raised {results : α → α → Prop} {p p' : Eval α} (further : Extends results p p')
    (equal : ∀ a b, results a b → a = b) (m : Machine) : Raised p p' m := by
  rcases further.ends m with ⟨a, b, mid, ok, ok', together⟩ | ⟨e, mid, error, error'⟩ |
    ⟨limit, mid, cut, printed⟩
  · obtain rfl := equal a b together
    refine ⟨fun _ => by rw [ok, ok'], ?_⟩
    intro limit m' cut
    rw [ok] at cut
    cases cut
  · refine ⟨fun _ => by rw [error, error'], ?_⟩
    intro limit m' cut
    rw [error] at cut
    cases cut
    rw [after_error error']
    exact .refl _
  · refine ⟨fun other => absurd cut (other limit mid), ?_⟩
    intro limit' m' cut'
    rw [cut] at cut'
    cases cut'
    exact printed

end Eval

/-- Under a higher limit on calls, a program ends with the same value or the same error, on the
same machine, unless it was cut off by the lower limit; and then what it had printed is the
beginning of what it prints now. The same holds of expressions and statements at any depth of
calls, and of calls themselves. -/
theorem higher_limit_extends (limit limit' : Nat) (le : limit ≤ limit') (depth : Nat)
    (scope : Scope) (m : Machine) :
    (∀ program : Program, Eval.Raised (program.eval limit scope) (program.eval limit' scope) m) ∧
    (∀ e : Expr, Eval.Raised (e.eval (callLeft limit (limit - depth)) scope)
      (e.eval (callLeft limit' (limit' - depth)) scope) m) ∧
    (∀ (last : Value) (ss : List Stmt),
      Eval.Raised (Stmt.runAll (callLeft limit (limit - depth)) scope last ss)
        (Stmt.runAll (callLeft limit' (limit' - depth)) scope last ss) m) ∧
    ∀ callee args, Eval.Raised (callLeft limit (limit - depth) callee args)
      (callLeft limit' (limit' - depth) callee args) m := by
  have calls := Eval.relatesCalls_further limit limit' (Nat.sub_le_sub_right le depth)
  have equal : ∀ v v' : Value, v.Like Eq v' → v = v' := fun _ _ like => like.eq_of_forall id
  have same : Eval.goesOn.scopes () scope scope := rfl
  refine ⟨?_, ?_, ?_, ?_⟩
  · intro program
    have outermost := Eval.relatesCalls_further limit limit' le
    exact (Eval.Congruence.related_program outermost same program).raised equal m
  · intro e
    exact (Eval.Congruence.related_eval calls same e).raised equal m
  · intro last ss
    have whole := Eval.Congruence.related_statements calls same ss (.refl last)
    exact whole.raised (fun _ _ like => like.eq_of_forall id) m
  · intro callee args
    have likeAll : Value.LikeAll Eq args args := List.forall₂_same.mpr fun v _ => .refl v
    exact (calls () callee callee args args (.refl callee) likeAll).raised equal m

/-- The program `print("a"); fun f() { print("b"); } fun g() { f(); print("c"); } g();`, in which
calls are nested two levels deep. -/
def nestedCalls : Program :=
  let print (text : String) : Stmt := .expr (.call (.name "print") [.literal (.str text)])
  [print "a", .funDecl "f" [] [print "b"],
    .funDecl "g" [] [.expr (.call (.name "f") []), print "c"], .expr (.call (.name "g") [])]

theorem nestedCalls_printed :
    1 ≤ 2 ∧ ∃ m m', nestedCalls.eval 1 (Machine.programScope {}).1 (Machine.programScope {}).2
        = .error (.callTooDeep 1) m ∧
      nestedCalls.eval 2 (Machine.programScope {}).1 (Machine.programScope {}).2 = .ok .void m' ∧
      m.output = "a" ∧ m'.output = "abc" ∧ m.Printed m' := by
  have cut : nestedCalls.eval 1 (Machine.programScope {}).1 (Machine.programScope {}).2
      = .error (.callTooDeep 1)
        ((nestedCalls.eval 1 (Machine.programScope {}).1).after (Machine.programScope {}).2) := by
    with_unfolding_all rfl
  have whole : nestedCalls.eval 2 (Machine.programScope {}).1 (Machine.programScope {}).2
      = .ok .void
        ((nestedCalls.eval 2 (Machine.programScope {}).1).after (Machine.programScope {}).2) := by
    with_unfolding_all rfl
  obtain ⟨programs, _⟩ := higher_limit_extends 1 2 (by decide) 0
    (Machine.programScope {}).1 (Machine.programScope {}).2
  refine ⟨by decide, _, _, cut, whole, ?_, ?_, (programs nestedCalls).printed _ _ cut⟩
  · with_unfolding_all rfl
  · with_unfolding_all rfl

end Bramble
