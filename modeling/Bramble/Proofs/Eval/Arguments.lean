import Bramble.Proofs.Eval.Names

/-!
# Arguments of a call

A call begins with its callee and goes on with its arguments, from left to right, each of them on
the machine that the one before it has left. Only when all of them have values is it asked whether
the callee is a function. A call of anything else is therefore refused late: what its arguments
print and change stays, and an argument that fails is what the call fails with
(`refused_after_arguments`).
-/

set_option autoImplicit false

namespace Bramble

variable {call : Call} {scope : Scope} {e : EvalError} {m m' mid : Machine}

namespace Expr

theorem evalAll_cons_ok {a : Expr} {v : Value} (first : a.eval call scope m = .ok v mid)
    (es : List Expr) : evalAll call scope (a :: es) m
      = (evalAll call scope es >>= fun vs => pure (v :: vs)) mid := by
  rw [evalAll]
  exact bind_ok first

theorem evalAll_cons_error {a : Expr} (failed : a.eval call scope m = .error e mid)
    (es : List Expr) : evalAll call scope (a :: es) m = .error e mid := by
  rw [evalAll]
  exact bind_error failed

/-- Arguments fail as the first of them that fails, and those after it are not evaluated. -/
theorem evalAll_append_error {before after : List Expr} {a : Expr} {vs : List Value}
    (passed : evalAll call scope before m = .ok vs mid)
    (failed : a.eval call scope mid = .error e m') :
    evalAll call scope (before ++ a :: after) m = .error e m' := by
  induction before generalizing m vs with
  | nil =>
      cases passed
      exact evalAll_cons_error failed after
  | cons b before ih =>
      obtain ⟨v, next, first, others⟩ := of_bind passed
      obtain ⟨ws, _, rest, done⟩ := of_bind others
      cases done
      rw [List.cons_append, evalAll_cons_ok first]
      exact bind_error (ih rest)

/-- If arguments fail, then one of them does, and all before it have values. -/
theorem exists_of_evalAll_error {es : List Expr}
    (failed : evalAll call scope es m = .error e m') :
    ∃ before a after vs mid, es = before ++ a :: after ∧
      evalAll call scope before m = .ok vs mid ∧ a.eval call scope mid = .error e m' := by
  induction es generalizing m with
  | nil => cases failed
  | cons a es ih =>
      cases first : a.eval call scope m with
      | error e' mid =>
          rw [evalAll_cons_error first] at failed
          cases failed
          exact ⟨[], a, es, [], m, rfl, rfl, first⟩
      | ok v next =>
          rw [evalAll_cons_ok first] at failed
          cases rest : evalAll call scope es next with
          | ok vs mid =>
              rw [bind_ok rest] at failed
              cases failed
          | error e' mid =>
              rw [bind_error rest] at failed
              cases failed
              obtain ⟨before, b, after, vs, mid, rfl, passed, stopped⟩ := ih rest
              refine ⟨a :: before, b, after, v :: vs, mid, rfl, ?_, stopped⟩
              rw [evalAll_cons_ok first, bind_ok passed]
              rfl

/-- A call goes from its callee to its arguments, and from these to the call itself. -/
theorem eval_call {callee : Expr} {v : Value} (evaluated : callee.eval call scope m = .ok v mid)
    (args : List Expr) : (Expr.call callee args).eval call scope m
      = (evalAll call scope args >>= fun vs => call v vs) mid := by
  rw [eval]
  exact bind_ok evaluated

end Expr

/-- A value that is no function is refused, whatever the arguments. -/
theorem callLeft_of_ne_function {v : Value} (other : ∀ f, v ≠ .function f) (limit left : Nat)
    (args : List Value) (m : Machine) :
    callLeft limit left v args m = .error (.notCallable v.kind) m := by
  cases v with
  | function f => exact absurd rfl (other f)
  | _ => cases left <;> rfl

/-- What becomes of a call of a value that is no function. If all arguments have values, the call is
refused on the machine that the last of them has left; otherwise it fails as the first argument that
fails. So it is refused on the machine that the callee has left if and only if the arguments leave
no trace on it: they have values or are refused by the same error, and the machine stays as it
is. -/
theorem refused_after_arguments (limit left : Nat) (scope : Scope) (callee : Expr)
    (args : List Expr) (m m₁ : Machine) (v : Value)
    (evaluated : callee.eval (callLeft limit left) scope m = .ok v m₁)
    (other : ∀ f, v ≠ .function f) :
    let ending := (Expr.call callee args).eval (callLeft limit left) scope m
    let passing (args : List Expr) := Expr.evalAll (callLeft limit left) scope args m₁
    (∀ vs m₂, passing args = .ok vs m₂ → ending = .error (.notCallable v.kind) m₂) ∧
    (∀ before a after vs m₂ e m₃, args = before ++ a :: after → passing before = .ok vs m₂ →
      a.eval (callLeft limit left) scope m₂ = .error e m₃ → ending = .error e m₃) ∧
    (ending = .error (.notCallable v.kind) m₁ ↔
      (∃ vs, passing args = .ok vs m₁) ∨
      ∃ before a after vs m₂, args = before ++ a :: after ∧ passing before = .ok vs m₂ ∧
        a.eval (callLeft limit left) scope m₂ = .error (.notCallable v.kind) m₁) := by
  intro ending passing
  have sequence : ending = _ := Expr.eval_call evaluated args
  have refused : ∀ {vs m₂}, passing args = .ok vs m₂ →
      ending = .error (.notCallable v.kind) m₂ := by
    intro vs m₂ passed
    rw [sequence, bind_ok passed, callLeft_of_ne_function other]
  have failed : ∀ {e m₂}, passing args = .error e m₂ → ending = .error e m₂ := by
    intro e m₂ stopped
    rw [sequence, bind_error stopped]
  refine ⟨fun _ _ => refused, ?_, ?_, ?_⟩
  · rintro before a after vs m₂ e m₃ rfl passed stopped
    exact failed (Expr.evalAll_append_error passed stopped)
  · intro same
    cases result : passing args with
    | ok vs m₂ =>
        rw [refused result] at same
        cases same
        exact .inl ⟨vs, rfl⟩
    | error e m₂ =>
        rw [failed result] at same
        cases same
        exact .inr (Expr.exists_of_evalAll_error result)
  · rintro (⟨vs, passed⟩ | ⟨before, a, after, vs, m₂, rfl, passed, stopped⟩)
    · exact refused passed
    · exact failed (Expr.evalAll_append_error passed stopped)

theorem unknownArgument_reported :
    (Expr.literal (.int 1)).eval (callLeft 1 1) 0 {} = .ok (.int 1) {} ∧
      (∀ f, Value.int 1 ≠ .function f) ∧
      (Expr.call (.literal (.int 1)) [.name "x"]).eval (callLeft 1 1) 0 {}
        = .error (.unknownIdentifier "x") {} := by
  have other : ∀ f, Value.int 1 ≠ .function f := by
    intro f same
    cases same
  have failing := (refused_after_arguments 1 1 0 (.literal (.int 1)) [.name "x"] {} {} (.int 1) rfl
    other).2.1
  exact ⟨rfl, other, failing [] (.name "x") [] [] {} _ {} rfl rfl rfl⟩

/-- The call `1(print(2))`. -/
def refusedCall : Expr := .call (.literal (.int 1)) [.call (.name "print") [.literal (.int 2)]]

/-- It is refused, but `print` has been called before. -/
theorem refusedCall_printed :
    let m := (Machine.programScope {}).2
    let ending := refusedCall.eval (callLeft 256 256) (Machine.programScope {}).1 m
    (Expr.literal (.int 1)).eval (callLeft 256 256) (Machine.programScope {}).1 m
        = .ok (.int 1) m ∧
      ending ≠ .error (.notCallable .int) m ∧
      ∃ m', ending = .error (.notCallable .int) m' ∧ m.output = "" ∧ m'.output = "2" := by
  intro m ending
  have refused : ending = .error (.notCallable .int)
      ((refusedCall.eval (callLeft 256 256) (Machine.programScope {}).1).after m) := by
    with_unfolding_all rfl
  have printed : ((refusedCall.eval (callLeft 256 256) (Machine.programScope {}).1).after m).output
      = "2" := by
    with_unfolding_all rfl
  refine ⟨rfl, fun same => ?_, _, refused, by with_unfolding_all rfl, printed⟩
  injection refused.symm.trans same with _ unchanged
  rw [unchanged] at printed
  exact absurd printed (by decide)

end Bramble
