import Bramble.Eval.Tree
import Bramble.Proofs.Stateful

/-!
# Statements in sequence

Of a list of statements, each is run where the one before it was completed. A statement that returns
or fails ends the list, and what it ends with is what the list ends with. Therefore a list that is
put together from two lists runs the second one if and only if the first one was completed
(`runAll_append_next`, `runAll_append_stopped`).
-/

set_option autoImplicit false

namespace Bramble

/-- The program does not go on: it has returned from a function, or it has failed. -/
def Stopped (ending : EStateM.Result EvalError Machine Flow) : Prop :=
  ∀ v m, ending ≠ .ok (.next v) m

theorem next_or_stopped (ending : EStateM.Result EvalError Machine Flow) :
    (∃ v m, ending = .ok (.next v) m) ∨ Stopped ending := by
  cases ending with
  | ok flow m =>
      cases flow with
      | next v => exact .inl ⟨v, m, rfl⟩
      | returned v =>
          refine .inr fun w m' same => ?_
          cases same
  | error e m =>
      refine .inr fun w m' same => ?_
      cases same

namespace Stmt

variable {call : Call} {scope : Scope} {s : Stmt} {ss ts : List Stmt} {last v : Value}
  {m m' : Machine}

theorem runAll_cons_next (next : s.run call scope m = .ok (.next v) m') (last : Value)
    (ss : List Stmt) : runAll call scope last (s :: ss) m = runAll call scope v ss m' := by
  rw [runAll]
  exact bind_ok next

theorem runAll_cons_stopped (stopped : Stopped (s.run call scope m)) (last : Value)
    (ss : List Stmt) : runAll call scope last (s :: ss) m = s.run call scope m := by
  rw [runAll]
  cases ending : s.run call scope m with
  | ok flow m' =>
      rw [bind_ok ending]
      cases flow with
      | next v => exact absurd ending (stopped v m')
      | returned v => rfl
  | error e m' => exact bind_error ending

theorem runAll_append_next (next : runAll call scope last ss m = .ok (.next v) m')
    (ts : List Stmt) : runAll call scope last (ss ++ ts) m = runAll call scope v ts m' := by
  induction ss generalizing last m with
  | nil =>
      cases next
      rfl
  | cons s ss ih =>
      rcases next_or_stopped (s.run call scope m) with ⟨w, mid, first⟩ | stopped
      · rw [runAll_cons_next first] at next
        rw [List.cons_append, runAll_cons_next first]
        exact ih next
      · rw [runAll_cons_stopped stopped] at next
        exact absurd next (stopped v m')

/-- Statements that stop have stopped at one of them, and all before it were completed. -/
theorem exists_of_stopped (stopped : Stopped (runAll call scope last ss m)) :
    ∃ done s rest v mid, ss = done ++ s :: rest ∧
      runAll call scope last done m = .ok (.next v) mid ∧ Stopped (s.run call scope mid) ∧
      runAll call scope last ss m = s.run call scope mid := by
  induction ss generalizing last m with
  | nil => exact absurd rfl (stopped last m)
  | cons s ss ih =>
      rcases next_or_stopped (s.run call scope m) with ⟨w, mid, first⟩ | here
      · rw [runAll_cons_next first] at stopped ⊢
        obtain ⟨done, s', rest, v, mid', rfl, completed, there, same⟩ := ih stopped
        refine ⟨s :: done, s', rest, v, mid', rfl, ?_, there, same⟩
        rw [runAll_cons_next first]
        exact completed
      · exact ⟨[], s, ss, last, m, rfl, rfl, here, runAll_cons_stopped here last ss⟩

theorem runAll_append_stopped (stopped : Stopped (runAll call scope last ss m))
    (ts : List Stmt) :
    runAll call scope last (ss ++ ts) m = runAll call scope last ss m := by
  obtain ⟨done, s, rest, v, mid, rfl, completed, here, same⟩ := exists_of_stopped stopped
  rw [same, List.append_assoc, runAll_append_next completed, List.cons_append,
    runAll_cons_stopped here]

end Stmt
end Bramble
