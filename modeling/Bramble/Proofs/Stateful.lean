/-!
# Computations that change a state and may fail

Parsers change a cursor and evaluation changes a machine. Both may fail, and the state is kept in an
error as well as in a result. A sequence of two such computations is opened by the ending of the
first one (`bind_ok`, `bind_error`), and a result of the sequence is traced back to results of the
two (`of_bind`).
-/

set_option autoImplicit false

namespace Bramble

variable {ε σ α β : Type} {p : EStateM ε σ α} {f : α → EStateM ε σ β} {s s' : σ}

theorem bind_ok {a : α} (ok : p s = .ok a s') : (p >>= f) s = f a s' := by
  show EStateM.bind p f s = _
  rw [EStateM.bind, ok]

theorem bind_error {e : ε} (error : p s = .error e s') : (p >>= f) s = .error e s' := by
  show EStateM.bind p f s = _
  rw [EStateM.bind, error]

/-- A sequence of two computations succeeds only if both do. -/
theorem of_bind {b : β} (ok : (p >>= f) s = .ok b s') :
    ∃ a mid, p s = .ok a mid ∧ f a mid = .ok b s' := by
  cases first : p s with
  | ok a mid => exact ⟨a, mid, rfl, by rwa [bind_ok first] at ok⟩
  | error e mid =>
      rw [bind_error first] at ok
      cases ok

end Bramble
