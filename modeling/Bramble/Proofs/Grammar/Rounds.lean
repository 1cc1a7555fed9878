import Bramble.Grammar.Cursor
import Bramble.Proofs.Stateful

/-!
# Repetition round by round

A repetition is its first round and, if that round has a result and takes a token, a repetition
from there on (`iterate_eq`). To collect results is to repeat rounds that add to what there is so
far. Seen from the first round, the results of the others come behind its own (`collect_some`).
-/

set_option autoImplicit false

namespace Bramble
namespace Parse

open Grammar

variable {α : Type}

/-- The first of two parsers where fewer than `n` tokens are ahead, and else the second. -/
def ifShorter (n : Nat) (p q : Parse α) : Parse α := fun c =>
  if c.ahead.length < n then p c else q c

/-- What follows a round that began with `n` tokens ahead: the rounds after it, if it has a result
and is not the last. -/
def afterRound {σ : Type} (step : σ → Parse (Option σ)) (n : Nat) (s : σ) : Option σ → Parse σ
  | none => pure s
  | some s' => ifShorter n (iterate step s') (pure s')

theorem iterate_eq {σ : Type} (step : σ → Parse (Option σ)) (s : σ) (c : Cursor) :
    iterate step s c = (step s >>= afterRound step c.ahead.length s) c := by
  rw [iterate]
  cases ending : step s c with
  | error e rest => rw [bind_error ending]
  | ok next rest =>
      rw [bind_ok ending]
      cases next <;> rfl

/-! ## Collecting -/

section Collect

variable {step : Parse (Option α)} {c rest : Cursor}

theorem addRound_ok {next : Option α} (round : step c = .ok next rest) (found : List α) :
    addRound step found c = .ok (next.map (· :: found)) rest :=
  bind_ok round

theorem of_addRound_none {found : List α} (ended : addRound step found c = .ok none rest) :
    step c = .ok none rest := by
  obtain ⟨next, mid, round, done⟩ := of_bind ended
  cases next with
  | none =>
      cases done
      exact round
  | some a => cases done

theorem of_addRound_some {found found' : List α}
    (added : addRound step found c = .ok (some found') rest) :
    ∃ a, step c = .ok (some a) rest ∧ found' = a :: found := by
  obtain ⟨next, mid, round, done⟩ := of_bind added
  cases next with
  | none => cases done
  | some a =>
      cases done
      exact ⟨a, round, rfl⟩

/-- The first round of a repetition that adds to what is found so far. -/
theorem iterate_addRound_some {a : α} (round : step c = .ok (some a) rest)
    (shorter : rest.ahead.length < c.ahead.length) (found : List α) :
    iterate (addRound step) found c = iterate (addRound step) (a :: found) rest := by
  rw [iterate, addRound_ok round]
  exact if_pos shorter

/-- What was found before stays behind what is found. -/
theorem iterate_addRound (step : Parse (Option α)) (found : List α) (c : Cursor) :
    iterate (addRound step) found c
      = (iterate (addRound step) [] >>= fun more => pure (more ++ found)) c := by
  induction length : c.ahead.length using Nat.strongRecOn generalizing found c with
  | _ n ih =>
      cases ending : step c with
      | error e rest =>
          have stopped (found : List α) : iterate (addRound step) found c = .error e rest := by
            rw [iterate, show addRound step found c = .error e rest from bind_error ending]
          rw [stopped, bind_error (stopped [])]
      | ok next rest =>
          cases next with
          | none =>
              have last (found : List α) : iterate (addRound step) found c = .ok found rest := by
                rw [iterate, addRound_ok ending]
                rfl
              rw [last, bind_ok (last [])]
              rfl
          | some a =>
              by_cases shorter : rest.ahead.length < c.ahead.length
              · have onward (found : List α) :=
                  (iterate_addRound_some ending shorter found).trans
                    (ih _ (length ▸ shorter) (a :: found) rest rfl)
                rw [onward]
                cases others : iterate (addRound step) [] rest with
                | error e last =>
                    have stopped := onward []
                    rw [bind_error others] at stopped
                    rw [bind_error others, bind_error stopped]
                | ok more last =>
                    have all := onward []
                    rw [bind_ok others] at all
                    rw [bind_ok others, bind_ok all]
                    simp only [List.append_assoc, List.singleton_append]
              · have only (found : List α) :
                    iterate (addRound step) found c = .ok (a :: found) rest := by
                  rw [iterate, addRound_ok ending]
                  exact if_neg shorter
                rw [only, bind_ok (only [])]
                rfl

theorem collect_error {e : ParseError} (failed : step c = .error e rest) :
    collect step c = .error e rest := by
  have stopped : iterate (addRound step) [] c = .error e rest := by
    rw [iterate, show addRound step [] c = .error e rest from bind_error failed]
  exact bind_error stopped

theorem collect_none (last : step c = .ok none rest) : collect step c = .ok [] rest := by
  have ended : iterate (addRound step) [] c = .ok [] rest := by
    rw [iterate, addRound_ok last]
    rfl
  exact bind_ok ended

theorem collect_some {a : α} (round : step c = .ok (some a) rest)
    (shorter : rest.ahead.length < c.ahead.length) :
    collect step c = (collect step >>= fun as => pure (a :: as)) rest := by
  have onward := (iterate_addRound_some round shorter []).trans (iterate_addRound step [a] rest)
  cases others : iterate (addRound step) [] rest with
  | error e last =>
      rw [bind_error others] at onward
      have stopped : collect step rest = .error e last := bind_error others
      rw [bind_error stopped]
      exact bind_error onward
  | ok more last =>
      rw [bind_ok others] at onward
      have found : collect step rest = .ok more.reverse last := bind_ok others
      have all : collect step c = .ok (more ++ [a]).reverse last := bind_ok onward
      rw [bind_ok found, all, List.reverse_append]
      rfl

end Collect

end Parse
end Bramble
