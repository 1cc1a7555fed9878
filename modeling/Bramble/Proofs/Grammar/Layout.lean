import Bramble.Proofs.Grammar.Range
import Bramble.Proofs.Grammar.RenderedTokens

/-!
# Places do not count

Two lists of tokens that differ in their places only are read in step. At each index both runs see
tokens of the same kind and the same lexeme, so they go on to the same index and make the same tree.
Where one fails, the other one fails with the same error (`Program.ofTokens_inStep`). A place is
then taken from the token at one and the same index: the current token, one that was taken before,
or the opening delimiter that was remembered.
-/

set_option autoImplicit false

namespace Bramble

/-! ## Tokens that stand for each other -/

namespace Token

variable {ts us : List Token} {t u : Token}

/-- The tokens at one index of two lists. -/
def Opposite (ts us : List Token) (t u : Token) : Prop :=
  ∃ k : Nat, ts[k]? = some t ∧ us[k]? = some u

theorem Opposite.cons (opposite : Opposite ts us t u) (t' u' : Token) :
    Opposite (t' :: ts) (u' :: us) t u := by
  obtain ⟨k, left, right⟩ := opposite
  exact ⟨k + 1, left, right⟩

theorem AlikeAll.alike (alike : AlikeAll ts us) (opposite : Opposite ts us t u) : t.Alike u := by
  obtain ⟨k, left, right⟩ := opposite
  induction alike generalizing k with
  | nil => cases left
  | cons first _ ih =>
      cases k with
      | zero =>
          cases left
          cases right
          exact first
      | succ k => exact ih k left right

theorem AlikeAll.closed (alike : AlikeAll ts us) : AlikeAll (closed ts) (closed us) := by
  rcases List.eq_nil_or_concat ts with rfl | ⟨front, t, rfl⟩
  · cases alike
    exact .cons ⟨rfl, rfl⟩ .nil
  · rw [List.concat_eq_append] at alike ⊢
    obtain ⟨front', back, rfl, fronts, backs⟩ := alike.split
    rcases backs with _ | ⟨last, _ | _⟩
    rw [closed_concat, closed_concat, last.kind]
    split
    · exact alike
    · exact List.rel_append alike (.cons ⟨rfl, rfl⟩ .nil)

theorem AlikeAll.ended (alike : AlikeAll ts us) (ended : Ended ts) : Ended us := by
  rcases List.eq_nil_or_concat ts with rfl | ⟨front, t, rfl⟩
  · cases alike
    exact ended
  · rw [List.concat_eq_append] at alike ended
    obtain ⟨front', back, rfl, fronts, backs⟩ := alike.split
    rcases backs with _ | ⟨last, _ | _⟩
    intro u found
    rw [List.getLast?_concat] at found
    cases found
    exact last.kind.trans (ended t List.getLast?_concat)

/-- As many tokens are ahead in the one list as in the other. -/
theorem AlikeAll.length_ahead (alike : AlikeAll ts us) (i : Nat) :
    (Cursor.at us i).ahead.length = (Cursor.at ts i).ahead.length := by
  have same : ∀ {ts us : List Token}, AlikeAll ts us →
      (us.takeWhile (fun t => t.kind ≠ .eof)).length
        = (ts.takeWhile (fun t => t.kind ≠ .eof)).length := by
    intro ts us alike
    induction alike with
    | nil => rfl
    | cons first _ ih =>
        rw [List.takeWhile_cons, List.takeWhile_cons, first.kind]
        split
        · exact congrArg (· + 1) ih
        · rfl
  exact same (List.forall₂_drop i alike)

end Token

/-! ## Runs in step -/

/-- The same error at two places: each at the token of its own list at one index. -/
def ParseError.Opposite (ts us : List Token) (e e' : ParseError) : Prop :=
  ∃ t u, Token.Opposite ts us t u ∧ e.span = t.span ∧ e' = e.relocate u.span

namespace Parse

variable {α β γ δ : Type} {ts us : List Token}

/-- Two endings at one index of two lists, with results that go together or with the same error. -/
inductive EndsInStep (ts us : List Token) (results : α → β → Prop) :
    EStateM.Result ParseError Cursor α → EStateM.Result ParseError Cursor β → Prop where
  | ok {a : α} {b : β} {i : Nat} (result : results a b) (inside : i < ts.length) :
      EndsInStep ts us results (.ok a (.at ts i)) (.ok b (.at us i))
  | error {e e' : ParseError} {i : Nat} (opposite : e.Opposite ts us e')
      (inside : i < ts.length) :
      EndsInStep ts us results (.error e (.at ts i)) (.error e' (.at us i))

/-- Two parsers that end in step wherever they begin in step. -/
def InStep (ts us : List Token) (results : α → β → Prop) (p : Parse α) (p' : Parse β) : Prop :=
  ∀ i, i < ts.length → EndsInStep ts us results (p (.at ts i)) (p' (.at us i))

theorem EndsInStep.bind {results : α → β → Prop} {more : γ → δ → Prop} {p : Parse α} {p' : Parse β}
    {f : α → Parse γ} {f' : β → Parse δ} {i : Nat}
    (first : EndsInStep ts us results (p (.at ts i)) (p' (.at us i)))
    (second : ∀ a b, results a b → InStep ts us more (f a) (f' b)) :
    EndsInStep ts us more ((p >>= f) (.at ts i)) ((p' >>= f') (.at us i)) := by
  generalize ending : p (.at ts i) = x at first
  generalize ending' : p' (.at us i) = x' at first
  cases first with
  | ok result inside =>
      rw [bind_ok ending, bind_ok ending']
      exact second _ _ result _ inside
  | error opposite inside =>
      rw [bind_error ending, bind_error ending']
      exact .error opposite inside

section Alike

variable (alike : Token.AlikeAll ts us)

include alike

theorem inStep_iterate {σ τ : Type} {states : σ → τ → Prop} {step : σ → Parse (Option σ)}
    {step' : τ → Parse (Option τ)}
    (steps : ∀ s s', states s s' → InStep ts us (Option.Rel states) (step s) (step' s'))
    {s : σ} {s' : τ} (state : states s s') :
    InStep ts us states (iterate step s) (iterate step' s') := by
  intro i inside
  induction length : (Cursor.at ts i).ahead.length using Nat.strongRecOn
    generalizing i s s' with
  | _ n ih =>
      rw [iterate_eq step s, iterate_eq step' s', alike.length_ahead i, length]
      refine (steps s s' state i inside).bind fun next next' same j inside => ?_
      cases same with
      | none => exact .ok state inside
      | some state' =>
          simp only [afterRound, ifShorter, alike.length_ahead j]
          split
          · next shorter => exact ih _ shorter state' j inside rfl
          · exact .ok state' inside

variable (ended : Token.Ended ts) {i : Nat} (inside : i < ts.length)

include ended inside

/-- At one index either both runs are at the end of the input, or both see the tokens there. -/
theorem inStep_cases :
    ∃ t u, Token.Opposite ts us t u ∧
      ((Cursor.at ts i = ⟨[], t.span⟩ ∧ Cursor.at us i = ⟨[], u.span⟩) ∨
        (i + 1 < ts.length ∧ Cursor.at ts i = (Cursor.at ts (i + 1)).push [t] ∧
          Cursor.at us i = (Cursor.at us (i + 1)).push [u])) := by
  have inside' : i < us.length := alike.length_eq ▸ inside
  have opposite : Token.Opposite ts us ts[i] us[i] :=
    ⟨i, List.getElem?_eq_getElem inside, List.getElem?_eq_getElem inside'⟩
  have kind := (alike.alike opposite).kind
  refine ⟨ts[i], us[i], opposite, ?_⟩
  by_cases eof : ts[i].kind = .eof
  · exact .inl ⟨Cursor.at_eof inside eof, Cursor.at_eof inside' (kind.trans eof)⟩
  · obtain ⟨more, next⟩ := Cursor.at_other ended inside eof
    obtain ⟨_, next'⟩ := Cursor.at_other (alike.ended ended) inside' (kind ▸ eof)
    exact .inr ⟨more, next, next'⟩

theorem endsInStep_peek? :
    EndsInStep ts us (Option.Rel (Token.Opposite ts us)) (peek? (.at ts i)) (peek? (.at us i)) := by
  have same : Option.Rel (Token.Opposite ts us) (Cursor.at ts i).ahead.head?
      (Cursor.at us i).ahead.head? := by
    obtain ⟨t, u, opposite, ⟨left, right⟩ | ⟨_, left, right⟩⟩ := inStep_cases alike ended inside
    · rw [left, right]
      exact .none
    · rw [left, right]
      exact .some opposite
  exact .ok same inside

theorem endsInStep_take? {γ : Type} (find : Token.Kind → Option γ) :
    EndsInStep ts us (Option.Rel fun x x' => Token.Opposite ts us x.1 x'.1 ∧ x.2 = x'.2)
      (take? find (.at ts i)) (take? find (.at us i)) := by
  obtain ⟨t, u, opposite, ⟨left, right⟩ | ⟨more, left, right⟩⟩ := inStep_cases alike ended inside
  · have still : take? find (.at ts i) = .ok none (.at ts i) := by rw [left]; rfl
    have still' : take? find (.at us i) = .ok none (.at us i) := by rw [right]; rfl
    rw [still, still']
    exact .ok .none inside
  · have kind := (alike.alike opposite).kind
    cases found : find t.kind with
    | none =>
        have still : take? find (.at ts i) = .ok none (.at ts i) := by
          rw [left]
          exact take?_of_none found
        have still' : take? find (.at us i) = .ok none (.at us i) := by
          rw [right]
          exact take?_of_none ((congrArg find kind).trans found)
        rw [still, still']
        exact .ok .none inside
    | some x =>
        have taken : take? find (.at ts i) = .ok (some (t, x)) (.at ts (i + 1)) := by
          rw [left]
          exact take?_of_some found
        have taken' : take? find (.at us i) = .ok (some (u, x)) (.at us (i + 1)) := by
          rw [right]
          exact take?_of_some ((congrArg find kind).trans found)
        rw [taken, taken']
        exact .ok (.some ⟨opposite, rfl⟩) more

theorem endsInStep_unexpected {results : α → β → Prop} (expected : Expectation) :
    EndsInStep ts us results (unexpected expected (.at ts i)) (unexpected expected (.at us i)) := by
  obtain ⟨t, u, opposite, ⟨left, right⟩ | ⟨_, left, right⟩⟩ := inStep_cases alike ended inside
  · have fails : (unexpected expected : Parse α) (.at ts i)
        = .error (.unexpectedEnd expected t.span) (.at ts i) := by rw [left]; rfl
    have fails' : (unexpected expected : Parse β) (.at us i)
        = .error (.unexpectedEnd expected u.span) (.at us i) := by rw [right]; rfl
    rw [fails, fails']
    exact .error ⟨t, u, opposite, rfl, rfl⟩ inside
  · have fails : (unexpected expected : Parse α) (.at ts i)
        = .error (.unexpectedToken t.lexeme expected t.span) (.at ts i) := by rw [left]; rfl
    have fails' : (unexpected expected : Parse β) (.at us i)
        = .error (.unexpectedToken t.lexeme expected u.span) (.at us i) := by
      rw [right, ← (alike.alike opposite).lexeme]
      rfl
    rw [fails, fails']
    exact .error ⟨t, u, opposite, rfl, rfl⟩ inside

theorem endsInStep_tooDeep {results : α → β → Prop} :
    EndsInStep ts us results (tooDeep (.at ts i)) (tooDeep (.at us i)) := by
  obtain ⟨t, u, opposite, places⟩ := inStep_cases alike ended inside
  have spans : (Cursor.at ts i).span = t.span ∧ (Cursor.at us i).span = u.span := by
    obtain ⟨left, right⟩ | ⟨_, left, right⟩ := places
    · rw [left, right]
      exact ⟨rfl, rfl⟩
    · rw [left, right]
      exact ⟨rfl, rfl⟩
  have fails : (tooDeep : Parse α) (.at ts i) = .error (.nestingTooDeep t.span) (.at ts i) := by
    rw [← spans.1]
    rfl
  have fails' : (tooDeep : Parse β) (.at us i) = .error (.nestingTooDeep u.span) (.at us i) := by
    rw [← spans.2]
    rfl
  rw [fails, fails']
  exact .error ⟨t, u, opposite, rfl, rfl⟩ inside

end Alike

/-- The congruence of runs in step on two lists that differ in places only. -/
def keepingStep (alike : Token.AlikeAll ts us) (ended : Token.Ended ts) : Congruence where
  tokens := Token.Opposite ts us
  related := fun _ => InStep ts us
  tokens_kind := fun opposite => (alike.alike opposite).kind
  tokens_lexeme := fun opposite => (alike.alike opposite).lexeme
  related_mono := fun inStep _ => inStep
  related_pure := fun result _ _ inside => .ok result inside
  related_bind := fun first second i inside => (first i inside).bind second
  related_peek? := fun _ inside => endsInStep_peek? alike ended inside
  related_take? := fun find _ inside => endsInStep_take? alike ended inside find
  related_fail := by
    intro α β takes results t u error opposite moves i inside
    have place : (error t.span).span = t.span := by rw [← moves t.span, ParseError.span_relocate]
    exact .error ⟨t, u, opposite, place, (moves t.span u.span).symm⟩ inside
  related_unexpected := fun expected _ inside => endsInStep_unexpected alike ended inside expected
  related_tooDeep := fun _ inside => endsInStep_tooDeep alike ended inside
  related_iterate := fun steps _ _ state => inStep_iterate alike steps state

end Parse

/-! ## Programs -/

/-- Tokens that differ in their places only are read as the same program, or reading them fails
with the same error at the tokens of one index. -/
theorem Program.ofTokens_inStep {ts us : List Token} (alike : Token.AlikeAll ts us) :
    (∃ p, Program.ofTokens ts = .ok p ∧ Program.ofTokens us = .ok p) ∨
      ∃ e e', Program.ofTokens ts = .error e ∧ Program.ofTokens us = .error e' ∧
        e.Opposite (Token.closed ts) (Token.closed us) e' := by
  have related := (Parse.keepingStep alike.closed (Token.ended_closed ts)).related_program
    maxNesting 0 (Token.closed_pos ts)
  have start (ts : List Token) : Cursor.at (Token.closed ts) 0 = .ofTokens ts :=
    Cursor.ofTokens_closed ts
  rw [start, start] at related
  unfold Program.ofTokens
  generalize Parse.program maxNesting (.ofTokens ts) = x at related
  generalize Parse.program maxNesting (.ofTokens us) = x' at related
  cases related with
  | ok same inside => exact .inl ⟨_, rfl, congrArg Except.ok same.symm⟩
  | error opposite inside => exact .inr ⟨_, _, rfl, rfl, opposite⟩

end Bramble
