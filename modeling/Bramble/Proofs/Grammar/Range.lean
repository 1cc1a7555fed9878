import Bramble.Proofs.Grammar.Advance
import Bramble.Proofs.Grammar.Congruence

/-!
# Parsers stay within their tokens

A list of tokens that ends with the end of the input can be read without ever leaving it. A parser
that begins at an index of the list ends at an index of the list, whether it succeeds or not, and it
does not go back. It sees nothing but tokens of the list on the way, so that an error is always
reported at one of them (`contained`).
-/

set_option autoImplicit false

namespace Bramble

/-- The last of the tokens is the end of the input. -/
def Token.Ended (tokens : List Token) : Prop := ∀ t, tokens.getLast? = some t → t.kind = .eof

/-- The tokens with an end of the input behind them, unless they end with one. -/
def Token.closed (tokens : List Token) : List Token :=
  match tokens.getLast? with
  | some t => if t.kind = .eof then tokens else tokens ++ [endAt t.span.stop]
  | none => [endAt 0]

theorem Token.closed_concat (tokens : List Token) (t : Token) :
    closed (tokens ++ [t])
      = if t.kind = .eof then tokens ++ [t] else tokens ++ [t] ++ [endAt t.span.stop] := by
  simp [closed]

/-- Closing adds tokens behind the others only. -/
theorem Token.exists_closed (tokens : List Token) : ∃ more, closed tokens = tokens ++ more := by
  unfold closed
  split
  · split
    · exact ⟨[], (List.append_nil _).symm⟩
    · exact ⟨_, rfl⟩
  · next none =>
      rw [List.getLast?_eq_none_iff.mp none]
      exact ⟨_, rfl⟩

/-- Closed tokens end with the end of the input, and there is at least that one. -/
theorem Token.closed_eq (tokens : List Token) :
    ∃ front last, last.kind = .eof ∧ closed tokens = front ++ [last] := by
  rcases List.eq_nil_or_concat tokens with rfl | ⟨front, t, rfl⟩
  · exact ⟨[], endAt 0, rfl, rfl⟩
  · rw [List.concat_eq_append, closed_concat]
    by_cases eof : t.kind = .eof
    · exact ⟨front, t, eof, if_pos eof⟩
    · exact ⟨front ++ [t], endAt t.span.stop, rfl, if_neg eof⟩

theorem Token.ended_closed (tokens : List Token) : Ended (closed tokens) := by
  obtain ⟨front, last, eof, whole⟩ := closed_eq tokens
  rw [whole]
  intro t found
  rw [List.getLast?_concat] at found
  cases found
  exact eof

theorem Token.closed_pos (tokens : List Token) : 0 < (closed tokens).length := by
  obtain ⟨front, last, _, whole⟩ := closed_eq tokens
  rw [whole, List.length_append]
  exact Nat.succ_pos _

/-- The cursor at an index of a list of tokens. -/
def Cursor.at (tokens : List Token) (index : Nat) : Cursor := .ofTokens (tokens.drop index)

/-- The cursor is at an index of the list, and not before the given one. -/
def Cursor.From (tokens : List Token) (index : Nat) (c : Cursor) : Prop :=
  ∃ last, index ≤ last ∧ last < tokens.length ∧ c = .at tokens last

namespace Cursor

variable {tokens : List Token} {index : Nat}

theorem From.refl (inside : index < tokens.length) : (Cursor.at tokens index).From tokens index :=
  ⟨index, Nat.le_refl index, inside, rfl⟩

theorem From.trans {middle : Nat} {c : Cursor} (later : c.From tokens middle)
    (le : index ≤ middle) : c.From tokens index := by
  obtain ⟨last, le', inside, rfl⟩ := later
  exact ⟨last, Nat.le_trans le le', inside, rfl⟩

theorem ofTokens_eof {t : Token} (eof : t.kind = .eof) (rest : List Token) :
    ofTokens (t :: rest) = ⟨[], t.span⟩ := by
  simp [ofTokens, eof]

theorem ofTokens_cons {t : Token} (other : t.kind ≠ .eof) {rest : List Token}
    (ends : ∃ e ∈ rest, e.kind = .eof) : ofTokens (t :: rest) = (ofTokens rest).push [t] := by
  obtain ⟨e, member, eof⟩ := ends
  obtain ⟨s, found⟩ : ∃ s, rest.find? (fun t => t.kind = .eof) = some s := by
    rw [← Option.isSome_iff_exists, List.find?_isSome]
    exact ⟨e, member, decide_eq_true eof⟩
  simp [ofTokens, push, other, found]

/-- Nothing behind the end of the input counts. -/
theorem ofTokens_append_of_eof {tokens : List Token} (ends : ∃ e ∈ tokens, e.kind = .eof)
    (more : List Token) : ofTokens (tokens ++ more) = ofTokens tokens := by
  induction tokens with
  | nil =>
      obtain ⟨e, never, _⟩ := ends
      cases never
  | cons t rest ih =>
      by_cases eof : t.kind = .eof
      · rw [List.cons_append, ofTokens_eof eof, ofTokens_eof eof]
      · have later : ∃ e ∈ rest, e.kind = .eof := by simpa [eof] using ends
        have after : ∃ e ∈ rest ++ more, e.kind = .eof :=
          later.imp fun _ found => ⟨List.mem_append_left more found.1, found.2⟩
        rw [List.cons_append, ofTokens_cons eof after, ofTokens_cons eof later, ih later]

/-- An end of the input may be put behind tokens where it is taken to be without it. -/
theorem ofTokens_concat {tokens : List Token} {e : Token} (eof : e.kind = .eof)
    (place : e.span = endOf tokens) : ofTokens (tokens ++ [e]) = ofTokens tokens := by
  by_cases ends : ∃ e ∈ tokens, e.kind = .eof
  · exact ofTokens_append_of_eof ends [e]
  · have unended : ∀ t ∈ tokens, t.kind ≠ .eof := fun t member same => ends ⟨t, member, same⟩
    have missing : tokens.find? (fun t => t.kind = .eof) = none := by simpa using unended
    have all (more : List Token) : (tokens ++ more).takeWhile (fun t => t.kind ≠ .eof)
        = tokens ++ more.takeWhile (fun t => t.kind ≠ .eof) :=
      List.takeWhile_append_of_pos (by simpa using unended)
    have whole := all []
    rw [List.append_nil] at whole
    unfold ofTokens
    rw [List.find?_append, missing, all, whole]
    simp [eof, place]

theorem ofTokens_closed (tokens : List Token) :
    ofTokens (Token.closed tokens) = ofTokens tokens := by
  unfold Token.closed
  cases last : tokens.getLast? with
  | none =>
      have none : tokens = [] := List.getLast?_eq_none_iff.mp last
      rw [none]
      rfl
  | some t =>
      simp only
      split
      · rfl
      · exact ofTokens_concat rfl (by simp [endOf, last, Token.endAt])

/-- The cursor at the end of the input. -/
theorem at_eof (inside : index < tokens.length) (eof : tokens[index].kind = .eof) :
    Cursor.at tokens index = ⟨[], tokens[index].span⟩ := by
  rw [Cursor.at, List.drop_eq_getElem_cons inside, ofTokens_eof eof]

/-- At any other index there is a token to take, and the next index is one of the list. -/
theorem at_other (ended : Token.Ended tokens) (inside : index < tokens.length)
    (other : tokens[index].kind ≠ .eof) :
    index + 1 < tokens.length ∧
      Cursor.at tokens index = (Cursor.at tokens (index + 1)).push [tokens[index]] := by
  have more : index + 1 < tokens.length := by
    refine Nat.lt_of_le_of_ne inside fun last => other (ended _ ?_)
    rw [List.getLast?_eq_getElem?, ← last, Nat.add_sub_cancel, List.getElem?_eq_getElem inside]
  refine ⟨more, ?_⟩
  rw [Cursor.at, List.drop_eq_getElem_cons inside, ofTokens_cons other]
  · rfl
  · -- The last token is among the following ones.
    have nonempty : tokens.drop (index + 1) ≠ [] := by
      intro none
      have := List.drop_eq_nil_iff.mp none
      omega
    have last := List.getLast?_eq_some_getLast nonempty
    refine ⟨_, List.getLast_mem nonempty, ended _ ?_⟩
    rwa [List.getLast?_drop, if_neg (Nat.not_le_of_lt more)] at last

/-- The next token is the one at the index, unless that is the end of the input. -/
theorem head?_at (ended : Token.Ended tokens) (inside : index < tokens.length) :
    (Cursor.at tokens index).ahead.head?
      = if tokens[index].kind = .eof then none else some tokens[index] := by
  by_cases eof : tokens[index].kind = .eof
  · rw [at_eof inside eof, if_pos eof]
    rfl
  · rw [(at_other ended inside eof).2, if_neg eof]
    rfl

/-- The place of the cursor is that of the token at the index. -/
theorem span_at (ended : Token.Ended tokens) (inside : index < tokens.length) :
    (Cursor.at tokens index).span = tokens[index].span := by
  by_cases eof : tokens[index].kind = .eof
  · rw [at_eof inside eof]
    rfl
  · rw [(at_other ended inside eof).2]
    rfl

end Cursor

namespace Parse

variable {α β : Type} {tokens : List Token} {index : Nat}

/-- The parser, begun at an index of the list, ends at one, and its result is as it should be. If
it fails, then at the place of one of the tokens. -/
structure Stays (tokens : List Token) (index : Nat) (results : α → Prop) (p : Parse α) : Prop where
  ok : ∀ a c, p (.at tokens index) = .ok a c → results a ∧ c.From tokens index
  error : ∀ e c, p (.at tokens index) = .error e c →
    (∃ t ∈ tokens, e.span = t.span) ∧ c.From tokens index

namespace Stays

variable {results : α → Prop} {p : Parse α}

theorem ofOk {a : α} {c : Cursor} (ok : p (.at tokens index) = .ok a c) (result : results a)
    (later : c.From tokens index) : Stays tokens index results p where
  ok := by
    intro b c' ok'
    rw [ok] at ok'
    cases ok'
    exact ⟨result, later⟩
  error := by
    intro e c' error
    rw [ok] at error
    cases error

theorem ofError {e : ParseError} {t : Token} (inside : index < tokens.length)
    (error : p (.at tokens index) = .error e (.at tokens index)) (member : t ∈ tokens)
    (span : e.span = t.span) : Stays tokens index results p where
  ok := by
    intro a c ok
    rw [error] at ok
    cases ok
  error := by
    intro e' c error'
    rw [error] at error'
    cases error'
    exact ⟨⟨t, member, span⟩, .refl inside⟩

/-- Only what the parser does at the index counts. -/
theorem congr {q : Parse α} (stays : Stays tokens index results q)
    (same : p (.at tokens index) = q (.at tokens index)) : Stays tokens index results p where
  ok := fun a c ok => stays.ok a c (same ▸ ok)
  error := fun e c error => stays.error e c (same ▸ error)

theorem imp {more : α → Prop} (stays : Stays tokens index results p)
    (weaker : ∀ a, results a → more a) : Stays tokens index more p where
  ok := fun a c ok => ⟨weaker a (stays.ok a c ok).1, (stays.ok a c ok).2⟩
  error := stays.error

theorem bind {more : β → Prop} {f : α → Parse β} (first : Stays tokens index results p)
    (second : ∀ a, results a → ∀ next, next < tokens.length → Stays tokens next more (f a)) :
    Stays tokens index more (p >>= f) := by
  cases ending : p (.at tokens index) with
  | error e c =>
      have stopped := bind_error (f := f) ending
      refine ⟨fun b c' ok => ?_, fun e' c' error => ?_⟩
      · rw [stopped] at ok
        cases ok
      · rw [stopped] at error
        cases error
        exact first.error e c ending
  | ok a c =>
      obtain ⟨result, next, le, inside, rfl⟩ := first.ok a c ending
      have stays := second a result next inside
      refine ⟨fun b c' ok => ?_, fun e c' error => ?_⟩
      · rw [bind_ok ending] at ok
        obtain ⟨result, later⟩ := stays.ok b c' ok
        exact ⟨result, later.trans le⟩
      · rw [bind_ok ending] at error
        obtain ⟨place, later⟩ := stays.error e c' error
        exact ⟨place, later.trans le⟩

end Stays

/-! ## Primitive parsers -/

theorem stays_peek? (ended : Token.Ended tokens) (inside : index < tokens.length) :
    Stays tokens index (fun next => ∀ t ∈ next, t ∈ tokens) peek? := by
  refine .ofOk rfl ?_ (.refl inside)
  rw [Cursor.head?_at ended inside]
  intro t next
  split at next
  · cases next
  · cases next
    exact List.getElem_mem inside

/-- The end of the input is not taken, so that the cursor stays in front of it. -/
theorem stays_take? (ended : Token.Ended tokens) (inside : index < tokens.length)
    (find : Token.Kind → Option α) :
    Stays tokens index (fun taken => ∀ x ∈ taken, x.1 ∈ tokens) (take? find) := by
  cases found : (Cursor.at tokens index).nextKind?.bind find with
  | none =>
      refine .ofOk (take?_of_none found) (fun x never => ?_) (.refl inside)
      cases never
  | some x =>
      by_cases eof : tokens[index].kind = .eof
      · rw [Cursor.at_eof inside eof] at found
        cases found
      · obtain ⟨more, next⟩ := Cursor.at_other ended inside eof
        rw [next] at found
        have taken : take? find (.at tokens index)
            = .ok (some (tokens[index], x)) (.at tokens (index + 1)) := by
          rw [next]
          exact take?_of_some found
        refine .ofOk taken (fun y same => ?_) ((Cursor.From.refl more).trans (Nat.le_succ index))
        cases same
        exact List.getElem_mem inside

theorem stays_unexpected (ended : Token.Ended tokens) (inside : index < tokens.length)
    (results : α → Prop) (expected : Expectation) :
    Stays tokens index results (unexpected expected) := by
  have member : tokens[index] ∈ tokens := List.getElem_mem inside
  by_cases eof : tokens[index].kind = .eof
  · refine .ofError inside (e := .unexpectedEnd expected tokens[index].span) ?_ member rfl
    rw [Cursor.at_eof inside eof]
    rfl
  · refine .ofError inside
      (e := .unexpectedToken tokens[index].lexeme expected tokens[index].span) ?_ member rfl
    rw [(Cursor.at_other ended inside eof).2]
    rfl

theorem stays_tooDeep (ended : Token.Ended tokens) (inside : index < tokens.length)
    (results : α → Prop) : Stays tokens index results tooDeep := by
  refine .ofError inside (e := .nestingTooDeep (Cursor.at tokens index).span) rfl
    (List.getElem_mem inside) ?_
  exact Cursor.span_at ended inside

/-! ## Repetition -/

theorem Stays.pure {results : α → Prop} {a : α} (inside : index < tokens.length)
    (result : results a) : Stays tokens index results (pure a) :=
  .ofOk rfl result (.refl inside)

theorem Stays.ifShorter {results : α → Prop} {n : Nat} {p q : Parse α}
    (first : (Cursor.at tokens index).ahead.length < n → Stays tokens index results p)
    (second : Stays tokens index results q) :
    Stays tokens index results (ifShorter n p q) := by
  by_cases shorter : (Cursor.at tokens index).ahead.length < n
  · exact (first shorter).congr (if_pos shorter)
  · exact second.congr (if_neg shorter)

theorem stays_iterate {σ : Type} {states : σ → Prop} {step : σ → Parse (Option σ)}
    (steps : ∀ s, states s → ∀ i, i < tokens.length →
      Stays tokens i (fun next => ∀ s' ∈ next, states s') (step s))
    (inside : index < tokens.length) {s : σ} (state : states s) :
    Stays tokens index states (iterate step s) := by
  induction length : (Cursor.at tokens index).ahead.length using Nat.strongRecOn
    generalizing index s with
  | _ n ih =>
      have round : Stays tokens index states (step s >>= afterRound step n s) := by
        refine (steps s state index inside).bind fun next states' i inside => ?_
        cases next with
        | none => exact .pure inside state
        | some s' =>
            have state' := states' s' rfl
            exact .ifShorter (fun shorter => ih _ shorter inside state' rfl) (.pure inside state')
      have same := iterate_eq step s (.at tokens index)
      rw [length] at same
      exact round.congr same

/-! ## The grammar -/

theorem exists_rel_iff {results : α → β → Prop} {next : Option α} :
    (∃ next', Option.Rel results next next') ↔ ∀ a ∈ next, ∃ b, results a b := by
  cases next with
  | none =>
      refine ⟨fun _ a never => ?_, fun _ => ⟨none, .none⟩⟩
      cases never
  | some a =>
      constructor
      · rintro ⟨_, together⟩ x same
        cases same
        cases together with
        | some result => exact ⟨_, result⟩
      · intro found
        obtain ⟨b, result⟩ := found a rfl
        exact ⟨some b, .some result⟩

/-- The congruence of staying within a list of tokens. It is about one run. -/
def staying (ended : Token.Ended tokens) : Congruence where
  tokens := fun t t' => t = t' ∧ t ∈ tokens
  related := fun _ results p _ =>
    ∀ i, i < tokens.length → Stays tokens i (fun a => ∃ b, results a b) p
  tokens_kind := fun together => congrArg Token.kind together.1.symm
  tokens_lexeme := fun together => congrArg Token.lexeme together.1.symm
  related_mono := fun stays _ => stays
  related_pure := fun result _ i inside => .pure inside ⟨_, result⟩
  related_bind := by
    intro α β γ δ takes more results results' p p' f f' first second i inside
    refine (first i inside).bind fun a ⟨b, result⟩ => ?_
    exact second a b result
  related_peek? := by
    intro i inside
    refine (stays_peek? ended inside).imp fun next members => exists_rel_iff.mpr ?_
    exact fun t member => ⟨t, rfl, members t member⟩
  related_take? := by
    intro α find i inside
    refine (stays_take? ended inside find).imp fun taken members => exists_rel_iff.mpr ?_
    exact fun x member => ⟨x, ⟨rfl, members x member⟩, rfl⟩
  related_fail := by
    intro α β takes results t t' error together place i inside
    have span : (error t.span).span = t.span := by rw [← place t.span, ParseError.span_relocate]
    exact .ofError inside rfl together.2 span
  related_unexpected := fun expected i inside => stays_unexpected ended inside _ expected
  related_tooDeep := fun i inside => stays_tooDeep ended inside _
  related_iterate := by
    intro σ τ states step step' steps s s' state i inside
    refine stays_iterate (fun s ⟨s', state⟩ i inside => ?_) inside ⟨s', state⟩
    exact (steps s s' state i inside).imp fun next => exists_rel_iff.mp

/-- Tokens that can be read from any index on without leaving them: there is a first one, what is
next at an index is the token there, and all parsers of the grammar stay. -/
structure Contained (tokens : List Token) : Prop where
  nonempty : 0 < tokens.length
  next : ∀ i (inside : i < tokens.length), (Cursor.at tokens i).ahead.head?
    = if tokens[i].kind = .eof then none else some tokens[i]
  expression : ∀ room min i, i < tokens.length →
    Stays tokens i (fun _ => True) (expression room min)
  statement : ∀ room i, i < tokens.length → Stays tokens i (fun _ => True) (statement room)
  declaration : ∀ room i, i < tokens.length → Stays tokens i (fun _ => True) (declaration room)
  program : ∀ room i, i < tokens.length → Stays tokens i (fun _ => True) (program room)

theorem contained (ended : Token.Ended tokens) (nonempty : 0 < tokens.length) :
    Contained tokens where
  nonempty := nonempty
  next := fun _ => Cursor.head?_at ended
  expression := fun room min i inside =>
    ((staying ended).related_expression room min i inside).imp fun _ _ => trivial
  statement := fun room i inside =>
    ((staying ended).related_statement room i inside).imp fun _ _ => trivial
  declaration := fun room i inside =>
    ((staying ended).related_declaration room i inside).imp fun _ _ => trivial
  program := fun room i inside =>
    ((staying ended).related_program room i inside).imp fun _ _ => trivial

end Parse
end Bramble
