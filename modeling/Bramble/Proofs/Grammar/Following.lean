import Bramble.Proofs.Grammar.Advance
import Bramble.Proofs.Grammar.Reader

/-!
# Readers follow the parsers

A reader with `depth` open levels does what the parser with `maxNesting - depth` levels left does
with the tokens that are ahead of the reader. It gives the same result or the same error and ends
where the parser ends. In both cases the levels that it entered are left again, and the tokens that
it moved over are tokens before the end of the input.

`Reader.Ends` compares the ending of a reader with that of a parser, and `Read.Follows` compares the
two wherever they begin. This is a congruence between two ways of reading one grammar
(`Read.following`), so a reader answers each request as the parsers do (`Request.follows`). So a
reader never comes to where its recursion is cut off, and it is what its own recursive description
says (`grammar_recursive`).
-/

set_option autoImplicit false

namespace Bramble

/-! ## Cursors at two indices -/

/-- From one index to a later one the tokens between them are taken, if the end of the input is not
among them. -/
theorem Cursor.at_eq_push {tokens : List Token} (ended : Token.Ended tokens) {i j : Nat}
    (le : i ≤ j) (inside : j < tokens.length)
    (unended : ∀ k t, i ≤ k → k < j → tokens[k]? = some t → t.kind ≠ .eof) :
    Cursor.at tokens i = (Cursor.at tokens j).push ((tokens.drop i).take (j - i)) := by
  induction le with
  | refl => simp
  | @step j le ih =>
      have before : j < tokens.length := Nat.lt_of_succ_lt inside
      have earlier := ih before fun k t above below => unended k t above (Nat.lt_succ_of_lt below)
      have other := unended j tokens[j] le (Nat.lt_succ_self j) (List.getElem?_eq_getElem before)
      have here : (tokens.drop i)[j - i]? = some tokens[j] := by
        rw [List.getElem?_drop, Nat.add_sub_cancel' le, List.getElem?_eq_getElem before]
      rw [earlier, (Cursor.at_other ended before other).2, Cursor.push_push,
        Nat.succ_sub le, List.take_add_one, here]
      rfl

namespace Reader

variable {α β : Type} {r r' r'' : Reader}

/-! ## Readers that move on -/

/-- The cursor that knows what is ahead of a reader. -/
def cursor (r : Reader) : Cursor := .at r.tokens r.index

/-- The index is one of the list, and the list ends with the end of the input. -/
structure Sound (r : Reader) : Prop where
  inside : r.index < r.tokens.length
  ended : Token.Ended r.tokens

/-- The second reader is the first one, moved on over tokens before the end of the input. -/
structure Leads (r r' : Reader) : Prop where
  tokens : r'.tokens = r.tokens
  depth : r'.depth = r.depth
  forward : r.index ≤ r'.index
  inside : r'.index < r.tokens.length
  unended : ∀ i t, r.index ≤ i → i < r'.index → r.tokens[i]? = some t → t.kind ≠ .eof

theorem sound_ofTokens (tokens : List Token) : (ofTokens tokens).Sound :=
  ⟨Token.closed_pos tokens, Token.ended_closed tokens⟩

theorem Sound.refl (sound : r.Sound) : r.Leads r where
  tokens := rfl
  depth := rfl
  forward := Nat.le_refl _
  inside := sound.inside
  unended := fun _ _ le lt => absurd (Nat.lt_of_le_of_lt le lt) (Nat.lt_irrefl _)

theorem Leads.trans (first : r.Leads r') (second : r'.Leads r'') : r.Leads r'' where
  tokens := second.tokens.trans first.tokens
  depth := second.depth.trans first.depth
  forward := Nat.le_trans first.forward second.forward
  inside := first.tokens ▸ second.inside
  unended := by
    intro i t le lt found
    by_cases before : i < r'.index
    · exact first.unended i t le before found
    · exact second.unended i t (Nat.le_of_not_lt before) lt (first.tokens ▸ found)

/-- A level that was entered before moving on is left afterwards. -/
theorem Leads.leave (inside : Leads { r with depth := r.depth + 1 } r') :
    r.Leads { r' with depth := r'.depth - 1 } where
  tokens := inside.tokens
  depth := congrArg (· - 1) inside.depth
  forward := inside.forward
  inside := inside.inside
  unended := inside.unended

theorem Sound.leads (sound : r.Sound) (leads : r.Leads r') : r'.Sound where
  inside := leads.tokens ▸ leads.inside
  ended := leads.tokens ▸ sound.ended

/-- What a reader was led over is what the cursor took. -/
theorem Sound.cursor_eq (sound : r.Sound) (leads : r.Leads r') :
    r.cursor = r'.cursor.push ((r.tokens.drop r.index).take (r'.index - r.index)) := by
  unfold cursor
  rw [leads.tokens]
  exact Cursor.at_eq_push sound.ended leads.forward leads.inside leads.unended

theorem Sound.length_ahead (sound : r.Sound) (leads : r.Leads r') :
    r.cursor.ahead.length = r'.index - r.index + r'.cursor.ahead.length := by
  have inside := leads.inside
  rw [sound.cursor_eq leads, Cursor.ahead_push, List.length_append, List.length_take,
    List.length_drop, Nat.min_eq_left (by omega)]

/-- A reader is led to one place only with the same tokens ahead. -/
theorem Sound.leads_unique (sound : r.Sound) (first : r.Leads r') (second : r.Leads r'')
    (same : r'.cursor = r''.cursor) : r' = r'' := by
  have length := sound.length_ahead first
  rw [sound.length_ahead second, same] at length
  have forward := first.forward
  have forward' := second.forward
  obtain ⟨tokens, index, depth⟩ := r'
  obtain ⟨tokens', index', depth'⟩ := r''
  cases first.tokens.trans second.tokens.symm
  cases first.depth.trans second.depth.symm
  have indices : index = index' := by
    simp only at length forward forward'
    omega
  rw [indices]

/-! ## The current token -/

theorem Sound.current_eq (sound : r.Sound) : r.tokens[r.index]? = some r.current := by
  rw [current, List.getD_eq_getElem?_getD, List.getElem?_eq_getElem sound.inside]
  rfl

/-- A reader is at the end of the input, or it can take its current token. -/
theorem Sound.cases (sound : r.Sound) :
    (r.current.kind = .eof ∧ r.cursor = ⟨[], r.current.span⟩) ∨
      (r.current.kind ≠ .eof ∧ r.Leads r.advance ∧
        r.cursor = r.advance.cursor.push [r.current]) := by
  have inside := sound.inside
  have here : r.tokens[r.index] = r.current := by
    have found := sound.current_eq
    rw [List.getElem?_eq_getElem inside] at found
    exact Option.some.inj found
  by_cases eof : r.current.kind = .eof
  · refine .inl ⟨eof, ?_⟩
    rw [← here] at eof ⊢
    exact Cursor.at_eof sound.inside eof
  · refine .inr ⟨eof, ?_⟩
    rw [← here] at eof ⊢
    obtain ⟨more, taken⟩ := Cursor.at_other sound.ended sound.inside eof
    rw [advance, if_pos more]
    refine ⟨⟨rfl, rfl, Nat.le_succ _, more, fun i t le lt found => ?_⟩, taken⟩
    have same : i = r.index := Nat.le_antisymm (Nat.le_of_lt_succ lt) le
    subst same
    rw [List.getElem?_eq_getElem sound.inside] at found
    cases found
    exact eof

theorem Sound.span_cursor (sound : r.Sound) : r.cursor.span = r.current.span := by
  obtain ⟨_, here⟩ | ⟨_, _, here⟩ := sound.cases
  · rw [here]
    rfl
  · rw [here]
    rfl

/-! ## Endings -/

/-- The ending of a reader that began as `r`, and the ending of a parser: results that go together
or the same error, and the reader was led to where the parser ended. -/
inductive Ends (r : Reader) (results : α → β → Prop) :
    EStateM.Result ParseError Reader α → EStateM.Result ParseError Cursor β → Prop where
  | ok {a : α} {b : β} {r' : Reader} (leads : r.Leads r') (result : results a b) :
      Ends r results (.ok a r') (.ok b r'.cursor)
  | error {e : ParseError} {r' : Reader} (leads : r.Leads r') :
      Ends r results (.error e r') (.error e r'.cursor)

theorem Ends.from {results : α → β → Prop} (leads : r.Leads r')
    {x : EStateM.Result ParseError Reader α} {y : EStateM.Result ParseError Cursor β}
    (ends : r'.Ends results x y) : r.Ends results x y := by
  cases ends with
  | ok later result => exact .ok (leads.trans later) result
  | error later => exact .error (leads.trans later)

/-- Where a parser ends, a reader ends in one way only. -/
theorem Ends.unique (sound : r.Sound) {x x' : EStateM.Result ParseError Reader α}
    {y : EStateM.Result ParseError Cursor α} (ends : r.Ends Eq x y) (ends' : r.Ends Eq x' y) :
    x = x' := by
  generalize other : y = y' at ends'
  cases ends with
  | ok leads same =>
      cases ends' with
      | ok leads' same' =>
          injection other with equal cursors
          rw [same, same', equal, sound.leads_unique leads leads' cursors]
      | error leads' => cases other
  | error leads =>
      cases ends' with
      | ok leads' same' => cases other
      | error leads' =>
          injection other with equal cursors
          rw [equal, sound.leads_unique leads leads' cursors]

end Reader

/-! ## Following -/

namespace Read

open Reader (Sound Leads Ends)

variable {α β γ δ σ τ : Type} {room : Nat} {results : α → β → Prop}

/-- With `room` levels left, the reader ends as the parser ends. -/
def Follows (room : Nat) (results : α → β → Prop) (p : Read α) (q : Parse β) : Prop :=
  ∀ r : Reader, r.Sound → r.depth + room = maxNesting → r.Ends results (p r) (q r.cursor)

theorem Follows.bind {more : γ → δ → Prop} {p : Read α} {q : Parse β} {f : α → Read γ}
    {g : β → Parse δ} (first : Follows room results p q)
    (second : ∀ a b, results a b → Follows room more (f a) (g b)) :
    Follows room more (p >>= f) (q >>= g) := by
  intro r sound levels
  have ends := first r sound levels
  generalize ending : p r = x at ends
  generalize ending' : q r.cursor = y at ends
  cases ends with
  | ok leads result =>
      rw [bind_ok ending, bind_ok ending']
      exact (second _ _ result _ (sound.leads leads) (leads.depth ▸ levels)).from leads
  | error leads =>
      rw [bind_error ending, bind_error ending']
      exact .error leads

/-! ## Tokens -/

theorem follows_peek? : Follows room (Option.Rel Eq) peek? Parse.peek? := by
  intro r sound _
  have same : Option.Rel Eq (if r.current.kind = .eof then none else some r.current)
      r.cursor.ahead.head? := by
    obtain ⟨eof, here⟩ | ⟨other, _, here⟩ := sound.cases
    · rw [if_pos eof, here]
      exact .none
    · rw [if_neg other, here]
      exact .some rfl
  exact .ok sound.refl same

theorem follows_take? (find : Token.Kind → Option α) :
    Follows room (Option.Rel fun x x' => x.1 = x'.1 ∧ x.2 = x'.2) (take? find)
      (Parse.take? find) := by
  intro r sound _
  unfold take?
  obtain ⟨eof, here⟩ | ⟨other, leads, here⟩ := sound.cases
  · have nothing : Parse.take? find r.cursor = .ok none r.cursor := by
      rw [here]
      rfl
    rw [if_pos eof, nothing]
    exact .ok sound.refl .none
  · rw [if_neg other]
    cases found : find r.current.kind with
    | none =>
        have nothing : Parse.take? find r.cursor = .ok none r.cursor := by
          rw [here]
          exact Parse.take?_of_none found
        rw [nothing]
        exact .ok sound.refl .none
    | some x =>
        rw [here, Parse.take?_of_some found]
        exact .ok leads (.some ⟨rfl, rfl⟩)

theorem follows_unexpected (expected : Expectation) :
    Follows room results (unexpected expected) (Parse.unexpected expected) := by
  intro r sound _
  unfold unexpected
  obtain ⟨eof, here⟩ | ⟨other, _, here⟩ := sound.cases
  · have fails : (Parse.unexpected expected : Parse β) r.cursor
        = .error (.unexpectedEnd expected r.current.span) r.cursor := by
      rw [here]
      rfl
    rw [if_pos eof, fails]
    exact .error sound.refl
  · have fails : (Parse.unexpected expected : Parse β) r.cursor
        = .error (.unexpectedToken r.current.lexeme expected r.current.span) r.cursor := by
      rw [here]
      rfl
    rw [if_neg other, fails]
    exact .error sound.refl

/-! ## Repetition -/

theorem follows_iterate {states : σ → τ → Prop} {step : σ → Read (Option σ)}
    {step' : τ → Parse (Option τ)}
    (steps : ∀ s s', states s s' → Follows room (Option.Rel states) (step s) (step' s'))
    {s : σ} {s' : τ} (state : states s s') :
    Follows room states (iterate step s) (Parse.iterate step' s') := by
  intro r sound levels
  induction length : r.cursor.ahead.length using Nat.strongRecOn generalizing r s s' with
  | _ n ih =>
      have ends := steps s s' state r sound levels
      rw [iterate, Parse.iterate]
      generalize step s r = x at ends
      generalize step' s' r.cursor = y at ends
      cases ends with
      | error leads => exact .error leads
      | @ok _ _ r' leads both =>
          cases both with
          | none => exact .ok leads state
          | some next =>
              -- Both runs go on exactly if the index has grown.
              have shorter : r'.ahead < r.ahead ↔
                  r'.cursor.ahead.length < r.cursor.ahead.length := by
                have forward := leads.forward
                have inside := leads.inside
                rw [sound.length_ahead leads, Reader.ahead, Reader.ahead, leads.tokens]
                omega
              simp only [shorter]
              split
              · next less =>
                  have later := ih _ (length ▸ less) next r' (sound.leads leads)
                    (leads.depth ▸ levels) rfl
                  exact later.from leads
              · exact .ok leads next

/-- The congruence of readers that follow parsers. -/
def following (room : Nat) : Grammar.Congruence Read Parse where
  tokens := Eq
  related := fun _ => Follows room
  tokens_kind := @Token.kind_of_eq
  tokens_lexeme := @Token.lexeme_of_eq
  related_mono := fun follows _ => follows
  related_pure := fun result _ _ sound _ => .ok sound.refl result
  related_bind := Follows.bind
  related_peek? := follows_peek?
  related_take? := follows_take?
  related_fail := by
    intro α β takes results t t' error same _ r sound _
    subst same
    exact .error sound.refl
  related_unexpected := follows_unexpected
  related_iterate := follows_iterate

/-! ## Levels -/

/-- A level that is entered is left again, after a result and after an error. -/
theorem follows_nested {p : Read α} {q : Parse β} (inside : Follows room results p q) :
    Follows (room + 1) results (nested p) q := by
  intro r sound levels
  have below : ¬ maxNesting ≤ r.depth := by omega
  have ends := inside { r with depth := r.depth + 1 } ⟨sound.inside, sound.ended⟩
    (by simp only; omega)
  unfold nested
  rw [if_neg below]
  have same : Reader.cursor { r with depth := r.depth + 1 } = r.cursor := rfl
  rw [same] at ends
  generalize p { r with depth := r.depth + 1 } = x at ends
  generalize q r.cursor = y at ends
  cases ends with
  | ok leads result => exact .ok leads.leave result
  | error leads => exact .error leads.leave

/-- At the limit no level is entered. -/
theorem follows_nested_zero (p : Read α) : Follows 0 results (nested p) Parse.tooDeep := by
  intro r sound levels
  have full : maxNesting ≤ r.depth := by omega
  unfold nested
  rw [if_pos full, ← sound.span_cursor]
  exact .error sound.refl

/-- A reader that is chosen by the levels left. -/
theorem follows_byLevels {p : Nat → Read α} {q : Parse β}
    (follows : Follows room results (p room) q) :
    Follows room results (fun r => p (maxNesting - r.depth) r) q := by
  intro r sound levels
  have left : maxNesting - r.depth = room := by omega
  simp only [left]
  exact follows r sound levels

/-! ## The grammar -/

theorem follows_operators {operand : Nat → Read Expr} {operand' : Nat → Parse Expr}
    (operands : ∀ power, Follows room Eq (operand power) (operand' power)) (min : Nat) :
    Follows room Eq (Grammar.operators operand min) (Grammar.operators operand' min) :=
  Grammar.Congruence.related_operators (R := following room) operands min

theorem follows_expressionWithin (room min : Nat) :
    Follows room Eq (expressionWithin (room + 1) min) (Parse.expression room min) := by
  induction room generalizing min with
  | zero => exact follows_nested_zero _
  | succ room ih => exact follows_nested (follows_operators ih min)

theorem follows_expression (room min : Nat) :
    Follows room Eq (expression min) (Parse.expression room min) :=
  follows_byLevels (p := fun levels => expressionWithin (levels + 1) min)
    (follows_expressionWithin room min)

/-- What is read further in follows the parsers. -/
abbrev FollowsInner (room : Nat) (inner : Inner Read) : Prop :=
  (following room).RelatesInner inner (Parse.inner room)

/-- The statements of one level are built from those of the next one. -/
theorem followsInner_succ {inner : Inner Read} (inners : FollowsInner room inner) :
    FollowsInner (room + 1)
      { block := nested (Grammar.braced (Grammar.declaration (expression 0) inner))
        conditional := nested (Grammar.conditional (expression 0) inner) } where
  block := follows_nested (Grammar.Congruence.related_braced (R := following room)
    (Grammar.Congruence.related_declaration inners (follows_expression room 0)))
  conditional := follows_nested
    (Grammar.Congruence.related_conditional inners (follows_expression room 0))

theorem followsInner_innerWithin (room : Nat) : FollowsInner room (innerWithin (room + 1)) := by
  induction room with
  | zero => exact ⟨follows_nested_zero _, follows_nested_zero _⟩
  | succ room ih => exact followsInner_succ ih

theorem follows_withInner {rule : Inner Read → Read α} {q : Parse α}
    (follows : ∀ inner, FollowsInner room inner → Follows room Eq (rule inner) q) :
    Follows room Eq (withInner rule) q :=
  follows_byLevels (p := fun levels => rule (innerWithin (levels + 1)))
    (follows _ (followsInner_innerWithin room))

theorem follows_conditional (room : Nat) :
    Follows room Eq conditional
      (Grammar.conditional (Parse.expression room 0) (Parse.inner room)) :=
  follows_withInner fun _ inners =>
    Grammar.Congruence.related_conditional inners (follows_expression room 0)

theorem follows_statement (room : Nat) : Follows room Eq statement (Parse.statement room) :=
  follows_withInner fun _ inners =>
    Grammar.Congruence.related_statement inners (follows_expression room 0)

theorem follows_declaration (room : Nat) : Follows room Eq declaration (Parse.declaration room) :=
  follows_withInner fun _ inners =>
    Grammar.Congruence.related_declaration inners (follows_expression room 0)

theorem follows_program (room : Nat) : Follows room Eq program (Parse.program room) :=
  Grammar.Congruence.related_program (R := following room) (follows_declaration room)

/-! ## The recursion of the grammar -/

/-- What statements have one level further in, with nothing cut off. -/
def inner : Inner Read := ⟨nested (Grammar.braced declaration), nested conditional⟩

theorem followsInner_inner (room : Nat) : FollowsInner room inner := by
  cases room with
  | zero => exact ⟨follows_nested_zero _, follows_nested_zero _⟩
  | succ room =>
      exact ⟨follows_nested (Grammar.Congruence.related_braced (R := following room)
          (follows_declaration room)), follows_nested (follows_conditional room)⟩

/-- No reader comes to where the recursion is cut off. So an expression is what its own recursive
description says, and so are the statements. -/
theorem grammar_recursive {r : Reader} (sound : r.Sound) (levels : r.depth ≤ maxNesting) :
    (∀ min, expression min r = nested (Grammar.operators expression min) r) ∧
      declaration r = Grammar.declaration (expression 0) inner r ∧
      statement r = Grammar.statement (expression 0) inner r ∧
      conditional r = Grammar.conditional (expression 0) inner r := by
  obtain ⟨room, exact⟩ := Nat.exists_eq_add_of_le levels
  have inners := followsInner_inner room
  have exprs := follows_expression room 0
  have unique {α : Type} {p p' : Read α} {q : Parse α} (first : Follows room Eq p q)
      (second : Follows room Eq p' q) : p r = p' r :=
    (first r sound exact.symm).unique sound (second r sound exact.symm)
  refine ⟨fun min => unique (follows_expression room min) ?_, ?_, ?_, ?_⟩
  · cases room with
    | zero => exact follows_nested_zero _
    | succ room => exact follows_nested (follows_operators (follows_expression room) min)
  · exact unique (follows_declaration room)
      (Grammar.Congruence.related_declaration inners exprs)
  · exact unique (follows_statement room) (Grammar.Congruence.related_statement inners exprs)
  · exact unique (follows_conditional room) (Grammar.Congruence.related_conditional inners exprs)

end Read

/-- A reader answers every request as the parser does that has as many levels left. -/
theorem Request.follows (request : Request) (room : Nat) :
    Read.Follows room Eq request.read (request.parse room) := by
  cases request with
  | expression min => exact Read.follows_expression room min
  | statement => exact Read.follows_statement room
  | declaration => exact Read.follows_declaration room
  | program => exact Read.follows_program room

end Bramble
