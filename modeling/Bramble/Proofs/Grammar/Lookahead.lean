import Bramble.Proofs.Grammar.Congruence
import Bramble.Proofs.Grammar.Reuse

/-!
# One token of lookahead

What a parser does is settled by the tokens that it takes and by the one at which it ends. Before
any other tokens that begin with that one it takes the same tokens and has the same result or the
same error. This is a congruence of parsing, `Parse.settling`: a parser decides only by looking at
the next token, and it either takes that token or leaves it in sight.

For readers it says that two lists of tokens which agree up to the index at which a reader ends are
read alike (`settled_up_to_lookahead`). The end of the input is never taken, so what stands behind
it is never looked at.
-/

set_option autoImplicit false

namespace Bramble

/-! ## What is in sight -/

namespace Cursor

variable {c c' : Cursor}

/-- The next token, or the place of the end of the input. -/
def sight (c : Cursor) : Token ⊕ Span :=
  match c.ahead with
  | [] => .inr c.stop
  | token :: _ => .inl token

/-- At the end of the input nothing but its place is left, and elsewhere a token is next. -/
theorem sight_cases (same : c'.sight = c.sight) :
    (c = ⟨[], c.stop⟩ ∧ c' = ⟨[], c.stop⟩) ∨
      ∃ (t : Token) (rest rest' : Cursor), c = rest.push [t] ∧ c' = rest'.push [t] := by
  obtain ⟨ahead, stop⟩ := c
  obtain ⟨ahead', stop'⟩ := c'
  cases ahead with
  | nil =>
      cases ahead' with
      | nil =>
          cases same
          exact .inl ⟨rfl, rfl⟩
      | cons t' rest' => cases same
  | cons t rest =>
      cases ahead' with
      | nil => cases same
      | cons t' rest' =>
          cases same
          exact .inr ⟨t, ⟨rest, stop⟩, ⟨rest', stop'⟩, rfl, rfl⟩

theorem sight_push (same : c'.sight = c.sight) (ts : List Token) :
    (c'.push ts).sight = (c.push ts).sight := by
  cases ts with
  | nil => exact same
  | cons t ts => rfl

theorem head?_of_sight (same : c'.sight = c.sight) : c'.ahead.head? = c.ahead.head? := by
  obtain ⟨here, here'⟩ | ⟨t, rest, rest', here, here'⟩ := sight_cases same
  · rw [here, here']
  · rw [here, here']
    rfl

theorem span_of_sight (same : c'.sight = c.sight) : c'.span = c.span := by
  obtain ⟨here, here'⟩ | ⟨t, rest, rest', here, here'⟩ := sight_cases same
  · rw [here, here']
  · rw [here, here']
    rfl

/-- At an index the token there is in sight. -/
theorem sight_at {tokens tokens' : List Token} (ended : Token.Ended tokens)
    (ended' : Token.Ended tokens') {k : Nat} (inside : k < tokens.length)
    (same : tokens'[k]? = tokens[k]?) :
    (Cursor.at tokens' k).sight = (Cursor.at tokens k).sight := by
  rw [List.getElem?_eq_getElem inside] at same
  obtain ⟨inside', here⟩ := List.getElem?_eq_some_iff.mp same
  by_cases eof : tokens[k].kind = .eof
  · rw [at_eof inside eof, at_eof inside' (here ▸ eof), here]
  · rw [(at_other ended inside eof).2, (at_other ended' inside' (here ▸ eof)).2, here]
    rfl

end Cursor

/-! ## Settled runs -/

namespace Parse

variable {α β γ δ : Type}

/-- The ending of a run that began at `c`. The run took tokens and came to a cursor. Another parser
takes the same tokens wherever the same is in sight behind them, and ends in the same way. -/
inductive Settles (c : Cursor) (results : α → β → Prop) (other : Parse β) :
    EStateM.Result ParseError Cursor α → Prop where
  | ok {a : α} {b : β} {rest : Cursor} (taken : List Token) (came : c = rest.push taken)
      (result : results a b)
      (settled : ∀ rest', rest'.sight = rest.sight → other (rest'.push taken) = .ok b rest') :
      Settles c results other (.ok a rest)
  | error {e : ParseError} {rest : Cursor} (taken : List Token) (came : c = rest.push taken)
      (settled : ∀ rest', rest'.sight = rest.sight → other (rest'.push taken) = .error e rest') :
      Settles c results other (.error e rest)

/-- A run of the one parser settles what the other one does, wherever they begin. -/
def Settled (results : α → β → Prop) (p : Parse α) (p' : Parse β) : Prop :=
  ∀ c, Settles c results p' (p c)

variable {results : α → β → Prop} {more : γ → δ → Prop} {c middle : Cursor}

/-- A parser that takes nothing and has its result from what is in sight. -/
theorem Settles.look {a : α} {b : β} {p' : Parse β} (result : results a b)
    (settled : ∀ c', c'.sight = c.sight → p' c' = .ok b c') : Settles c results p' (.ok a c) :=
  .ok [] rfl result settled

/-- A parser that fails because of what is in sight. -/
theorem Settles.fail {e : ParseError} {p' : Parse β}
    (settled : ∀ c', c'.sight = c.sight → p' c' = .error e c') :
    Settles c results p' (.error e c) :=
  .error [] rfl settled

/-- A parser that first takes tokens and then does what another one does. Behind those tokens the
same is in sight, as the other one takes the same tokens or leaves the same in sight. -/
theorem Settles.behind {p' q' : Parse β} {taken : List Token}
    {x : EStateM.Result ParseError Cursor α} (settles : Settles middle results q' x)
    (through : ∀ rest, rest.sight = middle.sight → p' (rest.push taken) = q' rest) :
    Settles (middle.push taken) results p' x := by
  have first {rest rest' : Cursor} (others : List Token) (came : middle = rest.push others)
      (same : rest'.sight = rest.sight) :
      p' (rest'.push (taken ++ others)) = q' (rest'.push others) := by
    rw [← Cursor.push_push]
    exact through _ (came ▸ Cursor.sight_push same others)
  cases settles with
  | ok others came result settled =>
      refine .ok (taken ++ others) (by rw [came, Cursor.push_push]) result fun rest' same => ?_
      exact (first others came same).trans (settled rest' same)
  | error others came settled =>
      refine .error (taken ++ others) (by rw [came, Cursor.push_push]) fun rest' same => ?_
      exact (first others came same).trans (settled rest' same)

theorem Settled.bind {p : Parse α} {p' : Parse β} {f : α → Parse γ} {f' : β → Parse δ}
    (first : Settled results p p') (second : ∀ a b, results a b → Settled more (f a) (f' b)) :
    Settled more (p >>= f) (p' >>= f') := by
  intro c
  have settles := first c
  generalize ending : p c = x at settles
  cases settles with
  | error taken came settled =>
      rw [bind_error ending]
      exact .error taken came fun rest' same => bind_error (settled rest' same)
  | @ok a b middle taken came result settled =>
      rw [bind_ok ending, came]
      exact (second a b result middle).behind fun rest' same => bind_ok (settled rest' same)

theorem settled_peek? : Settled (Option.Rel Eq) peek? peek? := by
  intro c
  have same : Option.Rel Eq c.ahead.head? c.ahead.head? := by
    cases c.ahead.head? with
    | none => exact .none
    | some t => exact .some rfl
  refine .look same fun c' near => ?_
  rw [← Cursor.head?_of_sight near]
  rfl

theorem settled_take? (find : Token.Kind → Option γ) :
    Settled (Option.Rel fun x x' => x.1 = x'.1 ∧ x.2 = x'.2) (take? find) (take? find) := by
  intro c
  rcases take?_cases find c with ⟨nothing, still⟩ | ⟨t, x, rest, rfl, found, took⟩
  · rw [still]
    refine .look .none fun c' near => take?_of_none ?_
    rwa [Cursor.nextKind?, Cursor.head?_of_sight near]
  · rw [took]
    exact .ok [t] rfl (.some ⟨rfl, rfl⟩) fun rest' _ => take?_of_some found

theorem settled_unexpected (expected : Expectation) :
    Settled results (unexpected expected) (unexpected expected) := by
  intro c
  obtain ⟨ahead, stop⟩ := c
  cases ahead with
  | nil =>
      refine .fail fun c' near => ?_
      obtain ⟨_, here'⟩ | ⟨t, rest, rest', here, _⟩ := Cursor.sight_cases near
      · rw [here']
        rfl
      · cases here
  | cons t rest =>
      refine .fail fun c' near => ?_
      obtain ⟨here, _⟩ | ⟨t', rest, rest', here, here'⟩ := Cursor.sight_cases near
      · cases here
      · cases here
        rw [here']
        rfl

theorem settled_tooDeep : Settled results tooDeep tooDeep := by
  intro c
  refine .fail fun c' near => ?_
  rw [← Cursor.span_of_sight near]
  rfl

theorem settled_iterate {σ τ : Type} {states : σ → τ → Prop} {step : σ → Parse (Option σ)}
    {step' : τ → Parse (Option τ)}
    (steps : ∀ s s', states s s' → Settled (Option.Rel states) (step s) (step' s'))
    {s : σ} {s' : τ} (state : states s s') :
    Settled states (iterate step s) (iterate step' s') := by
  intro c
  induction length : c.ahead.length using Nat.strongRecOn generalizing c s s' with
  | _ n ih =>
      have round := steps s s' state c
      rw [iterate]
      generalize step s c = x at round
      cases round with
      | error taken came settled =>
          refine .error taken came fun rest' same => ?_
          rw [iterate, settled rest' same]
      | @ok next next' rest taken came both settled =>
          cases both with
          | none =>
              refine .ok taken came state fun rest' same => ?_
              rw [iterate, settled rest' same]
          | @some t t' state' =>
              -- In both runs the round was the last one if it took no token.
              have shorter (rest : Cursor) :
                  rest.ahead.length < (rest.push taken).ahead.length ↔ taken ≠ [] := by
                rw [Cursor.ahead_push, List.length_append, Nat.lt_add_left_iff_pos,
                  List.length_pos_iff]
              subst came
              simp only [shorter]
              by_cases last : taken = []
              · subst last
                rw [if_neg (not_not_intro rfl)]
                refine .look state' fun rest' same => ?_
                rw [iterate, ← Cursor.push_nil rest', settled rest' same]
                simp
              · rw [if_pos last]
                have further := ih _ (length ▸ (shorter rest).mpr last) state' rest rfl
                refine further.behind fun rest' same => ?_
                rw [iterate, settled rest' same]
                simp only [shorter, if_pos last]

/-- The congruence of parsers that are settled by what they take and what is then in sight. -/
def settling : Congruence where
  tokens := Eq
  related := fun _ => Settled
  tokens_kind := @Token.kind_of_eq
  tokens_lexeme := @Token.lexeme_of_eq
  related_mono := fun settled _ => settled
  related_pure := fun result _ _ => .look result fun _ _ => rfl
  related_bind := Settled.bind
  related_peek? := settled_peek?
  related_take? := settled_take?
  related_fail := by
    intro α β takes results t t' error same _ c
    subst same
    exact .fail fun _ _ => rfl
  related_unexpected := settled_unexpected
  related_tooDeep := settled_tooDeep
  related_iterate := settled_iterate

end Parse

theorem Request.settled (request : Request) (room : Nat) :
    Parse.Settled Eq (request.parse room) (request.parse room) := by
  cases request with
  | expression min => exact Parse.settling.related_expression room min
  | statement => exact Parse.settling.related_statement room
  | declaration => exact Parse.settling.related_declaration room
  | program => exact Parse.settling.related_program room

/-! ## Requests to parsers -/

namespace Cursor

variable {rest rest' : Cursor}

theorem push_right_cancel {ts us : List Token} (same : rest.push ts = rest.push us) : ts = us :=
  List.append_cancel_right (congrArg ahead same)

/-- A request is answered alike where the same tokens are taken and the same is then in sight. -/
theorem answer_of_sight {taken : List Token} {request : Request}
    (ends : (rest.push taken).after request = rest) (same : rest'.sight = rest.sight) :
    (rest'.push taken).answer request = (rest.push taken).answer request ∧
      (rest'.push taken).after request = rest' := by
  have settles := request.settled maxNesting (rest.push taken)
  unfold after at ends ⊢
  unfold answer
  generalize request.parse maxNesting (rest.push taken) = x at settles ends
  cases settles with
  | ok others came result settled =>
      subst ends
      cases push_right_cancel came
      rw [settled rest' same]
      exact ⟨congrArg Except.ok result.symm, rfl⟩
  | error others came settled =>
      subst ends
      cases push_right_cancel came
      rw [settled rest' same]
      exact ⟨rfl, rfl⟩

/-- The cursor after the parsers of requests that are made one after the other. -/
def afterAll (c : Cursor) (requests : List Request) : Cursor := requests.foldl after c

/-- The answers of the parsers to requests that are made one after the other. -/
def answers (c : Cursor) :
    List Request → List ((request : Request) × Except ParseError request.Result)
  | [] => []
  | request :: requests => ⟨request, c.answer request⟩ :: (c.after request).answers requests

end Cursor

/-! ## Requests to readers -/

/-- The second list has the tokens of the first one up to an index, which is included. -/
def Token.AgreeTo (k : Nat) (tokens tokens' : List Token) : Prop :=
  ∀ j, j ≤ k → tokens'[j]? = tokens[j]?

instance (k : Nat) (tokens tokens' : List Token) : Decidable (Token.AgreeTo k tokens tokens') :=
  inferInstanceAs (Decidable (∀ j, j ≤ k → tokens'[j]? = tokens[j]?))

namespace Token.AgreeTo

variable {i k : Nat} {tokens tokens' : List Token}

theorem mono (agree : AgreeTo k tokens tokens') (le : i ≤ k) : AgreeTo i tokens tokens' :=
  fun j below => agree j (Nat.le_trans below le)

theorem inside (agree : AgreeTo k tokens tokens') (within : k < tokens.length) :
    k < tokens'.length := by
  have same := agree k (Nat.le_refl k)
  rw [List.getElem?_eq_getElem within] at same
  exact (List.getElem?_eq_some_iff.mp same).1

/-- The same tokens stand between two indices. -/
theorem between (agree : AgreeTo k tokens tokens') (i : Nat) :
    (tokens'.drop i).take (k - i) = (tokens.drop i).take (k - i) := by
  apply List.ext_getElem?
  intro n
  by_cases below : n < k - i
  · rw [List.getElem?_take_of_lt below, List.getElem?_take_of_lt below, List.getElem?_drop,
      List.getElem?_drop, agree (i + n) (by omega)]
  · rw [List.getElem?_take_eq_none (Nat.le_of_not_lt below),
      List.getElem?_take_eq_none (Nat.le_of_not_lt below)]

end Token.AgreeTo

namespace Reader

variable {r r' : Reader}

/-- The answers to requests that are made one after the other, and the index at the end. -/
def outcome (r : Reader) (requests : List Request) :
    List ((request : Request) × Except ParseError request.Result) × Nat :=
  (r.answers requests, (r.afterAll requests).index)

/-- The reader is led to an index wherever another reader is led to it over the same tokens. -/
theorem Leads.of_agree {r₁ : Reader} (leads : r.Leads r₁) (index : r'.index = r.index)
    (agree : Token.AgreeTo r₁.index r.tokens r'.tokens) :
    r'.Leads { r' with index := r₁.index } where
  tokens := rfl
  depth := rfl
  forward := index ▸ leads.forward
  inside := agree.inside leads.inside
  unended := by
    intro i t le lt found
    rw [agree i (Nat.le_of_lt lt)] at found
    exact leads.unended i t (index ▸ le) lt found

/-- One request: with the same tokens up to where one reader ends, the other one answers alike and
ends there too. -/
theorem Idle.answer_of_agree (idle : r.Idle) (idle' : r'.Idle) (index : r'.index = r.index)
    (request : Request) (agree : Token.AgreeTo (r.after request).index r.tokens r'.tokens) :
    r'.answer request = r.answer request ∧
      (r'.after request).index = (r.after request).index := by
  obtain ⟨leads, answer, after⟩ := idle.served request
  obtain ⟨leads', answer', after'⟩ := idle'.served request
  have there := leads.of_agree index agree
  have here := idle.toSound.cursor_eq leads
  have here' := idle'.toSound.cursor_eq there
  simp only [index, agree.between] at here'
  have same : (cursor { r' with index := (r.after request).index }).sight
      = (r.after request).cursor.sight := by
    unfold cursor
    rw [leads.tokens]
    exact Cursor.sight_at idle.ended idle'.ended leads.inside (agree _ (Nat.le_refl _))
  rw [here] at after answer
  obtain ⟨answers, ends⟩ := Cursor.answer_of_sight after.symm same
  rw [← here'] at answers ends
  refine ⟨answer'.trans (answers.trans answer.symm), ?_⟩
  rw [idle'.toSound.leads_unique leads' there (after'.trans ends)]

/-- A sequence of requests. -/
theorem Idle.outcome_of_agree (idle : r.Idle) (idle' : r'.Idle) (index : r'.index = r.index)
    (requests : List Request)
    (agree : Token.AgreeTo (r.afterAll requests).index r.tokens r'.tokens) :
    r'.outcome requests = r.outcome requests := by
  induction requests generalizing r r' with
  | nil => exact congrArg (([], ·)) index
  | cons request requests ih =>
      have leads := (idle.served request).1
      have leads' := (idle'.served request).1
      have later := idle.leads leads
      have forward := (later.leads_afterAll requests).forward
      obtain ⟨first, next⟩ := idle.answer_of_agree idle' index request (agree.mono forward)
      have others := ih later (idle'.leads leads') next (by
        rw [leads.tokens, leads'.tokens]
        exact agree)
      obtain ⟨answers, last⟩ := Prod.mk.inj others
      exact Prod.ext (List.cons_eq_cons.mpr ⟨congrArg (Sigma.mk request) first, answers⟩) last

/-- A reader answers a sequence of requests as the parsers do. -/
theorem Idle.answers_eq (idle : r.Idle) (requests : List Request) :
    r.answers requests = r.cursor.answers requests ∧
      (r.afterAll requests).cursor = r.cursor.afterAll requests := by
  induction requests generalizing r with
  | nil => exact ⟨rfl, rfl⟩
  | cons request requests ih =>
      obtain ⟨leads, answer, after⟩ := idle.served request
      obtain ⟨answers, last⟩ := ih (idle.leads leads)
      rw [after] at answers last
      exact ⟨List.cons_eq_cons.mpr ⟨congrArg (Sigma.mk request) answer, answers⟩, last⟩

end Reader

/-- What stands behind an end of the input is not reached. -/
theorem Token.agreeTo_of_eof (front back : List Token) {e : Token} (eof : e.kind = .eof) :
    Token.AgreeTo front.length (Token.closed (front ++ e :: back))
      (Token.closed (front ++ [e])) := by
  have whole : ∃ more, Token.closed (front ++ e :: back) = (front ++ [e]) ++ (back ++ more) := by
    obtain ⟨more, closed⟩ := Token.exists_closed (front ++ e :: back)
    exact ⟨more, by rw [closed]; simp⟩
  obtain ⟨more, whole⟩ := whole
  intro j le
  have below : j < (front ++ [e]).length := by
    rw [List.length_append]
    exact Nat.lt_succ_of_le le
  rw [Token.closed_concat, if_pos eof, whole, List.getElem?_append_left below]

/-- A reader decides with one token of lookahead. Its answers to a sequence of requests, which are
those of the parsers, and the index at which it ends are settled by the tokens up to that index:
whatever follows, they are the same. The index does not pass the first end of the input, so the
tokens behind one do not count. -/
theorem settled_up_to_lookahead (tokens : List Token) (requests : List Request) :
    let r := Reader.ofTokens tokens
    let k := (r.afterAll requests).index
    (r.answers requests = (Cursor.ofTokens tokens).answers requests ∧
        (Cursor.ofTokens tokens).afterAll requests = Cursor.at (Token.closed tokens) k) ∧
      (∀ tokens', Token.AgreeTo k (Token.closed tokens) (Token.closed tokens') →
        (Reader.ofTokens tokens').outcome requests = r.outcome requests) ∧
      (∀ j e, (Token.closed tokens)[j]? = some e → e.kind = .eof → k ≤ j) ∧
      ∀ front e back, tokens = front ++ e :: back → e.kind = .eof →
        (Reader.ofTokens (front ++ [e])).outcome requests = r.outcome requests := by
  intro r k
  have idle : r.Idle := Reader.idle_ofTokens tokens
  have leads : r.Leads (r.afterAll requests) := idle.leads_afterAll requests
  have start : r.cursor = Cursor.ofTokens tokens := Cursor.ofTokens_closed tokens
  have alike (tokens' : List Token)
      (agree : Token.AgreeTo k (Token.closed tokens) (Token.closed tokens')) :
      (Reader.ofTokens tokens').outcome requests = r.outcome requests :=
    idle.outcome_of_agree (Reader.idle_ofTokens tokens') rfl requests agree
  have before (j : Nat) (e : Token) (found : (Token.closed tokens)[j]? = some e)
      (eof : e.kind = .eof) : k ≤ j := by
    by_contra beyond
    exact leads.unended j e (Nat.zero_le j) (Nat.lt_of_not_le beyond) found eof
  refine ⟨?_, alike, before, fun front e back split eof => ?_⟩
  · obtain ⟨answers, last⟩ := idle.answers_eq requests
    rw [start] at answers last
    refine ⟨answers, ?_⟩
    rw [← last, Reader.cursor, leads.tokens]
    rfl
  · have agree := Token.agreeTo_of_eof front back eof
    rw [← split] at agree
    have here : (Token.closed tokens)[front.length]? = some e := by
      rw [← agree front.length (Nat.le_refl _), Token.closed_concat, if_pos eof,
        List.getElem?_concat_length]
    exact alike _ (agree.mono (before _ e here eof))

/-- A declaration that fails at its second token, and the same request once more. -/
theorem nameless_declaration_settled :
    let tokens : List Token := [⟨.letWord, "let", ⟨0, 3⟩⟩, ⟨.equals, "=", ⟨4, 5⟩⟩]
    let others : List Token := [⟨.semi, ";", ⟨5, 6⟩⟩, .endAt 6, ⟨.openParen, "(", ⟨7, 8⟩⟩]
    Token.AgreeTo 1 (Token.closed tokens) (Token.closed (tokens ++ others)) ∧
      (Reader.ofTokens (tokens ++ others)).outcome [.declaration, .declaration]
        = ([⟨.declaration, .error (.unexpectedToken "=" (.token .identifier) ⟨4, 5⟩)⟩,
            ⟨.declaration, .error (.unexpectedToken "=" .expression ⟨4, 5⟩)⟩], 1) := by
  intro tokens others
  have agree : Token.AgreeTo 1 (Token.closed tokens) (Token.closed (tokens ++ others)) := by decide
  have outcome : (Reader.ofTokens tokens).outcome [.declaration, .declaration]
      = ([⟨.declaration, .error (.unexpectedToken "=" (.token .identifier) ⟨4, 5⟩)⟩,
          ⟨.declaration, .error (.unexpectedToken "=" .expression ⟨4, 5⟩)⟩], 1) := by
    with_unfolding_all rfl
  obtain ⟨_, last⟩ := Prod.mk.inj outcome
  have settled := (settled_up_to_lookahead tokens [.declaration, .declaration]).2.1
  exact ⟨agree, (settled _ (last ▸ agree)).trans outcome⟩

end Bramble
