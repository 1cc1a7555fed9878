import Bramble.Proofs.Grammar.Delimiters
import Bramble.Proofs.Grammar.Inversion
import Bramble.Proofs.Grammar.Rounds

/-!
# Errors in time

An error is about the next token, about the token that was taken last, or about an opening delimiter
that was taken before. It comes in time if the tokens before the one that it is about are the
beginning of some text of the grammar, so that it could not have come earlier. For a delimiter that
is not closed, all tokens that were taken have to be such a beginning, and what was taken since the
delimiter has to be balanced.

The grammar is a parameter. A parser is punctual if its errors come in time for what it reads
itself. From there they come in time for every text in which such a part may stand, which is what
the rules for sequences and repetitions say (`Punctual.before`, `timely_collect`).
-/

set_option autoImplicit false

namespace Bramble

open Token (Balanced)

/-! ## What an error is about -/

/-- The tokens that errors are about, as seen from where the cursor has stopped. -/
inductive ParseError.Subject where
  | next
  | last
  | opening
deriving DecidableEq, Repr

/-- Which token an error is about. -/
def ParseError.subject : ParseError → Subject
  | .invalidAssignmentTarget _ | .integerOutOfRange _ _ => .last
  | .unexpectedToken _ .operator _ | .unexpectedToken _ .quotedString _ => .last
  | .unmatchedDelimiter _ _ => .opening
  | _ => .next

/-- The errors about a token that has been taken: what stands before `=` is no name, a numeral is
out of range, a comma stands outside of lists, or a string has no quotation marks. -/
inductive ParseError.Refuses : ParseError → Token → Prop where
  | assignment {t : Token} (kind : t.kind = .equals) : Refuses (.invalidAssignmentTarget t.span) t
  | integer {t : Token} (kind : t.kind = .intLit) : Refuses (.integerOutOfRange t.lexeme t.span) t
  | comma {t : Token} (kind : t.kind = .comma) :
      Refuses (.unexpectedToken t.lexeme .operator t.span) t
  | string {t : Token} (kind : t.kind = .stringLit) :
      Refuses (.unexpectedToken t.lexeme .quotedString t.span) t

theorem ParseError.Refuses.subject_eq {e : ParseError} {t : Token} (refuses : e.Refuses t) :
    e.subject = .last ∧ e.span = t.span := by
  cases refuses <;> exact ⟨rfl, rfl⟩

/-- Tokens that can be continued to a text of a grammar. -/
def Token.Viable (whole : List Token → Prop) (ts : List Token) : Prop :=
  ∃ more, whole (ts ++ more)

theorem Token.Viable.of_whole {whole : List Token → Prop} {ts : List Token} (holds : whole ts) :
    Viable whole ts := ⟨[], (List.append_nil ts).symm ▸ holds⟩

/-- What is the beginning of a viable list of tokens is viable. -/
theorem Token.Viable.of_append {whole : List Token → Prop} {ts us : List Token}
    (viable : Viable whole (ts ++ us)) : Viable whole ts := by
  obtain ⟨more, holds⟩ := viable
  exact ⟨us ++ more, List.append_assoc ts us more ▸ holds⟩

open Token (Viable)

namespace Parse

open Grammar

/-- The ending of a parser that began at `c`, behind the tokens `left`. If it is an error, the error
comes in time for texts of the grammar `whole`. -/
inductive Timely (whole : List Token → Prop) (left : List Token) (c : Cursor) {α : Type} :
    EStateM.Result ParseError Cursor α → Prop where
  | ok {a : α} {c' : Cursor} : Timely whole left c (.ok a c')
  | next {e : ParseError} {c' : Cursor} {taken : List Token} (start : c = c'.push taken)
      (viable : Viable whole (left ++ taken)) (about : e.subject = .next)
      (span : e.span = c'.span) : Timely whole left c (.error e c')
  | last {e : ParseError} {c' : Cursor} {taken : List Token} {t : Token}
      (start : c = c'.push (taken ++ [t])) (viable : Viable whole (left ++ taken))
      (refuses : e.Refuses t) : Timely whole left c (.error e c')
  | opening {c' : Cursor} {taken before inside : List Token} {opening : Token}
      (start : c = c'.push taken) (viable : Viable whole (left ++ taken))
      (behind : left ++ taken = before ++ opening :: inside)
      (opens : opening.kind.isOpening = true) (balanced : Balanced inside) :
      Timely whole left c
        (.error (.unmatchedDelimiter (opening.lexeme.toList.headD '(') opening.span) c')

section Rules

variable {α β σ : Type} {whole : List Token → Prop} {left : List Token} {c c' : Cursor}

/-- What was taken first counts among the tokens that were there before. -/
theorem Timely.from {taken : List Token} {x : EStateM.Result ParseError Cursor α}
    (start : c = c'.push taken) (timely : Timely whole (left ++ taken) c' x) :
    Timely whole left c x := by
  subst start
  cases timely with
  | ok => exact .ok
  | @next e rest more start viable about span =>
      rw [List.append_assoc] at viable
      exact .next (by rw [start, Cursor.push_push]) viable about span
  | @last e rest more t start viable refuses =>
      rw [List.append_assoc] at viable
      exact .last (by rw [start, Cursor.push_push, List.append_assoc]) viable refuses
  | @opening rest more before inside opening start viable behind opens balanced =>
      rw [List.append_assoc] at viable behind
      exact .opening (by rw [start, Cursor.push_push]) viable behind opens balanced

/-- An error that comes in time for a part comes in time for a text in which the part may stand. -/
theorem Timely.lift {part : List Token → Prop} {x : EStateM.Result ParseError Cursor α}
    (timely : Timely part [] c x) (fill : ∀ ts, part ts → Viable whole (left ++ ts)) :
    Timely whole left c x := by
  have grows {ts : List Token} (viable : Viable part ts) : Viable whole (left ++ ts) := by
    obtain ⟨more, holds⟩ := viable
    have longer := fill _ holds
    rw [← List.append_assoc] at longer
    exact longer.of_append
  cases timely with
  | ok => exact .ok
  | next start viable about span => exact .next start (grows viable) about span
  | last start viable refuses => exact .last start (grows viable) refuses
  | @opening rest more before inside opening start viable behind opens balanced =>
      have behind' : left ++ more = (left ++ before) ++ opening :: inside := by
        rw [List.append_assoc, ← behind]
        rfl
      exact .opening start (grows viable) behind' opens balanced

/-- Nothing is said of the result that there would have been. -/
theorem Timely.failed {e : ParseError} (timely : Timely (α := α) whole left c (.error e c')) :
    Timely (α := β) whole left c (.error e c') := by
  cases timely with
  | next start viable about span => exact .next start viable about span
  | last start viable refuses => exact .last start viable refuses
  | opening start viable behind opens balanced =>
      exact .opening start viable behind opens balanced

theorem Timely.bind {start : Cursor} {p : Parse α} {f : α → Parse β}
    (first : Timely whole left start (p c))
    (second : ∀ a c', p c = .ok a c' → Timely whole left start (f a c')) :
    Timely whole left start ((p >>= f) c) := by
  cases ending : p c with
  | ok a c' =>
      rw [bind_ok ending]
      exact second a c' ending
  | error e c' =>
      rw [bind_error ending]
      rw [ending] at first
      exact first.failed

/-- An error about the next token, with none taken. -/
theorem Timely.here {e : ParseError} (viable : Viable whole left) (about : e.subject = .next)
    (span : e.span = c.span) : Timely (α := α) whole left c (.error e c) :=
  .next (c.push_nil).symm ((List.append_nil left).symm ▸ viable) about span

/-- An error about the one token that has been taken. -/
theorem Timely.atLast {e : ParseError} {t : Token} (viable : Viable whole left)
    (refuses : e.Refuses t) : Timely (α := α) whole left (c.push [t]) (.error e c) := by
  have start : c.push [t] = c.push ([] ++ [t]) := rfl
  exact .last start ((List.append_nil left).symm ▸ viable) refuses

/-! ## Single tokens -/

theorem timely_tooDeep (viable : Viable whole left) :
    Timely whole left c ((tooDeep : Parse α) c) := .here viable rfl rfl

theorem timely_unexpected {expected : Expectation} (viable : Viable whole left)
    (about : ∀ lexeme span, (ParseError.unexpectedToken lexeme expected span).subject = .next) :
    Timely whole left c ((unexpected expected : Parse α) c) := by
  obtain ⟨ahead, stop⟩ := c
  cases ahead with
  | nil => exact .here viable rfl rfl
  | cons t ts => exact .here viable (about _ _) rfl

theorem timely_take? {find : Token.Kind → Option α} : Timely whole left c (take? find c) := by
  rcases take?_cases find c with ⟨_, still⟩ | ⟨_, _, _, _, _, took⟩
  · rw [still]
    exact .ok
  · rw [took]
    exact .ok

/-- A look at whether there is a next token. -/
theorem Timely.peek {f : Option Token → Parse α} (ended : Timely whole left c (f none c))
    (more : ∀ t, Timely whole left c (f (some t) c)) :
    Timely whole left c ((peek? >>= f) c) := by
  rw [bind_ok (p := peek?) rfl]
  cases c.ahead.head? with
  | none => exact ended
  | some t => exact more t

/-- A look at the kind of the next token. -/
theorem Timely.sees {kind : Token.Kind} {f : Bool → Parse α}
    (seen : Timely whole left c (f true c)) (other : Timely whole left c (f false c)) :
    Timely whole left c ((sees kind >>= f) c) := by
  rw [bind_ok (sees_eq kind c)]
  cases decide (c.nextKind? = some kind) with
  | true => exact seen
  | false => exact other

theorem Timely.accept {kind : Token.Kind} {f : Bool → Parse α}
    (accepted : ∀ t c', c = c'.push [t] → t.kind = kind →
      Timely whole (left ++ [t]) c' (f true c'))
    (refused : c.nextKind? ≠ some kind → Timely whole left c (f false c)) :
    Timely whole left c ((accept kind >>= f) c) := by
  by_cases next : c.nextKind? = some kind
  · obtain ⟨t, rest, rfl, same⟩ := exists_of_nextKind? next
    rw [bind_ok (accept_of_kind same)]
    exact .from rfl (accepted t rest rfl same)
  · rw [bind_ok (accept_of_ne next)]
    exact refused next

theorem timely_expect {kind : Token.Kind} (viable : Viable whole left) :
    Timely whole left c (expect (M := Parse) kind c) := by
  by_cases next : c.nextKind? = some kind
  · obtain ⟨t, rest, rfl, same⟩ := exists_of_nextKind? next
    rw [expect_of_kind same]
    exact .ok
  · rw [expect_of_ne next]
    exact timely_unexpected viable fun _ _ => rfl

theorem Timely.expect {kind : Token.Kind} {f : Token → Parse α} (viable : Viable whole left)
    (rest : ∀ t c', t.kind = kind → Timely whole (left ++ [t]) c' (f t c')) :
    Timely whole left c ((expect kind >>= f) c) := by
  refine (timely_expect viable).bind fun t c' ok => ?_
  obtain ⟨start, same⟩ := of_expect ok
  exact .from start (rest t c' same)

theorem timely_unmatched {opening : Token} {before inside : List Token}
    (viable : Viable whole (before ++ opening :: inside))
    (opens : opening.kind.isOpening = true) (balanced : Balanced inside) :
    Timely whole (before ++ opening :: inside) c ((unmatched opening : Parse α) c) :=
  .opening (c.push_nil).symm ((List.append_nil _).symm ▸ viable) (List.append_nil _) opens balanced

/-- The token that closes a delimiter, behind balanced tokens. -/
theorem timely_close {kind : Token.Kind} {opening : Token} {before inside : List Token}
    (viable : Viable whole (before ++ opening :: inside))
    (opens : opening.kind.isOpening = true) (balanced : Balanced inside) :
    Timely whole (before ++ opening :: inside) c (close (M := Parse) kind opening c) :=
  .accept (fun _ _ _ _ => .ok) fun _ => timely_unmatched viable opens balanced

/-! ## Repetition -/

/-- Rounds that keep what the next one needs. -/
theorem timely_iterate {step : σ → Parse (Option σ)} (holds : σ → List Token → Cursor → Prop)
    (rounds : ∀ s left c, holds s left c → Timely whole left c (step s c) ∧
      ∀ s' c', step s c = .ok (some s') c' →
        ∃ taken, c = c'.push taken ∧ holds s' (left ++ taken) c')
    {s : σ} (start : holds s left c) : Timely whole left c (iterate step s c) := by
  fun_induction iterate step s c generalizing left with
  | case1 s c e rest failed =>
      have round := (rounds s left c start).1
      rw [failed] at round
      exact round.failed
  | case2 s c rest last => exact .ok
  | case3 s c next rest round shorter ih =>
      obtain ⟨taken, same, kept⟩ := (rounds s left c start).2 next rest round
      exact .from same (ih kept)
  | case4 s c next rest round longer => exact .ok

theorem timely_collect {step : Parse (Option α)} (holds : List Token → Cursor → Prop)
    (rounds : ∀ left c, holds left c → Timely whole left c (step c) ∧
      ∀ a c', step c = .ok (some a) c' → ∃ taken, c = c'.push taken ∧ holds (left ++ taken) c')
    (start : holds left c) : Timely whole left c (collect step c) := by
  have repeated : Timely whole left c (iterate (addRound step) [] c) := by
    refine timely_iterate (fun _ => holds) (fun found left c here => ?_) start
    obtain ⟨timely, keeps⟩ := rounds left c here
    refine ⟨timely.bind fun next c' _ => .ok, fun found' c' added => ?_⟩
    obtain ⟨a, round, _⟩ := of_addRound_some added
    exact keeps a c' round
  exact repeated.bind fun _ _ _ => .ok

end Rules

/-! ## Parsers of parts -/

/-- A parser that reads parts of a text, and whose errors come in time for such parts. -/
structure Punctual {α : Type} (good : α → List Token → Prop) (p : Parse α) : Prop where
  timely (c : Cursor) : Timely (fun ts => ∃ a, good a ts) [] c (p c)
  sound {c : Cursor} {a : α} {c' : Cursor} (ok : p c = .ok a c') :
    ∃ ts, c = c'.push ts ∧ good a ts

section Parts

variable {α β : Type} {whole : List Token → Prop} {left : List Token} {c : Cursor}
  {good : α → List Token → Prop}

/-- A part in front of the rest. -/
theorem Punctual.before {p : Parse α} (punctual : Punctual good p) {f : α → Parse β}
    (fill : ∀ a ts, good a ts → Viable whole (left ++ ts))
    (rest : ∀ a ts c', good a ts → Timely whole (left ++ ts) c' (f a c')) :
    Timely whole left c ((p >>= f) c) := by
  refine ((punctual.timely c).lift fun ts ⟨a, part⟩ => fill a ts part).bind fun a c' ok => ?_
  obtain ⟨ts, start, part⟩ := punctual.sound ok
  exact .from start (rest a ts c' part)

theorem punctual_name : Punctual RendersParam name where
  timely _ := .expect ⟨[.ofName "x"], "x", .mk (Token.ofName_names "x")⟩ fun _ _ _ => .ok
  sound ok := by
    obtain ⟨t, same, names⟩ := of_name ok
    exact ⟨[t], same, .mk names⟩

/-! ## Lists with commas -/

theorem timely_listed {item : Parse α} (items : Punctual good item)
    (balanced : ∀ a ts, good a ts → Balanced ts) {opening : Token} {before : List Token}
    (opens : opening.kind.isOpening = true)
    (fill : ∀ as ts, Separated good as ts → Viable whole (before ++ opening :: ts)) :
    Timely whole (before ++ [opening]) c (listed item opening c) := by
  refine .accept (fun _ _ _ _ => .ok) fun _ => ?_
  refine items.before (fun a ts part => ?_) fun first ts c' part => ?_
  · rw [← List.append_cons]
    exact fill [a] ts (.one part)
  refine Timely.bind ?_ fun others c' _ => .ok
  -- The items so far are separated, and their tokens are all there is behind the delimiter.
  refine timely_collect (fun left _ => ∃ as ts, as ≠ [] ∧ Separated good as ts ∧
    left = before ++ opening :: ts) ?_ ⟨[first], ts, List.cons_ne_nil _ _, .one part,
      (List.append_cons ..).symm⟩
  rintro _ c ⟨as, ts, some, separated, rfl⟩
  constructor
  · refine .accept (fun _ _ _ _ => .ok) fun _ => .accept (fun comma mid _ between => ?_) fun _ => ?_
    · refine items.before (fun a us part => ?_) fun _ _ _ _ => .ok
      have longer := fill _ _ (separated.concat some between part)
      simpa using longer
    · refine timely_unmatched (fill as ts separated) opens ?_
      exact Token.balanced_separated separated fun a _ ts part => balanced a ts part
  · intro a c' round
    rcases of_another round with ⟨impossible, _⟩ | ⟨_, comma, mid, same, rfl, between, read⟩
    · cases impossible
    · cases same
      obtain ⟨us, rfl, part⟩ := items.sound read
      exact ⟨comma :: us, by simp, as ++ [a], ts ++ comma :: us, by simp,
        separated.concat some between part, by simp⟩

/-- A list in front of the rest. -/
theorem Timely.listed {item : Parse α} (items : Punctual good item)
    (balanced : ∀ a ts, good a ts → Balanced ts) {opening : Token} {before : List Token}
    (opens : opening.kind = .openParen)
    (fill : ∀ as ts, Separated good as ts → Viable whole (before ++ opening :: ts))
    {f : List α → Parse β}
    (rest : ∀ as ts closing c', Separated good as ts → closing.kind = .closeParen →
      Timely whole (before ++ opening :: ts ++ [closing]) c' (f as c')) :
    Timely whole (before ++ [opening]) c ((listed item opening >>= f) c) := by
  have opening' : opening.kind.isOpening = true := by rw [opens]; rfl
  refine (timely_listed items balanced opening' fill).bind fun as c' read => ?_
  have sound (c : Cursor) (a : α) (c' : Cursor) (ok : item c = .ok a c') :
      ∃ ts, c = c'.push ts ∧ good a ts ∧ True := by
    obtain ⟨ts, same, part⟩ := items.sound ok
    exact ⟨ts, same, part, trivial⟩
  obtain ⟨ts, closing, same, closes, separated, _⟩ := of_listed sound read
  refine .from same ?_
  rw [← List.append_assoc, ← List.append_cons]
  exact rest as ts closing c' separated closes

end Parts

end Parse
end Bramble
