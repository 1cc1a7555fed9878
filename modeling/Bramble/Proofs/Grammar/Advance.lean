import Bramble.Grammar.Parser
import Bramble.Proofs.Grammar.Canonical
import Bramble.Proofs.Grammar.Rendering
import Bramble.Proofs.Grammar.Rounds

/-!
# How parsers advance

A parser that comes to known tokens either gets past them or runs out of levels of nesting at
one of them. `Parse.Advances fits before ts after rest` says which: in front of the tokens `ts`,
with `rest` behind them, the parser `before` does what `after` does at `rest` if `fits` holds,
and otherwise fails with an error of nesting at one of the tokens. A parser that reads the
tokens as a result advances to `pure` of that result.

Such steps are put together by transitivity and by `bind`, and each primitive parser has its step,
so that a grammar rule is read off a parser one token at a time, up to lists with commas
(`Advances.listed`).
-/

set_option autoImplicit false

namespace Bramble

/-! ## Tokens in front of a cursor -/

namespace Cursor

/-- A cursor with tokens put in front of it. -/
def push (cursor : Cursor) (ts : List Token) : Cursor :=
  { cursor with ahead := ts ++ cursor.ahead }

@[simp]
theorem push_nil (cursor : Cursor) : cursor.push [] = cursor := rfl

@[simp]
theorem push_push (cursor : Cursor) (ts us : List Token) :
    (cursor.push us).push ts = cursor.push (ts ++ us) := by
  simp [push]

@[simp]
theorem ahead_push (cursor : Cursor) (ts : List Token) :
    (cursor.push ts).ahead = ts ++ cursor.ahead := rfl

/-- The kind of the next token. -/
def nextKind? (cursor : Cursor) : Option Token.Kind := cursor.ahead.head?.map Token.kind

@[simp]
theorem nextKind?_push_cons (cursor : Cursor) (t : Token) (ts : List Token) :
    (cursor.push (t :: ts)).nextKind? = some t.kind := rfl

/-- No operator with a left power above `power` comes next. -/
def Stops (cursor : Cursor) (power : Nat) : Prop :=
  ∀ kind, cursor.nextKind? = some kind → kind.leftPower ≤ power

theorem Stops.mono {cursor : Cursor} {low high : Nat} (stops : cursor.Stops low)
    (le : low ≤ high) : cursor.Stops high :=
  fun kind next => Nat.le_trans (stops kind next) le

theorem stops_of_next {cursor : Cursor} {kind : Token.Kind} {power : Nat}
    (next : cursor.nextKind? = some kind) (le : kind.leftPower ≤ power) : cursor.Stops power := by
  intro other same
  rw [next] at same
  cases same
  exact le

/-- Then no operator is found that could be taken. -/
theorem stops_iff {cursor : Cursor} {power : Nat} :
    cursor.Stops power ↔ cursor.nextKind?.bind (Token.Kind.infixAbove? power) = none := by
  refine ⟨fun stops => ?_, fun nothing kind next => ?_⟩
  · cases next : cursor.nextKind? with
    | none => rfl
    | some kind => exact Token.Kind.infixAbove?_of_le (stops kind next)
  · refine Nat.le_of_not_lt fun above => ?_
    rw [next, Option.bind_some, Token.Kind.infixAbove?_of_lt above] at nothing
    cases nothing

/-- No power is above that of a call. -/
theorem stops_fifteen (cursor : Cursor) : cursor.Stops 15 :=
  fun kind _ => kind.leftPower_le

end Cursor

namespace Parse

open Grammar

/-! ## Primitive parsers in front of tokens -/

section Primitive

variable {α β : Type} {rest c : Cursor} {ts : List Token} {t : Token} {kind : Token.Kind}

theorem take?_of_some {find : Token.Kind → Option α} {x : α} (found : find t.kind = some x) :
    take? find (rest.push (t :: ts)) = .ok (some (t, x)) (rest.push ts) := by
  simp [take?, Cursor.push, found]

theorem take?_of_none {find : Token.Kind → Option α} (nothing : c.nextKind?.bind find = none) :
    take? find c = .ok none c := by
  obtain ⟨ahead, stop⟩ := c
  cases ahead with
  | nil => rfl
  | cons t ts =>
      have none : find t.kind = none := nothing
      simp [take?, none]

theorem take?_cases (find : Token.Kind → Option α) (c : Cursor) :
    (c.nextKind?.bind find = none ∧ take? find c = .ok none c) ∨
      ∃ t x rest, c = Cursor.push rest [t] ∧ find t.kind = some x ∧
        take? find c = .ok (some (t, x)) rest := by
  obtain ⟨ahead, stop⟩ := c
  cases ahead with
  | nil => exact .inl ⟨rfl, rfl⟩
  | cons t ts =>
      cases found : find t.kind with
      | none => exact .inl ⟨found, take?_of_none found⟩
      | some x => exact .inr ⟨t, x, ⟨ts, stop⟩, rfl, found, by simp [take?, found]⟩

/-- The one kind that a token may be asked for. -/
theorem guard_eq_some (same : t.kind = kind) :
    Option.guard (fun k => decide (k = kind)) t.kind = some t.kind := by
  simp [Option.guard, same]

theorem guard_eq_none (other : c.nextKind? ≠ some kind) :
    c.nextKind?.bind (Option.guard fun k => decide (k = kind)) = none := by
  cases next : c.nextKind? with
  | none => rfl
  | some k =>
      have differs : k ≠ kind := fun same => other (next.trans (congrArg some same))
      simp [Option.guard, differs]

theorem sees_eq (kind : Token.Kind) (c : Cursor) :
    sees (M := Parse) kind c = .ok (decide (c.nextKind? = some kind)) c := by
  have seen : c.ahead.head?.any (fun t => t.kind = kind) = decide (c.nextKind? = some kind) := by
    unfold Cursor.nextKind?
    cases c.ahead.head? with
    | none => rfl
    | some t => simp
  rw [← seen]
  rfl

theorem accept_of_kind (same : t.kind = kind) :
    accept (M := Parse) kind (rest.push (t :: ts)) = .ok true (rest.push ts) :=
  bind_ok (take?_of_some (guard_eq_some same))

theorem accept_of_ne (other : c.nextKind? ≠ some kind) :
    accept (M := Parse) kind c = .ok false c :=
  bind_ok (take?_of_none (guard_eq_none other))

theorem expect_of_kind (same : t.kind = kind) :
    expect (M := Parse) kind (rest.push (t :: ts)) = .ok t (rest.push ts) :=
  bind_ok (take?_of_some (guard_eq_some same))

theorem expect_of_ne (other : c.nextKind? ≠ some kind) :
    expect (M := Parse) kind c = (unexpected (.token kind) : Parse Token) c :=
  bind_ok (take?_of_none (guard_eq_none other))

theorem close_of_kind {opening : Token} (same : t.kind = kind) :
    close (M := Parse) kind opening (rest.push (t :: ts)) = .ok () (rest.push ts) :=
  bind_ok (accept_of_kind same)

theorem name_of_names {x : String} (names : t.Names x) :
    name (M := Parse) (rest.push (t :: ts)) = .ok x (rest.push ts) := by
  rw [← names.lexeme]
  exact bind_ok (expect_of_kind names.kind)

end Primitive

/-! ## Advancing -/

/-- In front of the tokens `ts`, the parser `before` does what `after` does behind them if `fits`
holds, and otherwise fails with an error of nesting at one of them. -/
structure Advances {α : Type} (fits : Prop) (before : Parse α) (ts : List Token)
    (after : Parse α) (rest : Cursor) : Prop where
  enough : fits → before (rest.push ts) = after rest
  lacking : ¬ fits → ∃ t ∈ ts, ∃ c, before (rest.push ts) = .error (.nestingTooDeep t.span) c

namespace Advances

variable {α β : Type} {fits fits' : Prop} {ts us : List Token} {rest : Cursor} {a : α}

/-- A parser that certainly gets past the tokens. -/
theorem of_eq {before after : Parse α} (same : before (rest.push ts) = after rest) :
    Advances True before ts after rest :=
  ⟨fun _ => same, fun never => absurd trivial never⟩

theorem congr {before after : Parse α} (advances : Advances fits before ts after rest)
    (same : fits ↔ fits') : Advances fits' before ts after rest :=
  ⟨fun holds => advances.enough (same.mpr holds),
    fun fails => advances.lacking fun holds => fails (same.mp holds)⟩

/-- A first parser that takes tokens and goes on as a second one. -/
theorem step {before middle after : Parse α} (ts : List Token)
    (same : before (rest.push (ts ++ us)) = middle (rest.push us))
    (next : Advances fits middle us after rest) : Advances fits before (ts ++ us) after rest := by
  refine ⟨fun holds => same.trans (next.enough holds), fun fails => ?_⟩
  obtain ⟨t, member, c, error⟩ := next.lacking fails
  exact ⟨t, List.mem_append_right ts member, c, same.trans error⟩

theorem bind {before after : Parse α} {f : α → Parse β}
    (advances : Advances fits before ts after rest) :
    Advances fits (before >>= f) ts (after >>= f) rest := by
  refine ⟨fun holds => ?_, fun fails => ?_⟩
  · show EStateM.bind before f _ = EStateM.bind after f _
    rw [EStateM.bind, EStateM.bind, advances.enough holds]
  · obtain ⟨t, member, c, error⟩ := advances.lacking fails
    exact ⟨t, member, c, bind_error error⟩

/-- One step after another. The first one that does not fit decides the error. -/
theorem trans {before middle after : Parse α}
    (first : Advances fits before ts middle (rest.push us))
    (second : Advances fits' middle us after rest) :
    Advances (fits ∧ fits') before (ts ++ us) after rest := by
  by_cases holds : fits
  · have same : before (rest.push (ts ++ us)) = middle (rest.push us) := by
      rw [← Cursor.push_push]
      exact first.enough holds
    exact (second.step ts same).congr (by simp [holds])
  · refine ⟨fun both => absurd both.1 holds, fun _ => ?_⟩
    obtain ⟨t, member, c, error⟩ := first.lacking holds
    rw [Cursor.push_push] at error
    exact ⟨t, List.mem_append_left us member, c, error⟩

/-- A parser that reads the tokens as a result, and what is done with the result. -/
theorem andThen {before : Parse α} {f : α → Parse β} {after : Parse β}
    (first : Advances fits before ts (pure a) (rest.push us))
    (second : Advances fits' (f a) us after rest) :
    Advances (fits ∧ fits') (before >>= f) (ts ++ us) after rest :=
  (first.bind (f := f)).trans second

/-! ## Steps of primitive parsers -/

section Primitive

variable {t : Token} {kind : Token.Kind} {after : Parse β}

theorem accept {f : Bool → Parse β} (same : t.kind = kind)
    (next : Advances fits (f true) ts after rest) :
    Advances fits (Grammar.accept kind >>= f) (t :: ts) after rest :=
  next.step [t] (bind_ok (accept_of_kind same))

theorem refuse {f : Bool → Parse β} (other : (rest.push ts).nextKind? ≠ some kind)
    (next : Advances fits (f false) ts after rest) :
    Advances fits (Grammar.accept kind >>= f) ts after rest :=
  next.step [] (bind_ok (accept_of_ne other))

theorem sees {f : Bool → Parse β}
    (next : Advances fits (f (decide ((rest.push ts).nextKind? = some kind))) ts after rest) :
    Advances fits (Grammar.sees kind >>= f) ts after rest :=
  next.step [] (bind_ok (sees_eq kind _))

theorem peek {f : Option Token → Parse β}
    (next : Advances fits (f (rest.push ts).ahead.head?) ts after rest) :
    Advances fits (peek? >>= f) ts after rest :=
  next.step [] (bind_ok rfl)

theorem expect {f : Token → Parse β} (same : t.kind = kind)
    (next : Advances fits (f t) ts after rest) :
    Advances fits (Grammar.expect kind >>= f) (t :: ts) after rest :=
  next.step [t] (bind_ok (expect_of_kind same))

theorem close {f : Unit → Parse β} {opening : Token} (same : t.kind = kind)
    (next : Advances fits (f ()) ts after rest) :
    Advances fits (Grammar.close kind opening >>= f) (t :: ts) after rest :=
  next.step [t] (bind_ok (close_of_kind same))

theorem name {f : String → Parse β} {x : String} (names : t.Names x)
    (next : Advances fits (f x) ts after rest) :
    Advances fits (Grammar.name >>= f) (t :: ts) after rest :=
  next.step [t] (bind_ok (name_of_names names))

/-- Without a level left the first token is at fault. -/
theorem tooDeep {after : Parse α} : Advances False Parse.tooDeep (t :: ts) after rest :=
  ⟨False.elim, fun _ => ⟨t, List.mem_cons_self, _, rfl⟩⟩

end Primitive

/-! ## Repetition -/

section Repetition

/-- Taking tokens makes the rest shorter, so a repetition goes on. -/
theorem shorter_of_taken (rest : Cursor) {ts : List Token} (taken : ts ≠ []) :
    rest.ahead.length < (rest.push ts).ahead.length := by
  have := List.length_pos_iff.mpr taken
  rw [Cursor.ahead_push, List.length_append]
  omega

/-- A round that takes tokens is followed by the next one. -/
theorem iterate {σ : Type} {step : σ → Parse (Option σ)} {s s' : σ}
    (round : Advances fits (step s) ts (pure (some s')) rest) (taken : ts ≠ []) :
    Advances fits (Parse.iterate step s) ts (Parse.iterate step s') rest := by
  refine ⟨fun holds => ?_, fun fails => ?_⟩
  · rw [Parse.iterate, round.enough holds]
    exact if_pos (shorter_of_taken rest taken)
  · obtain ⟨t, member, c, error⟩ := round.lacking fails
    refine ⟨t, member, c, ?_⟩
    rw [Parse.iterate, error]

/-- The result of a round that takes tokens comes before those of the following rounds. -/
theorem collect_round {step : Parse (Option α)}
    (round : Advances fits step ts (pure (some a)) rest) (taken : ts ≠ []) :
    Advances fits (Grammar.collect step) ts (Grammar.collect step >>= fun as => pure (a :: as))
      rest := by
  refine ⟨fun holds => ?_, fun fails => ?_⟩
  · exact collect_some (round.enough holds) (shorter_of_taken rest taken)
  · obtain ⟨t, member, c, error⟩ := round.lacking fails
    exact ⟨t, member, c, collect_error error⟩

theorem collect {step : Parse (Option α)} {as : List α}
    (round : Advances fits step ts (pure (some a)) (rest.push us)) (taken : ts ≠ [])
    (others : Advances fits' (Grammar.collect step) us (pure as) rest) :
    Advances (fits ∧ fits') (Grammar.collect step) (ts ++ us) (pure (a :: as)) rest :=
  (round.collect_round taken).trans (others.bind (f := fun as => pure (a :: as)))

/-- A round without a result ends a repetition. -/
theorem collect_end {step : Parse (Option α)} (last : Advances fits step ts (pure none) rest) :
    Advances fits (Grammar.collect step) ts (pure []) rest := by
  refine ⟨fun holds => ?_, fun fails => ?_⟩
  · exact collect_none (last.enough holds)
  · obtain ⟨t, member, c, error⟩ := last.lacking fails
    exact ⟨t, member, c, collect_error error⟩

end Repetition

/-! ## Lists with commas -/

section Listed

variable {renders : α → List Token → Prop} {item : Parse α} {fit : α → Prop}
  {opening closing comma : Token}

theorem another_comma (opening : Token) (between : comma.kind = .comma)
    (reads : Advances fits item ts (pure a) rest) :
    Advances fits (another? item opening) (comma :: ts) (pure (some a)) rest :=
  .refuse (by simp [between]) (.accept between (reads.bind (f := fun a => pure (some a))))

theorem another_close (closes : closing.kind = .closeParen) :
    Advances True (Grammar.collect (another? item opening)) [closing] (pure []) rest :=
  (accept closes (of_eq rfl)).collect_end

theorem stops_comma (between : comma.kind = .comma) (ts : List Token) :
    (rest.push (comma :: ts)).Stops 1 :=
  Cursor.stops_of_next (Cursor.nextKind?_push_cons rest comma ts) (by rw [between]; decide)

theorem stops_close (closes : closing.kind = .closeParen) : (rest.push [closing]).Stops 0 :=
  Cursor.stops_of_next (Cursor.nextKind?_push_cons rest closing []) (by rw [closes]; decide)

/-- The items after the first one, each with the comma before it. -/
theorem listed_others (opening : Token) (rest : Cursor) {b : α} {as : List α}
    (between : comma.kind = .comma)
    (separated : Separated renders (b :: as) us) (closes : closing.kind = .closeParen)
    (reads : ∀ a ∈ b :: as, ∀ ts rest, renders a ts → Cursor.Stops rest 1 →
      Advances (fit a) item ts (pure a) rest) :
    Advances (∀ a ∈ b :: as, fit a) (Grammar.collect (another? item opening))
      (comma :: us ++ [closing]) (pure (b :: as)) rest := by
  induction as generalizing b us comma with
  | nil =>
      cases separated with
      | one only =>
          have one := reads b List.mem_cons_self us (rest.push [closing]) only
            ((stops_close closes).mono (by decide))
          exact ((another_comma opening between one).collect (by simp) (another_close closes)).congr
            (by simp)
  | cons a as ih =>
      cases separated with
      | @more _ _ _ ts us comma' first next others =>
          have one := reads b List.mem_cons_self ts (rest.push (comma' :: us ++ [closing])) first
            (stops_comma next _)
          have more := ih next others fun a member => reads a (List.mem_cons_of_mem b member)
          have both := (another_comma opening between one).collect (by simp) more
          rw [show comma :: (ts ++ comma' :: us) ++ [closing]
            = comma :: ts ++ (comma' :: us ++ [closing]) by simp]
          exact both.congr List.forall_mem_cons.symm

/-- Items between parentheses, the opening one of which is already taken. -/
theorem listed {as : List α} (separated : Separated renders as ts)
    (closes : closing.kind = .closeParen)
    (starts : ∀ a ∈ as, ∀ ts rest, renders a ts →
      (Cursor.push rest ts).nextKind? ≠ some .closeParen)
    (reads : ∀ a ∈ as, ∀ ts rest, renders a ts → Cursor.Stops rest 1 →
      Advances (fit a) item ts (pure a) rest) :
    Advances (∀ a ∈ as, fit a) (Grammar.listed item opening) (ts ++ [closing]) (pure as) rest := by
  cases separated with
  | none => exact (accept closes (of_eq rfl)).congr (by simp)
  | @one a ts only =>
      have one := reads a List.mem_cons_self ts (rest.push [closing]) only
        ((stops_close closes).mono (by decide))
      refine refuse (by rw [← Cursor.push_push]; exact starts a List.mem_cons_self ts _ only) ?_
      refine (one.andThen ((another_close closes).bind)).congr ?_
      simp
  | @more a b as ts us comma first between others =>
      have one := reads a List.mem_cons_self ts (rest.push (comma :: us ++ [closing])) first
        (stops_comma between _)
      have more := listed_others opening rest between others closes
        fun a member => reads a (List.mem_cons_of_mem _ member)
      rw [show ts ++ comma :: us ++ [closing] = ts ++ (comma :: us ++ [closing]) by simp]
      refine refuse (by rw [← Cursor.push_push]; exact starts a List.mem_cons_self ts _ first) ?_
      exact (one.andThen more.bind).congr List.forall_mem_cons.symm

end Listed

end Advances

end Parse

end Bramble
