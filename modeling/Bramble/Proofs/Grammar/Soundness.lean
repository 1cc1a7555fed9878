import Bramble.Grammar.Parser
import Bramble.Proofs.Grammar.Inversion
import Bramble.Proofs.Grammar.RenderedTokens

/-!
# Programs render the tokens that they were read from

What the parsers accept is turned back into the grammar, one parser at a time: whatever an
expression, a statement or a program was read from is a rendering of it, and what was read is
canonical and nested no deeper than the room that was left (`renders_of_read`). An expression is
followed while it grows, from its prefix form over one operator after the other, because only then
the next operator decides whether the expression is complete.
-/

set_option autoImplicit false

namespace Bramble
namespace Parse

open Grammar

/-! ## What the parts of an expression were read from -/

section Forms

variable {operand : Nat → Parse Expr} {c c' : Cursor} {t : Token} {e lhs : Expr} {min : Nat}

theorem of_integer (ok : integer (M := Parse) t c = .ok e c') :
    ∃ n, Text.Numeral t.lexeme.toList (Int64.toInt n) ∧ e = .literal (.int n) ∧ c' = c := by
  cases read : (Text.signed? t.lexeme.toList).bind int64? with
  | none =>
      simp only [integer, read] at ok
      cases ok
  | some n =>
      simp only [integer, read] at ok
      cases ok
      obtain ⟨k, numeral, range⟩ := Option.bind_eq_some_iff.mp read
      rw [int64?_eq_some_iff] at range
      subst range
      exact ⟨n, Text.signed?_eq_some_iff.mp numeral, rfl, rfl⟩

theorem of_string (ok : string (M := Parse) t c = .ok e c') :
    ∃ s, t.lexeme = "\"" ++ s ++ "\"" ∧ e = .literal (.str s) ∧ c' = c := by
  cases read : unquoted? t.lexeme with
  | none =>
      simp only [string, read] at ok
      cases ok
  | some s =>
      simp only [string, read] at ok
      cases ok
      exact ⟨s, unquoted?_eq_some_iff.mp read, rfl, rfl⟩

/-- The prefix forms, by their first token. -/
theorem of_prefixRest {power : Nat} (begins : t.kind.prefixPower? = some power)
    (ok : prefixRest operand t power c = .ok e c') :
    (∃ l, t.Denotes l ∧ e = .literal l ∧ c' = c) ∨
    (∃ x, t.Names x ∧ e = .name x ∧ c' = c) ∨
    (t.kind = .openParen ∧ ∃ inner closing, operand 0 c = .ok inner (c'.push [closing]) ∧
      closing.kind = .closeParen ∧ e = .group inner) ∨
    (t.kind.isUnary = true ∧ ∃ arg, operand 13 c = .ok arg c' ∧ e = .unary t.kind arg) := by
  generalize same : prefixRest operand t power = parser at ok
  unfold prefixRest at same
  split at same <;> subst same
  · next kind =>
      obtain ⟨n, numeral, rfl, rfl⟩ := of_integer ok
      exact .inl ⟨_, .int kind numeral, rfl, rfl⟩
  · next kind =>
      obtain ⟨s, quoted, rfl, rfl⟩ := of_string ok
      exact .inl ⟨_, .str kind quoted, rfl, rfl⟩
  · next kind =>
      cases ok
      exact .inl ⟨_, .isTrue kind, rfl, rfl⟩
  · next kind =>
      cases ok
      exact .inl ⟨_, .isFalse kind, rfl, rfl⟩
  · next kind =>
      cases ok
      exact .inr (.inl ⟨_, ⟨kind, rfl⟩, rfl, rfl⟩)
  · next kind =>
      rw [kind] at begins
      cases begins
      obtain ⟨inner, mid, read, unclosed⟩ := of_bind ok
      obtain ⟨_, last, closed, done⟩ := of_bind unclosed
      obtain ⟨closing, rfl, closes⟩ := of_close closed
      cases done
      exact .inr (.inr (.inl ⟨kind, inner, closing, read, closes, rfl⟩))
  · obtain ⟨arg, mid, read, done⟩ := of_bind ok
    cases done
    have unary : t.kind.isUnary = true ∧ power = 13 := by
      revert begins
      cases kind : t.kind <;> simp_all [Token.Kind.prefixPower?, Token.Kind.isUnary]
    obtain ⟨unary, rfl⟩ := unary
    exact .inr (.inr (.inr ⟨unary, arg, read, rfl⟩))

theorem of_prefixForm (ok : prefixForm operand c = .ok e c') :
    ∃ t power mid, c = Cursor.push mid [t] ∧ t.kind.prefixPower? = some power ∧
      prefixRest operand t power mid = .ok e c' := by
  obtain ⟨taken, mid, took, done⟩ := of_bind ok
  rcases of_take? took with ⟨rfl, rfl, _⟩ | ⟨t, power, rfl, rfl, begins⟩
  · exact absurd done unexpected_ne_ok
  · exact ⟨t, power, mid, rfl, begins, done⟩

/-- The operators, by their token. -/
theorem of_infixRest {power : Token.InfixPower} (follows : t.kind.infixPower? = some power)
    (ok : infixRest operand lhs t power.right c = .ok e c') :
    (t.kind = .openParen ∧ ∃ args, listed (operand 1) t c = .ok args c' ∧ e = .call lhs args) ∨
    (t.kind = .equals ∧ ∃ x value, lhs = .name x ∧ operand 2 c = .ok value c' ∧
      e = .assign x value) ∨
    (t.kind.isBinary = true ∧ ∃ rhs, operand t.kind.rightPower c = .ok rhs c' ∧
      e = .binary t.kind lhs rhs) := by
  generalize same : infixRest operand lhs t power.right = parser at ok
  unfold infixRest at same
  split at same
  · next kind =>
      subst same
      rw [kind] at follows
      cases follows
      obtain ⟨args, mid, read, done⟩ := of_bind ok
      cases done
      exact .inl ⟨kind, args, read, rfl⟩
  · next kind =>
      rw [kind] at follows
      cases follows
      split at same <;> subst same
      · next x =>
          obtain ⟨value, mid, read, done⟩ := of_bind ok
          cases done
          exact .inr (.inl ⟨kind, x, value, rfl, read, rfl⟩)
      · cases ok
  · subst same
    cases ok
  · subst same
    obtain ⟨rhs, mid, read, done⟩ := of_bind ok
    cases done
    have binary : t.kind.isBinary = true := by
      revert follows
      cases kind : t.kind <;> simp_all [Token.Kind.infixPower?, Token.Kind.isBinary]
    rw [← Token.Kind.rightPower_eq follows] at read
    exact .inr (.inr ⟨binary, rhs, read, rfl⟩)

/-- An operator is taken if and only if its left power is above `min`. -/
theorem of_infixForm? {r : Option Expr} (ok : infixForm? operand min lhs c = .ok r c') :
    (r = none ∧ c' = c ∧ c.Stops min) ∨
    ∃ t power mid e, c = Cursor.push mid [t] ∧ t.kind.infixPower? = some power ∧
      min < power.left ∧ infixRest operand lhs t power.right mid = .ok e c' ∧ r = some e := by
  obtain ⟨taken, mid, took, rest⟩ := of_bind ok
  rcases of_take? took with ⟨rfl, rfl, nothing⟩ | ⟨t, power, rfl, rfl, found⟩
  · cases rest
    exact .inl ⟨rfl, rfl, Cursor.stops_iff.mpr nothing⟩
  · obtain ⟨follows, above⟩ := Token.Kind.infixAbove?_eq_some_iff.mp found
    obtain ⟨e, last, read, done⟩ := of_bind rest
    cases done
    exact .inr ⟨t, power, mid, e, rfl, follows, above, read, rfl⟩

end Forms

/-! ## Expressions -/

/-- An expression that has been read from the tokens `ts`, with `room` levels of nesting left and
for operators with left powers above `min`. -/
structure Parsed (room min : Nat) (e : Expr) (ts : List Token) (rest : Cursor) : Prop where
  renders : e.Renders ts
  canonical : e.Canonical
  fits : e.Fits min
  stops : rest.Stops min
  nesting : e.nesting ≤ room

/-- An expression that may still become a left operand. Of the operators that follow, none can
belong to its last operand. -/
structure Grown (room min : Nat) (e : Expr) (ts : List Token) (rest : Cursor) : Prop where
  renders : e.Renders ts
  canonical : e.Canonical
  fits : e.Fits min
  edge : rest.Stops e.edge
  inside : e.inside ≤ room

section Loop

variable {room min : Nat} {c c' : Cursor} {e lhs : Expr}
  (sound : ∀ min c e c', expression room min c = .ok e c' →
    ∃ ts, c = c'.push ts ∧ Parsed room min e ts c')

include sound

theorem grown_prefixForm (min : Nat) (ok : prefixForm (expression room) c = .ok e c') :
    ∃ ts, c = c'.push ts ∧ Grown room min e ts c' := by
  obtain ⟨t, power, mid, rfl, begins, rest⟩ := of_prefixForm ok
  rcases of_prefixRest begins rest with ⟨l, denotes, rfl, rfl⟩ | ⟨x, names, rfl, rfl⟩ |
    ⟨opens, inner, closing, read, closes, rfl⟩ | ⟨unary, arg, read, rfl⟩
  · exact ⟨[t], rfl, .literal denotes, trivial, .inl rfl, Cursor.stops_fifteen _, Nat.zero_le _⟩
  · exact ⟨[t], rfl, .name names, trivial, .inl rfl, Cursor.stops_fifteen _, Nat.zero_le _⟩
  · obtain ⟨ts, rfl, parsed⟩ := sound _ _ _ _ read
    exact ⟨t :: ts ++ [closing], by simp, .group opens parsed.renders closes, parsed.canonical,
      .inl rfl, Cursor.stops_fifteen _, parsed.nesting⟩
  · obtain ⟨ts, rfl, parsed⟩ := sound _ _ _ _ read
    exact ⟨t :: ts, by simp, .unary rfl parsed.renders,
      ⟨unary, parsed.fits, parsed.canonical⟩, .inl rfl, parsed.stops, parsed.nesting⟩

theorem Grown.call {mid : Cursor} {t : Token} {ts : List Token} {args : List Expr}
    (grown : Grown room min lhs ts (mid.push [t])) (opens : t.kind = .openParen)
    (above : min < t.kind.leftPower) (read : listed (expression room 1) t mid = .ok args c') :
    ∃ us, mid = c'.push us ∧ Grown room min (.call lhs args) (ts ++ t :: us) c' := by
  have items : ∀ c arg c', expression room 1 c = .ok arg c' →
      ∃ ts, c = c'.push ts ∧ arg.Renders ts ∧ arg.Canonical ∧ arg.nesting ≤ room := by
    intro c arg c' ok
    obtain ⟨ts, same, parsed⟩ := sound _ _ _ _ ok
    exact ⟨ts, same, parsed.renders, parsed.canonical, parsed.nesting⟩
  obtain ⟨us, closing, rfl, closes, separated, good⟩ := of_listed items read
  have tight : t.kind.leftPower ≤ lhs.edge := grown.edge t.kind rfl
  rw [opens] at above tight
  have canonicalArgs := Expr.canonicalAll_iff.mpr fun arg member => (good arg member).1
  have nestedArgs := Expr.insideAll_le_iff.mpr fun arg member => (good arg member).2
  refine ⟨us ++ [closing], rfl, ?_, ?_, .inr above, Cursor.stops_fifteen _, ?_⟩
  · rw [← List.cons_append, ← List.append_assoc]
    exact .call grown.renders opens separated closes
  · exact ⟨grown.canonical.isCallee tight, grown.canonical, canonicalArgs⟩
  · exact Nat.max_le.mpr ⟨grown.inside, nestedArgs⟩

theorem Grown.assign {mid : Cursor} {t : Token} {ts : List Token} {x : String} {value : Expr}
    (grown : Grown room min (.name x) ts (mid.push [t])) (assigns : t.kind = .equals)
    (above : min < t.kind.leftPower) (read : expression room 2 mid = .ok value c') :
    ∃ us, mid = c'.push us ∧ Grown room min (.assign x value) (ts ++ t :: us) c' := by
  obtain ⟨us, rfl, parsed⟩ := sound _ _ _ _ read
  rw [assigns] at above
  refine ⟨us, rfl, ?_, parsed.canonical, .inr above, parsed.stops, parsed.nesting⟩
  cases grown.renders with
  | name names => exact .assign names assigns parsed.renders

theorem Grown.binary {mid : Cursor} {t : Token} {ts : List Token} {rhs : Expr}
    (grown : Grown room min lhs ts (mid.push [t])) (binary : t.kind.isBinary = true)
    (above : min < t.kind.leftPower)
    (read : expression room t.kind.rightPower mid = .ok rhs c') :
    ∃ us, mid = c'.push us ∧ Grown room min (.binary t.kind lhs rhs) (ts ++ t :: us) c' := by
  obtain ⟨us, rfl, parsed⟩ := sound _ _ _ _ read
  have tight : t.kind.leftPower ≤ lhs.edge := grown.edge t.kind rfl
  refine ⟨us, rfl, .binary grown.renders rfl parsed.renders, ?_, .inr above, parsed.stops, ?_⟩
  · exact ⟨binary, Nat.le_trans tight grown.canonical.edge_le_level, parsed.fits,
      grown.canonical, parsed.canonical⟩
  · exact Nat.max_le.mpr ⟨grown.inside, parsed.nesting⟩

/-- One more operator keeps an expression growing. -/
theorem Grown.infixForm {ts : List Token} (grown : Grown room min lhs ts c)
    (ok : infixForm? (expression room) min lhs c = .ok (some e) c') :
    ∃ us, us ≠ [] ∧ c = c'.push us ∧ Grown room min e (ts ++ us) c' := by
  rcases of_infixForm? ok with ⟨impossible, _⟩ | ⟨t, power, mid, _, rfl, follows, above, rest, same⟩
  · cases impossible
  cases same
  rw [← Token.Kind.leftPower_eq follows] at above
  have longer : ∃ us, mid = c'.push us ∧ Grown room min e (ts ++ t :: us) c' := by
    rcases of_infixRest follows rest with ⟨opens, args, read, rfl⟩ |
      ⟨assigns, x, value, rfl, read, rfl⟩ | ⟨binary, rhs, read, rfl⟩
    · exact Grown.call sound grown opens above read
    · exact Grown.assign sound grown assigns above read
    · exact Grown.binary sound grown binary above read
  obtain ⟨us, rfl, more⟩ := longer
  exact ⟨t :: us, List.cons_ne_nil t us, by simp, more⟩

end Loop

/-- An expression that has been read renders the tokens that were taken for it. -/
theorem parsed_expression (room min : Nat) (c : Cursor) (e : Expr) (c' : Cursor)
    (ok : expression room min c = .ok e c') : ∃ ts, c = c'.push ts ∧ Parsed room min e ts c' := by
  induction room generalizing min c e c' with
  | zero => cases ok
  | succ room sound =>
      obtain ⟨first, mid, read, loop⟩ := of_bind ok
      obtain ⟨ts, rfl, grown⟩ := grown_prefixForm sound min read
      -- The tokens taken since the beginning render what the loop has so far.
      have ended := of_iterate
        (fun e mid' => ∃ us, mid.push ts = mid'.push us ∧ Grown room min e us mid')
        (by
          rintro lhs c e c' ⟨us, same, grown⟩ round
          obtain ⟨vs, taken, rfl, longer⟩ := Grown.infixForm sound grown round
          refine ⟨⟨us ++ vs, by simpa using same, longer⟩, ?_⟩
          exact Advances.shorter_of_taken c' taken)
        ⟨ts, rfl, grown⟩ loop
      obtain ⟨last, ⟨us, same, grown⟩, stopped⟩ := ended
      rcases of_infixForm? stopped with ⟨_, rfl, stops⟩ | ⟨_, _, _, _, _, _, _, _, impossible⟩
      · exact ⟨us, same, grown.renders, grown.canonical, grown.fits, stops,
          Nat.succ_le_succ grown.inside⟩
      · cases impossible

/-! ## Statements -/

/-- A statement that has been read from the tokens `ts`, with `room` levels of nesting left. -/
structure ParsedStmt (room : Nat) (s : Stmt) (ts : List Token) : Prop where
  renders : s.Renders ts
  canonical : s.Canonical
  nesting : s.nesting ≤ room

/-- The tokens between braces that a block has been read from. -/
structure ParsedBlock (room : Nat) (body : List Stmt) (ts : List Token) : Prop where
  renders : Stmt.RendersBlock body ts
  canonical : Stmt.CanonicalAll body
  nesting : Stmt.nestingAll body + 1 ≤ room

section Rounds

variable {parser : Parse Stmt} {opening : Token} {c c' : Cursor}

theorem of_inBlock? {r : Option Stmt} (ok : inBlock? parser opening c = .ok r c') :
    (r = none ∧ ∃ t, c = c'.push [t] ∧ t.kind = .closeBrace) ∨
      ∃ s, r = some s ∧ parser c = .ok s c' := by
  obtain ⟨closed, mid, tried, unclosed⟩ := of_bind ok
  rcases of_accept tried with ⟨rfl, t, rfl, same⟩ | ⟨rfl, rfl, _⟩
  · cases unclosed
    exact .inl ⟨rfl, t, rfl, same⟩
  · obtain ⟨next, mid, peeked, rest⟩ := of_bind unclosed
    cases peeked
    obtain ⟨ahead, stop⟩ := mid
    cases ahead with
    | nil => cases rest
    | cons t ts =>
        obtain ⟨s, last, read, done⟩ := of_bind rest
        cases done
        exact .inr ⟨s, rfl, read⟩

theorem of_inProgram? {r : Option Stmt} (ok : inProgram? parser c = .ok r c') :
    (r = none ∧ c' = c ∧ c.ahead = []) ∨ ∃ s, r = some s ∧ parser c = .ok s c' := by
  obtain ⟨next, mid, peeked, rest⟩ := of_bind ok
  cases peeked
  obtain ⟨ahead, stop⟩ := c
  cases ahead with
  | nil =>
      cases rest
      exact .inl ⟨rfl, rfl, rfl⟩
  | cons t ts =>
      obtain ⟨s, last, read, done⟩ := of_bind rest
      cases done
      exact .inr ⟨s, rfl, read⟩

/-- Statements that have been read one after the other, up to an end. -/
theorem of_sequence (room : Nat) (ending : List Token → Cursor → Prop)
    {step : Parse (Option Stmt)}
    (last : ∀ c c', step c = .ok none c' → ∃ us, c = c'.push us ∧ ending us c')
    (sound : ∀ c s c', step c = .ok (some s) c' → ∃ ts, c = c'.push ts ∧ ParsedStmt room s ts)
    {body : List Stmt} (ok : collect step c = .ok body c') :
    ∃ ts us, c = c'.push (ts ++ us) ∧ ending us c' ∧ Sequenced Stmt.Renders body ts ∧
      Stmt.CanonicalAll body ∧ Stmt.nestingAll body ≤ room := by
  refine of_collect (fun c body c' => ∃ ts us, c = c'.push (ts ++ us) ∧ ending us c' ∧
    Sequenced Stmt.Renders body ts ∧ Stmt.CanonicalAll body ∧ Stmt.nestingAll body ≤ room)
    ?_ ?_ ?_ ok
  · intro c c' round
    obtain ⟨us, rfl, ended⟩ := last c c' round
    exact ⟨[], us, rfl, ended, .none, trivial, Nat.zero_le room⟩
  · rintro c s mid body c' round ⟨ts, us, rfl, ended, sequenced, canonical, nesting⟩
    obtain ⟨vs, rfl, parsed⟩ := sound _ _ _ round
    exact ⟨vs ++ ts, us, by simp, ended, .more parsed.renders sequenced,
      ⟨parsed.canonical, canonical⟩, Nat.max_le.mpr ⟨parsed.nesting, nesting⟩⟩
  · intro c s mid round
    obtain ⟨ts, rfl, parsed⟩ := sound _ _ _ round
    obtain ⟨t, us, rfl, _⟩ := parsed.canonical.starts parsed.renders
    exact Advances.shorter_of_taken mid (List.cons_ne_nil t us)

end Rounds

section Forms

variable {room : Nat} {c c' : Cursor} {s : Stmt} {word : Token}
  (blocks : ∀ c body c', (inner room).block c = .ok body c' →
    ∃ ts, c = c'.push ts ∧ ParsedBlock room body ts)
  (branches : ∀ c s c', (inner room).conditional c = .ok s c' →
    ∃ ts below, c = c'.push ts ∧ room = below + 1 ∧ ParsedStmt below s ts ∧
      s.isConditional = true)

include blocks branches

theorem parsed_elseBranch {cond : Expr} {body : List Stmt} {ts us : List Token}
    (begins : word.kind = .ifWord) (tested : cond.Renders ts) (canonical : cond.Canonical)
    (nesting : cond.nesting ≤ room) (held : ParsedBlock room body us)
    (ok : elseBranch (inner room) cond body c = .ok s c') :
    ∃ vs, c = c'.push vs ∧ ParsedStmt room s (word :: ts ++ us ++ vs) ∧
      s.isConditional = true := by
  obtain ⟨turned, mid, tried, rest⟩ := of_bind ok
  rcases of_accept tried with ⟨rfl, otherwise, rfl, turns⟩ | ⟨rfl, rfl, _⟩
  · obtain ⟨again, mid, seen, branch⟩ := of_bind rest
    obtain ⟨rfl, _⟩ := of_sees seen
    cases again with
    | true =>
        obtain ⟨other, last, read, done⟩ := of_bind branch
        cases done
        obtain ⟨vs, below, rfl, rfl, parsed, conditional⟩ := branches _ _ _ read
        have levels : Stmt.nestingAll [other] + 1 ≤ below + 1 :=
          Nat.succ_le_succ (Nat.max_le.mpr ⟨parsed.nesting, Nat.zero_le below⟩)
        refine ⟨otherwise :: vs, by simp,
          ⟨.elseIf begins tested held.renders turns conditional parsed.renders,
            ⟨canonical, held.canonical, parsed.canonical, trivial⟩, ?_⟩, rfl⟩
        exact Nat.max_le.mpr ⟨nesting, Nat.max_le.mpr ⟨held.nesting, levels⟩⟩
    | false =>
        obtain ⟨other, last, read, done⟩ := of_bind branch
        cases done
        obtain ⟨vs, rfl, parsed⟩ := blocks _ _ _ read
        refine ⟨otherwise :: vs, by simp,
          ⟨.ifElse begins tested held.renders turns parsed.renders,
            ⟨canonical, held.canonical, parsed.canonical⟩, ?_⟩, rfl⟩
        exact Nat.max_le.mpr ⟨nesting, Nat.max_le.mpr ⟨held.nesting, parsed.nesting⟩⟩
  · cases rest
    refine ⟨[], rfl, ⟨?_, ⟨canonical, held.canonical⟩, Nat.max_le.mpr ⟨nesting, held.nesting⟩⟩, rfl⟩
    rw [List.append_nil]
    exact .ifThen begins tested held.renders

theorem parsed_conditional (ok : conditional (expression room 0) (inner room) c = .ok s c') :
    ∃ ts, c = c'.push ts ∧ ParsedStmt room s ts ∧ s.isConditional = true := by
  obtain ⟨word, mid, expected, afterWord⟩ := of_bind ok
  obtain ⟨rfl, begins⟩ := of_expect expected
  obtain ⟨cond, mid, readCond, afterCond⟩ := of_bind afterWord
  obtain ⟨body, mid, readBody, afterBody⟩ := of_bind afterCond
  obtain ⟨ts, rfl, parsed⟩ := parsed_expression _ _ _ _ _ readCond
  obtain ⟨us, rfl, held⟩ := blocks _ _ _ readBody
  obtain ⟨vs, rfl, whole⟩ := parsed_elseBranch blocks branches begins parsed.renders
    parsed.canonical parsed.nesting held afterBody
  exact ⟨word :: ts ++ us ++ vs, by simp, whole⟩

theorem parsed_statement
    (ok : Grammar.statement (expression room 0) (inner room) c = .ok s c') :
    ∃ ts, c = c'.push ts ∧ ParsedStmt room s ts := by
  obtain ⟨returns, mid, triedReturn, rest⟩ := of_bind ok
  rcases of_accept triedReturn with ⟨rfl, word, rfl, begins⟩ | ⟨rfl, rfl, _⟩
  · obtain ⟨value, mid, read, unended⟩ := of_bind rest
    obtain ⟨semi, last, expected, done⟩ := of_bind unended
    obtain ⟨rfl, ends⟩ := of_expect expected
    cases done
    obtain ⟨ts, rfl, parsed⟩ := parsed_expression _ _ _ _ _ read
    exact ⟨word :: ts ++ [semi], by simp, .ret begins parsed.renders ends, parsed.canonical,
      parsed.nesting⟩
  obtain ⟨braces, mid, seenBrace, unbraced⟩ := of_bind rest
  obtain ⟨rfl, _⟩ := of_sees seenBrace
  cases braces with
  | true =>
      obtain ⟨body, last, read, done⟩ := of_bind unbraced
      cases done
      obtain ⟨ts, rfl, parsed⟩ := blocks _ _ _ read
      exact ⟨ts, rfl, .block parsed.renders, parsed.canonical, parsed.nesting⟩
  | false =>
      obtain ⟨tests, mid, seenIf, otherwise⟩ := of_bind unbraced
      obtain ⟨rfl, _⟩ := of_sees seenIf
      cases tests with
      | true =>
          obtain ⟨ts, same, parsed, _⟩ := parsed_conditional blocks branches otherwise
          exact ⟨ts, same, parsed⟩
      | false =>
          obtain ⟨value, mid, read, unended⟩ := of_bind otherwise
          obtain ⟨semi, last, expected, done⟩ := of_bind unended
          obtain ⟨rfl, ends⟩ := of_expect expected
          cases done
          obtain ⟨ts, rfl, parsed⟩ := parsed_expression _ _ _ _ _ read
          exact ⟨ts ++ [semi], by simp, .expr parsed.renders ends, parsed.canonical,
            parsed.nesting⟩

theorem parsed_declaration
    (ok : Grammar.declaration (expression room 0) (inner room) c = .ok s c') :
    ∃ ts, c = c'.push ts ∧ ParsedStmt room s ts := by
  obtain ⟨binds, mid, triedLet, rest⟩ := of_bind ok
  rcases of_accept triedLet with ⟨rfl, word, rfl, begins⟩ | ⟨rfl, rfl, _⟩
  · obtain ⟨x, mid, named, unbound⟩ := of_bind rest
    obtain ⟨target, rfl, names⟩ := of_name named
    obtain ⟨equals, mid, expectedEquals, uninitialized⟩ := of_bind unbound
    obtain ⟨rfl, bound⟩ := of_expect expectedEquals
    obtain ⟨init, mid, read, unended⟩ := of_bind uninitialized
    obtain ⟨semi, last, expectedSemi, done⟩ := of_bind unended
    obtain ⟨rfl, ends⟩ := of_expect expectedSemi
    cases done
    obtain ⟨ts, rfl, parsed⟩ := parsed_expression _ _ _ _ _ read
    exact ⟨word :: target :: equals :: ts ++ [semi], by simp,
      .letDecl begins names bound parsed.renders ends, parsed.canonical, parsed.nesting⟩
  obtain ⟨declares, mid, triedFun, undeclared⟩ := of_bind rest
  rcases of_accept triedFun with ⟨rfl, word, rfl, begins⟩ | ⟨rfl, rfl, _⟩
  · obtain ⟨x, mid, named, afterName⟩ := of_bind undeclared
    obtain ⟨target, rfl, names⟩ := of_name named
    obtain ⟨opening, mid, expected, afterOpening⟩ := of_bind afterName
    obtain ⟨rfl, opens⟩ := of_expect expected
    obtain ⟨params, mid, readParams, afterParams⟩ := of_bind afterOpening
    obtain ⟨body, last, readBody, done⟩ := of_bind afterParams
    cases done
    have items : ∀ c x c', name (M := Parse) c = .ok x c' →
        ∃ ts, c = c'.push ts ∧ RendersParam x ts ∧ True := by
      intro c x c' ok
      obtain ⟨t, same, names⟩ := of_name ok
      exact ⟨[t], same, .mk names, trivial⟩
    obtain ⟨ts, closing, rfl, closes, taken, _⟩ := of_listed items readParams
    obtain ⟨us, rfl, held⟩ := blocks _ _ _ readBody
    exact ⟨word :: target :: opening :: ts ++ closing :: us, by simp,
      .funDecl begins names opens taken closes held.renders, held.canonical, held.nesting⟩
  · exact parsed_statement blocks branches undeclared

end Forms

/-- A block one level further in, whose statements are known to be read soundly. -/
theorem parsed_block {room : Nat}
    (sound : ∀ c s c', declaration room c = .ok s c' → ∃ ts, c = c'.push ts ∧ ParsedStmt room s ts)
    {c c' : Cursor} {body : List Stmt} (ok : (inner (room + 1)).block c = .ok body c') :
    ∃ ts, c = c'.push ts ∧ ParsedBlock (room + 1) body ts := by
  obtain ⟨opening, mid, expected, rest⟩ := of_bind ok
  obtain ⟨rfl, opens⟩ := of_expect expected
  have rounds := of_sequence room
    (fun us _ => ∃ closing : Token, us = [closing] ∧ closing.kind = .closeBrace)
    (fun c c' round => by
      rcases of_inBlock? round with ⟨_, t, rfl, closes⟩ | ⟨_, impossible, _⟩
      · exact ⟨[t], rfl, t, rfl, closes⟩
      · cases impossible)
    (fun c s c' round => by
      rcases of_inBlock? round with ⟨impossible, _⟩ | ⟨_, same, read⟩
      · cases impossible
      · cases same
        exact sound _ _ _ read) rest
  obtain ⟨ts, us, rfl, ⟨closing, rfl, closes⟩, sequenced, canonical, nesting⟩ := rounds
  exact ⟨opening :: ts ++ [closing], by simp, .mk opens sequenced closes, canonical,
    Nat.succ_le_succ nesting⟩

/-- The blocks and conditionals that have been read one level further in. -/
theorem parsed_inner (room : Nat) :
    (∀ c body c', (inner room).block c = .ok body c' →
      ∃ ts, c = c'.push ts ∧ ParsedBlock room body ts) ∧
    ∀ c s c', (inner room).conditional c = .ok s c' →
      ∃ ts below, c = c'.push ts ∧ room = below + 1 ∧ ParsedStmt below s ts ∧
        s.isConditional = true := by
  induction room with
  | zero => exact ⟨nofun, nofun⟩
  | succ room ih =>
      refine ⟨fun c body c' read => ?_, fun c s c' read => ?_⟩
      · exact parsed_block (fun c s c' => parsed_declaration ih.1 ih.2) read
      · obtain ⟨ts, same, parsed⟩ := parsed_conditional ih.1 ih.2 read
        exact ⟨ts, room, same, rfl, parsed⟩

/-- A statement that has been read renders the tokens that were taken for it. -/
theorem parsed_stmt (room : Nat) (c : Cursor) (s : Stmt) (c' : Cursor)
    (ok : declaration room c = .ok s c') : ∃ ts, c = c'.push ts ∧ ParsedStmt room s ts :=
  parsed_declaration (parsed_inner room).1 (parsed_inner room).2 ok

theorem parsed_program (room : Nat) {c c' : Cursor} {p : Program}
    (ok : program room c = .ok p c') :
    p.Renders c.ahead ∧ p.Canonical ∧ p.nesting ≤ room := by
  have rounds := of_sequence room (fun us c' => us = [] ∧ c'.ahead = [])
    (fun c c' round => by
      rcases of_inProgram? round with ⟨_, rfl, ended⟩ | ⟨_, impossible, _⟩
      · exact ⟨[], rfl, rfl, ended⟩
      · cases impossible)
    (fun c s c' round => by
      rcases of_inProgram? round with ⟨impossible, _⟩ | ⟨_, same, read⟩
      · cases impossible
      · cases same
        exact parsed_stmt room _ _ _ read) ok
  obtain ⟨ts, us, rfl, ⟨rfl, ended⟩, sequenced, canonical, nesting⟩ := rounds
  refine ⟨?_, canonical, nesting⟩
  rw [Cursor.ahead_push, ended, List.append_nil, List.append_nil]
  exact sequenced

end Parse

/-- A program that is read renders the tokens before the end of the input. -/
theorem Program.parsed_ofTokens {tokens : List Token} {p : Program}
    (ok : Program.ofTokens tokens = .ok p) :
    p.Renders (tokens.takeWhile (·.kind ≠ .eof)) ∧ p.Canonical ∧ p.nesting ≤ maxNesting := by
  rw [Program.ofTokens] at ok
  split at ok
  · next read =>
      cases ok
      exact Parse.parsed_program maxNesting read
  · cases ok

/-- An expression that is read moves the cursor over a rendering of it and stops in front of no
operator that it could still take. A program that is read renders all tokens before the end of
the input. Both are canonical, and nested no deeper than the limit allows. -/
theorem renders_of_read :
    (∀ (depth min : Nat) (c c' : Cursor) (e : Expr),
      Parse.expression (maxNesting - depth) min c = .ok e c' →
        ∃ ts, c.ahead = ts ++ c'.ahead ∧ c'.stop = c.stop ∧ e.Renders ts ∧ e.Canonical ∧
          (e.isPrefixForm = true ∨ min < e.level) ∧
          (∀ kind power, c'.nextKind? = some kind → kind.infixPower? = some power →
            power.left ≤ min) ∧
          e.nesting ≤ maxNesting - depth) ∧
    ∀ (tokens : List Token) (p : Program), Program.ofTokens tokens = .ok p →
      p.Renders (tokens.takeWhile (·.kind ≠ .eof)) ∧ p.Canonical ∧ p.nesting ≤ maxNesting := by
  refine ⟨?_, ?_⟩
  · intro depth min c c' e ok
    obtain ⟨ts, rfl, parsed⟩ := Parse.parsed_expression _ _ _ _ _ ok
    refine ⟨ts, rfl, rfl, parsed.renders, parsed.canonical, parsed.fits, ?_, parsed.nesting⟩
    intro kind power next follows
    rw [← Token.Kind.leftPower_eq follows]
    exact parsed.stops kind next
  · intro tokens p ok
    exact Program.parsed_ofTokens ok

/-- The tokens of `f(x) - -y;`. -/
def differenceTokens : List Token :=
  [.ofName "f", .ofKind .openParen, .ofName "x", .ofKind .closeParen, .ofKind .minus,
    .ofKind .minus, .ofName "y", .ofKind .semi, .endAt 10]

/-- The tree of `f(x) - -y`. -/
def difference : Expr :=
  .binary .minus (.call (.name "f") [.name "x"]) (.unary .minus (.name "y"))

theorem renders_difference :
    Parse.expression (maxNesting - 250) 8 ⟨differenceTokens, ⟨9, 10⟩⟩
        = .ok difference ⟨[.ofKind .semi, .endAt 10], ⟨9, 10⟩⟩ ∧
      Program.ofTokens differenceTokens = .ok [.expr difference] ∧
      Program.Renders [.expr difference] (differenceTokens.take 8) ∧
      8 < difference.level := by
  have read : Parse.expression (maxNesting - 250) 8 ⟨differenceTokens, ⟨9, 10⟩⟩
      = .ok difference ⟨[.ofKind .semi, .endAt 10], ⟨9, 10⟩⟩ := by
    with_unfolding_all rfl
  have readAll : Program.ofTokens differenceTokens = .ok [.expr difference] := by
    with_unfolding_all rfl
  obtain ⟨_, _, _, _, _, above, _⟩ := renders_of_read.1 250 8 _ _ _ read
  refine ⟨read, readAll, (renders_of_read.2 _ _ readAll).1, ?_⟩
  exact above.resolve_left (by decide)

end Bramble
