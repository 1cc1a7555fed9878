import Bramble.Grammar.Reading

/-!
# Cursors

A cursor is what is left of a list of tokens, up to the first end of the input. The end is never
taken, so its span is all that is kept of it. A parser reads from a cursor; where it fails, the
tokens that it took before stay taken.

Every round of a repetition takes at least one token. A round that takes none would be repeated
forever, so it ends the repetition, and the number of tokens ahead bounds the number of rounds.
-/

set_option autoImplicit false

namespace Bramble

/-- The tokens before the end of the input, and where that end is. -/
structure Cursor where
  ahead : List Token
  stop : Span
deriving DecidableEq, Repr

/-- Parsers: they move a cursor and give a result or an error. -/
abbrev Parse := EStateM ParseError Cursor

namespace Cursor

/-- The end of the input after tokens that do not contain it: where the last of them stops. -/
def endOf (tokens : List Token) : Span :=
  match tokens.getLast? with
  | some token => ⟨token.span.stop, token.span.stop⟩
  | none => ⟨0, 0⟩

/-- The cursor at the beginning of a list of tokens. -/
def ofTokens (tokens : List Token) : Cursor where
  ahead := tokens.takeWhile (·.kind ≠ .eof)
  stop :=
    match tokens.find? (·.kind = .eof) with
    | some token => token.span
    | none => endOf tokens

/-- Where the next token stands, or the end of the input. -/
def span (cursor : Cursor) : Span :=
  match cursor.ahead with
  | [] => cursor.stop
  | token :: _ => token.span

end Cursor

namespace Parse

variable {α σ : Type}

/-- The next token. -/
def peek? : Parse (Option Token) := fun cursor => .ok cursor.ahead.head? cursor

/-- Takes the next token if something is found for its kind. -/
def take? (find : Token.Kind → Option α) : Parse (Option (Token × α)) := fun cursor =>
  match cursor.ahead.head? with
  | none => .ok none cursor
  | some token =>
      match find token.kind with
      | some found => .ok (some (token, found)) { cursor with ahead := cursor.ahead.tail }
      | none => .ok none cursor

/-- Fails because the next token does not fit. -/
def unexpected (expected : Expectation) : Parse α := fun cursor =>
  match cursor.ahead with
  | [] => .error (.unexpectedEnd expected cursor.stop) cursor
  | token :: _ => .error (.unexpectedToken token.lexeme expected token.span) cursor

/-- Runs `step` on its own results until it has none. -/
def iterate (step : σ → Parse (Option σ)) (start : σ) : Parse σ := fun cursor =>
  match step start cursor with
  | .error e rest => .error e rest
  | .ok none rest => .ok start rest
  | .ok (some next) rest =>
      if rest.ahead.length < cursor.ahead.length then iterate step next rest
      else .ok next rest
termination_by cursor => cursor.ahead.length

instance : Reading Parse where
  peek? := peek?
  take? := take?
  fail := throw
  unexpected := unexpected
  iterate := iterate

end Parse
end Bramble
