import Bramble.Grammar.Error

/-!
# Reading tokens

The grammar is written once, for anything that can read tokens. What it asks of a reader is the
class `Reading`: to look at the next token, to take it, to fail, and to go on for as long as there
is something to add. From these come the steps that all rules of the grammar are made of.
-/

set_option autoImplicit false

universe u

namespace Bramble

/-- What the grammar asks of a reader of tokens. -/
class Reading (M : Type → Type u) [Monad M] where
  /-- The next token. There is none at the end of the input. -/
  peek? : M (Option Token)
  /-- Takes the next token if something is found for its kind, and gives both. -/
  take? {α : Type} (find : Token.Kind → Option α) : M (Option (Token × α))
  /-- Fails with an error. -/
  fail {α : Type} (e : ParseError) : M α
  /-- Fails because the next token does not fit. -/
  unexpected {α : Type} (expected : Expectation) : M α
  /-- Runs `step` on its own results until it has none. -/
  iterate {σ : Type} (step : σ → M (Option σ)) (start : σ) : M σ

namespace Grammar

export Reading (peek? take? fail unexpected iterate)

variable {M : Type → Type u} [Monad M] [Reading M] {α : Type}

/-! ## Tokens -/

/-- Whether the next token is of a kind. -/
def sees (kind : Token.Kind) : M Bool := do
  return (← peek?).any (·.kind = kind)

/-- Takes the next token if it is of a kind, and says whether it was. -/
def accept (kind : Token.Kind) : M Bool := do
  return (← take? (Option.guard (· = kind))).isSome

/-- Takes the next token, which has to be of a kind. -/
def expect (kind : Token.Kind) : M Token := do
  match ← take? (Option.guard (· = kind)) with
  | some (token, _) => return token
  | none => unexpected (.token kind)

/-- Takes a name. -/
def name : M String := do
  return (← expect .identifier).lexeme

/-- Fails because a delimiter is not closed. -/
def unmatched (opening : Token) : M α :=
  fail (.unmatchedDelimiter (opening.lexeme.toList.headD '(') opening.span)

/-- Takes the token that closes a delimiter. -/
def close (kind : Token.Kind) (opening : Token) : M Unit := do
  unless ← accept kind do
    unmatched opening

/-! ## Repetition -/

/-- A round that adds its result to those found so far, the last one first. -/
def addRound (step : M (Option α)) (found : List α) : M (Option (List α)) := do
  return (← step).map (· :: found)

/-- Runs `step` until it has no result, and collects its results in order. -/
def collect (step : M (Option α)) : M (List α) := do
  return (← iterate (addRound step) []).reverse

/-- The item after a comma. There is none at the token that closes `opening`. -/
def another? (item : M α) (opening : Token) : M (Option α) := do
  if ← accept .closeParen then
    return none
  else if ← accept .comma then
    return some (← item)
  else
    unmatched opening

/-- Items with commas between them, up to the token that closes `opening`. There may be none. -/
def listed (item : M α) (opening : Token) : M (List α) := do
  if ← accept .closeParen then
    return []
  else
    let first ← item
    let others ← collect (another? item opening)
    return first :: others

end Grammar
end Bramble
