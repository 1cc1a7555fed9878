import Bramble.Grammar.Cursor
import Bramble.Grammar.Statement

/-!
# Parsers

The grammar, read from a cursor. The levels of nesting are counted down: the parsers of one level
are built from those of the next one, and where no level is left they fail.
-/

set_option autoImplicit false

namespace Bramble
namespace Parse

open Grammar

/-- Fails because no further level of nesting is left. -/
def tooDeep {α : Type} : Parse α := fun cursor => .error (.nestingTooDeep cursor.span) cursor

/-- An expression whose operators have left powers above `min`, with `room` levels of nesting
left. -/
def expression : Nat → Nat → Parse Expr
  | 0, _ => tooDeep
  | room + 1, min => operators (expression room) min

/-- What statements have one level further in, with `room` levels of nesting left. -/
def inner : Nat → Inner Parse
  | 0 => ⟨tooDeep, tooDeep⟩
  | room + 1 =>
      { block := braced (Grammar.declaration (expression room 0) (inner room))
        conditional := conditional (expression room 0) (inner room) }

/-- A statement with `room` levels of nesting left. -/
def declaration (room : Nat) : Parse Stmt := Grammar.declaration (expression room 0) (inner room)

/-- A statement that declares no name, with `room` levels of nesting left. -/
def statement (room : Nat) : Parse Stmt := Grammar.statement (expression room 0) (inner room)

/-- Statements up to the end of the input, with `room` levels of nesting left. -/
def program (room : Nat) : Parse Program := Grammar.program (declaration room)

end Parse

namespace Program

/-- Reads a list of tokens as a program. -/
def ofTokens (tokens : List Token) : Except ParseError Program :=
  match Parse.program maxNesting (Cursor.ofTokens tokens) with
  | .ok program _ => .ok program
  | .error e _ => .error e

end Program

end Bramble
