import Bramble.Proofs.Grammar.Range

/-!
# Readers

A reader is an object that can be asked for expressions, statements and programs again and again
(`Reader.answer`, `Reader.after`). It holds all of its tokens, the index of the current one, and a
count of the levels of nesting that are open. The index is moved one token at a time and never
beyond the last token. The count goes up when a level is entered and down when it is left, in
whichever way that happens.

Readers follow the same grammar as the parsers, which know only the tokens ahead and the levels
left. Here the primitive steps look at the current token of the list, and the levels are compared
with the limit where they are entered. The recursion of the grammar goes through `nested` alone. It
is cut off after as many levels as the limit allows, and by then the count has stopped it already.
-/

set_option autoImplicit false

namespace Bramble

/-- A list of tokens with the index of the current one and the number of open levels. -/
structure Reader where
  tokens : List Token
  index : Nat
  depth : Nat
deriving DecidableEq, Repr

/-- What a reader does: it moves and gives a result or an error. -/
abbrev Read := EStateM ParseError Reader

namespace Reader

/-- A reader at the beginning of a list of tokens, with no level open. -/
def ofTokens (tokens : List Token) : Reader where
  tokens := Token.closed tokens
  index := 0
  depth := 0

/-- The current token. -/
def current (r : Reader) : Token := r.tokens.getD r.index (.endAt 0)

/-- The reader moved to the next token, if there is one. -/
def advance (r : Reader) : Reader :=
  if r.index + 1 < r.tokens.length then { r with index := r.index + 1 } else r

/-- How many tokens there are from the current one on. -/
def ahead (r : Reader) : Nat := r.tokens.length - r.index

end Reader

namespace Read

open Grammar

variable {α σ : Type}

/-! ## Primitive steps -/

/-- The current token, unless it is the end of the input. -/
def peek? : Read (Option Token) := fun r =>
  .ok (if r.current.kind = .eof then none else some r.current) r

/-- Takes the current token if something is found for its kind. The end of the input stays. -/
def take? (find : Token.Kind → Option α) : Read (Option (Token × α)) := fun r =>
  if r.current.kind = .eof then
    .ok none r
  else
    match find r.current.kind with
    | some found => .ok (some (r.current, found)) r.advance
    | none => .ok none r

/-- Fails because the current token does not fit. -/
def unexpected (expected : Expectation) : Read α := fun r =>
  if r.current.kind = .eof then
    .error (.unexpectedEnd expected r.current.span) r
  else
    .error (.unexpectedToken r.current.lexeme expected r.current.span) r

/-- Runs `step` on its own results until it has none. A round that takes no token is the last. -/
def iterate (step : σ → Read (Option σ)) (start : σ) : Read σ := fun r =>
  match step start r with
  | .error e r' => .error e r'
  | .ok none r' => .ok start r'
  | .ok (some next) r' => if r'.ahead < r.ahead then iterate step next r' else .ok next r'
termination_by r => r.ahead

instance : Reading Read where
  peek? := peek?
  take? := take?
  fail := throw
  unexpected := unexpected
  iterate := iterate

/-! ## Levels -/

/-- Does something one level further in. Fails at the limit of nesting. -/
def nested (body : Read α) : Read α := fun r =>
  if maxNesting ≤ r.depth then
    .error (.nestingTooDeep r.current.span) r
  else
    match body { r with depth := r.depth + 1 } with
    | .ok a r' => .ok a { r' with depth := r'.depth - 1 }
    | .error e r' => .error e { r' with depth := r'.depth - 1 }

/-- Fails for want of a level. -/
def exhausted : Read α := fun r => .error (.nestingTooDeep r.current.span) r

/-- Expressions whose recursion is cut off below a number of levels. -/
def expressionWithin : Nat → Nat → Read Expr
  | 0, _ => exhausted
  | levels + 1, min => nested (operators (expressionWithin levels) min)

/-- An expression whose operators have left powers above `min`. -/
def expression (min : Nat) : Read Expr := fun r =>
  expressionWithin (maxNesting - r.depth + 1) min r

/-- What statements have one level further in, with the recursion cut off below a number of
levels. -/
def innerWithin : Nat → Inner Read
  | 0 => ⟨exhausted, exhausted⟩
  | levels + 1 =>
      { block := nested (braced (Grammar.declaration (expression 0) (innerWithin levels)))
        conditional := nested (Grammar.conditional (expression 0) (innerWithin levels)) }

/-- Something of the grammar of statements, with what there is one level further in. -/
def withInner (rule : Inner Read → Read α) : Read α := fun r =>
  rule (innerWithin (maxNesting - r.depth + 1)) r

/-- A conditional. -/
def conditional : Read Stmt := withInner (Grammar.conditional (expression 0))

/-- A statement that declares no name. -/
def statement : Read Stmt := withInner (Grammar.statement (expression 0))

/-- A statement. -/
def declaration : Read Stmt := withInner (Grammar.declaration (expression 0))

/-- Statements up to the end of the input. -/
def program : Read Program := Grammar.program declaration

end Read

/-! ## Requests -/

/-- What a reader can be asked for. -/
inductive Request where
  | expression (min : Nat)
  | statement
  | declaration
  | program
deriving DecidableEq, Repr

namespace Request

/-- What the answer to a request is, if there is one. -/
abbrev Result : Request → Type
  | .expression _ => Expr
  | .statement => Stmt
  | .declaration => Stmt
  | .program => Program

/-- How a reader answers a request. -/
def read : (request : Request) → Read request.Result
  | .expression min => Read.expression min
  | .statement => Read.statement
  | .declaration => Read.declaration
  | .program => Read.program

/-- The parser that answers a request with a number of levels left. -/
def parse (room : Nat) : (request : Request) → Parse request.Result
  | .expression min => Parse.expression room min
  | .statement => Parse.statement room
  | .declaration => Parse.declaration room
  | .program => Parse.program room

end Request

namespace Reader

/-- The answer of a reader to a request. -/
def answer (r : Reader) (request : Request) : Except ParseError request.Result :=
  match request.read r with
  | .ok a _ => .ok a
  | .error e _ => .error e

/-- The reader after a request, whether it could be answered or not. -/
def after (r : Reader) (request : Request) : Reader :=
  match request.read r with
  | .ok _ r' => r'
  | .error _ r' => r'

/-- The reader after requests that are made one after the other. -/
def afterAll (r : Reader) (requests : List Request) : Reader := requests.foldl after r

/-- The answers of a reader to requests that are made one after the other. -/
def answers (r : Reader) :
    List Request → List ((request : Request) × Except ParseError request.Result)
  | [] => []
  | request :: requests => ⟨request, r.answer request⟩ :: (r.after request).answers requests

end Reader

end Bramble
