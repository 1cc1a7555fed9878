import Bramble.Grammar.Expression

/-!
# Statements

The statements of a program. A block is a level of nesting, and so is a conditional after `else`.
As with expressions, the rules of one level get what is read one level further in.
-/

set_option autoImplicit false

universe u

namespace Bramble

/-- What statements have one level further in: blocks, and conditionals after `else`. -/
structure Inner (M : Type → Type u) where
  block : M (List Stmt)
  conditional : M Stmt

namespace Grammar

variable {M : Type → Type u} [Monad M] [Reading M]

/-- The next statement of a block. There is none at the token that closes `opening`. -/
def inBlock? (declaration : M Stmt) (opening : Token) : M (Option Stmt) := do
  if ← accept .closeBrace then
    return none
  else if (← peek?).isNone then
    unmatched opening
  else
    return some (← declaration)

/-- Statements between braces. -/
def braced (declaration : M Stmt) : M (List Stmt) := do
  let opening ← expect .openBrace
  collect (inBlock? declaration opening)

/-- The end of a conditional after its first block: another branch, if there is one. -/
def elseBranch (inner : Inner M) (cond : Expr) (body : List Stmt) : M Stmt := do
  if ← accept .elseWord then
    if ← sees .ifWord then
      return .ifElse cond body [← inner.conditional]
    else
      return .ifElse cond body (← inner.block)
  else
    return .ifThen cond body

section Statement

variable (expr : M Expr) (inner : Inner M)

/-- A conditional. -/
def conditional : M Stmt := do
  let _ ← expect .ifWord
  let cond ← expr
  let body ← inner.block
  elseBranch inner cond body

/-- A statement that declares no name. -/
def statement : M Stmt := do
  if ← accept .returnWord then
    let value ← expr
    let _ ← expect .semi
    return .ret value
  else if ← sees .openBrace then
    return .block (← inner.block)
  else if ← sees .ifWord then
    conditional expr inner
  else
    let value ← expr
    let _ ← expect .semi
    return .expr value

/-- A statement. -/
def declaration : M Stmt := do
  if ← accept .letWord then
    let x ← name
    let _ ← expect .equals
    let init ← expr
    let _ ← expect .semi
    return .letDecl x init
  else if ← accept .funWord then
    let x ← name
    let opening ← expect .openParen
    let params ← listed name opening
    return .funDecl x params (← inner.block)
  else
    statement expr inner

end Statement

/-- The next statement of a program. There is none at the end of the input. -/
def inProgram? (declaration : M Stmt) : M (Option Stmt) := do
  if (← peek?).isNone then
    return none
  else
    return some (← declaration)

/-- Statements up to the end of the input. -/
def program (declaration : M Stmt) : M Program := collect (inProgram? declaration)

end Grammar
end Bramble
