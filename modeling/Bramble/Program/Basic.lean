import Bramble.Token.Kind

/-!
# Programs

A program is a list of statements. Operators are kept as kinds of tokens: which of them mean
something is for evaluation to say. A group is an expression between parentheses; it keeps the
shape of the text and has the value of what it holds.
-/

set_option autoImplicit false

namespace Bramble

/-- The integer of the language with a given value, if there is one. -/
def int64? (n : Int) : Option Int64 :=
  if Int64.minValue.toInt ≤ n ∧ n ≤ Int64.maxValue.toInt then some (Int64.ofInt n) else none

/-- An integer of the language stands for the number that it is the value of. -/
theorem int64?_eq_some_iff {n : Int} {k : Int64} : int64? n = some k ↔ k.toInt = n := by
  constructor
  · intro h
    unfold int64? at h
    split at h
    · next range =>
        cases h
        rw [Int64.toInt_minValue, Int64.toInt_maxValue] at range
        exact Int64.toInt_ofInt_of_le range.1 (by omega)
    · cases h
  · intro h
    subst h
    unfold int64?
    rw [if_pos ⟨Int64.minValue_le_toInt k, Int64.toInt_le k⟩, Int64.ofInt_toInt]

/-- A value that is written out in a program. -/
inductive Literal where
  | int (n : Int64)
  | str (s : String)
  | bool (b : Bool)
deriving DecidableEq, Repr

/-- Expressions. -/
inductive Expr where
  | literal (l : Literal)
  | name (x : String)
  | unary (op : Token.Kind) (arg : Expr)
  | binary (op : Token.Kind) (lhs rhs : Expr)
  | group (inner : Expr)
  | call (callee : Expr) (args : List Expr)
  | assign (x : String) (value : Expr)
deriving Repr, Inhabited

/-- Statements. A conditional with another branch is a statement of its own kind, and the branch
of an `else if` is a list with one conditional. -/
inductive Stmt where
  | letDecl (x : String) (init : Expr)
  | funDecl (x : String) (params : List String) (body : List Stmt)
  | block (body : List Stmt)
  | ifThen (cond : Expr) (body : List Stmt)
  | ifElse (cond : Expr) (body other : List Stmt)
  | expr (e : Expr)
  | ret (e : Expr)
deriving Repr, Inhabited

/-- A list of statements, run in order. -/
abbrev Program := List Stmt

end Bramble
