import Bramble.Program.Basic
import Bramble.Token.Power

/-!
# Canonical programs and their nesting

Of the trees that one list of tokens renders, the binding powers choose one. A tree is canonical
when the choice is visible in it: every operand binds at least as tightly as its operator asks. The
level of an expression is how tightly it holds together, and an operand that is no prefix form has
to have a level above the power that its operator has toward it. A left operand may have the level
of the operator itself, which is why chains group from the left. The edge of an expression is the
power below which its last operand ends. An operator that may have the expression to its left is not
taken by that operand (`Canonical.le_edge`).

The nesting of a program is the number of levels that reading it goes down. Each operand to the
right of an operator, each argument, each expression between parentheses and each expression of
a statement is one level further in, and so is each block and each conditional after `else`. A
left operand stands at the level of its operator, so a chain is not deep.
-/

set_option autoImplicit false

namespace Bramble

/-! ## Operators -/

namespace Token.Kind

/-- The power of a kind toward its left, which is zero where it cannot follow an expression. -/
def leftPower (kind : Kind) : Nat := (kind.infixPower?.map InfixPower.left).getD 0

/-- The power of a kind toward its right. -/
def rightPower (kind : Kind) : Nat := (kind.infixPower?.map InfixPower.right).getD 0

/-- The operators with one operand. -/
def isUnary : Kind → Bool
  | .bang | .minus => true
  | _ => false

/-- The operators with two operands. -/
def isBinary : Kind → Bool
  | .plus | .minus | .asterisk | .slash | .less | .lessEquals | .greater | .greaterEquals
  | .equalsEquals | .notEquals => true
  | _ => false

/-- An operator with two operands has powers, equal toward both sides and between those of an
assignment and those of a prefix. -/
theorem powers_of_isBinary {op : Kind} (binary : op.isBinary = true) :
    op.infixPower? = some ⟨op.leftPower, op.rightPower⟩ ∧ op.rightPower = op.leftPower ∧
      5 ≤ op.leftPower ∧ op.leftPower ≤ 11 := by
  revert binary
  cases op <;> decide

theorem prefixPower?_of_isUnary {op : Kind} (unary : op.isUnary = true) :
    op.prefixPower? = some 13 := by
  revert unary
  cases op <;> decide

theorem leftPower_le (kind : Kind) : kind.leftPower ≤ 15 := by
  cases kind <;> decide

theorem infixPower?_of_pos {kind : Kind} (follows : 0 < kind.leftPower) :
    kind.infixPower? = some ⟨kind.leftPower, kind.rightPower⟩ := by
  revert follows
  cases kind <;> decide

theorem leftPower_eq {kind : Kind} {power : InfixPower} (has : kind.infixPower? = some power) :
    kind.leftPower = power.left := by
  simp [leftPower, has]

theorem rightPower_eq {kind : Kind} {power : InfixPower} (has : kind.infixPower? = some power) :
    kind.rightPower = power.right := by
  simp [rightPower, has]

theorem infixAbove?_eq_some_iff {min : Nat} {kind : Kind} {power : InfixPower} :
    kind.infixAbove? min = some power ↔ kind.infixPower? = some power ∧ min < power.left := by
  simp [infixAbove?, Option.filter_eq_some_iff]

theorem infixAbove?_of_lt {min : Nat} {kind : Kind} (above : min < kind.leftPower) :
    kind.infixAbove? min = some ⟨kind.leftPower, kind.rightPower⟩ :=
  infixAbove?_eq_some_iff.mpr ⟨infixPower?_of_pos (Nat.zero_lt_of_lt above), above⟩

theorem infixAbove?_of_le {min : Nat} {kind : Kind} (low : kind.leftPower ≤ min) :
    kind.infixAbove? min = none := by
  refine Option.eq_none_iff_forall_ne_some.mpr fun power found => ?_
  obtain ⟨has, above⟩ := infixAbove?_eq_some_iff.mp found
  rw [leftPower_eq has] at low
  omega

end Token.Kind

/-! ## Levels -/

namespace Expr

/-- How tightly an expression holds together. -/
def level : Expr → Nat
  | .assign _ _ => 3
  | .binary op _ _ => op.leftPower
  | .unary _ _ => 13
  | .call _ _ => 15
  | .literal _ | .name _ | .group _ => 16

/-- Whether an expression begins with the token that decides its form. -/
def isPrefixForm : Expr → Bool
  | .literal _ | .name _ | .group _ | .unary _ _ => true
  | _ => false

/-- Whether an expression can be called without parentheses around it. -/
def isCallee : Expr → Bool
  | .literal _ | .name _ | .group _ | .call _ _ => true
  | _ => false

/-- Whether an expression may stand where operators above a power are taken. -/
def Fits (e : Expr) (power : Nat) : Prop := e.isPrefixForm = true ∨ power < e.level

instance (e : Expr) (power : Nat) : Decidable (e.Fits power) :=
  inferInstanceAs (Decidable (_ ∨ _))

/-- The power below which the last operand of an expression ends. No operator after an
expression that needs no operand at its end is taken into it. -/
def edge : Expr → Nat
  | .assign _ _ => 2
  | .binary op _ _ => op.rightPower
  | .unary _ _ => 13
  | .literal _ | .name _ | .group _ | .call _ _ => 15

/-- What can be called may stand before a call wherever the call may be taken. -/
theorem fits_of_isCallee {e : Expr} (callable : e.isCallee = true) {power : Nat}
    (low : power < 15) : e.Fits power := by
  cases e with
  | call callee args => exact .inr low
  | literal l => exact .inl rfl
  | name x => exact .inl rfl
  | group inner => exact .inl rfl
  | _ => cases callable

/-- Nothing but what can be called ends before a call. -/
theorem edge_of_isCallee {e : Expr} (callable : e.isCallee = true) : e.edge = 15 := by
  cases e with
  | unary op arg => cases callable
  | binary op lhs rhs => cases callable
  | assign x value => cases callable
  | _ => rfl

/-! ## Canonical expressions -/

mutual

/-- The expressions whose operands bind as tightly as their operators ask. -/
def Canonical : Expr → Prop
  | .literal _ | .name _ => True
  | .unary op arg => op.isUnary = true ∧ arg.Fits 13 ∧ arg.Canonical
  | .binary op lhs rhs =>
      op.isBinary = true ∧ op.leftPower ≤ lhs.level ∧ rhs.Fits op.rightPower ∧
        lhs.Canonical ∧ rhs.Canonical
  | .group inner => inner.Canonical
  | .call callee args => callee.isCallee = true ∧ callee.Canonical ∧ CanonicalAll args
  | .assign _ value => value.Canonical

/-- Lists of canonical expressions. -/
def CanonicalAll : List Expr → Prop
  | [] => True
  | e :: es => e.Canonical ∧ CanonicalAll es

end

theorem canonicalAll_iff {es : List Expr} : CanonicalAll es ↔ ∀ e ∈ es, e.Canonical := by
  induction es with
  | nil => simp [CanonicalAll]
  | cons e es ih => simp [CanonicalAll, ih]

/-- Nothing canonical is looser than an assignment. -/
theorem Canonical.three_le_level {e : Expr} (canonical : e.Canonical) : 3 ≤ e.level := by
  cases e with
  | binary op lhs rhs =>
      simp only [Canonical] at canonical
      have powers := Token.Kind.powers_of_isBinary canonical.1
      simp only [level]
      omega
  | _ => simp [level]

/-- Where every operator but the comma is taken, every canonical expression may stand. -/
theorem Canonical.fits_of_le_two {e : Expr} (canonical : e.Canonical) {power : Nat}
    (low : power ≤ 2) : e.Fits power := by
  have high := canonical.three_le_level
  exact .inr (by omega)

/-- The end of an expression is at most as tight as the expression. -/
theorem Canonical.edge_le_level {e : Expr} (canonical : e.Canonical) : e.edge ≤ e.level := by
  cases e with
  | binary op lhs rhs =>
      simp only [Canonical] at canonical
      have powers := Token.Kind.powers_of_isBinary canonical.1
      simp only [edge, level]
      omega
  | _ => simp [edge, level]

/-- A left operand of an operator with two operands ends before the operator. -/
theorem Canonical.le_edge {e : Expr} (canonical : e.Canonical) {power : Nat}
    (above : 3 < power) (most : power ≤ 15) (loose : power ≤ e.level) : power ≤ e.edge := by
  cases e with
  | binary op lhs rhs =>
      simp only [Canonical] at canonical
      have powers := Token.Kind.powers_of_isBinary canonical.1
      simp only [edge, level] at loose ⊢
      omega
  | _ => simp only [edge, level] at loose ⊢; omega

/-- What ends before a call can be called. -/
theorem Canonical.isCallee {e : Expr} (canonical : e.Canonical) (tight : 15 ≤ e.edge) :
    e.isCallee = true := by
  cases e with
  | binary op lhs rhs =>
      simp only [Canonical] at canonical
      have powers := Token.Kind.powers_of_isBinary canonical.1
      simp only [edge] at tight
      omega
  | unary op arg => simp [edge] at tight
  | assign x value => simp [edge] at tight
  | _ => rfl

/-- Where an expression may stand and the power is at most that of a prefix, its end is at least
as tight as the power. -/
theorem Fits.le_edge {e : Expr} {power : Nat} (fits : e.Fits power) (canonical : e.Canonical)
    (most : power ≤ 13) : power ≤ e.edge := by
  cases e with
  | binary op lhs rhs =>
      simp only [Canonical] at canonical
      have powers := Token.Kind.powers_of_isBinary canonical.1
      simp only [Fits, isPrefixForm, edge, level] at fits ⊢
      simp only [Bool.false_eq_true, false_or] at fits
      omega
  | assign x value =>
      simp only [Fits, isPrefixForm, edge, level] at fits ⊢
      simp only [Bool.false_eq_true, false_or] at fits
      omega
  | _ => simp only [edge]; omega

end Expr

/-! ## Canonical programs -/

namespace Stmt

mutual

/-- The statements whose expressions are canonical. -/
def Canonical : Stmt → Prop
  | .letDecl _ init => init.Canonical
  | .funDecl _ _ body => CanonicalAll body
  | .block body => CanonicalAll body
  | .ifThen cond body => cond.Canonical ∧ CanonicalAll body
  | .ifElse cond body other => cond.Canonical ∧ CanonicalAll body ∧ CanonicalAll other
  | .expr e => e.Canonical
  | .ret e => e.Canonical

/-- Lists of canonical statements. -/
def CanonicalAll : List Stmt → Prop
  | [] => True
  | s :: ss => s.Canonical ∧ CanonicalAll ss

end

theorem canonicalAll_iff {ss : List Stmt} : CanonicalAll ss ↔ ∀ s ∈ ss, s.Canonical := by
  induction ss with
  | nil => simp [CanonicalAll]
  | cons s ss ih => simp [CanonicalAll, ih]

end Stmt

/-- The programs whose expressions are canonical. -/
def Program.Canonical (program : Program) : Prop := Stmt.CanonicalAll program

/-! ## Nesting -/

namespace Expr

mutual

/-- The levels of nesting inside an expression. -/
def inside : Expr → Nat
  | .literal _ | .name _ => 0
  | .unary _ arg => arg.inside + 1
  | .binary _ lhs rhs => max lhs.inside (rhs.inside + 1)
  | .group inner => inner.inside + 1
  | .call callee args => max callee.inside (insideAll args)
  | .assign _ value => value.inside + 1

/-- The levels of nesting of a list of expressions, each of them one level further in. -/
def insideAll : List Expr → Nat
  | [] => 0
  | e :: es => max (e.inside + 1) (insideAll es)

end

/-- The levels of nesting of an expression, its own level among them. -/
def nesting (e : Expr) : Nat := e.inside + 1

theorem insideAll_le_iff {es : List Expr} {n : Nat} :
    insideAll es ≤ n ↔ ∀ e ∈ es, e.nesting ≤ n := by
  induction es with
  | nil => simp [insideAll]
  | cons e es ih => simp only [insideAll, nesting, Nat.max_le, ih, List.forall_mem_cons]

end Expr

namespace Stmt

mutual

/-- The levels of nesting of a statement. -/
def nesting : Stmt → Nat
  | .letDecl _ init => init.nesting
  | .funDecl _ _ body => nestingAll body + 1
  | .block body => nestingAll body + 1
  | .ifThen cond body => max cond.nesting (nestingAll body + 1)
  | .ifElse cond body other =>
      max cond.nesting (max (nestingAll body + 1) (nestingAll other + 1))
  | .expr e => e.nesting
  | .ret e => e.nesting

/-- The levels of nesting of a list of statements. -/
def nestingAll : List Stmt → Nat
  | [] => 0
  | s :: ss => max s.nesting (nestingAll ss)

end

theorem nestingAll_le_iff {ss : List Stmt} {n : Nat} :
    nestingAll ss ≤ n ↔ ∀ s ∈ ss, s.nesting ≤ n := by
  induction ss with
  | nil => simp [nestingAll]
  | cons s ss ih => simp only [nestingAll, Nat.max_le, ih, List.forall_mem_cons]

end Stmt

/-- The levels of nesting of a program. -/
def Program.nesting (program : Program) : Nat := Stmt.nestingAll program

end Bramble
