import Bramble.Program.Basic

/-!
# Induction over programs

Arguments and bodies are lists inside the trees that they belong to. The two principles below
(`Expr.induction`, `Stmt.induction`) give the hypothesis for every member of such a list, so that a
proof by induction has one case for each form of the language and no second induction over lists.
-/

set_option autoImplicit false

namespace Bramble

/-- Induction over expressions. -/
@[induction_eliminator]
theorem Expr.induction {motive : Expr → Prop} (literal : ∀ l, motive (.literal l))
    (name : ∀ x, motive (.name x)) (unary : ∀ op arg, motive arg → motive (.unary op arg))
    (binary : ∀ op lhs rhs, motive lhs → motive rhs → motive (.binary op lhs rhs))
    (group : ∀ inner, motive inner → motive (.group inner))
    (call : ∀ callee args, motive callee → (∀ arg ∈ args, motive arg) →
      motive (.call callee args))
    (assign : ∀ x value, motive value → motive (.assign x value)) (e : Expr) : motive e := by
  refine @Expr.rec motive (fun es => ∀ e ∈ es, motive e) literal name unary binary group call
    assign ?_ ?_ e
  · intro e member
    cases member
  · intro head tail ihHead ihTail e member
    rcases List.mem_cons.mp member with rfl | member
    · exact ihHead
    · exact ihTail e member

/-- Induction over statements. -/
@[induction_eliminator]
theorem Stmt.induction {motive : Stmt → Prop} (letDecl : ∀ x init, motive (.letDecl x init))
    (funDecl : ∀ x params body, (∀ s ∈ body, motive s) → motive (.funDecl x params body))
    (block : ∀ body, (∀ s ∈ body, motive s) → motive (.block body))
    (ifThen : ∀ cond body, (∀ s ∈ body, motive s) → motive (.ifThen cond body))
    (ifElse : ∀ cond body other, (∀ s ∈ body, motive s) → (∀ s ∈ other, motive s) →
      motive (.ifElse cond body other))
    (expr : ∀ e, motive (.expr e)) (ret : ∀ e, motive (.ret e)) (s : Stmt) : motive s := by
  refine @Stmt.rec motive (fun ss => ∀ s ∈ ss, motive s) letDecl funDecl block ifThen ifElse
    expr ret ?_ ?_ s
  · intro s member
    cases member
  · intro head tail ihHead ihTail s member
    rcases List.mem_cons.mp member with rfl | member
    · exact ihHead
    · exact ihTail s member

end Bramble
