import Bramble.Machine.Value
import Bramble.Proofs.Program.Induction

/-!
# Vocabularies

A program uses the names that it looks up or assigns to. A name that it only declares, as a
variable, a function or a parameter, is not used by it, since no frame is searched for it.

A vocabulary says which names a program may use and which functions of the prelude it may get hold
of (`Vocabulary`). Facts about evaluation that depend on names hold for the programs of a
vocabulary, and they hold on as long as the functions that such a program meets are of that
vocabulary as well.
-/

set_option autoImplicit false

namespace Bramble

/-! ## Names in use -/

mutual

/-- The names that an expression looks up or assigns to. -/
def Expr.uses : Expr → List String
  | .literal _ => []
  | .name x => [x]
  | .unary _ arg => arg.uses
  | .binary _ lhs rhs => lhs.uses ++ rhs.uses
  | .group inner => inner.uses
  | .call callee args => callee.uses ++ Expr.usesAll args
  | .assign x value => x :: value.uses

/-- The names that expressions look up or assign to. -/
def Expr.usesAll : List Expr → List String
  | [] => []
  | e :: es => e.uses ++ Expr.usesAll es

end

mutual

/-- The names that a statement looks up or assigns to, in the bodies of functions as well. -/
def Stmt.uses : Stmt → List String
  | .letDecl _ init => init.uses
  | .funDecl _ _ body => Stmt.usesAll body
  | .block body => Stmt.usesAll body
  | .ifThen cond body => cond.uses ++ Stmt.usesAll body
  | .ifElse cond body other => cond.uses ++ Stmt.usesAll body ++ Stmt.usesAll other
  | .expr e => e.uses
  | .ret e => e.uses

/-- The names that statements look up or assign to. -/
def Stmt.usesAll : List Stmt → List String
  | [] => []
  | s :: ss => s.uses ++ Stmt.usesAll ss

end

theorem Expr.mem_usesAll {x : String} {es : List Expr} :
    x ∈ Expr.usesAll es ↔ ∃ e ∈ es, x ∈ e.uses := by
  induction es with
  | nil => simp [Expr.usesAll]
  | cons e es ih => simp [Expr.usesAll, ih]

theorem Stmt.mem_usesAll {x : String} {ss : List Stmt} :
    x ∈ Stmt.usesAll ss ↔ ∃ s ∈ ss, x ∈ s.uses := by
  induction ss with
  | nil => simp [Stmt.usesAll]
  | cons s ss ih => simp [Stmt.usesAll, ih]

/-! ## Programs of a vocabulary -/

/-- Names that may be used, and functions of the prelude that may be there. -/
structure Vocabulary where
  names : String → Prop
  builtins : Builtin → Prop

/-- All names and the whole prelude. -/
def Vocabulary.full : Vocabulary := ⟨fun _ => True, fun _ => True⟩

/-- The expression uses names of the vocabulary only. -/
def Expr.Within (v : Vocabulary) (e : Expr) : Prop := ∀ x ∈ e.uses, v.names x

/-- The statement uses names of the vocabulary only. -/
def Stmt.Within (v : Vocabulary) (s : Stmt) : Prop := ∀ x ∈ s.uses, v.names x

/-- A closure whose body uses names of the vocabulary only, or a function of the prelude that
belongs to it. -/
def Callable.Within (v : Vocabulary) : Callable → Prop
  | .closure c => ∀ s ∈ c.body, s.Within v
  | .builtin b => v.builtins b

theorem Expr.within_full (e : Expr) : e.Within .full := fun _ _ => trivial

theorem Stmt.within_full (s : Stmt) : s.Within .full := fun _ _ => trivial

theorem Callable.within_full (f : Callable) : f.Within .full := by
  cases f with
  | closure c => exact fun s _ => s.within_full
  | builtin b => trivial

section Parts

variable {v : Vocabulary} {op : Token.Kind} {x : String} {e lhs rhs callee : Expr}
  {args : List Expr} {body other : List Stmt}

theorem Stmt.within_all {ss : List Stmt} :
    (∀ x ∈ Stmt.usesAll ss, v.names x) ↔ ∀ s ∈ ss, s.Within v := by
  simp only [mem_usesAll, Within]
  exact ⟨fun all s member x used => all x ⟨s, member, used⟩,
    fun all x ⟨s, member, used⟩ => all s member x used⟩

theorem Expr.within_name : (Expr.name x).Within v ↔ v.names x := by
  simp [Within, uses]

theorem Expr.within_binary :
    (Expr.binary op lhs rhs).Within v ↔ lhs.Within v ∧ rhs.Within v := by
  simp only [Within, uses, List.forall_mem_append]

theorem Expr.within_call :
    (Expr.call callee args).Within v ↔ callee.Within v ∧ ∀ arg ∈ args, arg.Within v := by
  simp only [Within, uses, List.forall_mem_append, mem_usesAll]
  refine and_congr_right fun _ => ?_
  exact ⟨fun all arg member x used => all x ⟨arg, member, used⟩,
    fun all x ⟨arg, member, used⟩ => all arg member x used⟩

theorem Expr.within_assign : (Expr.assign x e).Within v ↔ v.names x ∧ e.Within v := by
  simp only [Within, uses, List.forall_mem_cons]

theorem Stmt.within_ifThen :
    (Stmt.ifThen e body).Within v ↔ e.Within v ∧ ∀ s ∈ body, s.Within v := by
  rw [← within_all, Within, uses, List.forall_mem_append, Expr.Within]

theorem Stmt.within_ifElse :
    (Stmt.ifElse e body other).Within v
      ↔ e.Within v ∧ (∀ s ∈ body, s.Within v) ∧ ∀ s ∈ other, s.Within v := by
  rw [← within_all, ← within_all, Within, uses, List.forall_mem_append, List.forall_mem_append,
    and_assoc, Expr.Within]

end Parts

end Bramble
