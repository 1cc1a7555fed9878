import Bramble.Proofs.Eval.Translation

/-!
# Groups count for nothing

A group has the value of what it holds, so a program without its groups should do what the program
does. But groups do not only stand in the program at hand. They also stand in the bodies of
functions, which live on in the machine and are run later, perhaps by other programs. Two machines
are therefore compared that may differ in the groups of their functions. A program on the first and
the same program without groups on the second end in the same way, with the same value or the same
error, and leave machines that differ in the groups of their functions at most
(`grouping_transparent`).
-/

set_option autoImplicit false

namespace Bramble

/-- The translation that removes groups and keeps names. -/
def ungrouping : Translation where
  name := id
  group := id
  oneToOne := Function.injective_id
  value := fun _ _ _ => rfl

/-- An expression without its groups. -/
abbrev Expr.ungroup (e : Expr) : Expr := e.translate ungrouping

/-- A statement without its groups, also without those in the bodies of its functions. -/
abbrev Stmt.ungroup (s : Stmt) : Stmt := s.translate ungrouping

/-- Statements without their groups. -/
abbrev Program.ungroup (program : Program) : Program := Stmt.translateAll ungrouping program

/-- A function object without the groups in its body. -/
abbrev Callable.ungroup (f : Callable) : Callable := f.translate ungrouping

/-! ## Programs without groups -/

theorem Expr.translate_ungroup (e : Expr) : e.ungroup.translate ungrouping = e.ungroup := by
  induction e with
  | literal l => rfl
  | name x => rfl
  | unary op arg ih => exact congrArg (Expr.unary op) ih
  | binary op lhs rhs left right => exact congrArg₂ (Expr.binary op) left right
  | group inner ih => exact ih
  | call callee args called passed =>
      refine congrArg₂ Expr.call called ?_
      rw [translateAll_eq_map, translateAll_eq_map, List.map_map]
      exact List.map_congr_left passed
  | assign x value ih => exact congrArg (Expr.assign x) ih

theorem Program.translate_ungroup_of_forall {program : Program}
    (each : ∀ s ∈ program, s.ungroup.translate ungrouping = s.ungroup) :
    Stmt.translateAll ungrouping program.ungroup = program.ungroup := by
  unfold ungroup
  rw [Stmt.translateAll_eq_map, Stmt.translateAll_eq_map, List.map_map]
  exact List.map_congr_left each

theorem Stmt.translate_ungroup (s : Stmt) : s.ungroup.translate ungrouping = s.ungroup := by
  induction s with
  | letDecl x init => exact congrArg (Stmt.letDecl x) init.translate_ungroup
  | funDecl x params body ih =>
      have bodies := Program.translate_ungroup_of_forall ih
      exact congrArg₂ (Stmt.funDecl x) (List.map_id _) bodies
  | block body ih => exact congrArg Stmt.block (Program.translate_ungroup_of_forall ih)
  | ifThen cond body ih =>
      have bodies := Program.translate_ungroup_of_forall ih
      exact congrArg₂ Stmt.ifThen cond.translate_ungroup bodies
  | ifElse cond body other ihBody ihOther =>
      have bodies := Program.translate_ungroup_of_forall ihBody
      have others := Program.translate_ungroup_of_forall ihOther
      simp only [Stmt.translate, cond.translate_ungroup]
      exact congrArg₂ (Stmt.ifElse _) bodies others
  | expr e => exact congrArg Stmt.expr e.translate_ungroup
  | ret e => exact congrArg Stmt.ret e.translate_ungroup

theorem Program.translate_ungroup (program : Program) :
    Stmt.translateAll ungrouping program.ungroup = program.ungroup :=
  translate_ungroup_of_forall fun s _ => s.translate_ungroup

/-! ## Machines that differ in groups -/

/-- Machines that differ in the groups of their functions at most. Functions keep their numbers. -/
structure Machine.AlikeUpToGroups (m m' : Machine) : Prop where
  frames : m.frames = m'.frames
  functions : m.functions.map Callable.ungroup = m'.functions.map Callable.ungroup
  output : m.output = m'.output

/-- Endings with the same value or the same error, on machines that differ in groups at most. -/
inductive Eval.EndsAlikeUpToGroups {α : Type} :
    EStateM.Result EvalError Machine α → EStateM.Result EvalError Machine α → Prop where
  | ok (a : α) {m m' : Machine} (alike : m.AlikeUpToGroups m') :
      EndsAlikeUpToGroups (.ok a m) (.ok a m')
  | error (e : EvalError) {m m' : Machine} (alike : m.AlikeUpToGroups m') :
      EndsAlikeUpToGroups (.error e m) (.error e m')

theorem Frame.translate_ungrouping (frame : Frame) : frame.translate ungrouping = frame := by
  unfold translate
  rw [show (fun binding : String × Value => (ungrouping.name binding.1, binding.2)) = id from rfl,
    List.map_id]

theorem Machine.alikeUpToGroups_iff {m m' : Machine} :
    m.AlikeUpToGroups m' ↔ m.translate ungrouping = m'.translate ungrouping := by
  have frames (m : Machine) : m.frames.map (Frame.translate ungrouping) = m.frames := by
    rw [funext Frame.translate_ungrouping]
    exact Array.map_id' _
  unfold translate
  rw [frames, frames, Machine.mk.injEq]
  exact ⟨fun alike => ⟨alike.frames, alike.functions, alike.output⟩,
    fun ⟨same, functions, output⟩ => ⟨same, functions, output⟩⟩

namespace Eval

variable {α : Type}

theorem EndsAlikeUpToGroups.of_eq {r r' : EStateM.Result EvalError Machine α}
    (same : translateEnding ungrouping r = translateEnding ungrouping r') :
    EndsAlikeUpToGroups r r' := by
  cases r with
  | ok a m =>
      cases r' with
      | ok a' m' =>
          obtain ⟨rfl, machines⟩ := EStateM.Result.ok.inj same
          exact .ok a (Machine.alikeUpToGroups_iff.mpr machines)
      | error e' m' => cases same
  | error e m =>
      cases r' with
      | ok a' m' => cases same
      | error e' m' =>
          obtain ⟨errors, machines⟩ := EStateM.Result.error.inj same
          rw [e.translate_of_id rfl, e'.translate_of_id rfl] at errors
          subst errors
          exact .error e (Machine.alikeUpToGroups_iff.mpr machines)

/-- A computation and the one without groups, each on its machine. They are both compared with the
second computation on the machine without groups. -/
theorem Translates.alikeUpToGroups {p p' : Eval α} (removed : Translates ungrouping p p')
    (stable : Translates ungrouping p' p') {m m' : Machine} (alike : m.AlikeUpToGroups m') :
    EndsAlikeUpToGroups (p m) (p' m') := by
  apply EndsAlikeUpToGroups.of_eq
  calc translateEnding ungrouping (p m)
      = p' (m.translate ungrouping) := (removed m (.inl rfl)).1.symm
    _ = p' (m'.translate ungrouping) := by rw [Machine.alikeUpToGroups_iff.mp alike]
    _ = translateEnding ungrouping (p' m') := (stable m' (.inl rfl)).1

end Eval

/-- On machines that differ in groups at most, whatever is evaluated ends in the same way with and
without its groups, and leaves machines that differ in groups at most. -/
theorem grouping_transparent {m m' : Machine} (alike : m.AlikeUpToGroups m') (limit left : Nat)
    (scope : Scope) :
    (∀ e : Expr, Eval.EndsAlikeUpToGroups (e.eval (callLeft limit left) scope m)
      (e.ungroup.eval (callLeft limit left) scope m')) ∧
    (∀ s : Stmt, Eval.EndsAlikeUpToGroups (s.run (callLeft limit left) scope m)
      (s.ungroup.run (callLeft limit left) scope m')) ∧
    (∀ program : Program,
      Eval.EndsAlikeUpToGroups (Stmt.runAll (callLeft limit left) scope .void program m)
        (Stmt.runAll (callLeft limit left) scope .void program.ungroup m') ∧
      Eval.EndsAlikeUpToGroups (program.eval limit scope m)
        (program.ungroup.eval limit scope m')) ∧
    (∀ (callee : Value) (args : List Value),
      Eval.EndsAlikeUpToGroups (callLeft limit left callee args m)
        (callLeft limit left callee args m')) := by
  have calls := translates_callLeft (T := ungrouping) limit left
  refine ⟨fun e => ?_, fun s => ?_, fun program => ⟨?_, ?_⟩, fun callee args => ?_⟩
  · have stable := Expr.translates_eval calls scope e.ungroup
    rw [e.translate_ungroup] at stable
    exact (Expr.translates_eval calls scope e).alikeUpToGroups stable alike
  · have stable := Stmt.translates_run calls scope s.ungroup
    rw [s.translate_ungroup] at stable
    exact (Stmt.translates_run calls scope s).alikeUpToGroups stable alike
  · have stable := Stmt.translates_statements calls scope program.ungroup .void
    rw [program.translate_ungroup] at stable
    exact (Stmt.translates_statements calls scope program .void).alikeUpToGroups stable alike
  · have stable := Program.translates_eval (T := ungrouping) limit scope program.ungroup
    rw [program.translate_ungroup] at stable
    exact (Program.translates_eval limit scope program).alikeUpToGroups stable alike
  · exact (calls callee args).alikeUpToGroups (calls callee args) alike

/-- A machine with a function that returns a given expression of its argument. -/
def oneFunction (result : Expr) : Machine where
  frames := #[⟨[], [("f", .function 0)]⟩]
  functions := #[.closure ⟨"f", ["a"], [.ret result], 0⟩]

/-- The sum of a name and a number, which has a group around it on the first machine only. -/
theorem oneFunction_transparent :
    let sum := Expr.binary .plus (.name "a") (.literal (.int 1))
    (oneFunction (.group sum)).AlikeUpToGroups (oneFunction sum) ∧
    Eval.EndsAlikeUpToGroups
      (Expr.eval (callLeft 2 2) 0 (.call (.group (.name "f")) [.group (.literal (.int 2))])
        (oneFunction (.group sum)))
      (Expr.eval (callLeft 2 2) 0 (.call (.name "f") [.literal (.int 2)]) (oneFunction sum)) := by
  intro sum
  have alike : (oneFunction (.group sum)).AlikeUpToGroups (oneFunction sum) :=
    ⟨rfl, by with_unfolding_all rfl, rfl⟩
  exact ⟨alike, (grouping_transparent alike 2 2 0).1 _⟩

end Bramble
