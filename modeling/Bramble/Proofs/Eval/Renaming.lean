import Bramble.Proofs.Eval.Translation
import Bramble.Proofs.Eval.WellFormed

/-!
# Names count only as equal or different

A program in which each name is replaced by another one, different names by different ones, does
what the program itself does. It begins in a scope of its own in which no name is bound, as the
functions of the prelude have names that cannot be replaced. Its value is the same, or the function
with the other names in it; it stops with the same error about the other name; and the frames that
it leaves bind the other names to the same values (`evaluation_of_renamed`).
-/

set_option autoImplicit false

namespace Bramble

/-- The translation that replaces names and keeps groups. -/
def Translation.ofNames (r : String → String) (oneToOne : Function.Injective r) :
    Translation where
  name := r
  group := .group
  oneToOne := oneToOne
  value := fun _ _ _ => rfl

/-! ## Programs without a prelude -/

/-- No function object is one of the prelude. -/
def Machine.Unaided (m : Machine) : Prop :=
  ∀ (f : FunctionId) (b : Builtin), m.functions[f]? ≠ some (.builtin b)

/-- Marks a name at its front. -/
def underscored (x : String) : String := "_" ++ x

theorem underscored_injective : Function.Injective underscored :=
  fun _ _ same => String.append_right_inj "_" |>.mp same

/-- A program makes closures only. -/
theorem Program.unaided_after {m : Machine} (unaided : m.Unaided) (limit : Nat) (scope : Scope)
    (program : Program) : ((program.eval limit scope).after m).Unaided := by
  -- A translation that changes a name shows no function of the prelude.
  have shows := (translates_eval (T := .ofNames underscored underscored_injective) limit scope
    program m (.inr unaided)).2
  refine shows.resolve_left fun same => ?_
  have marked : underscored "" = "" := congrFun same ""
  exact absurd marked (by decide)

/-- A program that has a function as its value has left a closure for it. -/
theorem Program.exists_closure {m m' : Machine} (wellFormed : m.WellFormed) (unaided : m.Unaided)
    {limit : Nat} {scope : Scope} (has : m.Has (.frame scope)) {program : Program}
    {f : FunctionId} (ends : program.eval limit scope m = .ok (.function f) m') :
    ∃ c : Closure, m'.functions[f]? = some (.closure c) := by
  have after := Program.unaided_after unaided limit scope program
  rw [Eval.after_ok ends] at after
  have keeps := Eval.keeps_of_step wellFormed
    (.program limit program (Machine.mem_objects.mpr has))
  have inside : f < m'.functions.size :=
    keeps.result _ _ ends (.function f) (Value.mem_objects.mpr ⟨f, rfl, rfl⟩)
  cases found : m'.functions[f] with
  | closure c => exact ⟨c, by rw [Array.getElem?_eq_getElem inside, found]⟩
  | builtin b => exact absurd (by rw [Array.getElem?_eq_getElem inside, found]) (after f b)

/-! ## Programs with other names -/

/-- The machine with one scope in which no name is bound has no name that could be replaced. -/
theorem Machine.translate_newScope (T : Translation) :
    (Machine.newScope {}).2.translate T = (Machine.newScope {}).2 := by
  simp [newScope, addFrame, translate, Frame.translate]

theorem Machine.unaided_newScope : (Machine.newScope {}).2.Unaided := by
  intro f b found
  cases found

/-- Evaluation depends on names through their equality only. In a new scope a program with other
names, different ones for different ones, ends as the program itself does: with the same value, or
with the same error about the other name. It prints the same, and on the machine that it leaves all
names are replaced. A function that it has as its value has the other names in its name, in its
parameters and in its body. -/
theorem evaluation_of_renamed (r : String → String) (oneToOne : Function.Injective r)
    (limit : Nat) (program : Program) :
    let T := Translation.ofNames r oneToOne
    let start := Machine.newScope {}
    Program.eval limit start.1 (Stmt.translateAll T program) start.2
        = Eval.translateEnding T (program.eval limit start.1 start.2) ∧
      ∀ f m, program.eval limit start.1 start.2 = .ok (.function f) m →
        ∃ c : Closure, m.functions[f]? = some (.closure c) ∧
          (m.translate T).functions[f]? = some (.closure
            { c with
              name := r c.name
              params := c.params.map r
              body := Stmt.translateAll T c.body }) := by
  intro T start
  have unaided : start.2.Unaided := Machine.unaided_newScope
  refine ⟨?_, fun f m ends => ?_⟩
  · have translates := (Program.translates_eval limit start.1 program start.2 (T := T)
      (.inr unaided)).1
    rwa [Machine.translate_newScope] at translates
  · have wellFormed : start.2.WellFormed := Machine.WellFormed.newScope .empty
    obtain ⟨c, found⟩ := Program.exists_closure wellFormed unaided (Machine.has_addFrame []) ends
    refine ⟨c, found, ?_⟩
    rw [Machine.functions_translate, found]
    rfl

/-- A function whose body has a name that is bound nowhere, as the value of a program. -/
theorem functionValue_renamed :
    Function.Injective underscored ∧
      ∃ m, Program.eval 2 0
          [.funDecl "_f" ["_a"] [.ret (.name "_b")], .expr (.assign "_f" (.name "_f"))]
          (Machine.newScope {}).2 = .ok (.function 0) m ∧
        m.functions[0]? = some (.closure ⟨"_f", ["_a"], [.ret (.name "_b")], 0⟩) := by
  have renamed := evaluation_of_renamed underscored underscored_injective 2
    [.funDecl "f" ["a"] [.ret (.name "b")], .expr (.assign "f" (.name "f"))]
  exact ⟨underscored_injective, _, renamed.1, by with_unfolding_all rfl⟩

end Bramble
