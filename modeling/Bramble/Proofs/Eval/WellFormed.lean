import Bramble.Proofs.Eval.Names
import Bramble.Proofs.Host.Evaluation

/-!
# Evaluation on well-formed machines

Evaluation in a scope that exists leaves a well-formed machine well-formed, also when it stops
with an error, and what it returns exists. This is what hosts know of everything that they do, for
the host that holds all there is on a machine (`keeps_of_step`).

The machines that arise are those that such a host can make from the empty one, step after step.
They are all well-formed (`Arises.wellFormed`).
-/

set_option autoImplicit false

namespace Bramble

/-! ## The host that holds everything -/

namespace Machine

/-- All that exists on a machine. -/
def objects (m : Machine) : List Object :=
  (List.range m.frames.size).map .frame ++ (List.range m.functions.size).map .function

theorem mem_objects {m : Machine} {o : Object} : o ∈ m.objects ↔ m.Has o := by
  cases o <;> simp [objects, Has]

end Machine

/-- The host that holds all that exists on a machine. -/
def Host.owner (m : Machine) : Host := ⟨m, m.objects⟩

theorem Host.sound_owner {m : Machine} (wellFormed : m.WellFormed) : (owner m).Sound :=
  ⟨wellFormed, fun _ => Machine.mem_objects.mp⟩

namespace Eval

variable {α : Type} {m : Machine} {objects : α → List Object} {p : Eval α}

/-- The computation, begun on `m`, leaves a well-formed machine with all objects of `m`, and what
its result stands for exists there. -/
structure Keeps (m : Machine) (objects : α → List Object) (p : Eval α) : Prop where
  wellFormed : (p.after m).WellFormed
  within : m.Within (p.after m)
  result : ∀ a m', p m = .ok a m' → ∀ o ∈ objects a, m'.Has o

/-- What a host can carry out that holds everything keeps machines well-formed. -/
theorem keeps_of_step (wellFormed : m.WellFormed)
    (step : Host.Step (.owner m) ((Host.owner m).perform objects p)) : Keeps m objects p := by
  obtain ⟨after, exist⟩ := step.sound (Host.sound_owner wellFormed)
  unfold Host.perform at after exist
  cases ending : p m with
  | ok a m' =>
      simp only [Host.owner, ending, List.forall_mem_append] at after exist
      refine ⟨?_, ?_, ?_⟩
      · rwa [after_ok ending]
      · rw [after_ok ending]
        exact fun o has => exist.2 o (Machine.mem_objects.mpr has)
      · intro b m'' ok
        cases ending.symm.trans ok
        exact exist.1
  | error e m' =>
      simp only [Host.owner, ending] at after exist
      refine ⟨?_, ?_, ?_⟩
      · rwa [after_error ending]
      · rw [after_error ending]
        exact fun o has => exist o (Machine.mem_objects.mpr has)
      · intro b m'' ok
        cases ending.symm.trans ok

end Eval

/-! ## Machines that arise -/

/-- The machines that operations and evaluation can lead to. A scope or a value that an operation
is given exists on the machine; evaluation may begin at any depth of calls and may end with an
error. What has been printed may be taken away. -/
inductive Machine.Arises : Machine → Prop where
  | empty : Arises {}
  | step {m : Machine} {h : Host} (before : Arises m) (step : Host.Step (.owner m) h) :
      Arises h.machine
  | output {m : Machine} (text : String) (before : Arises m) : Arises { m with output := text }

theorem Machine.Arises.wellFormed {m : Machine} (arises : m.Arises) : m.WellFormed := by
  induction arises with
  | empty => exact .empty
  | step _ step ih => exact (step.sound (Host.sound_owner ih)).wellFormed
  | output text _ ih => exact ih.withOutput text

end Bramble
