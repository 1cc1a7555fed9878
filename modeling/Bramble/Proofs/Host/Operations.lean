import Bramble.Proofs.Machine.Objects
import Mathlib.Logic.Relation

/-!
# Working with a machine

A host works with a machine through the objects in it that it holds: scopes that it was given, and
functions among the values that it was given. An operation can only be applied to what is held, and
what it returns is held from then on. Nothing else is said about a host here, so whatever holds
after every sequence of operations holds for every use of the machine.

What every operation keeps is said once: the machine stays well-formed, what is held exists
(`Leads.sound`), frames stay where they are, and a frame keeps the names that it binds
(`Leads.continues`).
-/

set_option autoImplicit false

namespace Bramble

/-- A machine, and the objects in it that are held from outside. -/
structure Host where
  machine : Machine := {}
  held : List Object := []

namespace Host

/-- A value is held if the function that it stands for is. Other values can be had at any time. -/
def Holds (h : Host) (v : Value) : Prop := ∀ o ∈ v.objects, o ∈ h.held

/-- The single operations on a machine, where they succeed. -/
inductive Operation : Host → Host → Prop where
  /-- A new outermost scope. -/
  | newScope (h : Host) :
      Operation h ⟨h.machine.newScope.2, .frame h.machine.newScope.1 :: h.held⟩
  /-- A new scope inside one that is held. -/
  | child {h : Host} {scope : Scope} (held : .frame scope ∈ h.held) :
      Operation h ⟨(h.machine.child scope).2, .frame (h.machine.child scope).1 :: h.held⟩
  /-- The scope around one that is held. -/
  | parent {h : Host} {scope outer : Scope} (held : .frame scope ∈ h.held)
      (inside : h.machine.parent? scope = some outer) :
      Operation h ⟨h.machine, .frame outer :: h.held⟩
  /-- A new function object. The scope of a closure is one that is held. -/
  | newFunction {h : Host} {f : Callable} (held : ∀ o ∈ f.objects, o ∈ h.held) :
      Operation h ⟨(h.machine.addFunction f).2, (h.machine.addFunction f).1.objects ++ h.held⟩
  /-- The scope of a closure that is held. -/
  | captured {h : Host} {id : FunctionId} {c : Closure} (held : .function id ∈ h.held)
      (found : h.machine.functions[id]? = some (.closure c)) :
      Operation h ⟨h.machine, .frame c.scope :: h.held⟩
  /-- The value of a name. -/
  | lookup {h : Host} {scope : Scope} {x : String} {v : Value} (held : .frame scope ∈ h.held)
      (found : h.machine.lookup? scope x = some v) :
      Operation h ⟨h.machine, v.objects ++ h.held⟩
  /-- A definition of a name that its frame does not bind yet. -/
  | define {h : Host} {scope : Scope} {x : String} {v : Value} (held : .frame scope ∈ h.held)
      (given : h.Holds v) (fresh : h.machine.bindsIn scope x = false) :
      Operation h ⟨h.machine.bind scope x v, h.held⟩
  /-- Another value for a name, in the frame that it resolves to. -/
  | assign {h : Host} {scope : Scope} {frame : FrameId} {x : String} {v : Value}
      (held : .frame scope ∈ h.held) (given : h.Holds v)
      (found : h.machine.resolve? scope x = some frame) :
      Operation h ⟨h.machine.rebind frame x v, h.held⟩
  /-- A text that is printed. -/
  | print (h : Host) (text : String) : Operation h ⟨h.machine.print text, h.held⟩

/-- One operation after the other. -/
abbrev Leads : Host → Host → Prop := Relation.ReflTransGen Operation

/-- The machine is well-formed, and what is held exists. -/
structure Sound (h : Host) : Prop where
  wellFormed : h.machine.WellFormed
  exist : ∀ o ∈ h.held, h.machine.Has o

/-- The frames of one machine still stand in another one, inside the same frames, and bind the
names that they bound, and perhaps more. -/
def Continues (m m' : Machine) : Prop := ∃ gained, Machine.Grows gained m m'

variable {h h' : Host}

theorem sound_empty : Sound {} := by
  refine ⟨.empty, fun o held => ?_⟩
  cases held

/-! ## What a single operation keeps -/

theorem Operation.held (operation : Operation h h') : ∀ o ∈ h.held, o ∈ h'.held := by
  intro o before
  cases operation with
  | newScope => exact List.mem_cons_of_mem _ before
  | child _ => exact List.mem_cons_of_mem _ before
  | parent _ _ => exact List.mem_cons_of_mem _ before
  | newFunction _ => exact List.mem_append_right _ before
  | captured _ _ => exact List.mem_cons_of_mem _ before
  | lookup _ _ => exact List.mem_append_right _ before
  | define _ _ _ => exact before
  | assign _ _ _ => exact before
  | print _ => exact before

/-- What was held still exists where all objects still do, and the new one exists as well. -/
theorem Sound.exist_cons (sound : h.Sound) {m : Machine} (within : h.machine.Within m) {o : Object}
    (has : m.Has o) : ∀ o' ∈ o :: h.held, m.Has o' :=
  List.forall_mem_cons.mpr ⟨has, fun o' held => within o' (sound.exist o' held)⟩

theorem Operation.sound (operation : Operation h h') (sound : h.Sound) : h'.Sound := by
  have wellFormed := sound.wellFormed
  cases operation with
  | newScope =>
      exact ⟨wellFormed.newScope,
        sound.exist_cons (Machine.within_addFrame []) (Machine.has_addFrame [])⟩
  | child held =>
      exact ⟨wellFormed.child (sound.exist _ held),
        sound.exist_cons (Machine.within_addFrame _) (Machine.has_addFrame _)⟩
  | parent _ inside =>
      exact ⟨wellFormed, sound.exist_cons (.refl _) (wellFormed.exist _ _ (.parent inside))⟩
  | newFunction held =>
      refine ⟨wellFormed.addFunction fun o member => sound.exist o (held o member), ?_⟩
      refine List.forall_mem_append.mpr ⟨Machine.has_addFunction _, fun o before => ?_⟩
      exact Machine.within_addFunction _ o (sound.exist o before)
  | captured _ found =>
      exact ⟨wellFormed, sound.exist_cons (.refl _) (wellFormed.exist _ _ (.captured found))⟩
  | lookup _ found =>
      refine ⟨wellFormed, List.forall_mem_append.mpr ⟨fun o member => ?_, sound.exist⟩⟩
      obtain ⟨id, rfl, rfl⟩ := Value.mem_objects.mp member
      obtain ⟨frame, _, binds⟩ := List.exists_of_findSome?_eq_some found
      exact wellFormed.exist _ _ (.bound binds)
  | define held given fresh =>
      have known := fun o member => sound.exist o (given o member)
      exact ⟨wellFormed.bind (sound.exist _ held) fresh known,
        fun o before => Machine.within_bind o (sound.exist o before)⟩
  | assign _ given _ =>
      have known := fun o member => sound.exist o (given o member)
      exact ⟨wellFormed.rebind known,
        fun o before => Machine.within_rebind o (sound.exist o before)⟩
  | print text => exact ⟨wellFormed.withOutput _, sound.exist⟩

theorem Operation.continues (operation : Operation h h') (sound : h.Sound) :
    Continues h.machine h'.machine := by
  cases operation with
  | newScope => exact ⟨_, Machine.grows_addFrame _ _⟩
  | child _ => exact ⟨_, Machine.grows_addFrame _ _⟩
  | parent _ _ => exact ⟨_, .refl _⟩
  | newFunction _ => exact ⟨_, Machine.grows_addFunction _ _⟩
  | captured _ _ => exact ⟨_, .refl _⟩
  | lookup _ _ => exact ⟨_, .refl _⟩
  | define held _ fresh =>
      have absent := Machine.bindsIn_eq_false_iff.mp fresh
      exact ⟨_, Machine.grows_bind _ (sound.exist _ held) absent⟩
  | assign _ _ _ => exact ⟨_, Machine.grows_rebind _ _ _ _⟩
  | print text => exact ⟨_, Machine.grows_print _ text⟩

/-! ## What a sequence of operations keeps -/

theorem Leads.held (leads : h.Leads h') : ∀ o ∈ h.held, o ∈ h'.held := by
  induction leads with
  | refl => exact fun _ held => held
  | tail _ operation ih => exact fun o held => operation.held o (ih o held)

theorem Leads.sound (leads : h.Leads h') (sound : h.Sound) : h'.Sound := by
  induction leads with
  | refl => exact sound
  | tail _ operation ih => exact operation.sound ih

theorem Continues.refl (m : Machine) : Continues m m := ⟨_, .refl m⟩

theorem Continues.trans {m m' m'' : Machine} (first : Continues m m') (second : Continues m' m'') :
    Continues m m'' := by
  obtain ⟨_, grows⟩ := first
  obtain ⟨_, grows'⟩ := second
  exact ⟨_, grows.trans grows'⟩

theorem Leads.continues (leads : h.Leads h') (sound : h.Sound) :
    Continues h.machine h'.machine := by
  induction leads with
  | refl => exact .refl _
  | tail before operation ih => exact ih.trans (operation.continues (Leads.sound before sound))

/-- What continuing means for one frame: it stays, with its parent and with its names. -/
theorem Continues.frame {m m' : Machine} (continues : Continues m m') {frame : FrameId}
    (has : m.Has (.frame frame)) :
    m'.Has (.frame frame) ∧ m'.parent? frame = m.parent? frame ∧
      ∀ x, m.bindsIn frame x = true → m'.bindsIn frame x = true := by
  obtain ⟨gained, grows⟩ := continues
  refine ⟨Nat.lt_of_lt_of_le has grows.size, congrArg List.head? (grows.outer frame has), ?_⟩
  intro x bound
  rw [Machine.bindsIn_iff] at bound ⊢
  rw [grows.names frame has]
  exact List.mem_append_right _ bound

end Host
end Bramble
