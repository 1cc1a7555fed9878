import Bramble.Proofs.Machine.Names

/-!
# Objects and references

Frames and functions are the objects of a machine, and they refer to each other: a frame to its
parent and to the functions that it binds, a closure to the scope that it was declared in. What
each operation does to the references is said once here; it can only add references from the
object at hand to objects that it was given.

A machine is well-formed if every reference leads to an object that exists, every frame stands
inside an older one, and no frame binds a name twice. Operations on objects of a well-formed machine
leave it well-formed. Since parents are older, every walk up the parent links of a well-formed
machine ends (`WellFormed.walk`).
-/

set_option autoImplicit false

namespace Bramble

/-- What has an identity in a machine. -/
inductive Object where
  | frame (id : FrameId)
  | function (id : FunctionId)
deriving DecidableEq, Repr

/-- The object that a value stands for, if it stands for one. -/
def Value.objects : Value → List Object
  | .function id => [.function id]
  | _ => []

/-- The object that a function object refers to, if it is a closure. -/
def Callable.objects : Callable → List Object
  | .closure c => [.frame c.scope]
  | .builtin _ => []

theorem Value.mem_objects {v : Value} {o : Object} :
    o ∈ v.objects ↔ ∃ id, v = .function id ∧ o = .function id := by
  cases v <;> simp [objects]

theorem Callable.mem_objects {f : Callable} {o : Object} :
    o ∈ f.objects ↔ ∃ c, f = .closure c ∧ o = .frame c.scope := by
  cases f <;> simp [objects]

namespace Machine

/-- Whether an object exists. -/
def Has (m : Machine) : Object → Prop
  | .frame id => id < m.frames.size
  | .function id => id < m.functions.size

instance (m : Machine) : DecidablePred m.Has
  | .frame id => inferInstanceAs (Decidable (id < m.frames.size))
  | .function id => inferInstanceAs (Decidable (id < m.functions.size))

/-- The references between objects. -/
inductive Refers (m : Machine) : Object → Object → Prop where
  | parent {frame outer : FrameId} (inside : m.parent? frame = some outer) :
      Refers m (.frame frame) (.frame outer)
  | bound {frame : FrameId} {x : String} {id : FunctionId}
      (binds : m.getIn? frame x = some (.function id)) : Refers m (.frame frame) (.function id)
  | captured {id : FunctionId} {c : Closure} (found : m.functions[id]? = some (.closure c)) :
      Refers m (.function id) (.frame c.scope)

/-- Only objects that exist refer to others. -/
theorem Refers.has {m : Machine} {o o' : Object} (refers : m.Refers o o') : m.Has o := by
  cases refers with
  | parent inside =>
      refine Nat.lt_of_not_le fun absent => ?_
      rw [parent?, outer, Array.getElem?_eq_none absent] at inside
      cases inside
  | bound binds =>
      refine Nat.lt_of_not_le fun absent => ?_
      rw [getIn?, Array.getElem?_eq_none absent] at binds
      cases binds
  | captured found =>
      refine Nat.lt_of_not_le fun absent => ?_
      rw [Array.getElem?_eq_none absent] at found
      cases found

/-- All objects of `m` exist in `m'`. -/
def Within (m m' : Machine) : Prop := ∀ o, m.Has o → m'.Has o

theorem Within.refl (m : Machine) : m.Within m := fun _ has => has

theorem Within.trans {m m' m'' : Machine} (first : m.Within m') (second : m'.Within m'') :
    m.Within m'' :=
  fun o has => second o (first o has)

section Operations

variable {m : Machine} {frame other : FrameId} {x y : String} {v w : Value} {o o' : Object}

theorem within_bind : m.Within (m.bind frame x v) := by
  intro o has
  cases o with
  | frame id => simpa [Has, bind] using has
  | function id => exact has

theorem within_rebind : m.Within (m.rebind frame x v) := by
  intro o has
  cases o with
  | frame id => simpa [Has, rebind] using has
  | function id => exact has

theorem within_addFrame (outer : List FrameId) : m.Within (m.addFrame outer).2 := by
  intro o has
  cases o with
  | frame id => exact Nat.lt_of_lt_of_le has (by simp [addFrame])
  | function id => exact has

theorem within_addFunction (f : Callable) : m.Within (m.addFunction f).2 := by
  intro o has
  cases o with
  | frame id => exact has
  | function id => exact Nat.lt_of_lt_of_le has (by simp [addFunction])

theorem has_addFrame (outer : List FrameId) :
    (m.addFrame outer).2.Has (.frame (m.addFrame outer).1) := by
  simp [Has, addFrame]

theorem has_addFunction (f : Callable) : ∀ o ∈ (m.addFunction f).1.objects,
    (m.addFunction f).2.Has o := by
  intro o member
  simp only [addFunction, Value.objects, List.mem_singleton] at member
  subst member
  simp [Has, addFunction]

/-! ## What the operations do to references -/

theorem getIn?_of_bind (binds : (m.bind frame x v).getIn? other y = some w) :
    (other = frame ∧ w = v) ∨ m.getIn? other y = some w := by
  unfold getIn? bind at *
  rw [Array.getElem?_modify] at binds
  split at binds
  · next same =>
      cases found : m.frames[other]? with
      | none =>
          rw [found] at binds
          cases binds
      | some own =>
          rw [found, Option.map_some, Option.bind_some, Frame.get?_insert] at binds
          split at binds
          · exact .inl ⟨same.symm, (Option.some.inj binds).symm⟩
          · exact .inr binds
  · exact .inr binds

theorem getIn?_of_rebind (binds : (m.rebind frame x v).getIn? other y = some w) :
    (other = frame ∧ w = v) ∨ m.getIn? other y = some w := by
  rw [getIn?_rebind] at binds
  split at binds
  · next same =>
      obtain ⟨_, _, value⟩ := Option.map_eq_some_iff.mp binds
      exact .inl ⟨same.1, value.symm⟩
  · exact .inr binds

theorem Refers.of_bind (refers : (m.bind frame x v).Refers o o') :
    m.Refers o o' ∨ (o = .frame frame ∧ o' ∈ v.objects) := by
  cases refers with
  | parent inside =>
      rw [parent?, outer_bind] at inside
      exact .inl (.parent inside)
  | bound binds =>
      rcases getIn?_of_bind binds with ⟨rfl, rfl⟩ | before
      · exact .inr ⟨rfl, List.mem_singleton.mpr rfl⟩
      · exact .inl (.bound before)
  | captured found => exact .inl (.captured found)

theorem Refers.of_rebind (refers : (m.rebind frame x v).Refers o o') :
    m.Refers o o' ∨ (o = .frame frame ∧ o' ∈ v.objects) := by
  cases refers with
  | parent inside =>
      rw [parent?, outer_rebind] at inside
      exact .inl (.parent inside)
  | bound binds =>
      rcases getIn?_of_rebind binds with ⟨rfl, rfl⟩ | before
      · exact .inr ⟨rfl, List.mem_singleton.mpr rfl⟩
      · exact .inl (.bound before)
  | captured found => exact .inl (.captured found)

theorem outer_addFrame (outer : List FrameId) :
    (m.addFrame outer).2.outer frame = if frame = m.frames.size then outer else m.outer frame := by
  unfold Machine.outer addFrame
  rw [Array.getElem?_push]
  split <;> rfl

theorem namesIn_addFrame (outer : List FrameId) :
    (m.addFrame outer).2.namesIn frame = m.namesIn frame := by
  unfold namesIn addFrame
  rw [Array.getElem?_push]
  split
  · next same =>
      rw [same, Array.getElem?_eq_none (Nat.le_refl _)]
      rfl
  · rfl

theorem getIn?_addFrame (outer : List FrameId) :
    (m.addFrame outer).2.getIn? frame x = m.getIn? frame x := by
  unfold getIn? addFrame
  rw [Array.getElem?_push]
  split
  · next same =>
      rw [same, Array.getElem?_eq_none (Nat.le_refl _)]
      rfl
  · rfl

theorem Refers.of_addFrame {outer : List FrameId} (refers : (m.addFrame outer).2.Refers o o') :
    m.Refers o o' ∨ (o = .frame m.frames.size ∧ ∃ g, outer.head? = some g ∧ o' = .frame g) := by
  cases refers with
  | parent inside =>
      rw [parent?, outer_addFrame] at inside
      split at inside
      · next same => exact .inr ⟨congrArg _ same, _, inside, rfl⟩
      · exact .inl (.parent inside)
  | bound binds =>
      rw [getIn?_addFrame] at binds
      exact .inl (.bound binds)
  | captured found => exact .inl (.captured found)

theorem Refers.of_addFunction {f : Callable} (refers : (m.addFunction f).2.Refers o o') :
    m.Refers o o' ∨ (o = .function m.functions.size ∧ o' ∈ f.objects) := by
  cases refers with
  | parent inside => exact .inl (.parent inside)
  | bound binds => exact .inl (.bound binds)
  | captured found =>
      unfold addFunction at found
      rw [Array.getElem?_push] at found
      split at found
      · next same =>
          rw [Option.some.inj found]
          exact .inr ⟨congrArg _ same, List.mem_singleton.mpr rfl⟩
      · exact .inl (.captured found)

theorem Refers.of_output {text : String}
    (refers : ({ m with output := text } : Machine).Refers o o') : m.Refers o o' := by
  cases refers with
  | parent inside => exact .parent inside
  | bound binds => exact .bound binds
  | captured found => exact .captured found

end Operations

/-! ## Well-formed machines -/

/-- References lead to objects that exist, frames stand inside older ones, and the names of a
frame differ. -/
structure WellFormed (m : Machine) : Prop where
  exist : ∀ o o', m.Refers o o' → m.Has o'
  nested : ∀ frame outer, m.parent? frame = some outer →
    outer < frame ∧ m.outer frame = m.chain outer
  names : ∀ frame, (m.namesIn frame).Nodup

/-- The names of a frame still differ when new ones have been added. -/
theorem Grows.nodup {m m' : Machine} {gained : FrameId → List String} (grows : Grows gained m m')
    (size : m'.frames.size = m.frames.size) (names : ∀ frame, (m.namesIn frame).Nodup)
    (frame : FrameId) : (m'.namesIn frame).Nodup := by
  by_cases exist : frame < m.frames.size
  · obtain ⟨nodup, absent⟩ := grows.fresh frame exist
    rw [grows.names frame exist]
    refine List.nodup_append.mpr ⟨nodup, names frame, ?_⟩
    rintro x new _ old rfl
    exact absent x new old
  · have absent : m'.frames.size ≤ frame := by
      rw [size]
      exact Nat.le_of_not_lt exist
    rw [namesIn, Array.getElem?_eq_none absent]
    exact List.nodup_nil

namespace WellFormed

variable {m : Machine} {frame : FrameId} {x : String} {v : Value}

theorem empty : WellFormed {} where
  exist := by
    intro o o' refers
    cases refers <;> contradiction
  nested := by
    intro frame outer inside
    cases inside
  names := fun _ => List.nodup_nil

theorem bind (wellFormed : m.WellFormed) (has : m.Has (.frame frame))
    (fresh : m.bindsIn frame x = false) (known : ∀ o ∈ v.objects, m.Has o) :
    (m.bind frame x v).WellFormed where
  exist := by
    intro o o' refers
    rcases refers.of_bind with before | ⟨_, given⟩
    · exact within_bind o' (wellFormed.exist o o' before)
    · exact within_bind o' (known o' given)
  nested := by
    intro frame outer inside
    rw [parent?, outer_bind] at inside
    rw [chain, outer_bind, outer_bind]
    exact wellFormed.nested frame outer inside
  names := (grows_bind v has (bindsIn_eq_false_iff.mp fresh)).nodup (Array.size_modify ..)
    wellFormed.names

theorem rebind (wellFormed : m.WellFormed) (known : ∀ o ∈ v.objects, m.Has o) :
    (m.rebind frame x v).WellFormed where
  exist := by
    intro o o' refers
    rcases refers.of_rebind with before | ⟨_, given⟩
    · exact within_rebind o' (wellFormed.exist o o' before)
    · exact within_rebind o' (known o' given)
  nested := by
    intro frame outer inside
    rw [parent?, outer_rebind] at inside
    rw [chain, outer_rebind, outer_rebind]
    exact wellFormed.nested frame outer inside
  names := (grows_rebind m frame x v).nodup (Array.size_modify ..) wellFormed.names

theorem addFrame (wellFormed : m.WellFormed) {outer : List FrameId}
    (standing : ∀ g, outer.head? = some g → m.Has (.frame g) ∧ outer = m.chain g) :
    (m.addFrame outer).2.WellFormed where
  exist := by
    intro o o' refers
    rcases refers.of_addFrame with before | ⟨_, g, inside, rfl⟩
    · exact within_addFrame outer o' (wellFormed.exist o o' before)
    · exact within_addFrame outer _ (standing g inside).1
  nested := by
    intro frame g inside
    have old : m.Has (.frame g) → (m.addFrame outer).2.chain g = m.chain g := by
      intro has
      rw [chain, outer_addFrame, if_neg (Nat.ne_of_lt has)]
      rfl
    rw [parent?, outer_addFrame] at inside
    rw [outer_addFrame]
    split at inside
    · next new =>
        obtain ⟨has, around⟩ := standing g inside
        rw [if_pos new, old has, new]
        exact ⟨has, around⟩
    · next other =>
        rw [if_neg other, old (wellFormed.exist _ _ (.parent inside))]
        exact wellFormed.nested frame g inside
  names := by
    intro other
    rw [namesIn_addFrame]
    exact wellFormed.names other

theorem newScope (wellFormed : m.WellFormed) : m.newScope.2.WellFormed := by
  refine wellFormed.addFrame fun g inside => ?_
  cases inside

theorem child (wellFormed : m.WellFormed) (has : m.Has (.frame frame)) :
    (m.child frame).2.WellFormed := by
  refine wellFormed.addFrame fun g inside => ?_
  cases inside
  exact ⟨has, rfl⟩

theorem addFunction (wellFormed : m.WellFormed) {f : Callable} (known : ∀ o ∈ f.objects, m.Has o) :
    (m.addFunction f).2.WellFormed where
  exist := by
    intro o o' refers
    rcases refers.of_addFunction with before | ⟨_, given⟩
    · exact within_addFunction f o' (wellFormed.exist o o' before)
    · exact within_addFunction f o' (known o' given)
  nested := wellFormed.nested
  names := wellFormed.names

theorem withOutput (wellFormed : m.WellFormed) (text : String) :
    ({ m with output := text } : Machine).WellFormed where
  exist := by
    intro o o' refers
    have before : m.Refers o o' := refers.of_output
    exact wellFormed.exist o o' before
  nested := wellFormed.nested
  names := wellFormed.names

end WellFormed

/-! ## Walks -/

/-- A walk from a scope over its parent links up to an outermost scope, and the frames that it
passes. -/
inductive Walk (m : Machine) : Scope → List FrameId → Prop where
  | top {scope : Scope} (outermost : m.parent? scope = none) : Walk m scope [scope]
  | up {scope outer : Scope} {path : List FrameId} (inside : m.parent? scope = some outer)
      (more : Walk m outer path) : Walk m scope (scope :: path)

/-- From a scope there is one way up at most. -/
theorem Walk.unique {m : Machine} {scope : Scope} {path path' : List FrameId}
    (walk : m.Walk scope path) (walk' : m.Walk scope path') : path = path' := by
  induction walk generalizing path' with
  | top outermost =>
      cases walk' with
      | top _ => rfl
      | up inside _ => cases outermost.symm.trans inside
  | up inside _ ih =>
      cases walk' with
      | top outermost => cases outermost.symm.trans inside
      | up inside' more =>
          cases inside.symm.trans inside'
          rw [ih more]

/-- On a well-formed machine every walk comes to an end, and it passes the frames that are searched
for a name. -/
theorem WellFormed.walk {m : Machine} (wellFormed : m.WellFormed) (scope : Scope) :
    m.Walk scope (m.chain scope) := by
  induction scope using Nat.strongRecOn with
  | _ scope ih =>
      cases inside : m.parent? scope with
      | none =>
          have none : m.outer scope = [] := List.head?_eq_none_iff.mp inside
          rw [chain, none]
          exact .top inside
      | some outer =>
          obtain ⟨older, around⟩ := wellFormed.nested scope outer inside
          rw [chain, around]
          exact .up inside (ih outer older)

/-- Around a new scope stand the scope that it was made in and the frames around that. -/
theorem outer_child (m : Machine) (scope : Scope) :
    (m.child scope).2.outer (m.child scope).1 = m.chain scope :=
  (outer_addFrame (m.chain scope)).trans (if_pos rfl)

theorem parent?_child (m : Machine) (scope : Scope) :
    (m.child scope).2.parent? (m.child scope).1 = some scope := by
  rw [parent?, outer_child]
  rfl

theorem depth_child (m : Machine) (scope : Scope) :
    (m.child scope).2.depth (m.child scope).1 = m.depth scope + 1 := by
  rw [depth, outer_child]
  rfl

end Machine
end Bramble
