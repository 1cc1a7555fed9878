import Bramble.Machine.Description
import Bramble.Proofs.Machine.Objects
import Mathlib.Data.List.Find
import Mathlib.Logic.Relation

/-!
# Reachability and regions

An object reaches what its references lead to. A region is a set of objects; it is closed if no
object in it refers to one outside and if it holds all objects that do not exist yet. What some
objects of a well-formed machine reach is, together with the objects of the future, a closed region
(`WellFormed.closed_seen`).

Operations inside a closed region leave it closed, leave the frames outside of it alone, and do
the same on two machines that agree on the region. The objects of the future belong to a region
from the beginning, so it stays one and the same while a program runs.
-/

set_option autoImplicit false

namespace Bramble
namespace Machine

/-- What some objects lead to. -/
def Reaches (m : Machine) (roots : List Object) (o : Object) : Prop :=
  ∃ root ∈ roots, Relation.ReflTransGen m.Refers root o

theorem reaches_root (m : Machine) {roots : List Object} {o : Object} (member : o ∈ roots) :
    m.Reaches roots o :=
  ⟨o, member, .refl⟩

theorem Reaches.step {m : Machine} {roots : List Object} {o o' : Object}
    (reaches : m.Reaches roots o) (refers : m.Refers o o') : m.Reaches roots o' := by
  obtain ⟨root, member, path⟩ := reaches
  exact ⟨root, member, path.tail refers⟩

/-- The frames around a frame are what its parent links lead to. -/
theorem Reaches.outer {m : Machine} (wellFormed : m.WellFormed) {roots : List Object}
    {frame : FrameId} (reaches : m.Reaches roots (.frame frame)) {other : FrameId}
    (around : other ∈ m.outer frame) : m.Reaches roots (.frame other) := by
  induction length : (m.outer frame).length generalizing frame with
  | zero =>
      rw [List.length_eq_zero_iff.mp length] at around
      cases around
  | succ n ih =>
      cases inside : m.parent? frame with
      | none =>
          rw [parent?, List.head?_eq_none_iff] at inside
          rw [inside] at around
          cases around
      | some outer =>
          have next := reaches.step (.parent inside)
          rw [(wellFormed.nested frame outer inside).2] at around length
          rcases List.mem_cons.mp around with rfl | further
          · exact next
          · exact ih next further (Nat.succ.inj length)

/-- What is reached from objects that exist, exists. -/
theorem Reaches.has {m : Machine} (wellFormed : m.WellFormed) {roots : List Object}
    (exist : ∀ o ∈ roots, m.Has o) {o : Object} (reaches : m.Reaches roots o) : m.Has o := by
  obtain ⟨root, member, path⟩ := reaches
  cases path with
  | refl => exact exist _ member
  | tail _ refers => exact wellFormed.exist _ _ refers

/-! ## Regions -/

/-- A set of objects that refer to no object outside, together with all objects that do not
exist yet. -/
structure Closed (r : Object → Prop) (m : Machine) : Prop where
  new : ∀ o, ¬ m.Has o → r o
  outer : ∀ frame, r (.frame frame) → ∀ other ∈ m.outer frame, r (.frame other)
  refers : ∀ o o', r o → m.Refers o o' → r o'

/-- Two machines that are the same as far as a region goes. -/
structure AgreesOn (r : Object → Prop) (m m' : Machine) : Prop where
  frameCount : m'.frames.size = m.frames.size
  functionCount : m'.functions.size = m.functions.size
  output : m'.output = m.output
  frame : ∀ id, r (.frame id) → m'.frames[id]? = m.frames[id]?
  function : ∀ id, r (.function id) → m'.functions[id]? = m.functions[id]?

/-- No frame outside of a region has changed. -/
def Spares (r : Object → Prop) (m m' : Machine) : Prop :=
  ∀ id, ¬ r (.frame id) → m'.frames[id]? = m.frames[id]?

/-- What some objects reach, and all that does not exist yet. -/
def seen (m : Machine) (roots : List Object) (o : Object) : Prop := m.Reaches roots o ∨ ¬ m.Has o

variable {r : Object → Prop} {m m' : Machine}

theorem Spares.refl (r : Object → Prop) (m : Machine) : Spares r m m := fun _ _ => rfl

theorem Spares.trans {m'' : Machine} (first : Spares r m m') (second : Spares r m' m'') :
    Spares r m m'' :=
  fun id outside => (second id outside).trans (first id outside)

theorem AgreesOn.refl (r : Object → Prop) (m : Machine) : AgreesOn r m m :=
  ⟨rfl, rfl, rfl, fun _ _ => rfl, fun _ _ => rfl⟩

/-- Nothing outside of a closed region is reached from inside. -/
theorem Closed.reaches (closed : Closed r m) {o o' : Object} (inside : r o)
    (path : Relation.ReflTransGen m.Refers o o') : r o' := by
  induction path with
  | refl => exact inside
  | tail _ refers ih => exact closed.refers _ _ ih refers

theorem WellFormed.closed_seen (wellFormed : m.WellFormed) (roots : List Object) :
    Closed (m.seen roots) m where
  new := fun _ absent => .inr absent
  outer := by
    rintro frame (reached | absent) other around
    · exact .inl (reached.outer wellFormed around)
    · rw [Machine.outer, Array.getElem?_eq_none (Nat.le_of_not_lt absent)] at around
      cases around
  refers := by
    rintro o o' (reached | absent) refers
    · exact .inl (reached.step refers)
    · exact absurd refers.has absent

/-! ## What is seen from inside a region -/

section Agreement

variable {frame : FrameId}

theorem Closed.chain (closed : Closed r m) (inside : r (.frame frame)) {other : FrameId}
    (member : other ∈ m.chain frame) : r (.frame other) := by
  rcases List.mem_cons.mp member with rfl | around
  · exact inside
  · exact closed.outer frame inside other around

variable (agrees : AgreesOn r m m') (inside : r (.frame frame))

include agrees inside

theorem AgreesOn.getIn?_eq (x : String) : m'.getIn? frame x = m.getIn? frame x := by
  rw [getIn?, getIn?, agrees.frame frame inside]

theorem AgreesOn.bindsIn_eq (x : String) : m'.bindsIn frame x = m.bindsIn frame x := by
  rw [bindsIn, bindsIn, agrees.getIn?_eq inside]

theorem AgreesOn.chain_eq : m'.chain frame = m.chain frame := by
  rw [Machine.chain, Machine.chain, outer, outer, agrees.frame frame inside]

theorem AgreesOn.resolve?_eq (closed : Closed r m) (x : String) :
    m'.resolve? frame x = m.resolve? frame x := by
  rw [resolve?, resolve?, agrees.chain_eq inside]
  apply List.find?_congr
  intro other member
  exact agrees.bindsIn_eq (closed.chain inside member) x

theorem AgreesOn.lookup?_eq (closed : Closed r m) (x : String) :
    m'.lookup? frame x = m.lookup? frame x := by
  rw [lookup?_eq_bind_resolve?, lookup?_eq_bind_resolve?, agrees.resolve?_eq inside closed]
  cases found : m.resolve? frame x with
  | none => rfl
  | some other =>
      exact agrees.getIn?_eq (closed.chain inside (List.mem_of_find?_eq_some found)) x

end Agreement

theorem AgreesOn.display_eq (agrees : AgreesOn r m m') {v : Value} (held : ∀ o ∈ v.objects, r o) :
    m'.display v = m.display v := by
  cases v with
  | function id => rw [display, display, agrees.function id (held _ (List.mem_singleton.mpr rfl))]
  | _ => rfl

theorem AgreesOn.inspect_eq (agrees : AgreesOn r m m') {v : Value} (held : ∀ o ∈ v.objects, r o) :
    m'.inspect v = m.inspect v := by
  cases v with
  | function id => exact agrees.display_eq held
  | _ => rfl

/-! ## Operations inside a region -/

section Operations

variable {frame : FrameId} {x : String} {v : Value}

theorem Closed.bind (closed : Closed r m) (held : ∀ o ∈ v.objects, r o) :
    Closed r (m.bind frame x v) where
  new := fun o absent => closed.new o fun has => absent (within_bind o has)
  outer := by
    intro frame inside
    rw [outer_bind]
    exact closed.outer frame inside
  refers := by
    intro o o' inside refers
    rcases refers.of_bind with before | ⟨_, given⟩
    · exact closed.refers o o' inside before
    · exact held o' given

theorem Closed.rebind (closed : Closed r m) (held : ∀ o ∈ v.objects, r o) :
    Closed r (m.rebind frame x v) where
  new := fun o absent => closed.new o fun has => absent (within_rebind o has)
  outer := by
    intro frame inside
    rw [outer_rebind]
    exact closed.outer frame inside
  refers := by
    intro o o' inside refers
    rcases refers.of_rebind with before | ⟨_, given⟩
    · exact closed.refers o o' inside before
    · exact held o' given

theorem Closed.child (closed : Closed r m) (inside : r (.frame frame)) :
    Closed r (m.child frame).2 where
  new := fun o absent => closed.new o fun has => absent (within_addFrame _ o has)
  outer := by
    intro other within
    rw [Machine.child, outer_addFrame]
    split
    · intro g member
      exact closed.chain inside member
    · exact closed.outer other within
  refers := by
    intro o o' within refers
    rcases refers.of_addFrame with before | ⟨_, g, parent, rfl⟩
    · exact closed.refers o o' within before
    · exact closed.chain inside (List.mem_of_mem_head? parent)

theorem Closed.addFunction (closed : Closed r m) {f : Callable} (held : ∀ o ∈ f.objects, r o) :
    Closed r (m.addFunction f).2 where
  new := fun o absent => closed.new o fun has => absent (within_addFunction f o has)
  outer := closed.outer
  refers := by
    intro o o' inside refers
    rcases refers.of_addFunction with before | ⟨_, given⟩
    · exact closed.refers o o' inside before
    · exact held o' given

theorem Closed.print (closed : Closed r m) (text : String) : Closed r (m.print text) where
  new := closed.new
  outer := closed.outer
  refers := fun o o' inside refers => closed.refers o o' inside refers.of_output

/-- The same change of one frame on two machines. -/
theorem AgreesOn.modify (agrees : AgreesOn r m m') (frame : FrameId) (change : Frame → Frame) :
    AgreesOn r { m with frames := m.frames.modify frame change }
      { m' with frames := m'.frames.modify frame change } where
  frameCount := by
    rw [Array.size_modify, Array.size_modify]
    exact agrees.frameCount
  functionCount := agrees.functionCount
  output := agrees.output
  frame := by
    intro id inside
    rw [Array.getElem?_modify, Array.getElem?_modify, agrees.frame id inside]
  function := agrees.function

theorem spares_modify (inside : r (.frame frame)) (change : Frame → Frame) :
    Spares r m { m with frames := m.frames.modify frame change } := by
  intro id outside
  have other : frame ≠ id := by
    rintro rfl
    exact outside inside
  exact (Array.getElem?_modify ..).trans (if_neg other)

theorem AgreesOn.child (agrees : AgreesOn r m m') (inside : r (.frame frame)) :
    AgreesOn r (m.child frame).2 (m'.child frame).2 where
  frameCount := by
    simp only [Machine.child, addFrame, Array.size_push]
    rw [agrees.frameCount]
  functionCount := agrees.functionCount
  output := agrees.output
  frame := by
    intro id within
    simp only [Machine.child, addFrame]
    rw [Array.getElem?_push, Array.getElem?_push, agrees.frameCount, agrees.chain_eq inside,
      agrees.frame id within]
  function := agrees.function

theorem spares_child (closed : Closed r m) : Spares r m (m.child frame).2 := by
  intro id outside
  have old : id ≠ m.frames.size := by
    rintro rfl
    exact outside (closed.new _ (Nat.lt_irrefl _))
  exact (Array.getElem?_push).trans (if_neg old)

theorem AgreesOn.addFunction (agrees : AgreesOn r m m') (f : Callable) :
    AgreesOn r (m.addFunction f).2 (m'.addFunction f).2 where
  frameCount := agrees.frameCount
  functionCount := by
    simp only [Machine.addFunction, Array.size_push]
    rw [agrees.functionCount]
  output := agrees.output
  frame := agrees.frame
  function := by
    intro id within
    simp only [Machine.addFunction]
    rw [Array.getElem?_push, Array.getElem?_push, agrees.functionCount, agrees.function id within]

theorem AgreesOn.print (agrees : AgreesOn r m m') (text : String) :
    AgreesOn r (m.print text) (m'.print text) where
  frameCount := agrees.frameCount
  functionCount := agrees.functionCount
  output := congrArg (· ++ text) agrees.output
  frame := agrees.frame
  function := agrees.function

end Operations
end Machine
end Bramble
