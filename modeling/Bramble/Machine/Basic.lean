import Bramble.Machine.Frame

/-!
# The machine

What evaluation changes: the frames and the functions made so far, each known by its number, and
the text printed so far. Frames and functions are only ever added, and a number keeps its object.
-/

set_option autoImplicit false

namespace Bramble

/-- The objects of a running program and what it has printed. -/
structure Machine where
  frames : Array Frame := #[]
  functions : Array Callable := #[]
  output : String := ""
deriving Inhabited

namespace Machine

/-! ## Scopes -/

/-- The frames around a scope's own, nearest first. -/
def outer (m : Machine) (scope : Scope) : List FrameId :=
  (m.frames[scope]?.map Frame.outer).getD []

/-- The frames that are searched for a name, in order. -/
def chain (m : Machine) (scope : Scope) : List FrameId := scope :: m.outer scope

/-- The scope around a scope. An outermost scope has none. -/
def parent? (m : Machine) (scope : Scope) : Option Scope := (m.outer scope).head?

/-- The number of frames around a scope's own. -/
def depth (m : Machine) (scope : Scope) : Nat := (m.outer scope).length

/-! ## Names -/

/-- The names that a frame binds. -/
def namesIn (m : Machine) (frame : FrameId) : List String :=
  (m.frames[frame]?.map Frame.names).getD []

/-- The value that one frame gives to a name. -/
def getIn? (m : Machine) (frame : FrameId) (x : String) : Option Value :=
  m.frames[frame]?.bind (·.get? x)

/-- Whether a frame binds a name. -/
def bindsIn (m : Machine) (frame : FrameId) (x : String) : Bool := (m.getIn? frame x).isSome

/-- The nearest frame of a scope that binds a name. -/
def resolve? (m : Machine) (scope : Scope) (x : String) : Option FrameId :=
  (m.chain scope).find? fun frame => m.bindsIn frame x

/-- The value of a name in a scope: the one of the nearest frame that binds it. -/
def lookup? (m : Machine) (scope : Scope) (x : String) : Option Value :=
  (m.chain scope).findSome? fun frame => m.getIn? frame x

/-- Adds a binding to a frame. -/
def bind (m : Machine) (frame : FrameId) (x : String) (v : Value) : Machine :=
  { m with frames := m.frames.modify frame (·.insert x v) }

/-- Gives a name that a frame binds another value. -/
def rebind (m : Machine) (frame : FrameId) (x : String) (v : Value) : Machine :=
  { m with frames := m.frames.modify frame (·.replace x v) }

/-! ## New objects -/

/-- A new frame, around which the frames of `outer` stand. -/
def addFrame (m : Machine) (outer : List FrameId) : Scope × Machine :=
  (m.frames.size, { m with frames := m.frames.push { outer } })

/-- A new outermost scope. -/
def newScope (m : Machine) : Scope × Machine := m.addFrame []

/-- A new scope inside another one. -/
def child (m : Machine) (scope : Scope) : Scope × Machine := m.addFrame (m.chain scope)

/-- A new function object. -/
def addFunction (m : Machine) (f : Callable) : Value × Machine :=
  (.function m.functions.size, { m with functions := m.functions.push f })

/-! ## The prelude -/

/-- Binds a new object for a function of the prelude to its name. -/
def bindBuiltin (m : Machine) (frame : FrameId) (b : Builtin) : Machine :=
  let (f, m) := m.addFunction (.builtin b)
  m.bind frame b.name f

/-- A new scope for a program. The prelude has a frame of its own around it, so that a program
may use its names again. -/
def programScope (m : Machine) : Scope × Machine :=
  let (prelude, m) := m.newScope
  (Builtin.all.foldl (fun m b => m.bindBuiltin prelude b) m).child prelude

/-! ## Output -/

/-- Prints a text. -/
def print (m : Machine) (text : String) : Machine := { m with output := m.output ++ text }

/-! ## What the operations do to names and scopes -/

theorem getIn?_bind (m : Machine) (frame frame' : FrameId) (x y : String) (v : Value)
    (exist : frame < m.frames.size) :
    (m.bind frame x v).getIn? frame' y
      = if frame' = frame ∧ y = x then some v else m.getIn? frame' y := by
  unfold getIn? bind
  rw [Array.getElem?_modify]
  by_cases h : frame = frame'
  · subst h
    rw [if_pos rfl, Array.getElem?_eq_getElem exist]
    simp [Frame.get?_insert]
  · rw [if_neg h, if_neg (fun both => h both.1.symm)]

theorem getIn?_rebind (m : Machine) (frame frame' : FrameId) (x y : String) (v : Value) :
    (m.rebind frame x v).getIn? frame' y
      = if frame' = frame ∧ y = x then (m.getIn? frame x).map (fun _ => v)
        else m.getIn? frame' y := by
  unfold getIn? rebind
  rw [Array.getElem?_modify]
  by_cases h : frame = frame'
  · subst h
    rw [if_pos rfl]
    cases m.frames[frame]? with
    | none => simp
    | some frame => simp [Frame.get?_replace]
  · rw [if_neg h, if_neg (fun both => h both.1.symm)]

theorem outer_bind (m : Machine) (frame : FrameId) (x : String) (v : Value) (scope : Scope) :
    (m.bind frame x v).outer scope = m.outer scope := by
  unfold outer bind
  rw [Array.getElem?_modify]
  split
  · cases m.frames[scope]? <;> rfl
  · rfl

theorem outer_rebind (m : Machine) (frame : FrameId) (x : String) (v : Value) (scope : Scope) :
    (m.rebind frame x v).outer scope = m.outer scope := by
  unfold outer rebind
  rw [Array.getElem?_modify]
  split
  · cases m.frames[scope]? <;> rfl
  · rfl

/-- The value of a name is the one in the frame that the name resolves to. -/
theorem lookup?_eq_bind_resolve? (m : Machine) (scope : Scope) (x : String) :
    m.lookup? scope x = (m.resolve? scope x).bind fun frame => m.getIn? frame x := by
  unfold lookup? resolve? bindsIn
  induction m.chain scope with
  | nil => rfl
  | cons frame frames ih =>
      rw [List.findSome?_cons, List.find?_cons]
      cases h : m.getIn? frame x with
      | none => simpa using ih
      | some v => simp [h]

end Machine

end Bramble
