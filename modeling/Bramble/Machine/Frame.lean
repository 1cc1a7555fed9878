import Bramble.Machine.Value

/-!
# Frames

A frame binds names to values, each name at most once. The order of the bindings does not
matter to a program. A frame also knows the frames around it, which never change.
-/

set_option autoImplicit false

namespace Bramble

/-- A frame: the frames around it, nearest first, and its bindings. -/
structure Frame where
  outer : List FrameId
  bindings : List (String × Value) := []
deriving DecidableEq, Repr, Inhabited

namespace Frame

/-- The names that a frame binds. -/
def names (frame : Frame) : List String := frame.bindings.map (·.1)

/-- The value bound to a name. -/
def get? (frame : Frame) (x : String) : Option Value := frame.bindings.lookup x

/-- Whether a frame binds a name. -/
def binds (frame : Frame) (x : String) : Bool := (frame.get? x).isSome

/-- Adds a binding. -/
def insert (frame : Frame) (x : String) (v : Value) : Frame :=
  { frame with bindings := (x, v) :: frame.bindings }

/-- Gives a bound name another value. -/
def replace (frame : Frame) (x : String) (v : Value) : Frame :=
  { frame with
    bindings := frame.bindings.map fun binding => if binding.1 = x then (x, v) else binding }

/-! ## What the operations do to the bindings -/

/-- The first of some bindings decides for its own name and for no other. -/
theorem lookup_cons_eq (bindings : List (String × Value)) (x y : String) (v : Value) :
    ((y, v) :: bindings).lookup x = if x = y then some v else bindings.lookup x := by
  rw [List.lookup_cons]
  by_cases h : x = y
  · rw [if_pos h, beq_iff_eq.mpr h]
  · rw [if_neg h, beq_false_of_ne h]

theorem get?_insert (frame : Frame) (x y : String) (v : Value) :
    (frame.insert x v).get? y = if y = x then some v else frame.get? y :=
  lookup_cons_eq frame.bindings y x v

theorem get?_replace (frame : Frame) (x y : String) (v : Value) :
    (frame.replace x v).get? y
      = if y = x then (frame.get? x).map (fun _ => v) else frame.get? y := by
  obtain ⟨outer, bindings⟩ := frame
  unfold get? replace
  induction bindings with
  | nil => simp
  | cons binding bindings ih =>
      obtain ⟨z, w⟩ := binding
      rw [List.map_cons, lookup_cons_eq, lookup_cons_eq]
      by_cases hz : z = x
      · rw [if_pos hz, lookup_cons_eq, ih]
        by_cases hy : y = x
        · simp [hy, hz]
        · simp [hy, hz]
      · rw [if_neg hz, lookup_cons_eq, ih]
        by_cases hy : y = x
        · have hxz : ¬ x = z := fun h => hz h.symm
          simp [hy, hxz]
        · simp [hy]

theorem names_replace (frame : Frame) (x : String) (v : Value) :
    (frame.replace x v).names = frame.names := by
  unfold names replace
  rw [List.map_map]
  refine List.map_congr_left fun binding _ => ?_
  by_cases h : binding.1 = x <;> simp [h]

theorem binds_iff {frame : Frame} {x : String} : frame.binds x ↔ x ∈ frame.names := by
  obtain ⟨outer, bindings⟩ := frame
  unfold binds get? names
  induction bindings with
  | nil => simp
  | cons binding bindings ih =>
      rw [lookup_cons_eq, List.map_cons, List.mem_cons, ← ih]
      by_cases h : x = binding.1 <;> simp [h]

end Frame

end Bramble
