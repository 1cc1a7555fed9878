import Bramble.Machine.Basic

/-!
# The names of frames along a run

A run only adds frames, and it never moves one: each frame stays inside the same frames. What a run
may change about the names of the frames that were there at its beginning is said by one relation
(`Grows`). It gives for every such frame the names that were added to it, which were not bound there
before, and it says that nothing else was added or taken away. Values do not matter to it.
-/

set_option autoImplicit false

namespace Bramble
namespace Machine

/-- No frame gains a name. -/
def nowhere : FrameId → List String := fun _ => []

/-- One frame gains names, the latest first. -/
def onlyIn (scope : Scope) (xs : List String) : FrameId → List String :=
  fun frame => if frame = scope then xs else []

theorem onlyIn_self (scope : Scope) (xs : List String) : onlyIn scope xs scope = xs :=
  if_pos rfl

theorem onlyIn_of_ne {scope frame : Scope} (other : frame ≠ scope) (xs : List String) :
    onlyIn scope xs frame = [] :=
  if_neg other

theorem onlyIn_nil (scope : Scope) : onlyIn scope [] = nowhere := by
  funext frame
  exact ite_self []

theorem onlyIn_append (scope : Scope) (xs ys : List String) (frame : FrameId) :
    onlyIn scope (xs ++ ys) frame = onlyIn scope xs frame ++ onlyIn scope ys frame := by
  by_cases own : frame = scope
  · subst own
    rw [onlyIn_self, onlyIn_self, onlyIn_self]
  · rw [onlyIn_of_ne own, onlyIn_of_ne own, onlyIn_of_ne own, List.append_nil]

/-- The frames of `m` still stand in `m'`, inside the same frames, and each of them has gained
exactly the names that `gained` says. -/
structure Grows (gained : FrameId → List String) (m m' : Machine) : Prop where
  size : m.frames.size ≤ m'.frames.size
  outer : ∀ frame < m.frames.size, m'.outer frame = m.outer frame
  names : ∀ frame < m.frames.size, m'.namesIn frame = gained frame ++ m.namesIn frame
  fresh : ∀ frame < m.frames.size,
    (gained frame).Nodup ∧ ∀ x ∈ gained frame, x ∉ m.namesIn frame

namespace Grows

variable {m m' m'' : Machine} {gained more : FrameId → List String} {scope : Scope}
  {xs ys : List String}

/-- Where no name is gained, none has to be new. -/
theorem ofNowhere (size : m.frames.size ≤ m'.frames.size)
    (outer : ∀ frame < m.frames.size, m'.outer frame = m.outer frame)
    (names : ∀ frame < m.frames.size, m'.namesIn frame = m.namesIn frame) :
    Grows nowhere m m' where
  size := size
  outer := outer
  names := names
  fresh := fun _ _ => ⟨List.nodup_nil, fun _ member => nomatch member⟩

theorem refl (m : Machine) : Grows nowhere m m :=
  ofNowhere (Nat.le_refl _) (fun _ _ => rfl) fun _ _ => rfl

theorem trans (first : Grows gained m m') (second : Grows more m' m'') :
    Grows (fun frame => more frame ++ gained frame) m m'' where
  size := Nat.le_trans first.size second.size
  outer := by
    intro frame exist
    rw [second.outer frame (Nat.lt_of_lt_of_le exist first.size), first.outer frame exist]
  names := by
    intro frame exist
    rw [second.names frame (Nat.lt_of_lt_of_le exist first.size), first.names frame exist,
      List.append_assoc]
  fresh := by
    intro frame exist
    obtain ⟨nodup, absent⟩ := first.fresh frame exist
    obtain ⟨nodup', absent'⟩ := second.fresh frame (Nat.lt_of_lt_of_le exist first.size)
    rw [first.names frame exist] at absent'
    refine ⟨List.nodup_append.mpr ⟨nodup', nodup, ?_⟩, ?_⟩
    · intro x later y earlier same
      subst same
      exact absent' x later (List.mem_append_left _ earlier)
    · intro x member
      rcases List.mem_append.mp member with later | earlier
      · exact fun bound => absent' x later (List.mem_append_right _ bound)
      · exact absent x earlier

/-- Nothing is gained after the first part of a run. -/
theorem thenNowhere (first : Grows gained m m') (second : Grows nowhere m' m'') :
    Grows gained m m'' :=
  first.trans second

/-- Nothing is gained before the second part of a run. -/
theorem afterNowhere (first : Grows nowhere m m') (second : Grows more m' m'') :
    Grows more m m'' := by
  have both := first.trans second
  simpa only [nowhere, List.append_nil] using both

/-- Two parts of a run in one scope. -/
theorem transIn (first : Grows (onlyIn scope xs) m m') (second : Grows (onlyIn scope ys) m' m'') :
    Grows (onlyIn scope (ys ++ xs)) m m'' := by
  have both := first.trans second
  rwa [← funext (onlyIn_append scope ys xs)] at both

/-- What a scope gains is of no concern to a machine that does not have it yet. -/
theorem beyond (first : Grows nowhere m m') (new : m.frames.size ≤ scope)
    (second : Grows (onlyIn scope xs) m' m'') : Grows nowhere m m'' := by
  have both := first.trans second
  refine ofNowhere both.size both.outer ?_
  intro frame exist
  rw [both.names frame exist, onlyIn_of_ne (Nat.ne_of_lt (Nat.lt_of_lt_of_le exist new))]
  rfl

end Grows

/-! ## What the operations of the machine add -/

theorem bindsIn_iff {m : Machine} {frame : FrameId} {x : String} :
    m.bindsIn frame x = true ↔ x ∈ m.namesIn frame := by
  unfold bindsIn getIn? namesIn
  cases m.frames[frame]? with
  | none => simp
  | some own => exact Frame.binds_iff

theorem bindsIn_eq_false_iff {m : Machine} {frame : FrameId} {x : String} :
    m.bindsIn frame x = false ↔ x ∉ m.namesIn frame := by
  rw [← bindsIn_iff, Bool.not_eq_true]

theorem grows_rebind (m : Machine) (frame : FrameId) (x : String) (v : Value) :
    Grows nowhere m (m.rebind frame x v) := by
  refine .ofNowhere ?_ ?_ ?_
  · simp [rebind]
  · exact fun scope _ => outer_rebind m frame x v scope
  · intro other _
    unfold namesIn rebind
    rw [Array.getElem?_modify]
    by_cases own : frame = other
    · rw [if_pos own]
      cases m.frames[other]? with
      | none => rfl
      | some found => exact Frame.names_replace found x v
    · rw [if_neg own]

theorem grows_bind {m : Machine} {scope : Scope} {x : String} (v : Value)
    (exist : scope < m.frames.size) (absent : x ∉ m.namesIn scope) :
    Grows (onlyIn scope [x]) m (m.bind scope x v) where
  size := by simp [bind]
  outer := fun frame _ => outer_bind m scope x v frame
  names := by
    intro frame _
    unfold namesIn bind
    rw [Array.getElem?_modify]
    by_cases own : scope = frame
    · subst own
      rw [if_pos rfl, onlyIn_self, Array.getElem?_eq_getElem exist]
      rfl
    · rw [if_neg own, onlyIn_of_ne (Ne.symm own)]
      rfl
  fresh := by
    intro frame _
    by_cases own : frame = scope
    · subst own
      rw [onlyIn_self]
      refine ⟨List.pairwise_singleton _ x, ?_⟩
      intro y member
      rw [List.mem_singleton.mp member]
      exact absent
    · rw [onlyIn_of_ne own]
      exact ⟨List.nodup_nil, fun _ member => nomatch member⟩

theorem grows_addFrame (m : Machine) (outer : List FrameId) :
    Grows nowhere m (m.addFrame outer).2 := by
  have kept : ∀ frame < m.frames.size,
      (m.addFrame outer).2.frames[frame]? = m.frames[frame]? := by
    intro frame exist
    exact (Array.getElem?_push_lt exist).trans (Array.getElem?_eq_getElem exist).symm
  refine .ofNowhere ?_ ?_ ?_
  · simp [addFrame]
  · intro frame exist
    unfold Machine.outer
    rw [kept frame exist]
  · intro frame exist
    unfold namesIn
    rw [kept frame exist]

/-- The new frame is one that the machine did not have, and it exists afterwards. -/
theorem addFrame_new (m : Machine) (outer : List FrameId) :
    m.frames.size ≤ (m.addFrame outer).1 ∧
      (m.addFrame outer).1 < (m.addFrame outer).2.frames.size := by
  simp [addFrame]

theorem grows_addFunction (m : Machine) (f : Callable) :
    Grows nowhere m (m.addFunction f).2 :=
  .ofNowhere (Nat.le_refl _) (fun _ _ => rfl) fun _ _ => rfl

theorem grows_print (m : Machine) (text : String) : Grows nowhere m (m.print text) :=
  .ofNowhere (Nat.le_refl _) (fun _ _ => rfl) fun _ _ => rfl

end Machine
end Bramble
