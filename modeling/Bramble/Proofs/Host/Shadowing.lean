import Bramble.Proofs.Host.Evaluation

/-!
# Shadowing

Frames are shared: several scopes stand inside one frame, and closures keep frames that no other
scope knows. A binding that is added or changed is therefore seen from some scopes and not from
others. Which ones these are depends on the way up from a scope over its parent links, and on the
frames on it that bind the name.

A name resolves to a frame if that frame binds it and no frame below it on the way does. An
assignment is seen from the scopes where the name resolves to the same frame. A definition is seen
from the scopes that have a clear way up to the frame, and it hides from them what was seen before.
Nothing else changes for any scope and any name (`shadowing_laws`).
-/

set_option autoImplicit false

namespace Bramble
namespace Machine

/-- The way from a scope up to a frame passes no other frame that binds a name. Whether the frame
itself binds it is left open. -/
inductive Clear (m : Machine) (x : String) : Scope → FrameId → Prop where
  | here (scope : Scope) : Clear m x scope scope
  | up {scope outer : Scope} {frame : FrameId} (free : m.bindsIn scope x = false)
      (inside : m.parent? scope = some outer) (more : Clear m x outer frame) :
      Clear m x scope frame

section Ways

variable {m : Machine} {x : String} {scope outer : Scope} {frame : FrameId} {path : List FrameId}

/-- No way leads up from an outermost scope. -/
theorem Clear.eq_of_outermost (outermost : m.parent? scope = none) (clear : m.Clear x scope frame) :
    frame = scope := by
  cases clear with
  | here => rfl
  | up _ inside _ => cases outermost.symm.trans inside

/-- The way to another frame ends at the scope itself if that binds the name. -/
theorem Clear.eq_of_binds (binds : m.bindsIn scope x = true) (clear : m.Clear x scope frame) :
    frame = scope := by
  cases clear with
  | here => rfl
  | up free _ _ => cases binds.symm.trans free

/-- The way to another frame leads over the parent. -/
theorem Clear.of_ne (inside : m.parent? scope = some outer) (other : frame ≠ scope)
    (clear : m.Clear x scope frame) : m.Clear x outer frame := by
  cases clear with
  | here => exact absurd rfl other
  | up _ inside' more =>
      cases inside.symm.trans inside'
      exact more

/-- A scope that binds a name is the first frame on its way that does. -/
theorem find?_of_binds (binds : m.bindsIn scope x = true) :
    (scope :: path).find? (m.bindsIn · x) = some frame
      ↔ m.Clear x scope frame ∧ m.bindsIn frame x = true := by
  rw [List.find?_cons_of_pos (p := (m.bindsIn · x)) binds]
  constructor
  · rintro ⟨rfl⟩
    exact ⟨.here _, binds⟩
  · rintro ⟨clear, _⟩
    rw [clear.eq_of_binds binds]

/-- The first frame of a walk that binds a name is the one that a clear way leads to. -/
theorem Walk.find?_eq_some_iff (walk : m.Walk scope path) :
    path.find? (m.bindsIn · x) = some frame ↔ m.Clear x scope frame ∧ m.bindsIn frame x = true := by
  induction walk with
  | @top scope outermost =>
      cases binds : m.bindsIn scope x with
      | true => exact find?_of_binds binds
      | false =>
          rw [List.find?_cons_of_neg (by simp [binds]), List.find?_nil]
          constructor
          · rintro ⟨⟩
          · rintro ⟨clear, bound⟩
            rw [clear.eq_of_outermost outermost, binds] at bound
            cases bound
  | @up scope outer path inside _ ih =>
      cases binds : m.bindsIn scope x with
      | true => exact find?_of_binds binds
      | false =>
          rw [List.find?_cons_of_neg (by simp [binds]), ih]
          refine and_congr_left fun bound => ⟨.up binds inside, .of_ne inside ?_⟩
          rintro rfl
          cases binds.symm.trans bound

end Ways

/-- On a well-formed machine, a name resolves to the frame that binds it and that a clear way leads
to. -/
theorem WellFormed.resolve?_eq_some_iff {m : Machine} (wellFormed : m.WellFormed) {scope : Scope}
    {x : String} {frame : FrameId} :
    m.resolve? scope x = some frame ↔ m.Clear x scope frame ∧ m.bindsIn frame x = true :=
  (wellFormed.walk scope).find?_eq_some_iff

/-- After a change of a machine a value is seen in some places, that is, for some names from some
scopes, and in all other places everything is seen as before. -/
structure Reveals (m m' : Machine) (v : Value) (places : Scope → String → Prop) : Prop where
  seen : ∀ t y, places t y → m'.lookup? t y = some v
  kept : ∀ t y, ¬ places t y → m'.lookup? t y = m.lookup? t y

/-! ## Assignments -/

section Assignment

variable {m : Machine} {x y : String} {v : Value} {scope : Scope} {frame other : FrameId}

theorem bindsIn_rebind : (m.rebind frame x v).bindsIn other y = m.bindsIn other y := by
  unfold bindsIn
  rw [getIn?_rebind]
  split
  · next same => rw [Option.isSome_map, same.1, same.2]
  · rfl

/-- Another value does not change which frame a name resolves to. -/
theorem resolve?_rebind : (m.rebind frame x v).resolve? scope y = m.resolve? scope y := by
  unfold resolve? chain
  rw [outer_rebind]
  congr 1
  funext other
  exact bindsIn_rebind

/-- Another value of a name is seen where the name resolves to the frame that it was given in. -/
theorem reveals_rebind (binds : m.bindsIn frame x = true) :
    m.Reveals (m.rebind frame x v) v fun t y => y = x ∧ m.resolve? t x = some frame where
  seen := by
    rintro t y ⟨rfl, found⟩
    obtain ⟨old, bound⟩ := Option.isSome_iff_exists.mp binds
    rw [lookup?_eq_bind_resolve?, resolve?_rebind, found, Option.bind_some, getIn?_rebind,
      if_pos ⟨rfl, rfl⟩, bound]
    rfl
  kept := by
    intro t y elsewhere
    rw [lookup?_eq_bind_resolve?, lookup?_eq_bind_resolve?, resolve?_rebind]
    cases found : m.resolve? t y with
    | none => rfl
    | some other =>
        rw [Option.bind_some, Option.bind_some, getIn?_rebind, if_neg]
        rintro ⟨rfl, rfl⟩
        exact elsewhere ⟨rfl, found⟩

end Assignment

/-! ## Definitions -/

section Definition

variable {m : Machine} {x y : String} {v : Value} {scope : Scope} {frame : FrameId}

/-- A new binding is found on a walk if there is a clear way to its frame, and otherwise the walk
finds what it found before. -/
theorem Walk.findSome?_bind {path : List FrameId} (walk : m.Walk scope path)
    (has : m.Has (.frame frame)) :
    (m.Clear x scope frame → path.findSome? ((m.bind frame x v).getIn? · x) = some v) ∧
      (¬ m.Clear x scope frame →
        path.findSome? ((m.bind frame x v).getIn? · x) = path.findSome? (m.getIn? · x)) := by
  have own : (m.bind frame x v).getIn? frame x = some v := by
    rw [getIn?_bind _ _ _ _ _ _ has, if_pos ⟨rfl, rfl⟩]
  have others : ∀ {other}, frame ≠ other →
      (m.bind frame x v).getIn? other x = m.getIn? other x := by
    intro other ne
    rw [getIn?_bind _ _ _ _ _ _ has, if_neg fun both => ne both.1.symm]
  induction walk with
  | @top scope outermost =>
      by_cases same : frame = scope
      · subst same
        exact ⟨fun _ => by simp [own], fun blocked => absurd (.here _) blocked⟩
      · refine ⟨fun clear => absurd (clear.eq_of_outermost outermost) same, fun _ => ?_⟩
        simp [others same]
  | @up scope outer path inside _ ih =>
      by_cases same : frame = scope
      · subst same
        exact ⟨fun _ => by simp [own], fun blocked => absurd (.here _) blocked⟩
      · rw [List.findSome?_cons, List.findSome?_cons, others same]
        cases bound : m.getIn? scope x with
        | some old =>
            have binds : m.bindsIn scope x = true := by
              rw [bindsIn, bound]
              rfl
            exact ⟨fun clear => absurd (clear.eq_of_binds binds) same, fun _ => rfl⟩
        | none =>
            have free : m.bindsIn scope x = false := by
              rw [bindsIn, bound]
              rfl
            refine ⟨fun clear => ih.1 (clear.of_ne inside same), fun blocked => ih.2 ?_⟩
            exact fun clear => blocked (.up free inside clear)

/-- A definition is seen where there is a clear way to its frame. -/
theorem WellFormed.reveals_bind (wellFormed : m.WellFormed) (has : m.Has (.frame frame)) :
    m.Reveals (m.bind frame x v) v fun t y => y = x ∧ m.Clear x t frame := by
  have searched : ∀ t, (m.bind frame x v).chain t = m.chain t :=
    fun t => congrArg (t :: ·) (m.outer_bind frame x v t)
  constructor
  · rintro t y ⟨rfl, clear⟩
    rw [lookup?, searched]
    exact ((wellFormed.walk t).findSome?_bind has).1 clear
  · intro t y elsewhere
    rw [lookup?, lookup?, searched]
    by_cases same : y = x
    · subst same
      exact ((wellFormed.walk t).findSome?_bind has).2 fun clear => elsewhere ⟨rfl, clear⟩
    · congr 1
      funext other
      rw [getIn?_bind _ _ _ _ _ _ has, if_neg fun both => same both.2]

/-- What a definition reveals where it was not seen before, it reveals in its own places only. -/
theorem Reveals.iff_of_ne {m' : Machine} {places : Scope → String → Prop}
    (reveals : m.Reveals m' v places) {t : Scope} (new : m.lookup? t y ≠ some v) :
    m'.lookup? t y = some v ↔ places t y := by
  refine ⟨fun seen => ?_, reveals.seen t y⟩
  by_contra elsewhere
  rw [reveals.kept t y elsewhere] at seen
  exact new seen

end Definition
end Machine

/-- The laws of shadowing, for every use of a machine and all scopes of it. A name resolves to the
first frame on the way up that binds it. An assignment succeeds if and only if the name resolves to
a frame, and it is then seen from the scopes where the name resolves to the same frame. A definition
succeeds if and only if the frame does not bind the name yet, and it is then seen from the scopes
with a clear way to the frame. Nothing else changes for any scope or name. If they fail, they leave
the machine as it was. -/
theorem shadowing_laws {h : Host} (reached : Host.Reaches {} h) (s : Scope)
    (has : h.machine.Has (.frame s)) (x : String) (v : Value) :
    let m := h.machine
    (∀ t y frame, m.resolve? t y = some frame ↔ m.Clear y t frame ∧ m.bindsIn frame y = true) ∧
    ((∃ m', Eval.assign s x v m = .ok () m') ↔ ∃ frame, m.resolve? s x = some frame) ∧
    (∀ m', Eval.assign s x v m = .ok () m' →
      m.Reveals m' v fun t y => y = x ∧ m.resolve? t x = m.resolve? s x) ∧
    ((∃ m', Eval.define s x v m = .ok () m') ↔ m.bindsIn s x = false) ∧
    (∀ m', Eval.define s x v m = .ok () m' →
      (m.Reveals m' v fun t y => y = x ∧ m.Clear x t s) ∧
      ∀ t y, m.lookup? t y ≠ some v → (m'.lookup? t y = some v ↔ y = x ∧ m.Clear x t s)) ∧
    (∀ e m', Eval.assign s x v m = .error e m' → e = .unknownIdentifier x ∧ m' = m) ∧
    (∀ e m', Eval.define s x v m = .error e m' → e = .duplicateIdentifier x ∧ m' = m) := by
  intro m
  have wellFormed : m.WellFormed := (Host.Reaches.sound reached Host.sound_empty).wellFormed
  have defined := Eval.define_eq s x v m
  refine ⟨fun _ _ _ => wellFormed.resolve?_eq_some_iff, ?_, ?_, ?_, ?_, ?_, ?_⟩
  · unfold Eval.assign
    cases m.resolve? s x <;> simp
  · intro m' done
    unfold Eval.assign at done
    cases found : m.resolve? s x with
    | none =>
        rw [found] at done
        cases done
    | some frame =>
        rw [found] at done
        cases done
        exact Machine.reveals_rebind (wellFormed.resolve?_eq_some_iff.mp found).2
  · rw [defined]
    cases m.bindsIn s x <;> simp
  · intro m' done
    rw [defined] at done
    split at done
    · cases done
    · cases done
      have reveals : m.Reveals (m.bind s x v) v _ := wellFormed.reveals_bind has
      exact ⟨reveals, fun t y new => reveals.iff_of_ne new⟩
  · intro e m' failed
    unfold Eval.assign at failed
    split at failed
    · cases failed
    · cases failed
      exact ⟨rfl, rfl⟩
  · intro e m' failed
    rw [defined] at failed
    split at failed
    · cases failed
      exact ⟨rfl, rfl⟩
    · cases failed

/-- A host that has run `let n = 1; { } { let n = 2; }` in a new scope. Both blocks stand inside the
frame with the number one, and the second one has an `n` of its own. -/
def twoBlocks : Host :=
  Host.perform ⟨(Machine.programScope {}).2, [.frame 1]⟩ Value.objects
    (Program.eval 1 1
      [.letDecl "n" (.literal (.int 1)), .block [], .block [.letDecl "n" (.literal (.int 2))]])

theorem twoBlocks_assigned :
    Host.Reaches {} twoBlocks ∧ twoBlocks.machine.Has (.frame 2) ∧
      ∃ m', Eval.assign 2 "n" (.int 3) twoBlocks.machine = .ok () m' ∧
        m'.lookup? 1 "n" = some (.int 3) ∧ m'.lookup? 3 "n" = some (.int 2) := by
  have start : Host.Step {} ⟨(Machine.programScope {}).2, [.frame 1]⟩ := .programScope {}
  have reached : Host.Reaches {} twoBlocks :=
    (Relation.ReflTransGen.single start).tail (.program 1 _ List.mem_cons_self)
  have has : twoBlocks.machine.Has (.frame 2) := by
    show 2 < twoBlocks.machine.frames.size
    have size : twoBlocks.machine.frames.size = 4 := by with_unfolding_all rfl
    omega
  have first : twoBlocks.machine.resolve? 1 "n" = some 1 := by with_unfolding_all rfl
  have second : twoBlocks.machine.resolve? 2 "n" = some 1 := by with_unfolding_all rfl
  have third : twoBlocks.machine.resolve? 3 "n" = some 3 := by with_unfolding_all rfl
  obtain ⟨_, succeeds, reveals, _⟩ := shadowing_laws reached 2 has "n" (.int 3)
  obtain ⟨m', done⟩ := succeeds.mpr ⟨1, second⟩
  refine ⟨reached, has, m', done, ?_, ?_⟩
  · exact (reveals m' done).seen 1 "n" ⟨rfl, first.trans second.symm⟩
  · have value : twoBlocks.machine.lookup? 3 "n" = some (.int 2) := by with_unfolding_all rfl
    rw [(reveals m' done).kept 3 "n", value]
    rintro ⟨_, same⟩
    cases third.symm.trans (same.trans second)

end Bramble
