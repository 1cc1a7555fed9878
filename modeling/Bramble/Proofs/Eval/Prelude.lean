import Bramble.Proofs.Eval.Congruence
import Bramble.Proofs.Machine.Objects

/-!
# The prelude in use

The prelude is bound without looking whether its names are free. A program scope made by definitions
that do look is the same, because the frame is new and no two functions of the prelude have one name
(`programScope_eq`).

A program can store a function of the prelude, pass it on and call it from anywhere, under any name.
Wherever it is called from, it is run on as many arguments as it takes. What a function of the
prelude would do with any other number of arguments therefore makes no difference: evaluation stays
the same if it is replaced by one that does something else with them (`Program.evalVia_eq`), and it
never stops for want of an argument, on any machine (`supplying`).
-/

set_option autoImplicit false

namespace Bramble

/-! ## Making the prelude -/

namespace Machine

theorem within_bindBuiltin {m : Machine} {frame : FrameId} (b : Builtin) :
    m.Within (m.bindBuiltin frame b) :=
  (within_addFunction (.builtin b)).trans within_bind

/-- Binding one function of the prelude leaves the names of the others free. -/
theorem bindsIn_bindBuiltin_of_ne {m : Machine} {frame : FrameId} (has : m.Has (.frame frame))
    {b : Builtin} {x : String} (ne : x ≠ b.name) :
    (m.bindBuiltin frame b).bindsIn frame x = m.bindsIn frame x := by
  have value := getIn?_bind (m.addFunction (.builtin b)).2 frame frame b.name x
    (m.addFunction (.builtin b)).1 has
  rw [if_neg (fun both => ne both.2)] at value
  exact congrArg Option.isSome value

theorem bindsIn_newScope (m : Machine) (x : String) :
    m.newScope.2.bindsIn m.newScope.1 x = false := by
  have absent : m.frames[(m.addFrame []).1]? = none := Array.getElem?_eq_none (Nat.le_refl _)
  rw [bindsIn, newScope, getIn?_addFrame, getIn?, absent]
  rfl

end Machine

namespace Eval

/-- Defines functions of the prelude in a scope that must not bind their names yet. -/
def defineBuiltins (prelude : Scope) : List Builtin → Eval Unit
  | [] => pure ()
  | b :: bs => do
      let f ← newFunction (.builtin b)
      define prelude b.name f
      defineBuiltins prelude bs

/-- A new scope for a program, made by definitions that may fail. -/
def programScope : Eval Scope := do
  let prelude ← modifyGet Machine.newScope
  defineBuiltins prelude Builtin.all
  child prelude

theorem child_eq (scope : Scope) (m : Machine) :
    child scope m = .ok (m.child scope).1 (m.child scope).2 := rfl

variable {m : Machine} {prelude : Scope}

theorem defineBuiltins_eq (has : m.Has (.frame prelude)) {bs : List Builtin}
    (distinct : (bs.map Builtin.name).Nodup)
    (fresh : ∀ b ∈ bs, m.bindsIn prelude b.name = false) :
    defineBuiltins prelude bs m
      = .ok () (bs.foldl (fun m b => m.bindBuiltin prelude b) m) := by
  induction bs generalizing m with
  | nil => rfl
  | cons b bs ih =>
      obtain ⟨other, distinct⟩ := List.nodup_cons.mp distinct
      have free : (m.addFunction (.builtin b)).2.bindsIn prelude b.name = false :=
        fresh b List.mem_cons_self
      have made : newFunction (.builtin b) m
          = .ok (m.addFunction (.builtin b)).1 (m.addFunction (.builtin b)).2 := rfl
      have defined : define prelude b.name (m.addFunction (.builtin b)).1
          (m.addFunction (.builtin b)).2 = .ok () (m.bindBuiltin prelude b) := by
        rw [define_eq, free]
        rfl
      rw [defineBuiltins, bind_ok made, bind_ok defined, List.foldl_cons]
      refine ih (Machine.within_bindBuiltin b _ has) distinct fun b' member => ?_
      rw [Machine.bindsIn_bindBuiltin_of_ne has]
      · exact fresh b' (List.mem_cons_of_mem b member)
      · intro same
        exact other (List.mem_map.mpr ⟨b', member, same⟩)

/-- No definition of the prelude fails, on any machine. -/
theorem programScope_eq (m : Machine) :
    programScope m = .ok m.programScope.1 m.programScope.2 := by
  have has : m.newScope.2.Has (.frame m.newScope.1) := Machine.has_addFrame []
  have distinct : (Builtin.all.map Builtin.name).Nodup := by decide
  have defined := defineBuiltins_eq has distinct fun b _ => m.bindsIn_newScope b.name
  have made : (modifyGet Machine.newScope : Eval Scope) m = .ok m.newScope.1 m.newScope.2 := rfl
  rw [programScope, bind_ok made, bind_ok defined]
  exact child_eq m.newScope.1 _

end Eval

/-! ## Calling the prelude -/

/-- Calls a value, where `native` says what the functions of the prelude do. `inner` is what the
calls in the body of a closure do; it is missing where the limit is reached. -/
def callNative (native : Builtin → List Value → Eval Value) (limit : Nat) (inner : Option Call) :
    Call := fun callee args => do
  let f ← Eval.callable callee
  f.checkArity args
  f.apply (Closure.enter limit inner) native args

/-- Calls a value with `left` levels of calls left, of `limit` in all, where `native` says what
the functions of the prelude do. -/
def callVia (native : Builtin → List Value → Eval Value) (limit : Nat) : Nat → Call
  | 0 => callNative native limit none
  | left + 1 => callNative native limit (some (callVia native limit left))

/-- The value of a program, where `native` says what the functions of the prelude do. -/
def Program.evalVia (native : Builtin → List Value → Eval Value) (limit : Nat) (scope : Scope)
    (program : Program) : Eval Value := do
  return (← Stmt.runAll (callVia native limit limit) scope .void program).value

/-- `native` does what the functions of the prelude do, if it gets as many arguments as they
take. -/
def Builtin.Implements (native : Builtin → List Value → Eval Value) : Prop :=
  ∀ b args, args.length = Builtin.arity b → native b args = b.run args

/-- What is run after the check of the number of arguments counts for fitting ones only. -/
theorem Callable.checkArity_bind_congr (f : Callable) (args : List Value) {p q : Eval Value}
    (same : args.length = f.arity → p = q) :
    (do f.checkArity args; p) = (do f.checkArity args; q) := by
  by_cases fits : args.length = f.arity
  · rw [same fits]
  · unfold checkArity
    rw [if_neg fits]
    rfl

theorem callNative_eq {native : Builtin → List Value → Eval Value}
    (implements : Builtin.Implements native) (limit : Nat) (inner : Option Call) :
    callNative native limit inner = callWith limit inner := by
  funext callee args
  rw [callWith_eq, callNative]
  congr 1
  funext f
  refine f.checkArity_bind_congr args fun fits => ?_
  cases f with
  | closure c => rfl
  | builtin b => exact implements b args fits

theorem callVia_eq {native : Builtin → List Value → Eval Value}
    (implements : Builtin.Implements native) (limit left : Nat) :
    callVia native limit left = callLeft limit left := by
  induction left with
  | zero => exact callNative_eq implements limit none
  | succ left ih =>
      rw [callVia, callNative_eq implements, ih]
      rfl

/-- Programs run the functions of the prelude on as many arguments as they take and on no other
number, so that it is the same with every `native` that does what the prelude does there. -/
theorem Program.evalVia_eq {native : Builtin → List Value → Eval Value}
    (implements : Builtin.Implements native) (limit : Nat) (scope : Scope) (program : Program) :
    program.evalVia native limit scope = program.eval limit scope := by
  rw [evalVia, callVia_eq implements]
  rfl

/-- With as many arguments as it takes, a function of the prelude misses none. -/
theorem Builtin.run_fits {b : Builtin} {args : List Value} {m m' : Machine} {e : EvalError}
    (fits : args.length = b.arity) (stops : b.run args m = .error e m') : e.isMissing = false := by
  rw [run_eq] at stops
  cases answer : b.answer m.display m.inspect args with
  | ok text =>
      rw [answer] at stops
      cases stops
  | error e' =>
      rw [answer] at stops
      cases stops
      exact answer_fits fits answer

/-! ## Functions of the prelude have their arguments -/

namespace Eval

variable {α β : Type}

/-- What the computation returns is as it should be, and if it stops, it is not for want of an
argument. -/
structure Supplied (results : α → Prop) (p : Eval α) : Prop where
  result : ∀ m a m', p m = .ok a m' → results a
  arguments : ∀ m e m', p m = .error e m' → e.isMissing = false

/-- The congruence of never being short of an argument. It is about one run, on any machine. -/
def supplying : Congruence where
  World := PUnit
  later := fun _ _ => True
  scopes := fun _ _ _ => True
  functions := fun _ => Eq
  related := fun _ results p _ => Supplied (fun a => ∃ b, results () a b) p
  scopes_later := fun _ _ => trivial
  functions_later := fun _ same => same
  functions_oneToOne := by
    rintro _ a _ b _ rfl rfl
    rfl
  related_pure := by
    intro α β _ results a b result
    refine ⟨fun m a' m' ends => ?_, fun m e m' ends => ?_⟩
    · cases ends
      exact ⟨b, result⟩
    · cases ends
  related_bind := by
    intro α β γ δ _ results more p p' f f' first second
    have next : ∀ {m m' a}, p m = .ok a m' → Supplied (fun c => ∃ d, more () c d) (f a) := by
      intro m m' a ok
      obtain ⟨b, result⟩ := first.result m a m' ok
      exact second () trivial a b result
    refine ⟨fun m c m'' ends => ?_, fun m e m'' ends => ?_⟩
    · obtain ⟨a, m', ok, ends'⟩ := of_bind ends
      exact (next ok).result m' c m'' ends'
    · cases ending : p m with
      | ok a m' =>
          rw [bind_ok ending] at ends
          exact (next ending).arguments m' e m'' ends
      | error e' m' =>
          rw [bind_error ending] at ends
          cases ends
          exact first.arguments m e m'' ending
  related_throw := by
    intro α β _ results e raised
    refine ⟨fun m a m' ends => ?_, fun m e' m' ends => ?_⟩
    · cases ends
    · cases ends
      exact raised
  related_lookup := by
    intro _ s s' x _
    refine ⟨fun m v m' _ => ⟨v, .refl v⟩, fun m e m' ends => ?_⟩
    unfold lookup at ends
    cases found : m.lookup? s x with
    | none =>
        rw [found] at ends
        cases ends
        rfl
    | some v =>
        rw [found] at ends
        cases ends
  related_requireFresh := by
    intro _ s s' x _
    refine ⟨fun m v m' _ => ⟨(), trivial⟩, fun m e m' ends => ?_⟩
    unfold requireFresh at ends
    split at ends
    · cases ends
      rfl
    · cases ends
  related_define := by
    intro _ s s' x v v' _ _
    refine ⟨fun m v m' _ => ⟨(), trivial⟩, fun m e m' ends => ?_⟩
    rw [define_eq] at ends
    split at ends
    · cases ends
      rfl
    · cases ends
  related_assign := by
    intro _ s s' x v v' _ _
    refine ⟨fun m v m' _ => ⟨(), trivial⟩, fun m e m' ends => ?_⟩
    unfold assign at ends
    split at ends
    · cases ends
    · cases ends
      rfl
  related_child := by
    intro _ s s' _
    refine ⟨fun m inner m' _ => ⟨inner, trivial⟩, fun m e m' ends => ?_⟩
    cases ends
  related_newFunction := by
    intro _ f f' _
    refine ⟨fun m v m' _ => ⟨v, .refl v⟩, fun m e m' ends => ?_⟩
    cases ends
  related_callable := by
    intro _ v v' _
    refine ⟨fun m f m' _ => ?_, fun m e m' ends => ?_⟩
    · cases f with
      | closure c => exact ⟨.closure c, .closure c.name c.params c.body trivial⟩
      | builtin b => exact ⟨.builtin b, .builtin b⟩
    · unfold callable at ends
      split at ends
      · split at ends
        · cases ends
        · cases ends
          rfl
      · cases ends
        rfl
  related_builtin := by
    intro _ b args args' fits _
    refine ⟨fun m v m' _ => ⟨v, .refl v⟩, fun m e m' ends => ?_⟩
    exact Builtin.run_fits fits ends

end Eval

end Bramble
