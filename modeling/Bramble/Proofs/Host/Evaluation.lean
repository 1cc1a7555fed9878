import Bramble.Proofs.Eval.Prelude
import Bramble.Proofs.Host.Operations

/-!
# Evaluation is made of operations

Evaluation, begun in a scope that is held, does nothing to a machine that a host could not do by
single operations on what it holds. This goes for every expression, statement and call, at every
depth of calls and also when it stops with an error halfway (`Step.leads`). What is true after every
sequence of operations is therefore true after evaluation, and at every moment of it.

So the machine of a host stays a heap of frames that evaluation can rely on, whatever the host does:
parent links lead to older frames and stay, no frame binds a name twice or loses one, and there are
no dangling references (`heap_invariant`).
-/

set_option autoImplicit false

namespace Bramble

/-! ## Scopes and functions of a set of objects -/

namespace Eval

/-- Scopes that are the same and belong to a set of objects. -/
def ScopeIn (r : Object → Prop) (s s' : Scope) : Prop := s = s' ∧ r (.frame s)

/-- Functions that are the same and belong to a set of objects. -/
def FunctionIn (r : Object → Prop) (a a' : FunctionId) : Prop := a = a' ∧ r (.function a)

end Eval

section Sets

variable {r : Object → Prop}

theorem Value.like_functionIn {v v' : Value} :
    v.Like (Eval.FunctionIn r) v' ↔ v = v' ∧ ∀ o ∈ v.objects, r o := by
  constructor
  · intro like
    refine ⟨like.eq_of_forall fun same => same.1, ?_⟩
    intro o member
    obtain ⟨id, rfl, rfl⟩ := Value.mem_objects.mp member
    cases like with
    | function same => exact same.2
  · rintro ⟨rfl, held⟩
    cases v with
    | int n => exact .int n
    | str s => exact .str s
    | bool b => exact .bool b
    | void => exact .void
    | function id => exact .function ⟨rfl, held _ (List.mem_singleton.mpr rfl)⟩

theorem Value.likeAll_functionIn {vs vs' : List Value} :
    Value.LikeAll (Eval.FunctionIn r) vs vs' ↔ vs = vs' ∧ ∀ v ∈ vs, ∀ o ∈ v.objects, r o := by
  constructor
  · intro likeAll
    obtain rfl := Value.Like.all_eq_of_forall (fun same => same.1) likeAll
    refine ⟨rfl, fun v member => ?_⟩
    exact (Value.like_functionIn.mp (List.forall₂_same.mp likeAll v member)).2
  · rintro ⟨rfl, held⟩
    exact List.forall₂_same.mpr fun v member => Value.like_functionIn.mpr ⟨rfl, held v member⟩

theorem Callable.like_scopeIn {f f' : Callable} :
    f.Like (Eval.ScopeIn r) f' ↔ f = f' ∧ ∀ o ∈ f.objects, r o := by
  constructor
  · intro like
    cases like with
    | closure name params body same =>
        obtain ⟨rfl, inside⟩ := same
        exact ⟨rfl, fun o member => by rwa [List.mem_singleton.mp member]⟩
    | builtin b => exact ⟨rfl, fun o member => by cases member⟩
  · rintro ⟨rfl, held⟩
    cases f with
    | closure c => exact .closure c.name c.params c.body ⟨rfl, held _ (List.mem_singleton.mpr rfl)⟩
    | builtin b => exact .builtin b

end Sets

namespace Host

open Eval (ScopeIn FunctionIn)

variable {h h' h'' : Host} {α β : Type}

/-! ## Computations that are sequences of operations -/

/-- The computation does what some sequence of operations does, and what it returns is as it should
be for the host that these lead to. -/
inductive Traced (h : Host) (results : Host → α → Prop) (p : Eval α) : Prop where
  | ok {a : α} {h' : Host} (leads : h.Leads h') (ends : p h.machine = .ok a h'.machine)
      (result : results h' a)
  | error {e : EvalError} {h' : Host} (leads : h.Leads h')
      (ends : p h.machine = .error e h'.machine)

namespace Traced

variable {results : Host → α → Prop} {p : Eval α}

/-- A computation that looks at the machine only. -/
theorem here {a : α} (ends : p h.machine = .ok a h.machine) (result : results h a) :
    Traced h results p :=
  .ok .refl ends result

theorem stopped {e : EvalError} (ends : p h.machine = .error e h.machine) :
    Traced h results p :=
  .error .refl ends

/-- A computation that does what one operation does. -/
theorem single {a : α} (operation : Operation h h') (ends : p h.machine = .ok a h'.machine)
    (result : results h' a) : Traced h results p :=
  .ok (.single operation) ends result

theorem imp {more : Host → α → Prop} (traced : Traced h results p)
    (weaker : ∀ h' a, results h' a → more h' a) : Traced h more p := by
  cases traced with
  | ok leads ends result => exact .ok leads ends (weaker _ _ result)
  | error leads ends => exact .error leads ends

theorem bind {more : Host → β → Prop} {f : α → Eval β} (first : Traced h results p)
    (second : ∀ h', h.Leads h' → ∀ a, results h' a → Traced h' more (f a)) :
    Traced h more (p >>= f) := by
  cases first with
  | error leads ends => exact .error leads (bind_error ends)
  | ok leads ends result =>
      cases second _ leads _ result with
      | ok leads' ends' result' =>
          exact .ok (leads.trans leads') ((bind_ok ends).trans ends') result'
      | error leads' ends' => exact .error (leads.trans leads') ((bind_ok ends).trans ends')

end Traced

/-! ## The operations of evaluation -/

variable {scope : Scope} {x : String} {v : Value}

theorem traced_lookup (held : .frame scope ∈ h.held) :
    Traced h (fun h' v => h'.Holds v) (Eval.lookup scope x) := by
  cases found : h.machine.lookup? scope x with
  | none =>
      refine .stopped (e := .unknownIdentifier x) ?_
      simp only [Eval.lookup, found]
  | some v =>
      refine .single (.lookup held found) (a := v) ?_ fun o member => ?_
      · simp only [Eval.lookup, found]
      · exact List.mem_append_left _ member

theorem traced_requireFresh : Traced h (fun _ _ => True) (Eval.requireFresh scope x) := by
  by_cases bound : h.machine.bindsIn scope x = true
  · have refused : Eval.requireFresh scope x h.machine
        = .error (.duplicateIdentifier x) h.machine := if_pos bound
    exact .stopped refused
  · exact .here (if_neg bound) trivial

theorem traced_define (held : .frame scope ∈ h.held) (given : h.Holds v) :
    Traced h (fun _ _ => True) (Eval.define scope x v) := by
  have defined := Eval.define_eq scope x v h.machine
  by_cases bound : h.machine.bindsIn scope x = true
  · rw [if_pos bound] at defined
    exact .stopped defined
  · rw [if_neg bound] at defined
    exact .single (.define held given (Bool.eq_false_iff.mpr bound)) defined trivial

theorem traced_assign (held : .frame scope ∈ h.held) (given : h.Holds v) :
    Traced h (fun _ _ => True) (Eval.assign scope x v) := by
  cases found : h.machine.resolve? scope x with
  | none =>
      refine .stopped (e := .unknownIdentifier x) ?_
      simp only [Eval.assign, found]
  | some frame =>
      refine .single (.assign held given found) (a := ()) ?_ trivial
      simp only [Eval.assign, found]

theorem traced_child (held : .frame scope ∈ h.held) :
    Traced h (fun h' s => .frame s ∈ h'.held) (Eval.child scope) :=
  .single (.child held) rfl List.mem_cons_self

theorem traced_newFunction {f : Callable} (held : ∀ o ∈ f.objects, o ∈ h.held) :
    Traced h (fun h' v => h'.Holds v) (Eval.newFunction f) :=
  .single (.newFunction held) rfl fun _ member => List.mem_append_left _ member

/-- A function that is called is held, and so is then the scope that its body is run in. -/
theorem traced_callable (given : h.Holds v) :
    Traced h (fun h' f => ∀ o ∈ f.objects, o ∈ h'.held) (Eval.callable v) := by
  cases v with
  | function id =>
      have held : .function id ∈ h.held := given _ (List.mem_singleton.mpr rfl)
      cases found : h.machine.functions[id]? with
      | none =>
          refine .stopped (e := .notCallable .function) ?_
          simp only [Eval.callable, found]
      | some f =>
          have there : Eval.callable (.function id) h.machine = .ok f h.machine := by
            simp only [Eval.callable, found]
          cases f with
          | closure c =>
              refine .single (.captured held found) there fun o member => ?_
              rw [List.mem_singleton.mp member]
              exact List.mem_cons_self
          | builtin b =>
              refine .here there fun o member => ?_
              cases member
  | _ => exact .stopped rfl

theorem traced_builtin (b : Builtin) (args : List Value) :
    Traced h (fun _ v => v = .void) (b.run args) := by
  have run := b.run_eq args h.machine
  cases answer : b.answer h.machine.display h.machine.inspect args with
  | ok text =>
      rw [answer] at run
      exact .single (.print h text) run rfl
  | error e =>
      rw [answer] at run
      exact .stopped run

theorem traced_defineBuiltins (held : .frame scope ∈ h.held) (bs : List Builtin) :
    Traced h (fun h' _ => .frame scope ∈ h'.held) (Eval.defineBuiltins scope bs) := by
  induction bs generalizing h with
  | nil => exact .here rfl held
  | cons b bs ih =>
      have none : ∀ o ∈ (Callable.builtin b).objects, o ∈ h.held := by
        intro o member
        cases member
      refine (traced_newFunction none).bind fun h' leads f given => ?_
      have held' := Leads.held leads _ held
      refine (traced_define held' given).bind fun h'' leads' _ _ => ?_
      exact ih (Leads.held leads' _ held')

theorem traced_programScope :
    Traced h (fun h' s => .frame s ∈ h'.held) Eval.programScope := by
  have new : Traced h (fun h' s => .frame s ∈ h'.held) (modifyGet Machine.newScope) :=
    .single (.newScope h) rfl List.mem_cons_self
  refine new.bind fun h' _ prelude held => ?_
  refine (traced_defineBuiltins held Builtin.all).bind fun h'' _ _ held' => ?_
  exact traced_child held'

/-- The congruence of being made of operations. It is about one run, and a world is the host that
the run has reached. -/
def tracing : Eval.Congruence where
  World := Host
  later := Leads
  scopes := fun h => ScopeIn (· ∈ h.held)
  functions := fun h => FunctionIn (· ∈ h.held)
  related := fun h results p _ => Traced h (fun h' a => ∃ b, results h' a b) p
  scopes_later := fun leads same => ⟨same.1, Leads.held leads _ same.2⟩
  functions_later := fun leads same => ⟨same.1, Leads.held leads _ same.2⟩
  functions_oneToOne := by
    rintro h a a' b b' ⟨rfl, _⟩ ⟨rfl, _⟩
    rfl
  related_pure := fun result => .here rfl ⟨_, result⟩
  related_bind := by
    intro α β γ δ h results more p p' f f' first second
    exact first.bind fun h' leads a ⟨b, result⟩ => second h' leads a b result
  related_throw := fun _ => .stopped rfl
  related_lookup := by
    intro h s s' x same
    refine (traced_lookup same.2).imp fun h' v given => ⟨v, ?_⟩
    exact Value.like_functionIn.mpr ⟨rfl, given⟩
  related_requireFresh := by
    intro h s s' x same
    exact traced_requireFresh.imp fun _ _ _ => ⟨(), trivial⟩
  related_define := by
    intro h s s' x v v' same like
    have given := (Value.like_functionIn.mp like).2
    exact (traced_define same.2 given).imp fun _ _ _ => ⟨(), trivial⟩
  related_assign := by
    intro h s s' x v v' same like
    have given := (Value.like_functionIn.mp like).2
    exact (traced_assign same.2 given).imp fun _ _ _ => ⟨(), trivial⟩
  related_child := by
    intro h s s' same
    exact (traced_child same.2).imp fun h' inner held => ⟨inner, rfl, held⟩
  related_newFunction := by
    intro h f f' like
    have held := (Callable.like_scopeIn.mp like).2
    refine (traced_newFunction held).imp fun h' v given => ⟨v, ?_⟩
    exact Value.like_functionIn.mpr ⟨rfl, given⟩
  related_callable := by
    intro h v v' like
    have given := (Value.like_functionIn.mp like).2
    refine (traced_callable given).imp fun h' f held => ⟨f, ?_⟩
    exact Callable.like_scopeIn.mpr ⟨rfl, held⟩
  related_builtin := by
    intro h b args args' fits like
    refine (traced_builtin b args).imp fun h' v void => ⟨.void, ?_⟩
    rw [void]
    exact .void

/-! ## Everything that a host can do -/

/-- A computation that is carried out. What its result stands for is held from then on. If it
stops, the machine stays as it is then. -/
def perform (h : Host) (objects : α → List Object) (p : Eval α) : Host :=
  match p h.machine with
  | .ok a m => ⟨m, objects a ++ h.held⟩
  | .error _ m => ⟨m, h.held⟩

/-- What a host can do. It starts evaluation in scopes and with values that it holds, at any depth
of calls, and it goes on after errors as well. -/
inductive Step : Host → Host → Prop where
  | operation {h h' : Host} (operation : Operation h h') : Step h h'
  /-- A new scope for a program. -/
  | programScope (h : Host) :
      Step h ⟨h.machine.programScope.2, .frame h.machine.programScope.1 :: h.held⟩
  | define {h : Host} {scope : Scope} {v : Value} (x : String) (held : .frame scope ∈ h.held)
      (given : h.Holds v) : Step h (h.perform (fun _ => []) (Eval.define scope x v))
  | assign {h : Host} {scope : Scope} {v : Value} (x : String) (held : .frame scope ∈ h.held)
      (given : h.Holds v) : Step h (h.perform (fun _ => []) (Eval.assign scope x v))
  /-- Definitions of functions of the prelude. -/
  | builtins {h : Host} {scope : Scope} (bs : List Builtin) (held : .frame scope ∈ h.held) :
      Step h (h.perform (fun _ => []) (Eval.defineBuiltins scope bs))
  | eval {h : Host} {scope : Scope} (limit left : Nat) (e : Expr) (held : .frame scope ∈ h.held) :
      Step h (h.perform Value.objects (e.eval (callLeft limit left) scope))
  | run {h : Host} {scope : Scope} (limit left : Nat) (s : Stmt) (held : .frame scope ∈ h.held) :
      Step h (h.perform (·.value.objects) (s.run (callLeft limit left) scope))
  | runAll {h : Host} {scope : Scope} (limit left : Nat) (ss : List Stmt)
      (held : .frame scope ∈ h.held) :
      Step h (h.perform (·.value.objects) (Stmt.runAll (callLeft limit left) scope .void ss))
  | program {h : Host} {scope : Scope} (limit : Nat) (program : Program)
      (held : .frame scope ∈ h.held) :
      Step h (h.perform Value.objects (program.eval limit scope))
  | call {h : Host} {callee : Value} {args : List Value} (limit left : Nat)
      (given : h.Holds callee) (givenAll : ∀ v ∈ args, h.Holds v) :
      Step h (h.perform Value.objects (callLeft limit left callee args))

/-- Everything that a host can do, step after step. -/
abbrev Reaches : Host → Host → Prop := Relation.ReflTransGen Step

/-- Hosts of one machine, where one holds all that the other one holds. -/
structure Covers (h h' : Host) : Prop where
  machine : h.machine = h'.machine
  held : ∀ o ∈ h'.held, o ∈ h.held

/-- Carrying out a computation that is made of operations. -/
theorem Traced.perform {results : Host → α → Prop} {p : Eval α} (traced : Traced h results p)
    (objects : α → List Object)
    (returned : ∀ h' a, results h' a → ∀ o ∈ objects a, o ∈ h'.held) :
    ∃ h', h.Leads h' ∧ h'.Covers (h.perform objects p) := by
  unfold Host.perform
  cases traced with
  | ok leads ends result =>
      have held := List.forall_mem_append.mpr ⟨returned _ _ result, Leads.held leads⟩
      rw [ends]
      exact ⟨_, leads, rfl, held⟩
  | error leads ends =>
      have held := Leads.held leads
      rw [ends]
      exact ⟨_, leads, rfl, held⟩

/-- The objects of a value that goes together with another one are held. -/
theorem tracing_value {h : Host} {v : Value} (like : ∃ v', tracing.values h v v') : h.Holds v := by
  obtain ⟨_, like⟩ := like
  exact (Value.like_functionIn.mp like).2

theorem tracing_flow {h : Host} {flow : Flow} (like : ∃ flow', tracing.flows h flow flow') :
    h.Holds flow.value := by
  obtain ⟨_, like⟩ := like
  cases like with
  | next value => exact tracing_value ⟨_, value⟩
  | returned value => exact tracing_value ⟨_, value⟩

/-- Whatever a host does is a sequence of operations. -/
theorem Step.leads (step : Step h h') : ∃ h'', h.Leads h'' ∧ h''.Covers h' := by
  have calls := tracing.relatesCalls_callLeft
  have nothing : ∀ (h' : Host) (_ : Unit), True → ∀ o ∈ ([] : List Object), o ∈ h'.held :=
    fun _ _ _ _ none => absurd none List.not_mem_nil
  cases step with
  | operation operation => exact ⟨_, .single operation, rfl, fun _ held => held⟩
  | programScope =>
      have returned : ∀ (h' : Host) (s : Scope), .frame s ∈ h'.held →
          ∀ o ∈ [Object.frame s], o ∈ h'.held := by
        intro h' s held o member
        rwa [List.mem_singleton.mp member]
      have made := (traced_programScope (h := h)).perform (fun s => [.frame s]) returned
      unfold Host.perform at made
      rwa [Eval.programScope_eq] at made
  | define x held given => exact (traced_define held given).perform _ nothing
  | assign x held given => exact (traced_assign held given).perform _ nothing
  | builtins bs held =>
      exact (traced_defineBuiltins held bs).perform _ fun h' a _ => nothing h' a trivial
  | eval limit left e held =>
      have traced := Eval.Congruence.related_eval (w := h) (calls limit left) ⟨rfl, held⟩ e
      exact traced.perform _ fun _ _ => tracing_value
  | run limit left s held =>
      have traced := Eval.Congruence.related_run (w := h) (calls limit left) ⟨rfl, held⟩ s
      exact traced.perform _ fun _ _ => tracing_flow
  | runAll limit left ss held =>
      have traced := Eval.Congruence.related_statements (w := h) (calls limit left) ⟨rfl, held⟩
        ss .void
      exact traced.perform _ fun _ _ => tracing_flow
  | program limit program held =>
      have traced := Eval.Congruence.related_program (w := h) (calls limit limit) ⟨rfl, held⟩
        program
      exact traced.perform _ fun _ _ => tracing_value
  | call limit left given givenAll =>
      have like := Value.like_functionIn.mpr ⟨rfl, given⟩
      have likeAll := Value.likeAll_functionIn.mpr ⟨rfl, givenAll⟩
      exact (calls limit left h _ _ _ _ like likeAll).perform _ fun _ _ => tracing_value

/-! ## What every step keeps -/

theorem Covers.sound (covers : h.Covers h') (sound : h.Sound) : h'.Sound := by
  obtain ⟨machine, held⟩ := covers
  exact ⟨machine ▸ sound.wellFormed, fun o member => machine ▸ sound.exist o (held o member)⟩

theorem Step.sound (step : Step h h') (sound : h.Sound) : h'.Sound := by
  obtain ⟨h'', leads, covers⟩ := step.leads
  exact covers.sound (Leads.sound leads sound)

theorem Step.continues (step : Step h h') (sound : h.Sound) : Continues h.machine h'.machine := by
  obtain ⟨h'', leads, covers⟩ := step.leads
  exact covers.machine ▸ Leads.continues leads sound

theorem Reaches.sound (reaches : h.Reaches h') (sound : h.Sound) : h'.Sound := by
  induction reaches with
  | refl => exact sound
  | tail _ step ih => exact step.sound ih

theorem Reaches.continues (reaches : h.Reaches h') (sound : h.Sound) :
    Continues h.machine h'.machine := by
  induction reaches with
  | refl => exact .refl _
  | tail before step ih => exact ih.trans (step.continues (Reaches.sound before sound))

end Host

/-! ## The heap of frames -/

/-- Whatever a host has done, starting from nothing, errors included: parent links lead to older
frames, the names of a frame differ, and what is referred to or held exists. Walks over parent
links end, one way only, and searches and depths are about these walks. Whatever the host does
next, frames stay, each with its parent and with the names that it binds. Evaluation is made of
operations, so that all this is true in the middle of it as well. -/
theorem heap_invariant {h : Host} (reached : Host.Reaches {} h) :
    h.Sound ∧
    (∀ scope, ∃ path, h.machine.Walk scope path ∧
      (∀ path', h.machine.Walk scope path' → path' = path) ∧
      h.machine.depth scope + 1 = path.length ∧
      (∀ x, h.machine.lookup? scope x = path.findSome? (h.machine.getIn? · x)) ∧
      (∀ x, h.machine.resolve? scope x = path.find? (h.machine.bindsIn · x))) ∧
    (∀ scope, (h.machine.child scope).2.parent? (h.machine.child scope).1 = some scope ∧
      (h.machine.child scope).2.depth (h.machine.child scope).1 = h.machine.depth scope + 1) ∧
    (∀ h', h.Reaches h' → ∀ frame, h.machine.Has (.frame frame) →
      h'.machine.Has (.frame frame) ∧ h'.machine.parent? frame = h.machine.parent? frame ∧
      ∀ x, h.machine.bindsIn frame x = true → h'.machine.bindsIn frame x = true) ∧
    (∀ h', h.Step h' → ∃ h'', h.Leads h'' ∧ h''.Covers h') := by
  have sound := Host.Reaches.sound reached Host.sound_empty
  refine ⟨sound, fun scope => ?_, fun scope => ?_, fun h' reaches frame has => ?_,
    fun h' step => ?_⟩
  · have walk := sound.wellFormed.walk scope
    exact ⟨_, walk, fun _ walk' => walk'.unique walk, rfl, fun _ => rfl, fun _ => rfl⟩
  · exact ⟨h.machine.parent?_child scope, h.machine.depth_child scope⟩
  · exact (Host.Reaches.continues reaches sound).frame has
  · exact step.leads

/-- A host that has run a program in a new scope. The program calls a function that has one name
for two parameters, and stops after the first one has been bound. -/
def halfBound : Host :=
  Host.perform ⟨(Machine.programScope {}).2, [.frame 1]⟩ Value.objects
    (Program.eval 8 1
      [.funDecl "f" ["a", "a"] [],
        .expr (.call (.name "f") [.literal (.int 1), .literal (.int 2)])])

theorem halfBound_sound :
    halfBound.machine.namesIn 2 = ["a"] ∧ halfBound.Sound ∧
      ∃ path, halfBound.machine.Walk 2 path ∧ path.length = 3 := by
  have start : Host.Step {} ⟨(Machine.programScope {}).2, [.frame 1]⟩ := .programScope {}
  have reached : Host.Reaches {} halfBound :=
    (Relation.ReflTransGen.single start).tail (.program 8 _ List.mem_cons_self)
  obtain ⟨sound, walks, _⟩ := heap_invariant reached
  obtain ⟨path, walk, _, length, _⟩ := walks 2
  refine ⟨by with_unfolding_all rfl, sound, path, walk, ?_⟩
  have depth : halfBound.machine.depth 2 = 2 := by with_unfolding_all rfl
  rw [← length, depth]

end Bramble
