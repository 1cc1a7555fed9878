import Bramble.Eval.Call
import Bramble.Proofs.Program.Vocabulary
import Bramble.Proofs.Stateful
import Mathlib.Data.List.Forall2

/-!
# Congruences of evaluation

Many facts about evaluation compare two runs of one program: with two limits on calls, or on two
machines that differ in what the program cannot see. Such a comparison is a relation between
computations. It is a congruence if it holds between the operations that evaluation is made of and
is kept when computations are put in sequence. A congruence then holds between the two runs of every
expression, of every statement and of every call, and this is shown here once for all of them
(`related_eval`, `related_run`, `relatesCalls_callLeft`). Where names make a difference, it is
enough that the relation holds for the names of a vocabulary; it then holds between the two runs of
every program of that vocabulary (`related_program`).

The two runs have the same program, and their scopes and functions may have different numbers.
Values other than functions are the same in both. A congruence says which numbers go together;
for the numbers of functions it has to be one to one, because a program can ask whether two
functions are the same. New scopes and functions are made all the time, so what goes together
depends on a world, and it stays together in all later worlds.
-/

set_option autoImplicit false

namespace Bramble

/-! ## Values of two runs -/

/-- Values of two runs. They may differ in the number of a function only. -/
inductive Value.Like (functions : FunctionId → FunctionId → Prop) : Value → Value → Prop where
  | int (n : Int64) : Like functions (.int n) (.int n)
  | str (s : String) : Like functions (.str s) (.str s)
  | bool (b : Bool) : Like functions (.bool b) (.bool b)
  | void : Like functions .void .void
  | function {id id' : FunctionId} (same : functions id id') :
      Like functions (.function id) (.function id')

/-- Lists of values of two runs. -/
abbrev Value.LikeAll (functions : FunctionId → FunctionId → Prop) :
    List Value → List Value → Prop :=
  List.Forall₂ (Value.Like functions)

namespace Value.Like

variable {functions : FunctionId → FunctionId → Prop} {v v' w w' : Value}

theorem ofLiteral (l : Literal) : Like functions (.ofLiteral l) (.ofLiteral l) := by
  cases l with
  | int n => exact .int n
  | str s => exact .str s
  | bool b => exact .bool b

theorem kind_eq (like : Like functions v v') : v.kind = v'.kind := by
  cases like <;> rfl

theorem toBool?_eq (like : Like functions v v') : v.toBool? = v'.toBool? := by
  cases like <;> rfl

/-- Two values are the same in one run if and only if they are in the other. -/
theorem eq_iff (oneToOne : ∀ {a a' b b'}, functions a a' → functions b b' → (a = b ↔ a' = b'))
    (first : Like functions v v') (second : Like functions w w') : v = w ↔ v' = w' := by
  cases first <;> cases second <;> simp
  next same _ _ same' => exact oneToOne same same'

/-- What goes together still does so where more functions do. -/
theorem mono {more : FunctionId → FunctionId → Prop}
    (known : ∀ {a a'}, functions a a' → more a a') (like : Like functions v v') :
    Like more v v' := by
  cases like with
  | int n => exact .int n
  | str s => exact .str s
  | bool b => exact .bool b
  | void => exact .void
  | function same => exact .function (known same)

theorem refl (v : Value) : Like Eq v v := by
  cases v with
  | int n => exact .int n
  | str s => exact .str s
  | bool b => exact .bool b
  | void => exact .void
  | function id => exact .function rfl

/-- Where functions have the same numbers, values are the same. -/
theorem eq_of_forall (same : ∀ {a a'}, functions a a' → a = a') (like : Like functions v v') :
    v = v' := by
  cases like with
  | function together => rw [same together]
  | _ => rfl

theorem all_eq_of_forall (same : ∀ {a a'}, functions a a' → a = a') {vs vs' : List Value}
    (like : LikeAll functions vs vs') : vs = vs' := by
  induction like with
  | nil => rfl
  | cons first _ ih => rw [first.eq_of_forall same, ih]

end Value.Like

/-- Endings of a statement in two runs. -/
inductive Flow.Like (functions : FunctionId → FunctionId → Prop) : Flow → Flow → Prop where
  | next {v v' : Value} (same : Value.Like functions v v') : Like functions (.next v) (.next v')
  | returned {v v' : Value} (same : Value.Like functions v v') :
      Like functions (.returned v) (.returned v')

theorem Flow.Like.eq_of_forall {functions : FunctionId → FunctionId → Prop}
    (same : ∀ {a a'}, functions a a' → a = a') {flow flow' : Flow}
    (like : flow.Like functions flow') : flow = flow' := by
  cases like with
  | next value => rw [value.eq_of_forall same]
  | returned value => rw [value.eq_of_forall same]

/-- Function objects of two runs. They may differ in the number of their scope only. -/
inductive Callable.Like (scopes : Scope → Scope → Prop) : Callable → Callable → Prop where
  | closure (name : String) (params : List String) (body : List Stmt) {scope scope' : Scope}
      (same : scopes scope scope') :
      Like scopes (.closure ⟨name, params, body, scope⟩) (.closure ⟨name, params, body, scope'⟩)
  | builtin (b : Builtin) : Like scopes (.builtin b) (.builtin b)

/-- What goes together still does so where more scopes do. -/
theorem Callable.Like.mono {scopes more : Scope → Scope → Prop}
    (known : ∀ {s s'}, scopes s s' → more s s') {f f' : Callable} (like : f.Like scopes f') :
    f.Like more f' := by
  cases like with
  | closure name params body same => exact .closure name params body (known same)
  | builtin b => exact .builtin b

/-- Whether a function of the prelude has been run on fewer arguments than it reads. -/
def EvalError.isMissing : EvalError → Bool
  | .missingArgument _ => true
  | _ => false

/-! ## Operators -/

namespace Operator

variable {functions : FunctionId → FunctionId → Prop} {v v' w w' : Value}

/-- A result that goes together with itself: an error, or no function. -/
inductive Plain (functions : FunctionId → FunctionId → Prop) : Except EvalError Value → Prop where
  | ok {v : Value} (like : v.Like functions v) : Plain functions (.ok v)
  | error (e : EvalError) (raised : e.isMissing = false) : Plain functions (.error e)

theorem plain_checked (op : Token.Kind) (n : Int) : Plain functions (checked op n) := by
  unfold checked
  split
  · exact .ok (.int _)
  · exact .error _ rfl

theorem plain_unary (op : Token.Kind) (v : Value) : Plain functions (unary op v) := by
  unfold unary
  split
  · exact plain_checked _ _
  · exact .ok (.bool _)
  · exact .error _ rfl

theorem plain_add (v w : Value) : Plain functions (add v w) := by
  unfold add
  split
  · exact plain_checked _ _
  · exact .ok (.str _)
  · exact .ok (.str _)
  · exact .ok (.str _)
  · exact .error _ rfl

theorem plain_arithmetic (op : Token.Kind) {f : Int → Int → Except EvalError Value}
    (plain : ∀ a b, Plain functions (f a b)) (v w : Value) :
    Plain functions (arithmetic op f v w) := by
  unfold arithmetic
  split
  · exact plain _ _
  · exact .error _ rfl

theorem plain_same (op : Token.Kind) (v w : Value) (f : Bool → Bool) :
    Plain functions ((same op v w).map fun b => .bool (f b)) := by
  unfold same
  split
  · exact .ok (.bool _)
  · exact .error _ rfl

theorem plain_binary (op : Token.Kind) (v w : Value) : Plain functions (binary op v w) := by
  unfold binary
  split
  · exact plain_add v w
  · exact plain_arithmetic _ (fun _ _ => plain_checked _ _) v w
  · exact plain_arithmetic _ (fun _ _ => plain_checked _ _) v w
  · refine plain_arithmetic _ (fun a b => ?_) v w
    split
    · exact .error _ rfl
    · exact plain_checked _ _
  · exact plain_arithmetic _ (fun _ _ => .ok (.bool _)) v w
  · exact plain_arithmetic _ (fun _ _ => .ok (.bool _)) v w
  · exact plain_arithmetic _ (fun _ _ => .ok (.bool _)) v w
  · exact plain_arithmetic _ (fun _ _ => .ok (.bool _)) v w
  · exact plain_same _ v w id
  · exact plain_same _ v w not
  · exact .error _ rfl

theorem unary_like (op : Token.Kind) (like : v.Like functions v') :
    unary op v = unary op v' := by
  cases like with
  | function same => cases op <;> rfl
  | _ => rfl

theorem mismatch_like {α : Type} (op : Token.Kind) (first : v.Like functions v')
    (second : w.Like functions w') :
    (mismatch op [v, w] : Except EvalError α) = mismatch op [v', w'] := by
  simp only [mismatch, List.map_cons, List.map_nil, first.kind_eq, second.kind_eq]

theorem add_like (first : v.Like functions v') (second : w.Like functions w') :
    add v w = add v' w' := by
  cases first <;> cases second <;> rfl

theorem arithmetic_like (op : Token.Kind) (f : Int → Int → Except EvalError Value)
    (first : v.Like functions v') (second : w.Like functions w') :
    arithmetic op f v w = arithmetic op f v' w' := by
  cases first <;> cases second <;> rfl

theorem same_like (oneToOne : ∀ {a a' b b'}, functions a a' → functions b b' → (a = b ↔ a' = b'))
    (op : Token.Kind) (first : v.Like functions v') (second : w.Like functions w') :
    same op v w = same op v' w' := by
  unfold same
  rw [first.kind_eq, second.kind_eq, mismatch_like op first second,
    decide_eq_decide.mpr (first.eq_iff oneToOne second)]

/-- An operator has the same result, or the same error, in both runs. -/
theorem binary_like
    (oneToOne : ∀ {a a' b b'}, functions a a' → functions b b' → (a = b ↔ a' = b'))
    (op : Token.Kind) (first : v.Like functions v') (second : w.Like functions w') :
    binary op v w = binary op v' w' := by
  unfold binary
  split
  · exact add_like first second
  · exact arithmetic_like _ _ first second
  · exact arithmetic_like _ _ first second
  · exact arithmetic_like _ _ first second
  · exact arithmetic_like _ _ first second
  · exact arithmetic_like _ _ first second
  · exact arithmetic_like _ _ first second
  · exact arithmetic_like _ _ first second
  · rw [same_like oneToOne _ first second]
  · rw [same_like oneToOne _ first second]
  · exact mismatch_like op first second

end Operator

/-! ## The parts of a call -/

/-- The function object that a value stands for. -/
def Eval.callable (callee : Value) : Eval Callable := fun m =>
  match callee with
  | .function id =>
      match m.functions[id]? with
      | some f => .ok f m
      | none => .error (.notCallable .function) m
  | v => .error (.notCallable v.kind) m

/-- Runs the body of a closure in a new scope. `inner` is what the calls in it do; it is missing
where the limit is reached. -/
def Closure.enter (limit : Nat) (inner : Option Call) (c : Closure) (args : List Value) :
    Eval Value :=
  match inner with
  | none => throw (.callTooDeep limit)
  | some call => do
      let scope ← Eval.child c.scope
      Eval.defineAll scope (c.params.zip args)
      match ← Stmt.runAll call scope .void c.body with
      | .next _ => return .void
      | .returned v => return v

/-- What a function object does, given what closures and functions of the prelude do. -/
def Callable.apply (closure : Closure → List Value → Eval Value)
    (native : Builtin → List Value → Eval Value) (args : List Value) : Callable → Eval Value
  | .closure c => closure c args
  | .builtin b => native b args

/-- A call finds its function, checks the number of arguments, and only then goes on. -/
theorem callWith_eq (limit : Nat) (inner : Option Call) (callee : Value) (args : List Value) :
    callWith limit inner callee args
      = (do
          let f ← Eval.callable callee
          f.checkArity args
          f.apply (Closure.enter limit inner) Builtin.run args) := by
  funext m
  cases callee with
  | function id =>
      cases found : m.functions[id]? with
      | none =>
          have missing : Eval.callable (.function id) m = .error (.notCallable .function) m := by
            simp only [Eval.callable, found]
          have read : (get : Eval Machine) m = .ok m m := rfl
          rw [bind_error missing, callWith, bind_ok read, found]
          rfl
      | some f =>
          have there : Eval.callable (.function id) m = .ok f m := by
            simp only [Eval.callable, found]
          have read : (get : Eval Machine) m = .ok m m := rfl
          rw [bind_ok there, callWith, bind_ok read, found]
          cases f <;> rfl
  | _ => rfl

/-- What a function of the prelude prints, or why it stops, given the texts of values. -/
def Builtin.answer (display inspect : Value → String) :
    Builtin → List Value → Except EvalError String
  | .print, v :: _ => .ok (display v)
  | .println, v :: _ => .ok (display v ++ "\n")
  | .assertEq, v :: w :: _ =>
      if v = w then .ok "" else .error (.assertedUnequal (inspect v) (inspect w))
  | .assert, v :: _ =>
      match v.toBool? with
      | some true => .ok ""
      | some false => .error .assertedFalse
      | none => .error (.typeMismatch .assertion [v.kind])
  | b, _ => .error (.missingArgument b)

/-- A function of the prelude changes the machine by printing only. -/
theorem Builtin.run_eq (b : Builtin) (args : List Value) (m : Machine) :
    b.run args m
      = match b.answer m.display m.inspect args with
        | .ok text => .ok .void (m.print text)
        | .error e => .error e m := by
  have silent : m.print "" = m := by
    unfold Machine.print
    rw [String.append_empty]
  match b, args with
  | .print, [] | .println, [] | .assertEq, [] | .assertEq, [_] | .assert, [] => rfl
  | .print, v :: _ | .println, v :: _ => rfl
  | .assertEq, v :: w :: _ =>
      rw [run, answer]
      by_cases same : v = w
      · simp only [if_pos same, silent]
        rfl
      · simp only [if_neg same]
        rfl
  | .assert, v :: _ =>
      cases v with
      | bool holds =>
          cases holds with
          | true =>
              simp only [answer, Value.toBool?, silent]
              rfl
          | false => rfl
      | _ => rfl

/-- With as many arguments as a function of the prelude takes, none that it reads is missing. -/
theorem Builtin.answer_fits {display inspect : Value → String} {b : Builtin} {args : List Value}
    {e : EvalError} (fits : args.length = b.arity)
    (stops : b.answer display inspect args = .error e) : e.isMissing = false := by
  match b, args, fits with
  | .print, [v], _ => cases stops
  | .println, [v], _ => cases stops
  | .assertEq, [v, w], _ =>
      rw [answer] at stops
      split at stops
      · cases stops
      · cases stops
        rfl
  | .assert, [v], _ =>
      cases v with
      | bool holds =>
          cases holds with
          | true => cases stops
          | false =>
              cases stops
              rfl
      | _ =>
          cases stops
          rfl

/-- What the calls in the body of a closure do, with `left` levels left for the call itself. -/
def callInner (limit : Nat) : Nat → Option Call
  | 0 => none
  | left + 1 => some (callLeft limit left)

theorem callLeft_eq (limit left : Nat) :
    callLeft limit left = callWith limit (callInner limit left) := by
  cases left <;> rfl

/-- A definition, as a function of the machine. -/
theorem Eval.define_eq (scope : Scope) (x : String) (v : Value) (m : Machine) :
    Eval.define scope x v m
      = if m.bindsIn scope x then .error (.duplicateIdentifier x) m
        else .ok () (m.bind scope x v) := by
  by_cases bound : m.bindsIn scope x = true
  · have refused : Eval.requireFresh scope x m = .error (.duplicateIdentifier x) m := if_pos bound
    rw [if_pos bound]
    exact bind_error refused
  · have fresh : Eval.requireFresh scope x m = .ok () m := if_neg bound
    rw [if_neg bound]
    exact bind_ok fresh

/-! ## Congruences -/

/-- A relation between the computations of two runs that is kept by sequences and holds between the
operations that search no frames for a name and make or find no functions. `related w results`
relates computations that begin in the world `w` and whose results are related by `results` in the
world that they end in. -/
structure Eval.Comparison where
  World : Type
  later : World → World → Prop
  scopes : World → Scope → Scope → Prop
  functions : World → FunctionId → FunctionId → Prop
  related {α β : Type} (w : World) (results : World → α → β → Prop) (p : Eval α) (p' : Eval β) :
    Prop
  scopes_later {w w' : World} {s s' : Scope} : later w w' → scopes w s s' → scopes w' s s'
  functions_later {w w' : World} {a a' : FunctionId} :
    later w w' → functions w a a' → functions w' a a'
  functions_oneToOne {w : World} {a a' b b' : FunctionId} :
    functions w a a' → functions w b b' → (a = b ↔ a' = b')
  related_pure {α β : Type} {w : World} {results : World → α → β → Prop} {a : α} {b : β} :
    results w a b → related w results (pure a) (pure b)
  related_bind {α β γ δ : Type} {w : World} {results : World → α → β → Prop}
    {more : World → γ → δ → Prop} {p : Eval α} {p' : Eval β} {f : α → Eval γ} {f' : β → Eval δ} :
    related w results p p' →
      (∀ w', later w w' → ∀ a b, results w' a b → related w' more (f a) (f' b)) →
        related w more (p >>= f) (p' >>= f')
  related_throw {α β : Type} {w : World} {results : World → α → β → Prop} {e : EvalError} :
    e.isMissing = false → related w results (throw e) (throw e)
  related_requireFresh {w : World} {s s' : Scope} (x : String) : scopes w s s' →
    related w (fun _ _ _ => True) (Eval.requireFresh s x) (Eval.requireFresh s' x)
  related_define {w : World} {s s' : Scope} (x : String) {v v' : Value} : scopes w s s' →
    v.Like (functions w) v' →
      related w (fun _ _ _ => True) (Eval.define s x v) (Eval.define s' x v')
  related_child {w : World} {s s' : Scope} : scopes w s s' →
    related w scopes (Eval.child s) (Eval.child s')

/-- A relation that also holds between the other operations of evaluation, as far as programs of a
vocabulary come to use them. -/
structure Eval.CongruenceOn (V : Vocabulary) extends Eval.Comparison where
  related_lookup {w : World} {s s' : Scope} {x : String} : V.names x → scopes w s s' →
    related w (fun w => Value.Like (functions w)) (Eval.lookup s x) (Eval.lookup s' x)
  related_assign {w : World} {s s' : Scope} {x : String} {v v' : Value} : V.names x →
    scopes w s s' → v.Like (functions w) v' →
      related w (fun _ _ _ => True) (Eval.assign s x v) (Eval.assign s' x v')
  related_newFunction {w : World} {f f' : Callable} : f.Within V → f.Like (scopes w) f' →
    related w (fun w => Value.Like (functions w)) (Eval.newFunction f) (Eval.newFunction f')
  related_callable {w : World} {v v' : Value} : v.Like (functions w) v' →
    related w (fun w f f' => f.Within V ∧ f.Like (scopes w) f') (Eval.callable v)
      (Eval.callable v')
  related_builtin {w : World} {b : Builtin} {args args' : List Value} : V.builtins b →
    args.length = b.arity → Value.LikeAll (functions w) args args' →
      related w (fun w => Value.Like (functions w)) (b.run args) (b.run args')

/-- A relation that holds between all operations of evaluation. -/
structure Eval.Congruence extends Eval.Comparison where
  related_lookup {w : World} {s s' : Scope} (x : String) : scopes w s s' →
    related w (fun w => Value.Like (functions w)) (Eval.lookup s x) (Eval.lookup s' x)
  related_assign {w : World} {s s' : Scope} (x : String) {v v' : Value} : scopes w s s' →
    v.Like (functions w) v' →
      related w (fun _ _ _ => True) (Eval.assign s x v) (Eval.assign s' x v')
  related_newFunction {w : World} {f f' : Callable} : f.Like (scopes w) f' →
    related w (fun w => Value.Like (functions w)) (Eval.newFunction f) (Eval.newFunction f')
  related_callable {w : World} {v v' : Value} : v.Like (functions w) v' →
    related w (fun w => Callable.Like (scopes w)) (Eval.callable v) (Eval.callable v')
  related_builtin {w : World} (b : Builtin) {args args' : List Value} : args.length = b.arity →
    Value.LikeAll (functions w) args args' →
      related w (fun w => Value.Like (functions w)) (b.run args) (b.run args')

namespace Eval.Comparison

variable {R : Comparison} {w w' : R.World}

/-- Values that go together in a world. -/
abbrev values (R : Comparison) (w : R.World) : Value → Value → Prop := Value.Like (R.functions w)

/-- Lists of values that go together in a world. -/
abbrev valueLists (R : Comparison) (w : R.World) : List Value → List Value → Prop :=
  Value.LikeAll (R.functions w)

/-- Endings of a statement that go together in a world. -/
abbrev flows (R : Comparison) (w : R.World) : Flow → Flow → Prop := Flow.Like (R.functions w)

theorem values_later (later : R.later w w') {v v' : Value} (like : R.values w v v') :
    R.values w' v v' :=
  like.mono (R.functions_later later)

theorem valueLists_later (later : R.later w w') {vs vs' : List Value}
    (like : R.valueLists w vs vs') : R.valueLists w' vs vs' :=
  like.imp fun _ _ => values_later later

/-- Calls that are related when their callees and arguments are. -/
def RelatesCalls (R : Comparison) (call call' : Call) : Prop :=
  ∀ w f f' args args', R.values w f f' → R.valueLists w args args' →
    R.related w R.values (call f args) (call' f' args')

theorem related_imp {α β : Type} {results more : R.World → α → β → Prop} {p : Eval α}
    {p' : Eval β} (related : R.related w results p p')
    (weaker : ∀ w a b, results w a b → more w a b) : R.related w more p p' := by
  have again : R.related w more (p >>= pure) (p' >>= pure) :=
    R.related_bind related fun w' _ a b together => R.related_pure (weaker w' a b together)
  rwa [bind_pure, bind_pure] at again

theorem related_ofExcept {result result' : Except EvalError Value} (same : result = result')
    (plain : Operator.Plain (R.functions w) result) :
    R.related w R.values (ofExcept result) (ofExcept result') := by
  subst same
  cases plain with
  | ok like => exact R.related_pure like
  | error e raised => exact R.related_throw raised

theorem related_defineAll {scope scope' : Scope} (same : R.scopes w scope scope')
    (params : List String) {args args' : List Value} (like : R.valueLists w args args') :
    R.related w (fun _ _ _ => True) (defineAll scope (params.zip args))
      (defineAll scope' (params.zip args')) := by
  induction args generalizing args' params w with
  | nil =>
      cases like
      rw [List.zip_nil_right]
      exact R.related_pure trivial
  | cons v vs ih =>
      cases like with
      | cons first others =>
          cases params with
          | nil => exact R.related_pure trivial
          | cons x params =>
              refine R.related_bind (R.related_define x same first) fun w' later _ _ _ => ?_
              exact ih (R.scopes_later later same) params (valueLists_later later others)

/-! ## Lists and blocks -/

section Lists

variable {call call' : Call} {scope scope' : Scope}

theorem related_evalAll {es : List Expr}
    (each : ∀ e ∈ es, ∀ w, R.scopes w scope scope' →
      R.related w R.values (e.eval call scope) (e.eval call' scope'))
    (same : R.scopes w scope scope') :
    R.related w R.valueLists (Expr.evalAll call scope es) (Expr.evalAll call' scope' es) := by
  induction es generalizing w with
  | nil => exact R.related_pure .nil
  | cons e es ih =>
      have first := each e List.mem_cons_self w same
      refine R.related_bind first fun w₁ later₁ _ _ one => ?_
      have others := ih (fun e member => each e (List.mem_cons_of_mem _ member))
        (R.scopes_later later₁ same)
      exact R.related_bind others fun w₂ later₂ _ _ more =>
        R.related_pure (.cons (values_later later₂ one) more)

theorem related_runAll {ss : List Stmt}
    (each : ∀ s ∈ ss, ∀ w, R.scopes w scope scope' →
      R.related w R.flows (s.run call scope) (s.run call' scope'))
    (same : R.scopes w scope scope') {last last' : Value} (like : R.values w last last') :
    R.related w R.flows (Stmt.runAll call scope last ss) (Stmt.runAll call' scope' last' ss) := by
  induction ss generalizing w last last' with
  | nil => exact R.related_pure (.next like)
  | cons s ss ih =>
      refine R.related_bind (each s List.mem_cons_self w same) fun w' later flow flow' ended => ?_
      cases ended with
      | next value =>
          exact ih (fun s member => each s (List.mem_cons_of_mem _ member))
            (R.scopes_later later same) value
      | returned value => exact R.related_pure (.returned value)

theorem related_block {body : List Stmt} (same : R.scopes w scope scope')
    (each : ∀ s ∈ body, ∀ inner inner' w, R.scopes w inner inner' →
      R.related w R.flows (s.run call inner) (s.run call' inner')) :
    R.related w R.flows (child scope >>= fun inner => Stmt.runAll call inner .void body)
      (child scope' >>= fun inner => Stmt.runAll call' inner .void body) :=
  R.related_bind (R.related_child same) fun _ _ inner inner' together =>
    related_runAll (fun s member => each s member inner inner') together .void

end Lists

theorem related_checkArity {f f' : Callable} (same : f.Like (R.scopes w) f')
    {args args' : List Value} (like : R.valueLists w args args') :
    R.related w (fun _ _ _ => args.length = f.arity) (f.checkArity args) (f'.checkArity args') := by
  have arity : f'.arity = f.arity := by cases same <;> rfl
  have name : f'.name = f.name := by cases same <;> rfl
  unfold Callable.checkArity
  rw [arity, name, ← like.length_eq]
  split
  · next fits => exact R.related_pure fits
  · exact R.related_throw rfl

end Eval.Comparison

namespace Eval.CongruenceOn

open Comparison

variable {V : Vocabulary} {R : CongruenceOn V} {w w' : R.World}

/-! ## Expressions and statements -/

section Trees

variable {call call' : Call} {scope scope' : Scope} (calls : R.RelatesCalls call call')

include calls

theorem related_eval (same : R.scopes w scope scope') (e : Expr) (within : e.Within V) :
    R.related w R.values (e.eval call scope) (e.eval call' scope') := by
  induction e generalizing w with
  | literal l => exact R.related_pure (.ofLiteral l)
  | name x => exact R.related_lookup (Expr.within_name.mp within) same
  | unary op arg ih =>
      exact R.related_bind (ih same within) fun _ _ _ _ like =>
        related_ofExcept (Operator.unary_like op like) (Operator.plain_unary op _)
  | binary op lhs rhs left right =>
      obtain ⟨withinLeft, withinRight⟩ := Expr.within_binary.mp within
      refine R.related_bind (left same withinLeft) fun w₁ later₁ _ _ first => ?_
      have same₁ := R.scopes_later later₁ same
      refine R.related_bind (right same₁ withinRight) fun w₂ later₂ _ _ second => ?_
      exact related_ofExcept
        (Operator.binary_like R.functions_oneToOne op (values_later later₂ first) second)
        (Operator.plain_binary op _ _)
  | group inner ih => exact ih same within
  | call callee args called passed =>
      obtain ⟨withinCallee, withinArgs⟩ := Expr.within_call.mp within
      refine R.related_bind (called same withinCallee) fun w₁ later₁ f f' like => ?_
      refine R.related_bind (related_evalAll
        (fun e member _ same => passed e member same (withinArgs e member))
        (R.scopes_later later₁ same)) fun w₂ later₂ vs vs' likeAll => ?_
      exact calls w₂ f f' vs vs' (values_later later₂ like) likeAll
  | assign x value ih =>
      obtain ⟨known, withinValue⟩ := Expr.within_assign.mp within
      refine R.related_bind (ih same withinValue) fun w₁ later₁ _ _ like => ?_
      refine R.related_bind (R.related_assign known (R.scopes_later later₁ same) like) ?_
      exact fun w₂ later₂ _ _ _ => R.related_pure (values_later later₂ like)

theorem related_test (same : R.scopes w scope scope') (cond : Expr) (within : cond.Within V) :
    R.related w (fun _ => Eq) (cond.test call scope) (cond.test call' scope') := by
  refine R.related_bind (related_eval calls same cond within) fun _ _ v v' like => ?_
  rw [like.toBool?_eq, like.kind_eq]
  cases v'.toBool? with
  | none => exact R.related_throw rfl
  | some b => exact R.related_pure rfl

theorem related_run (same : R.scopes w scope scope') (s : Stmt) (within : s.Within V) :
    R.related w R.flows (s.run call scope) (s.run call' scope') := by
  induction s generalizing w scope scope' with
  | letDecl x init =>
      refine R.related_bind (R.related_requireFresh x same) fun w₁ later₁ _ _ _ => ?_
      have same₁ := R.scopes_later later₁ same
      refine R.related_bind (related_eval calls same₁ init within) fun w₂ later₂ _ _ like => ?_
      have same₂ := R.scopes_later later₂ same₁
      exact R.related_bind (R.related_define x same₂ like) fun _ _ _ _ _ =>
        R.related_pure (.next .void)
  | funDecl x params body =>
      have known : (Callable.closure ⟨x, params, body, scope⟩).Within V := Stmt.within_all.mp within
      refine R.related_bind (R.related_newFunction known (.closure x params body same)) ?_
      intro w₁ later₁ _ _ like
      exact R.related_bind (R.related_define x (R.scopes_later later₁ same) like) fun _ _ _ _ _ =>
        R.related_pure (.next .void)
  | block body ih =>
      have each := Stmt.within_all.mp within
      exact related_block same fun s member _ _ _ inner => ih s member inner (each s member)
  | ifThen cond body ih =>
      obtain ⟨withinCond, each⟩ := Stmt.within_ifThen.mp within
      refine R.related_bind (related_test calls same cond withinCond) ?_
      intro w₁ later₁ holds _ equal
      subst equal
      have same₁ := R.scopes_later later₁ same
      cases holds with
      | true =>
          exact related_block same₁ fun s member _ _ _ inner => ih s member inner (each s member)
      | false => exact R.related_pure (.next .void)
  | ifElse cond body other ihBody ihOther =>
      obtain ⟨withinCond, eachBody, eachOther⟩ := Stmt.within_ifElse.mp within
      refine R.related_bind (related_test calls same cond withinCond) ?_
      intro w₁ later₁ holds _ equal
      subst equal
      have same₁ := R.scopes_later later₁ same
      cases holds with
      | true =>
          exact related_block same₁ fun s member _ _ _ inner =>
            ihBody s member inner (eachBody s member)
      | false =>
          exact related_block same₁ fun s member _ _ _ inner =>
            ihOther s member inner (eachOther s member)
  | expr e =>
      exact R.related_bind (related_eval calls same e within) fun _ _ _ _ like =>
        R.related_pure (.next like)
  | ret e =>
      exact R.related_bind (related_eval calls same e within) fun _ _ _ _ like =>
        R.related_pure (.returned like)

/-- A list of statements, from related values so far. -/
theorem related_statements (same : R.scopes w scope scope') {ss : List Stmt}
    (within : ∀ s ∈ ss, s.Within V) {last last' : Value} (like : R.values w last last') :
    R.related w R.flows (Stmt.runAll call scope last ss) (Stmt.runAll call' scope' last' ss) :=
  related_runAll (fun s member _ same => related_run calls same s (within s member)) same like

/-! ## Calls -/

/-- The body of a closure, where calls in it are related. -/
theorem related_enter (same : R.scopes w scope scope') (limit limit' : Nat) (name : String)
    (params : List String) {body : List Stmt} (within : ∀ s ∈ body, s.Within V)
    {args args' : List Value} (like : R.valueLists w args args') :
    R.related w R.values (Closure.enter limit (some call) ⟨name, params, body, scope⟩ args)
      (Closure.enter limit' (some call') ⟨name, params, body, scope'⟩ args') := by
  refine R.related_bind (R.related_child same) fun w₁ later₁ inner inner' together => ?_
  have passed := related_defineAll together params (valueLists_later later₁ like)
  refine R.related_bind passed fun w₂ later₂ _ _ _ => ?_
  have together₂ := R.scopes_later later₂ together
  refine R.related_bind (related_statements calls together₂ within .void) ?_
  intro w₃ later₃ flow flow' ended
  cases ended with
  | next _ => exact R.related_pure .void
  | returned value => exact R.related_pure value

end Trees

/-- Calls are related if the bodies of closures are. -/
theorem relatesCalls_callWith {limit limit' : Nat} {inner inner' : Option Call}
    (enters : ∀ w name params body scope scope' args args', (∀ s ∈ body, Stmt.Within V s) →
      R.scopes w scope scope' → R.valueLists w args args' → R.related w R.values
        (Closure.enter limit inner ⟨name, params, body, scope⟩ args)
        (Closure.enter limit' inner' ⟨name, params, body, scope'⟩ args')) :
    R.RelatesCalls (callWith limit inner) (callWith limit' inner') := by
  intro w v v' args args' like likeAll
  rw [callWith_eq, callWith_eq]
  refine R.related_bind (R.related_callable like) fun w₁ later₁ f f' ⟨within, same⟩ => ?_
  have likeAll₁ := valueLists_later later₁ likeAll
  refine R.related_bind (related_checkArity same likeAll₁) fun w₂ later₂ _ _ fits => ?_
  have likeAll₂ := valueLists_later later₂ likeAll₁
  cases same with
  | closure name params body together =>
      exact enters w₂ name params body _ _ _ _ within (R.scopes_later later₂ together) likeAll₂
  | builtin b => exact R.related_builtin within fits likeAll₂

/-- Calls with the same limit are related, whatever the number of levels that are left. -/
theorem relatesCalls_callLeft (R : CongruenceOn V) (limit left : Nat) :
    R.RelatesCalls (callLeft limit left) (callLeft limit left) := by
  induction left with
  | zero => exact relatesCalls_callWith fun _ _ _ _ _ _ _ _ _ _ _ => R.related_throw rfl
  | succ left ih =>
      apply relatesCalls_callWith
      intro w name params body scope scope' args args' within same like
      exact related_enter ih same limit limit name params within like

/-- The value of a program. -/
theorem related_program {limit limit' : Nat} (calls : R.RelatesCalls (call limit) (call limit'))
    {scope scope' : Scope} (same : R.scopes w scope scope') {program : Program}
    (within : ∀ s ∈ program, s.Within V) :
    R.related w R.values (program.eval limit scope) (program.eval limit' scope') := by
  refine R.related_bind (related_statements calls same within .void) ?_
  intro _ _ flow flow' ended
  cases ended with
  | next value => exact R.related_pure value
  | returned value => exact R.related_pure value

end Eval.CongruenceOn

/-! ## Congruences for all programs -/

namespace Eval.Congruence

variable {R : Congruence} {w w' : R.World}

/-- What holds between all operations holds between those of programs of any names. -/
def full (R : Congruence) : CongruenceOn .full where
  toComparison := R.toComparison
  related_lookup := fun _ => R.related_lookup _
  related_assign := fun _ => R.related_assign _
  related_newFunction := fun _ => R.related_newFunction
  related_callable := fun like =>
    Comparison.related_imp (R.related_callable like) fun _ f _ same => ⟨f.within_full, same⟩
  related_builtin := fun _ => R.related_builtin _

section Trees

variable {call call' : Call} {scope scope' : Scope} (calls : R.RelatesCalls call call')

include calls

theorem related_eval (same : R.scopes w scope scope') (e : Expr) :
    R.related w R.values (e.eval call scope) (e.eval call' scope') :=
  CongruenceOn.related_eval (R := R.full) calls same e e.within_full

theorem related_run (same : R.scopes w scope scope') (s : Stmt) :
    R.related w R.flows (s.run call scope) (s.run call' scope') :=
  CongruenceOn.related_run (R := R.full) calls same s s.within_full

theorem related_statements (same : R.scopes w scope scope') (ss : List Stmt) {last last' : Value}
    (like : R.values w last last') :
    R.related w R.flows (Stmt.runAll call scope last ss) (Stmt.runAll call' scope' last' ss) :=
  CongruenceOn.related_statements (R := R.full) calls same (fun s _ => s.within_full) like

theorem related_enter (same : R.scopes w scope scope') (limit limit' : Nat) (name : String)
    (params : List String) (body : List Stmt) {args args' : List Value}
    (like : R.valueLists w args args') :
    R.related w R.values (Closure.enter limit (some call) ⟨name, params, body, scope⟩ args)
      (Closure.enter limit' (some call') ⟨name, params, body, scope'⟩ args') :=
  CongruenceOn.related_enter (R := R.full) calls same limit limit' name params
    (fun s _ => s.within_full) like

end Trees

theorem relatesCalls_callWith {limit limit' : Nat} {inner inner' : Option Call}
    (enters : ∀ w name params body scope scope' args args', R.scopes w scope scope' →
      R.valueLists w args args' → R.related w R.values
        (Closure.enter limit inner ⟨name, params, body, scope⟩ args)
        (Closure.enter limit' inner' ⟨name, params, body, scope'⟩ args')) :
    R.RelatesCalls (callWith limit inner) (callWith limit' inner') :=
  CongruenceOn.relatesCalls_callWith (R := R.full) fun w name params body _ _ _ _ _ =>
    enters w name params body _ _ _ _

theorem relatesCalls_callLeft (R : Congruence) (limit left : Nat) :
    R.RelatesCalls (callLeft limit left) (callLeft limit left) :=
  CongruenceOn.relatesCalls_callLeft R.full limit left

theorem related_program {limit limit' : Nat} (calls : R.RelatesCalls (call limit) (call limit'))
    {scope scope' : Scope} (same : R.scopes w scope scope') (program : Program) :
    R.related w R.values (program.eval limit scope) (program.eval limit' scope') :=
  CongruenceOn.related_program (R := R.full) calls same fun s _ => s.within_full

end Eval.Congruence
end Bramble
