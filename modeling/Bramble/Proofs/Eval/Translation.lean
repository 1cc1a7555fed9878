import Bramble.Proofs.Eval.Names
import Bramble.Proofs.Eval.Prelude

/-!
# Translations

A translation goes through a program and gives each name another one, and it may change groups,
which count for nothing in evaluation. No two names become one. The machine of a running program is
translated with it: the names that its frames bind, and the parameters and bodies of its functions.

The translation of a program does on the translation of a machine what the program does on the
machine itself. It takes the same branches and makes the same calls, it returns the same values, and
where the program stops with an error, it stops with the same error about the other name
(`Program.translates_eval`). Functions that have other names are also printed with other names, so
this is claimed only for machines where nothing can be printed, or for translations that keep names.
-/

set_option autoImplicit false

namespace Bramble

/-- What becomes of names and groups. -/
structure Translation where
  name : String → String
  group : Expr → Expr
  oneToOne : Function.Injective name
  value : ∀ (e : Expr) (call : Call) (scope : Scope), (group e).eval call scope = e.eval call scope

/-! ## Programs -/

mutual

/-- The translation of an expression. -/
def Expr.translate (T : Translation) : Expr → Expr
  | .literal l => .literal l
  | .name x => .name (T.name x)
  | .unary op arg => .unary op (arg.translate T)
  | .binary op lhs rhs => .binary op (lhs.translate T) (rhs.translate T)
  | .group inner => T.group (inner.translate T)
  | .call callee args => .call (callee.translate T) (Expr.translateAll T args)
  | .assign x value => .assign (T.name x) (value.translate T)

/-- The translations of expressions. -/
def Expr.translateAll (T : Translation) : List Expr → List Expr
  | [] => []
  | e :: es => e.translate T :: Expr.translateAll T es

end

mutual

/-- The translation of a statement. -/
def Stmt.translate (T : Translation) : Stmt → Stmt
  | .letDecl x init => .letDecl (T.name x) (init.translate T)
  | .funDecl x params body => .funDecl (T.name x) (params.map T.name) (Stmt.translateAll T body)
  | .block body => .block (Stmt.translateAll T body)
  | .ifThen cond body => .ifThen (cond.translate T) (Stmt.translateAll T body)
  | .ifElse cond body other =>
      .ifElse (cond.translate T) (Stmt.translateAll T body) (Stmt.translateAll T other)
  | .expr e => .expr (e.translate T)
  | .ret e => .ret (e.translate T)

/-- The translations of statements. -/
def Stmt.translateAll (T : Translation) : List Stmt → List Stmt
  | [] => []
  | s :: ss => s.translate T :: Stmt.translateAll T ss

end

theorem Expr.translateAll_eq_map (T : Translation) (es : List Expr) :
    Expr.translateAll T es = es.map (Expr.translate T) := by
  induction es with
  | nil => rfl
  | cons e es ih => rw [Expr.translateAll, ih, List.map_cons]

theorem Stmt.translateAll_eq_map (T : Translation) (ss : List Stmt) :
    Stmt.translateAll T ss = ss.map (Stmt.translate T) := by
  induction ss with
  | nil => rfl
  | cons s ss ih => rw [Stmt.translateAll, ih, List.map_cons]

/-! ## Machines and errors -/

/-- The translation of a function object. Functions of the prelude stay what they are. -/
def Callable.translate (T : Translation) : Callable → Callable
  | .closure c =>
      .closure ⟨T.name c.name, c.params.map T.name, Stmt.translateAll T c.body, c.scope⟩
  | .builtin b => .builtin b

/-- The translation of a frame. -/
def Frame.translate (T : Translation) (frame : Frame) : Frame :=
  { frame with bindings := frame.bindings.map fun binding => (T.name binding.1, binding.2) }

/-- The translation of a machine. What has been printed stays. -/
def Machine.translate (T : Translation) (m : Machine) : Machine :=
  { m with
    frames := m.frames.map (Frame.translate T)
    functions := m.functions.map (Callable.translate T) }

/-- The translation of an error. -/
def EvalError.translate (T : Translation) : EvalError → EvalError
  | .duplicateIdentifier x => .duplicateIdentifier (T.name x)
  | .unknownIdentifier x => .unknownIdentifier (T.name x)
  | .arityMismatch callee expected found => .arityMismatch (T.name callee) expected found
  | e => e

/-- The translation of the ending of a computation. Values stay what they are. -/
def Eval.translateEnding {α : Type} (T : Translation) :
    EStateM.Result EvalError Machine α → EStateM.Result EvalError Machine α
  | .ok a m => .ok a (m.translate T)
  | .error e m => .error (e.translate T) (m.translate T)

variable {T : Translation}

namespace Frame

theorem get?_translate (frame : Frame) (x : String) :
    (frame.translate T).get? (T.name x) = frame.get? x := by
  obtain ⟨outer, bindings⟩ := frame
  unfold get? translate
  induction bindings with
  | nil => rfl
  | cons binding bindings ih =>
      obtain ⟨y, v⟩ := binding
      rw [List.map_cons, lookup_cons_eq, lookup_cons_eq, ih]
      by_cases same : x = y
      · rw [if_pos same, if_pos (congrArg T.name same)]
      · rw [if_neg same, if_neg fun equal => same (T.oneToOne equal)]

theorem translate_insert (frame : Frame) (x : String) (v : Value) :
    (frame.insert x v).translate T = (frame.translate T).insert (T.name x) v := rfl

theorem translate_replace (frame : Frame) (x : String) (v : Value) :
    (frame.replace x v).translate T = (frame.translate T).replace (T.name x) v := by
  unfold replace translate
  simp only [List.map_map]
  congr 1
  refine List.map_congr_left fun binding _ => ?_
  by_cases same : binding.1 = x
  · simp [same]
  · simp [same, T.oneToOne.eq_iff]

end Frame

namespace Machine

variable (m : Machine) (scope frame : FrameId) (x : String) (v : Value)

theorem outer_translate : (m.translate T).outer scope = m.outer scope := by
  unfold outer translate
  rw [Array.getElem?_map]
  cases m.frames[scope]? <;> rfl

theorem chain_translate : (m.translate T).chain scope = m.chain scope :=
  congrArg (scope :: ·) (m.outer_translate scope)

theorem getIn?_translate : (m.translate T).getIn? frame (T.name x) = m.getIn? frame x := by
  unfold getIn? translate
  rw [Array.getElem?_map]
  cases m.frames[frame]? with
  | none => rfl
  | some own => exact own.get?_translate x

theorem bindsIn_translate : (m.translate T).bindsIn frame (T.name x) = m.bindsIn frame x :=
  congrArg Option.isSome (m.getIn?_translate frame x)

theorem lookup?_translate : (m.translate T).lookup? scope (T.name x) = m.lookup? scope x := by
  unfold lookup?
  simp only [chain_translate, getIn?_translate]

theorem resolve?_translate : (m.translate T).resolve? scope (T.name x) = m.resolve? scope x := by
  unfold resolve?
  simp only [chain_translate, bindsIn_translate]

theorem functions_translate (f : FunctionId) :
    (m.translate T).functions[f]? = m.functions[f]?.map (Callable.translate T) :=
  Array.getElem?_map

/-- A change of one frame, made before or after the translation. -/
theorem translate_modify {change change' : Frame → Frame}
    (same : ∀ own, (change own).translate T = change' (own.translate T)) :
    ({ m with frames := m.frames.modify frame change } : Machine).translate T
      = { m.translate T with frames := (m.translate T).frames.modify frame change' } := by
  unfold translate
  congr 1
  refine Array.ext_getElem? fun i => ?_
  simp only [Array.getElem?_map, Array.getElem?_modify]
  split
  · cases m.frames[i]? with
    | none => rfl
    | some own => exact congrArg some (same own)
  · rfl

theorem translate_bind :
    (m.bind frame x v).translate T = (m.translate T).bind frame (T.name x) v :=
  m.translate_modify frame fun own => own.translate_insert x v

theorem translate_rebind :
    (m.rebind frame x v).translate T = (m.translate T).rebind frame (T.name x) v :=
  m.translate_modify frame fun own => own.translate_replace x v

theorem child_translate :
    (m.translate T).child scope = ((m.child scope).1, (m.child scope).2.translate T) := by
  unfold child addFrame
  rw [chain_translate]
  simp [translate, Frame.translate]

theorem addFunction_translate (f : Callable) :
    (m.translate T).addFunction (f.translate T)
      = ((m.addFunction f).1, (m.addFunction f).2.translate T) := by
  simp [addFunction, translate]

end Machine

/-! ## Operators -/

namespace Operator

variable (op : Token.Kind) (v w : Value)

/-- A result in which no name of a program is mentioned. -/
def Nameless (T : Translation) (result : Except EvalError Value) : Prop :=
  result.mapError (EvalError.translate T) = result

theorem nameless_checked (n : Int) : Nameless T (checked op n) := by
  unfold Nameless checked
  split <;> rfl

theorem nameless_unary : Nameless T (unary op v) := by
  unfold unary
  split
  · exact nameless_checked _ _
  · rfl
  · rfl

theorem nameless_add : Nameless T (add v w) := by
  unfold add
  split
  · exact nameless_checked _ _
  · rfl
  · rfl
  · rfl
  · rfl

theorem nameless_arithmetic {f : Int → Int → Except EvalError Value}
    (nameless : ∀ a b, Nameless T (f a b)) : Nameless T (arithmetic op f v w) := by
  unfold arithmetic
  split
  · exact nameless _ _
  · rfl

theorem nameless_same (f : Bool → Value) : Nameless T ((same op v w).map f) := by
  unfold same
  split <;> rfl

/-- Errors of operators mention the operator and the kinds of the operands only. -/
theorem nameless_binary : Nameless T (binary op v w) := by
  unfold binary
  split
  · exact nameless_add v w
  · exact nameless_arithmetic _ v w fun _ _ => nameless_checked _ _
  · exact nameless_arithmetic _ v w fun _ _ => nameless_checked _ _
  · refine nameless_arithmetic _ v w fun a b => ?_
    split
    · rfl
    · exact nameless_checked _ _
  · exact nameless_arithmetic _ v w fun _ _ => rfl
  · exact nameless_arithmetic _ v w fun _ _ => rfl
  · exact nameless_arithmetic _ v w fun _ _ => rfl
  · exact nameless_arithmetic _ v w fun _ _ => rfl
  · exact nameless_same _ v w _
  · exact nameless_same _ v w _
  · rfl

end Operator

/-! ## Computations -/

/-- A machine on which translated functions are not seen to have other names: names stay as they
are, or no function is there that could print them. -/
def Machine.Shows (T : Translation) (m : Machine) : Prop :=
  T.name = id ∨ ∀ (f : FunctionId) (b : Builtin), m.functions[f]? ≠ some (.builtin b)

namespace Eval

variable {α β : Type}

/-- The second computation does on a translated machine what the first one does. -/
def Translates (T : Translation) (p p' : Eval α) : Prop :=
  ∀ m, m.Shows T → p' (m.translate T) = translateEnding T (p m) ∧ (p.after m).Shows T

namespace Translates

theorem pure (a : α) : Translates T (pure a) (pure a) := fun _ shows => ⟨rfl, shows⟩

theorem throw {e e' : EvalError} (same : e.translate T = e') :
    Translates T (throw e : Eval α) (throw e') := by
  subst same
  exact fun _ shows => ⟨rfl, shows⟩

theorem bind {p p' : Eval α} {f f' : α → Eval β} (first : Translates T p p')
    (second : ∀ a, Translates T (f a) (f' a)) : Translates T (p >>= f) (p' >>= f') := by
  intro m shows
  obtain ⟨ending, after⟩ := first m shows
  cases before : p m with
  | ok a m' =>
      rw [before] at ending
      rw [after_ok before] at after
      rw [bind_ok ending, bind_ok before, after_bind_ok before]
      exact second a m' after
  | error e m' =>
      rw [before] at ending
      rw [after_error before] at after
      rw [bind_error ending, bind_error before, after_error (bind_error before)]
      exact ⟨rfl, after⟩

theorem ofExcept {result : Except EvalError Value} (nameless : Operator.Nameless T result) :
    Translates T (ofExcept result) (ofExcept result) := by
  cases result with
  | ok v => exact .pure v
  | error e => exact .throw (Except.error.inj nameless)

end Translates

variable (scope : Scope) (x : String) (v : Value)

theorem translates_lookup : Translates T (lookup scope x) (lookup scope (T.name x)) := by
  intro m shows
  unfold after lookup
  rw [m.lookup?_translate]
  cases m.lookup? scope x with
  | none => exact ⟨rfl, shows⟩
  | some v => exact ⟨rfl, shows⟩

theorem translates_requireFresh :
    Translates T (requireFresh scope x) (requireFresh scope (T.name x)) := by
  intro m shows
  unfold after requireFresh
  rw [m.bindsIn_translate]
  cases m.bindsIn scope x with
  | true => exact ⟨rfl, shows⟩
  | false => exact ⟨rfl, shows⟩

theorem translates_define : Translates T (define scope x v) (define scope (T.name x) v) := by
  refine (translates_requireFresh scope x).bind fun _ m shows => ⟨?_, shows⟩
  exact congrArg (EStateM.Result.ok ()) (m.translate_bind scope x v).symm

theorem translates_assign : Translates T (assign scope x v) (assign scope (T.name x) v) := by
  intro m shows
  unfold after assign
  rw [m.resolve?_translate]
  cases m.resolve? scope x with
  | none => exact ⟨rfl, shows⟩
  | some frame => exact ⟨congrArg (EStateM.Result.ok ()) (m.translate_rebind frame x v).symm, shows⟩

theorem translates_child : Translates T (child scope) (child scope) := by
  intro m shows
  refine ⟨?_, shows⟩
  have made := child_eq scope (m.translate T)
  rwa [m.child_translate] at made

theorem translates_newClosure (c : Closure) :
    Translates T (newFunction (.closure c)) (newFunction (Callable.translate T (.closure c))) := by
  intro m shows
  refine ⟨?_, ?_⟩
  · have made : newFunction (Callable.translate T (.closure c)) (m.translate T)
        = .ok ((m.translate T).addFunction (Callable.translate T (.closure c))).1
            ((m.translate T).addFunction (Callable.translate T (.closure c))).2 := rfl
    rwa [m.addFunction_translate] at made
  · refine shows.imp_right fun none f b found => ?_
    change (m.functions.push (.closure c))[f]? = some (.builtin b) at found
    rw [Array.getElem?_push] at found
    split at found
    · cases found
    · exact none f b found

theorem translates_defineAll (params : List String) (args : List Value) :
    Translates T (defineAll scope (params.zip args))
      (defineAll scope ((params.map T.name).zip args)) := by
  induction params generalizing args with
  | nil => exact .pure ()
  | cons x params ih =>
      cases args with
      | nil => exact .pure ()
      | cons v args => exact (translates_define scope x v).bind fun _ => ih args

/-- What is done with the function that a value stands for. A function of the prelude is there only
if names stay as they are. -/
theorem translates_callable {k k' : Callable → Eval α}
    (closures : ∀ c, Translates T (k (.closure c)) (k' (Callable.translate T (.closure c))))
    (builtins : T.name = id → ∀ b, Translates T (k (.builtin b)) (k' (.builtin b))) :
    Translates T (callable v >>= k) (callable v >>= k') := by
  intro m shows
  cases v with
  | function f =>
      have image := m.functions_translate (T := T) f
      cases found : m.functions[f]? with
      | none =>
          rw [found] at image
          have missing : callable (.function f) m = .error (.notCallable .function) m := by
            simp only [callable, found]
          have missing' : callable (.function f) (m.translate T)
              = .error (.notCallable .function) (m.translate T) := by
            simp only [callable, image, Option.map_none]
          rw [bind_error missing, bind_error missing', after_error (bind_error missing)]
          exact ⟨rfl, shows⟩
      | some object =>
          rw [found] at image
          have there : callable (.function f) m = .ok object m := by simp only [callable, found]
          have there' : callable (.function f) (m.translate T)
              = .ok (object.translate T) (m.translate T) := by
            simp only [callable, image, Option.map_some]
          rw [bind_ok there, bind_ok there', after_bind_ok there]
          cases object with
          | closure c => exact closures c m shows
          | builtin b =>
              rcases shows with same | none
              · exact builtins same b m (.inl same)
              · exact absurd found (none f b)
  | _ => exact ⟨rfl, shows⟩

end Eval

/-! ## Functions of the prelude -/

/-- Where names stay as they are, functions are described by the same texts. -/
theorem Machine.describe_translate (same : T.name = id) (m : Machine) (v : Value) :
    (m.translate T).display v = m.display v ∧ (m.translate T).inspect v = m.inspect v := by
  have shown : ∀ v, (m.translate T).display v = m.display v := by
    intro v
    cases v with
    | function f =>
        rw [display, display, functions_translate]
        rcases m.functions[f]? with _ | c | b
        · rfl
        · simp [Callable.display, Callable.translate, same]
        · rfl
    | _ => rfl
  refine ⟨shown v, ?_⟩
  cases v with
  | function f => exact shown (.function f)
  | _ => rfl

theorem EvalError.translate_of_id (same : T.name = id) (e : EvalError) : e.translate T = e := by
  cases e <;> simp [translate, same]

theorem Eval.translates_builtin (same : T.name = id) (b : Builtin) (args : List Value) :
    Translates T (b.run args) (b.run args) := by
  intro m shows
  have display : (m.translate T).display = m.display :=
    funext fun v => (m.describe_translate same v).1
  have inspect : (m.translate T).inspect = m.inspect :=
    funext fun v => (m.describe_translate same v).2
  unfold after
  rw [b.run_eq args (m.translate T), b.run_eq args m, display, inspect]
  cases b.answer m.display m.inspect args with
  | ok text => exact ⟨rfl, shows⟩
  | error e => exact ⟨congrArg (EStateM.Result.error · _) (e.translate_of_id same).symm, shows⟩

/-! ## Expressions, statements and calls -/

section Trees

open Eval (Translates)

variable {call call' : Call}

/-- Calls that do the same on translated machines. -/
def Call.Translates (T : Translation) (call call' : Call) : Prop :=
  ∀ callee args, Eval.Translates T (call callee args) (call' callee args)

theorem Expr.translates_evalAll {scope : Scope} {es : List Expr}
    (each : ∀ e ∈ es, Translates T (e.eval call scope) ((e.translate T).eval call' scope)) :
    Translates T (Expr.evalAll call scope es)
      (Expr.evalAll call' scope (Expr.translateAll T es)) := by
  induction es with
  | nil => exact .pure []
  | cons e es ih =>
      refine (each e List.mem_cons_self).bind fun v => ?_
      exact (ih fun e member => each e (List.mem_cons_of_mem _ member)).bind fun vs => .pure _

theorem Expr.translates_eval (calls : call.Translates T call') (scope : Scope) (e : Expr) :
    Translates T (e.eval call scope) ((e.translate T).eval call' scope) := by
  induction e with
  | literal l => exact .pure _
  | name x => exact Eval.translates_lookup scope x
  | unary op arg ih => exact ih.bind fun v => .ofExcept (Operator.nameless_unary op v)
  | binary op lhs rhs left right =>
      exact left.bind fun v => right.bind fun w => .ofExcept (Operator.nameless_binary op v w)
  | group inner ih =>
      rw [Expr.translate, T.value]
      exact ih
  | call callee args called passed =>
      exact called.bind fun f => (translates_evalAll passed).bind fun vs => calls f vs
  | assign x value ih =>
      exact ih.bind fun v => (Eval.translates_assign scope x v).bind fun _ => .pure v

theorem Expr.translates_test (calls : call.Translates T call') (scope : Scope) (cond : Expr) :
    Translates T (cond.test call scope) ((cond.translate T).test call' scope) := by
  refine (translates_eval calls scope cond).bind fun v => ?_
  cases v.toBool? with
  | some b => exact .pure b
  | none => exact .throw rfl

theorem Stmt.translates_runAll {scope : Scope} {ss : List Stmt}
    (each : ∀ s ∈ ss, Translates T (s.run call scope) ((s.translate T).run call' scope))
    (last : Value) :
    Translates T (Stmt.runAll call scope last ss)
      (Stmt.runAll call' scope last (Stmt.translateAll T ss)) := by
  induction ss generalizing last with
  | nil => exact .pure _
  | cons s ss ih =>
      refine (each s List.mem_cons_self).bind fun flow => ?_
      cases flow with
      | next v => exact ih (fun s member => each s (List.mem_cons_of_mem _ member)) v
      | returned v => exact .pure _

theorem Stmt.translates_block {scope : Scope} {body : List Stmt}
    (each : ∀ s ∈ body, ∀ inner,
      Translates T (s.run call inner) ((s.translate T).run call' inner)) :
    Translates T (Eval.child scope >>= fun inner => Stmt.runAll call inner .void body)
      (Eval.child scope >>= fun inner =>
        Stmt.runAll call' inner .void (Stmt.translateAll T body)) :=
  (Eval.translates_child scope).bind fun inner =>
    translates_runAll (fun s member => each s member inner) .void

theorem Stmt.translates_run (calls : call.Translates T call') (scope : Scope) (s : Stmt) :
    Translates T (s.run call scope) ((s.translate T).run call' scope) := by
  induction s generalizing scope with
  | letDecl x init =>
      refine (Eval.translates_requireFresh scope x).bind fun _ => ?_
      refine (Expr.translates_eval calls scope init).bind fun v => ?_
      exact (Eval.translates_define scope x v).bind fun _ => .pure _
  | funDecl x params body =>
      refine (Eval.translates_newClosure ⟨x, params, body, scope⟩).bind fun f => ?_
      exact (Eval.translates_define scope x f).bind fun _ => .pure _
  | block body ih => exact translates_block ih
  | ifThen cond body ih =>
      refine (Expr.translates_test calls scope cond).bind fun holds => ?_
      cases holds with
      | true => exact translates_block ih
      | false => exact .pure _
  | ifElse cond body other ihBody ihOther =>
      refine (Expr.translates_test calls scope cond).bind fun holds => ?_
      cases holds with
      | true => exact translates_block ihBody
      | false => exact translates_block ihOther
  | expr e => exact (Expr.translates_eval calls scope e).bind fun v => .pure _
  | ret e => exact (Expr.translates_eval calls scope e).bind fun v => .pure _

/-- A list of statements, whatever its value so far. -/
theorem Stmt.translates_statements (calls : call.Translates T call') (scope : Scope)
    (ss : List Stmt) (last : Value) :
    Translates T (Stmt.runAll call scope last ss)
      (Stmt.runAll call' scope last (Stmt.translateAll T ss)) :=
  translates_runAll (fun s _ => translates_run calls scope s) last

end Trees

theorem Callable.translates_checkArity {f f' : Callable} (arity : f'.arity = f.arity)
    (name : f'.name = T.name f.name) (args : List Value) :
    Eval.Translates T (f.checkArity args) (f'.checkArity args) := by
  unfold checkArity
  rw [arity, name]
  split
  · exact .pure ()
  · exact .throw rfl

/-- A call translates if the bodies of closures do. -/
theorem translates_callWith {limit : Nat} {inner : Option Call}
    (enters : ∀ c c' args, Callable.translate T (.closure c) = .closure c' →
      Eval.Translates T (Closure.enter limit inner c args) (Closure.enter limit inner c' args)) :
    Call.Translates T (callWith limit inner) (callWith limit inner) := by
  intro callee args
  rw [callWith_eq]
  refine Eval.translates_callable callee (fun c => ?_) fun same b => ?_
  · have arity : (Callable.translate T (.closure c)).arity = (Callable.closure c).arity :=
      List.length_map T.name
    refine (Callable.translates_checkArity arity rfl args).bind fun _ => ?_
    exact enters c _ args rfl
  · have name : (Callable.builtin b).name = T.name (Callable.builtin b).name :=
      congrFun same.symm b.name
    refine (Callable.translates_checkArity rfl name args).bind fun _ => ?_
    exact Eval.translates_builtin same b args

theorem translates_callLeft (limit left : Nat) :
    Call.Translates T (callLeft limit left) (callLeft limit left) := by
  induction left with
  | zero => exact translates_callWith fun _ _ _ _ => .throw rfl
  | succ left ih =>
      refine translates_callWith fun c c' args image => ?_
      cases image
      refine (Eval.translates_child c.scope).bind fun scope => ?_
      refine (Eval.translates_defineAll scope c.params args).bind fun _ => ?_
      refine (Stmt.translates_statements ih scope c.body .void).bind fun flow => ?_
      cases flow with
      | next _ => exact .pure _
      | returned v => exact .pure v

theorem Program.translates_eval (limit : Nat) (scope : Scope) (program : Program) :
    Eval.Translates T (program.eval limit scope)
      (Program.eval limit scope (Stmt.translateAll T program)) :=
  (Stmt.translates_statements (translates_callLeft limit limit) scope program .void).bind
    fun _ => .pure _

end Bramble
