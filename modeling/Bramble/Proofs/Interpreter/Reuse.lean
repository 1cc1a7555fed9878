import Bramble.Proofs.Eval.Termination
import Bramble.Proofs.Interpreter.Counting
import Bramble.Session.Interpret

/-!
# An interpreter can be used again

An interpreter is asked for one thing after the other: to evaluate an expression, to run statements
or a program, to call a value, or to interpret a text. Each request may come with another machine
and may fail at any depth of calls. Whatever has been asked for before, the interpreter does what a
new one with the same limit would do (`interpreter_stays_usable`).
-/

set_option autoImplicit false

namespace Bramble
namespace Interpreter

/-- A new interpreter. -/
def new (limit : Nat) : Interpreter := { limit := limit }

/-- What an interpreter does for a task, with room for `stack` bodies of functions. -/
def perform (stack : Nat) : {α : Type} → Task α → Running α
  | _, .expr scope e => evalExpr (callValue stack) scope e
  | _, .stmt scope s => runStmt (callValue stack) scope s
  | _, .stmts scope ss => runStmts (callValue stack) scope .void ss
  | _, .program scope statements =>
      return (← runStmts (callValue stack) scope .void statements).value
  | _, .call callee args => callValue stack callee args

theorem does_perform {α : Type} {limit depth stack : Nat} (room : limit - depth ≤ stack)
    (task : Task α) : Does limit depth (perform stack task) (task.eval limit depth) := by
  have calls := does_callValue room
  cases task with
  | expr scope e => exact does_evalExpr calls e
  | stmt scope s => exact does_runStmt calls s
  | stmts scope ss => exact does_statements calls scope ss
  | program scope ss => exact (does_statements calls scope ss).bind fun flow => does_pure flow.value
  | call callee args => exact calls callee args

/-! ## Requests -/

/-- What an interpreter can be asked for, the errors that this may end with, and what it returns. -/
inductive Request : Type → Type → Type 1 where
  | task {α : Type} (asked : Task α) : Request EvalError α
  | text (scope : Scope) (source : String) : Request Failure Value

namespace Request

variable {ε α : Type}

/-- What an interpreter does for a request on a machine. -/
def serve (stack : Nat) : {ε α : Type} → Request ε α → Interpreter → Machine →
    Option (Except ε α × Interpreter × Machine)
  | _, _, .task asked, i, m => perform stack asked (i, m)
  | _, _, .text scope source, i, m =>
      match Program.ofText source with
      | .error failure => some (.error failure, i, m)
      | .ok program =>
          (perform stack (.program scope program) (i, m)).map fun (result, left) =>
            (result.mapError .evaluation, left)

/-- What evaluation does for a request. -/
def eval (limit : Nat) : {ε α : Type} → Request ε α → EStateM ε Machine α
  | _, _, .task asked => asked.eval limit 0
  | _, _, .text scope source => interpret limit scope source

/-- An interpreter that is in no call ends as evaluation does, and is in no call again. -/
theorem serve_eq {limit stack : Nat} (room : limit ≤ stack) (request : Request ε α)
    (counted : List Nat) (m : Machine) :
    ∃ more, (∀ d ∈ more, d ≤ limit) ∧ request.serve stack ⟨limit, 0, counted⟩ m
      = some ((ending (request.eval limit m)).1, ⟨limit, 0, more ++ counted⟩,
        (ending (request.eval limit m)).2) := by
  cases request with
  | task asked => exact does_perform room asked counted m
  | text scope source =>
      rw [serve, eval, interpret]
      cases Program.ofText source with
      | error failure => exact ⟨[], List.forall_mem_nil _, rfl⟩
      | ok program =>
          obtain ⟨more, bounded, ends⟩ :=
            does_perform (show limit - 0 ≤ stack from room) (.program scope program) counted m
          refine ⟨more, bounded, ?_⟩
          have same : (Task.program scope program).eval limit 0 = program.eval limit scope := rfl
          simp only [ends, same, Option.map_some, EStateM.adaptExcept]
          cases program.eval limit scope m <;> rfl

end Request

/-! ## Interpreters in use -/

/-- The interpreters that a new one can have become, with any requests on any machines, each on a
stack with enough room. -/
inductive Used (limit : Nat) : Interpreter → Prop where
  | new : Used limit (new limit)
  | serve {ε α : Type} {stack : Nat} {i i' : Interpreter} {m m' : Machine} {result : Except ε α}
      (before : Used limit i) (room : limit ≤ stack) (request : Request ε α)
      (served : request.serve stack i m = some (result, i', m')) : Used limit i'

/-- An interpreter in use has its limit, and it is in no call. -/
theorem Used.eq {limit : Nat} {i : Interpreter} (used : Used limit i) :
    i = ⟨limit, 0, i.counted⟩ := by
  induction used with
  | new => rfl
  | @serve _ _ _ i _ m _ _ _ room request served ih =>
      obtain ⟨more, _, ends⟩ := request.serve_eq room i.counted m
      rw [← ih, served] at ends
      cases ends
      rfl

/-- An interpreter stays usable, whatever it was used for before and whatever errors came up. Each
request ends without a crash, if the stack has room for as many calls as the limit allows.
Afterwards the interpreter is in as many calls as before, and it has not counted above its limit on
the way. The result and the machine are those that a new interpreter with the same limit ends with,
and those of evaluation. -/
theorem interpreter_stays_usable {ε α : Type} (limit stack : Nat) (room : limit ≤ stack)
    (i : Interpreter) (used : i.Used limit) (request : Request ε α) (m : Machine) :
    ∃ result i' m', request.serve stack i m = some (result, i', m') ∧
      i'.limit = limit ∧ i'.depth = i.depth ∧ i.depth ≤ limit ∧
      (∃ more, i'.counted = more ++ i.counted ∧ ∀ d ∈ more, d ≤ limit) ∧
      (∃ j, request.serve stack (new limit) m = some (result, j, m')) ∧
      (result, m') = ending (request.eval limit m) := by
  obtain ⟨more, bounded, ends⟩ := request.serve_eq room i.counted m
  obtain ⟨first, _, begins⟩ := request.serve_eq room [] m
  have idle := used.eq
  rw [← idle] at ends
  have depth : i.depth = 0 := congrArg Interpreter.depth idle
  refine ⟨_, _, _, ends, rfl, depth.symm, ?_, ⟨more, rfl, bounded⟩, ⟨_, begins⟩, rfl⟩
  rw [depth]
  exact Nat.zero_le limit

/-- A function that calls itself without end, and a call of it. -/
def endlessCalls : Program :=
  [.funDecl "f" [] [.expr (.call (.name "f") [])], .expr (.call (.name "f") [])]

/-- A function and a call of it, which needs one level. -/
def oneCall : Program :=
  [.funDecl "g" [] [.ret (.literal (.int 7))], .expr (.call (.name "g") [])]

theorem oneCall_after_endlessCalls :
    let start := Machine.programScope {}
    ∃ i m, (Request.task (.program start.1 endlessCalls)).serve 1 (new 1) start.2
        = some (.error (.callTooDeep 1), i, m) ∧ 1 ≤ 1 ∧ i.Used 1 ∧
      ∃ i' m', (Request.task (.program start.1 oneCall)).serve 1 i m = some (.ok (.int 7), i', m') ∧
        i'.depth = 0 := by
  intro start
  have room : 1 ≤ 1 := Nat.le_refl 1
  obtain ⟨more, _, ends⟩ := (Request.task (.program start.1 endlessCalls)).serve_eq room [] start.2
  have failed : (ending ((Request.task (.program start.1 endlessCalls)).eval 1 start.2)).1
      = .error (.callTooDeep 1) := by
    with_unfolding_all rfl
  rw [failed] at ends
  have used : Used 1 ⟨1, 0, more ++ []⟩ := .serve .new room _ ends
  obtain ⟨result, i', m', serves, _, depth, _, _, _, same⟩ :=
    interpreter_stays_usable 1 1 room _ used (.task (.program start.1 oneCall))
      (ending ((Request.task (.program start.1 endlessCalls)).eval 1 start.2)).2
  have seven : result = .ok (.int 7) :=
    (congrArg Prod.fst same).trans (by with_unfolding_all rfl)
  rw [seven] at serves
  exact ⟨_, _, ends, room, used, i', m', serves, depth⟩

end Interpreter
end Bramble
