import Bramble.Proofs.Grammar.Following

/-!
# The grammar as plain recursion

A reader as it was defined is known to end, because its repetitions stop where a round takes no
token and its recursion is cut off below the limit of nesting. Here the same grammar is followed
without such precautions. A routine is a function of the grammar that calls others and is called by
them, and a script is what a routine does: it reads, calls routines, enters levels of nesting, and
repeats rounds for as long as they have a result. `Script.Runs` says which runs a script has. They
are finite by definition, so a script that would repeat forever, or call forever, has none. There
are no two runs of one script from one place (`Script.Runs.unique`).
-/

set_option autoImplicit false

namespace Bramble

/-- The functions of the grammar that call each other, and what they return. -/
inductive Routine : Type → Type where
  | expression (min : Nat) : Routine Expr
  | conditional : Routine Stmt
  | statement : Routine Stmt
  | declaration : Routine Stmt
  | program : Routine Program

/-- What a reader does, with calls and repetitions that nothing bounds. -/
inductive Script : Type → Type 1 where
  | read {α : Type} (p : Read α) : Script α
  | call {α : Type} (routine : Routine α) : Script α
  | nested {α : Type} (body : Script α) : Script α
  | loop {σ : Type} (round : σ → Script (Option σ)) (start : σ) : Script σ
  | bind {α β : Type} (first : Script α) (next : α → Script β) : Script β

instance : Monad Script where
  pure a := .read (pure a)
  bind := .bind

namespace Script

/-- Single steps are those of readers. A repetition goes on for as long as there are results. -/
instance : Reading Script where
  peek? := .read Read.peek?
  take? find := .read (Read.take? find)
  fail e := .read (throw e)
  unexpected expected := .read (Read.unexpected expected)
  iterate := .loop

/-- What statements have one level further in. -/
def inner : Inner Script where
  block := nested (Grammar.braced (call .declaration))
  conditional := nested (call .conditional)

end Script

namespace Routine

/-- What a routine does. -/
def body : {α : Type} → Routine α → Script α
  | _, .expression min => .nested (Grammar.operators (fun power => .call (.expression power)) min)
  | _, .conditional => Grammar.conditional (.call (.expression 0)) Script.inner
  | _, .statement => Grammar.statement (.call (.expression 0)) Script.inner
  | _, .declaration => Grammar.declaration (.call (.expression 0)) Script.inner
  | _, .program => Grammar.program (.call .declaration)

/-- The reader that does the same. -/
def perform : {α : Type} → Routine α → Read α
  | _, .expression min => Read.expression min
  | _, .conditional => Read.conditional
  | _, .statement => Read.statement
  | _, .declaration => Read.declaration
  | _, .program => Read.program

end Routine

/-- The ending of what was done one level further in, with the level left again. -/
def Reader.leave {α : Type} :
    EStateM.Result ParseError Reader α → EStateM.Result ParseError Reader α
  | .ok a r => .ok a { r with depth := r.depth - 1 }
  | .error e r => .error e { r with depth := r.depth - 1 }

namespace Script

/-! ## Runs -/

/-- The finite runs of a script: the reader that it begins with, and how it ends. -/
inductive Runs : {α : Type} → Script α → Reader → EStateM.Result ParseError Reader α → Prop where
  | read {α : Type} (p : Read α) (r : Reader) : Runs (.read p) r (p r)
  | call {α : Type} {routine : Routine α} {r : Reader} {x : EStateM.Result ParseError Reader α}
      (done : Runs routine.body r x) : Runs (.call routine) r x
  | full {α : Type} {body : Script α} {r : Reader} (limit : maxNesting ≤ r.depth) :
      Runs (.nested body) r (.error (.nestingTooDeep r.current.span) r)
  | nested {α : Type} {body : Script α} {r : Reader} {x : EStateM.Result ParseError Reader α}
      (room : r.depth < maxNesting) (done : Runs body { r with depth := r.depth + 1 } x) :
      Runs (.nested body) r (Reader.leave x)
  | again {σ : Type} {round : σ → Script (Option σ)} {s s' : σ} {r r' : Reader}
      {x : EStateM.Result ParseError Reader σ} (done : Runs (round s) r (.ok (some s') r'))
      (more : Runs (.loop round s') r' x) : Runs (.loop round s) r x
  | last {σ : Type} {round : σ → Script (Option σ)} {s : σ} {r r' : Reader}
      (done : Runs (round s) r (.ok none r')) : Runs (.loop round s) r (.ok s r')
  | broken {σ : Type} {round : σ → Script (Option σ)} {s : σ} {r r' : Reader} {e : ParseError}
      (failed : Runs (round s) r (.error e r')) : Runs (.loop round s) r (.error e r')
  | next {α β : Type} {first : Script α} {next : α → Script β} {a : α} {r r' : Reader}
      {x : EStateM.Result ParseError Reader β} (done : Runs first r (.ok a r'))
      (more : Runs (next a) r' x) : Runs (.bind first next) r x
  | stop {α β : Type} {first : Script α} {next : α → Script β} {r r' : Reader} {e : ParseError}
      (failed : Runs first r (.error e r')) : Runs (.bind first next) r (.error e r')

/-- A script has no two runs. -/
theorem Runs.unique {α : Type} {p : Script α} {r : Reader}
    {x y : EStateM.Result ParseError Reader α} (first : Runs p r x) (second : Runs p r y) :
    x = y := by
  induction first with
  | read p r =>
      cases second with
      | read => rfl
  | call _ ih =>
      cases second with
      | call done => exact ih done
  | full limit =>
      cases second with
      | full _ => rfl
      | nested room _ => exact absurd limit (Nat.not_le_of_lt room)
  | nested room _ ih =>
      cases second with
      | full limit => exact absurd limit (Nat.not_le_of_lt room)
      | nested _ done => rw [ih done]
  | again _ _ one others =>
      cases second with
      | again done more =>
          cases one done
          exact others more
      | last done => cases one done
      | broken failed => cases one failed
  | last _ one =>
      cases second with
      | again done more => cases one done
      | last done =>
          cases one done
          rfl
      | broken failed => cases one failed
  | broken _ one =>
      cases second with
      | again done more => cases one done
      | last done => cases one done
      | broken failed =>
          cases one failed
          rfl
  | next _ _ one others =>
      cases second with
      | next done more =>
          cases one done
          exact others more
      | stop failed => cases one failed
  | stop _ one =>
      cases second with
      | next done more => cases one done
      | stop failed =>
          cases one failed
          rfl

end Script
end Bramble
