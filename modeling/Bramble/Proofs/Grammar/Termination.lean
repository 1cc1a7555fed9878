import Bramble.Proofs.Grammar.Reuse
import Bramble.Proofs.Grammar.Script

/-!
# Reading ends

Whatever the tokens are, a reader ends. Each routine that succeeds has taken a token, apart from the
one for whole programs, which may have nothing to read. So every round of a repetition that goes on
has taken a token as well, and there are only so many before the end of the input, which is never
passed. The calls of routines by each other go through levels of nesting, and of these there are
only so many either.

So each routine runs as a reader that is known to end (`Script.performs_routine`), and with it each
repetition of the grammar. `reading_ends` puts this together.
-/

set_option autoImplicit false

namespace Bramble

open Reader (Sound Leads)

/-! ## Moving on -/

/-- The ending of a reader that began as `r`: it was led on, and it has taken a token if its result
is one that `takes` holds of. -/
inductive Reader.Moves {α : Type} (r : Reader) (takes : α → Prop) :
    EStateM.Result ParseError Reader α → Prop where
  | ok {a : α} {r' : Reader} (leads : r.Leads r') (taken : takes a → r.index < r'.index) :
      Moves r takes (.ok a r')
  | error {e : ParseError} {r' : Reader} (leads : r.Leads r') : Moves r takes (.error e r')

/-- Taking the current token, which is not the end of the input. -/
theorem Reader.Sound.advance_lt {r : Reader} (sound : r.Sound) (leads : r.Leads r.advance)
    (here : r.cursor = r.advance.cursor.push [r.current]) : r.index < r.advance.index := by
  have length := sound.length_ahead leads
  rw [here, Cursor.ahead_push, List.length_append, List.length_singleton] at length
  omega

theorem Read.moves_take? {α : Type} {r : Reader} (sound : r.Sound)
    (find : Token.Kind → Option α) :
    r.Moves (fun taken => taken.isSome = true) (take? find r) := by
  unfold take?
  obtain ⟨eof, _⟩ | ⟨other, leads, here⟩ := sound.cases
  · rw [if_pos eof]
    exact .ok sound.refl fun never => Bool.noConfusion never
  · rw [if_neg other]
    cases find r.current.kind with
    | none => exact .ok sound.refl fun never => Bool.noConfusion never
    | some x => exact .ok leads fun _ => sound.advance_lt leads here

namespace Routine

/-- The routines that have taken a token if they succeed: all but the one for whole programs, which
may have nothing to read. -/
def Takes : {α : Type} → Routine α → Prop
  | _, .program => False
  | _, _ => True

end Routine

/-- The routine that a request asks for. -/
def Request.routine : (request : Request) → Routine request.Result
  | .expression min => .expression min
  | .statement => .statement
  | .declaration => .declaration
  | .program => .program

theorem Request.perform_routine (request : Request) :
    request.routine.perform = request.read := by
  cases request <;> rfl

namespace Script

variable {α β γ δ σ τ : Type} {room : Nat} {r r' : Reader} {takes : α → Prop}
  {results : α → β → Prop}

/-- From `r` on, the script has a run that ends as a reader ended: with a result that goes together
with the reader's, or with the same error, and where the reader is. This one has moved on, and it
has taken a token if the result is one that `takes` holds of. -/
inductive PerformsAt (r : Reader) (takes : α → Prop) (results : α → β → Prop) (p : Script α) :
    EStateM.Result ParseError Reader β → Prop where
  | ok {a : α} {b : β} {r' : Reader} (runs : p.Runs r (.ok a r')) (leads : r.Leads r')
      (taken : takes a → r.index < r'.index) (result : results a b) :
      PerformsAt r takes results p (.ok b r')
  | error {e : ParseError} {r' : Reader} (runs : p.Runs r (.error e r')) (leads : r.Leads r') :
      PerformsAt r takes results p (.error e r')

theorem PerformsAt.runs {p : Script α} {x : EStateM.Result ParseError Reader α}
    (performs : PerformsAt r takes Eq p x) : p.Runs r x := by
  cases performs with
  | ok runs _ _ same => exact same ▸ runs
  | error runs _ => exact runs

theorem PerformsAt.moves {p : Script α} {x : EStateM.Result ParseError Reader α}
    (performs : PerformsAt r takes Eq p x) : r.Moves takes x := by
  cases performs with
  | ok _ leads taken same => exact .ok leads (same ▸ taken)
  | error _ leads => exact .error leads

/-- A script has no other run than the one that it performs. -/
theorem PerformsAt.runs_iff {p : Script α} {x : EStateM.Result ParseError Reader α}
    (performs : PerformsAt r takes Eq p x) (y : EStateM.Result ParseError Reader α) :
    p.Runs r y ↔ y = x :=
  ⟨fun runs => runs.unique performs.runs, fun same => same ▸ performs.runs⟩

/-- With `room` levels left, the script runs as the reader `q` does, wherever they begin. -/
def Performs (room : Nat) (takes : α → Prop) (results : α → β → Prop) (p : Script α) (q : Read β) :
    Prop :=
  ∀ r : Reader, r.Sound → r.depth + room = maxNesting → PerformsAt r takes results p (q r)

/-! ## Single steps -/

/-- A script that only reads. -/
theorem performsAt_read {q : Read α} {together : α → α → Prop} (same : ∀ a, together a a)
    (moves : r.Moves takes (q r)) : PerformsAt r takes together (.read q) (q r) := by
  have runs := Runs.read q r
  generalize q r = x at runs moves
  cases moves with
  | ok leads taken => exact .ok runs leads taken (same _)
  | error leads => exact .error runs leads

theorem performs_pure {a : α} {b : β} (result : results a b) (free : ¬ takes a) :
    Performs room takes results (pure a) (pure b) :=
  fun r sound _ => .ok (.read (pure a) r) sound.refl (fun holds => absurd holds free) result

theorem performs_unexpected (expected : Expectation) :
    Performs room takes results (.read (Read.unexpected expected)) (Read.unexpected expected) := by
  intro r sound _
  have runs := Runs.read (Read.unexpected (α := α) expected) r
  obtain ⟨e, fails⟩ : ∃ e, ∀ γ : Type, (Read.unexpected expected : Read γ) r = .error e r := by
    by_cases eof : r.current.kind = .eof
    · exact ⟨_, fun _ => if_pos eof⟩
    · exact ⟨_, fun _ => if_neg eof⟩
  rw [fails] at runs ⊢
  exact .error runs sound.refl

/-! ## Sequences and repetition -/

theorem Performs.bind {more : γ → Prop} {results' : γ → δ → Prop} {p : Script α} {q : Read β}
    {f : α → Script γ} {g : β → Read δ} (first : Performs room takes results p q)
    (second : ∀ a b, results a b →
      Performs room (fun c => more c ∧ ¬ takes a) results' (f a) (g b)) :
    Performs room more results' (p >>= f) (q >>= g) := by
  intro r sound levels
  have here := first r sound levels
  generalize ending : q r = x at here
  cases here with
  | error runs leads =>
      rw [bind_error ending]
      exact .error (.stop runs) leads
  | @ok a b r' runs leads taken result =>
      rw [bind_ok ending]
      have later := second a b result r' (sound.leads leads) (leads.depth ▸ levels)
      generalize g b r' = y at later
      cases later with
      | error others further => exact .error (.next runs others) (leads.trans further)
      | ok others further taken' result' =>
          refine .ok (.next runs others) (leads.trans further) (fun holds => ?_) result'
          by_cases before : takes a
          · exact Nat.lt_of_lt_of_le (taken before) further.forward
          · exact Nat.lt_of_le_of_lt leads.forward (taken' ⟨holds, before⟩)

/-- A repetition ends, because each of its rounds but the last takes a token. -/
theorem performs_loop {states : σ → τ → Prop} {round : σ → Script (Option σ)}
    {step : τ → Read (Option τ)}
    (rounds : ∀ s t, states s t →
      Performs room (fun next => next.isSome = true) (Option.Rel states) (round s) (step t))
    {s : σ} {t : τ} (state : states s t) :
    Performs room (fun _ => False) states (.loop round s) (Read.iterate step t) := by
  intro r sound levels
  induction length : r.ahead using Nat.strongRecOn generalizing r s t with
  | _ n ih =>
      have here := rounds s t state r sound levels
      rw [Read.iterate]
      generalize step t r = x at here
      cases here with
      | error runs leads => exact .error (.broken runs) leads
      | @ok _ _ r' runs leads taken result =>
          cases result with
          | none => exact .ok (.last runs) leads False.elim state
          | @some s' t' next =>
              have shorter : r'.ahead < r.ahead := by
                have forward := taken rfl
                have inside := sound.inside
                rw [Reader.ahead, Reader.ahead, leads.tokens]
                omega
              simp only [if_pos shorter]
              have others := ih _ (length ▸ shorter) next r' (sound.leads leads)
                (leads.depth ▸ levels) rfl
              generalize Read.iterate step t' r' = y at others
              cases others with
              | error more further => exact .error (.again runs more) (leads.trans further)
              | ok more further _ result =>
                  exact .ok (.again runs more) (leads.trans further) False.elim result

/-- The congruence of scripts that run as readers do. -/
def performing (room : Nat) : Grammar.Congruence Script Read where
  tokens := Eq
  related := Performs room
  tokens_kind := @Token.kind_of_eq
  tokens_lexeme := @Token.lexeme_of_eq
  related_mono := by
    intro α β takes fewer results p q performs weaker r sound levels
    have here := performs r sound levels
    generalize q r = x at here
    cases here with
    | ok runs leads taken result =>
        exact .ok runs leads (fun holds => taken (weaker _ holds)) result
    | error runs leads => exact .error runs leads
  related_pure := performs_pure
  related_bind := Performs.bind
  related_peek? := by
    intro r sound _
    refine performsAt_read (fun next => ?_) (.ok sound.refl False.elim)
    cases next with
    | none => exact .none
    | some t => exact .some rfl
  related_take? := by
    intro α find r sound _
    refine performsAt_read (fun taken => ?_) (Read.moves_take? sound find)
    cases taken with
    | none => exact .none
    | some x => exact .some ⟨rfl, rfl⟩
  related_fail := by
    intro α β takes results t t' error same _ r sound _
    subst same
    exact .error (.read (throw (error t.span)) r) sound.refl
  related_unexpected := performs_unexpected
  related_iterate := performs_loop

/-! ## Levels -/

theorem performs_nested {p : Script α} {q : Read β} (inside : Performs room takes results p q) :
    Performs (room + 1) takes results (.nested p) (Read.nested q) := by
  intro r sound levels
  have below : r.depth < maxNesting := by omega
  have here := inside { r with depth := r.depth + 1 } ⟨sound.inside, sound.ended⟩
    (by simp only; omega)
  unfold Read.nested
  rw [if_neg (Nat.not_le_of_lt below)]
  generalize q { r with depth := r.depth + 1 } = x at here
  cases here with
  | ok runs leads taken result => exact .ok (.nested below runs) leads.leave taken result
  | error runs leads => exact .error (.nested below runs) leads.leave

theorem performs_nested_zero (p : Script α) (q : Read β) :
    Performs 0 takes results (.nested p) (Read.nested q) := by
  intro r sound levels
  have full : maxNesting ≤ r.depth := by omega
  unfold Read.nested
  rw [if_pos full]
  exact .error (.full full) sound.refl

/-! ## Calls -/

/-- A call runs as its routine does. -/
theorem Performs.call {routine : Routine α} {q : Read α}
    (body : Performs room takes Eq routine.body q)
    (same : ∀ r : Reader, r.Sound → r.depth ≤ maxNesting → routine.perform r = q r) :
    Performs room takes Eq (.call routine) routine.perform := by
  intro r sound levels
  have here := body r sound levels
  rw [same r sound (by omega)]
  generalize q r = x at here
  cases here with
  | ok runs leads taken result => exact .ok (.call runs) leads taken result
  | error runs leads => exact .error (.call runs) leads

theorem performs_expression (room min : Nat) :
    Performs room (fun _ => True) Eq (.call (.expression min)) (Read.expression min) := by
  induction room generalizing min with
  | zero =>
      exact .call (performs_nested_zero _ _) fun r sound levels =>
        (Read.grammar_recursive sound levels).1 min
  | succ room ih =>
      refine .call (performs_nested ?_) fun r sound levels =>
        (Read.grammar_recursive sound levels).1 min
      exact Grammar.Congruence.related_operators (R := performing room) ih min

/-- What is called further in runs as its reader does. -/
abbrev PerformsInner (room : Nat) : Prop := (performing room).RelatesInner inner Read.inner

theorem performs_declaration (inners : PerformsInner room) :
    Performs room (fun _ => True) Eq (.call .declaration) Read.declaration :=
  .call (Grammar.Congruence.related_declaration inners (performs_expression room 0))
    fun _ sound levels => (Read.grammar_recursive sound levels).2.1

theorem performs_conditional (inners : PerformsInner room) :
    Performs room (fun _ => True) Eq (.call .conditional) Read.conditional :=
  .call (Grammar.Congruence.related_conditional inners (performs_expression room 0))
    fun _ sound levels => (Read.grammar_recursive sound levels).2.2.2

theorem performsInner (room : Nat) : PerformsInner room := by
  induction room with
  | zero => exact ⟨performs_nested_zero _ _, performs_nested_zero _ _⟩
  | succ room ih =>
      refine ⟨performs_nested ?_, performs_nested (performs_conditional ih)⟩
      exact Grammar.Congruence.related_braced (R := performing room) (performs_declaration ih)

/-- A routine runs as its reader does, and takes a token where it must. -/
theorem performs_routine (routine : Routine α) :
    Performs room (fun _ => routine.Takes) Eq (.call routine) routine.perform := by
  have inners := performsInner room
  cases routine with
  | expression min => exact performs_expression room min
  | conditional => exact performs_conditional inners
  | statement =>
      exact .call (Grammar.Congruence.related_statement inners (performs_expression room 0))
        fun _ sound levels => (Read.grammar_recursive sound levels).2.2.1
  | declaration => exact performs_declaration inners
  | program =>
      exact .call (Grammar.Congruence.related_program (R := performing room)
        (performs_declaration inners)) fun _ _ _ => rfl

/-- Wherever it is begun, each repetition of the grammar has a run: the statements of a program and
of a block, the operators of an expression, the arguments of a call, and the parameters of a
function. -/
structure RepetitionsEnd (here : Reader) : Prop where
  program : ∃ x, (Grammar.collect (Grammar.inProgram? (call .declaration))).Runs here x
  block (opening : Token) :
    ∃ x, (Grammar.collect (Grammar.inBlock? (call .declaration) opening)).Runs here x
  operators (min : Nat) (lhs : Expr) :
    ∃ x, (loop (Grammar.infixForm? (fun power => call (.expression power)) min) lhs).Runs here x
  arguments (min : Nat) (opening : Token) :
    ∃ x, (Grammar.collect (Grammar.another? (call (.expression min)) opening)).Runs here x
  parameters (opening : Token) :
    ∃ x, (Grammar.collect (Grammar.another? (M := Script) Grammar.name opening)).Runs here x

theorem Performs.exists_runs {p : Script α} {q : Read β}
    (performs : Performs room takes results p q) (sound : r.Sound)
    (levels : r.depth + room = maxNesting) : ∃ x, p.Runs r x := by
  have here := performs r sound levels
  generalize q r = x at here
  cases here with
  | ok runs => exact ⟨_, runs⟩
  | error runs => exact ⟨_, runs⟩

theorem repetitionsEnd {here : Reader} (sound : here.Sound)
    (levels : here.depth + room = maxNesting) : RepetitionsEnd here := by
  have declarations := performs_declaration (performsInner room)
  have ends {α β : Type} {takes : α → Prop} {results : α → β → Prop} {p : Script α} {q : Read β}
      (performs : (performing room).related takes results p q) : ∃ x, p.Runs here x :=
    Performs.exists_runs performs sound levels
  refine ⟨?_, fun opening => ?_, fun min lhs => ?_, fun min opening => ?_, fun opening => ?_⟩
  · exact ends (Grammar.Congruence.related_program declarations)
  · exact ends (Grammar.Congruence.related_collect
      (Grammar.Congruence.related_inBlock? declarations (rfl : opening = opening)))
  · exact ends (performs_loop (fun _ _ =>
      Grammar.Congruence.related_infixForm? (R := performing room) (performs_expression room) min)
      (rfl : lhs = lhs))
  · exact ends (Grammar.Congruence.related_collect (Grammar.Congruence.related_another?
      (rfl : opening = opening) (performs_expression room min)))
  · exact ends (Grammar.Congruence.related_collect (Grammar.Congruence.related_another?
      (rfl : opening = opening) (performing room).related_name))

end Script

/-- Whatever the tokens are, and whatever a reader of them was asked before, reading ends.

The reader is at one of the tokens, with an end behind them, and no level is open. Its answer to a
request is the one that the parsers give for the tokens ahead, it stops where they stop, and this is
the only run of the routine that was asked for. Wherever a reader of these tokens is, and however
many levels are open, each routine has exactly one run, and each repetition of the grammar has one.
A routine never goes back and never passes the first end of the input ahead, and it has taken a
token if it has a result, unless it reads whole programs. -/
theorem reading_ends (tokens : List Token) (requests : List Request) :
    let r := (Reader.ofTokens tokens).afterAll requests
    r.tokens = Token.closed tokens ∧ r.index < r.tokens.length ∧ r.depth = 0 ∧
      (∀ request : Request,
        let ahead := Cursor.ofTokens (r.tokens.drop r.index)
        r.answer request = ahead.answer request ∧
        (r.after request).cursor = ahead.after request ∧
        ∀ x, (Script.call request.routine).Runs r x ↔ x = request.read r) ∧
      ∀ here : Reader, here.tokens = r.tokens → here.index < here.tokens.length →
        here.depth ≤ maxNesting →
          Script.RepetitionsEnd here ∧
          ∀ (α : Type) (routine : Routine α),
            (∀ x, (Script.call routine).Runs here x ↔ x = routine.perform here) ∧
            here.Moves (fun _ => routine.Takes) (routine.perform here) := by
  intro r
  have start := Reader.idle_ofTokens tokens
  have led : (Reader.ofTokens tokens).Leads r := start.leads_afterAll requests
  have idle : r.Idle := start.leads led
  refine ⟨led.tokens, idle.inside, idle.closed, fun request => ?_, ?_⟩
  · obtain ⟨_, answer, after⟩ := idle.served request
    refine ⟨answer, after, ?_⟩
    have performs := Script.performs_routine request.routine r idle.toSound
      (Nat.add_sub_of_le (idle.closed ▸ Nat.zero_le _))
    rw [request.perform_routine] at performs
    exact performs.runs_iff
  · intro here same inside levels
    have sound : here.Sound := ⟨inside, same ▸ idle.ended⟩
    have room := Nat.add_sub_of_le levels
    refine ⟨Script.repetitionsEnd sound room, fun α routine => ?_⟩
    have performs := Script.performs_routine routine here sound room
    exact ⟨performs.runs_iff, performs.moves⟩

/-- Tokens with an unknown one and an end among them. -/
def Token.endedInside : List Token :=
  [.ofKind .openBrace, .ofKind .eof, .ofKind .unknown, .ofKind .openParen]

/-- Behind the end in the middle, on the last level, with the unknown token next, all routines
end. -/
theorem reading_ends_behind_end :
    let here : Reader := ⟨Token.closed Token.endedInside, 2, maxNesting⟩
    here.tokens = ((Reader.ofTokens Token.endedInside).afterAll [.program, .statement]).tokens ∧
      here.index < here.tokens.length ∧ here.depth ≤ maxNesting ∧ Script.RepetitionsEnd here ∧
      ∃ x, (Script.call .program).Runs here x := by
  obtain ⟨same, _, _, _, rest⟩ := reading_ends Token.endedInside [.program, .statement]
  intro here
  have inside : here.index < here.tokens.length := by decide
  obtain ⟨repetitions, routines⟩ := rest here same.symm inside (Nat.le_refl _)
  exact ⟨same.symm, inside, Nat.le_refl _, repetitions, _, ((routines _ .program).1 _).mpr rfl⟩

end Bramble
