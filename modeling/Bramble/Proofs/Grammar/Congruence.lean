import Bramble.Grammar.Parser
import Mathlib.Data.List.Forall2

/-!
# Congruences of reading

Facts that compare two ways of reading, or that hold of every way, are proved once for the whole
grammar here. A congruence relates what two readers do; it relates the primitive steps, which look
at the next token, take it, or fail, and it is kept by sequences and by repetition. It then relates
each rule of the grammar as one reader follows it to the same rule as the other one follows it
(`related_operators`, `related_declaration`, `related_program`).

The tokens of the two runs may differ in their places. The grammar sees their kinds and their
lexemes, and it uses a place only to report an error there.

A repetition ends because each of its rounds takes a token. So the congruences keep account of the
results that cannot be had without taking one: those are the results that `takes` holds of.

A congruence of parsing is one between parsers that holds where no level is left, too. It then
relates the parsers of all levels (`Parse.Congruence.related_program`).
-/

set_option autoImplicit false

universe u v

namespace Bramble

namespace ParseError

/-- The same error at another place. -/
def relocate (e : ParseError) (place : Span) : ParseError :=
  match e with
  | .unexpectedToken lexeme expected _ => .unexpectedToken lexeme expected place
  | .unexpectedEnd expected _ => .unexpectedEnd expected place
  | .unmatchedDelimiter opening _ => .unmatchedDelimiter opening place
  | .invalidAssignmentTarget _ => .invalidAssignmentTarget place
  | .integerOutOfRange lexeme _ => .integerOutOfRange lexeme place
  | .nestingTooDeep _ => .nestingTooDeep place

@[simp]
theorem span_relocate (e : ParseError) (place : Span) : (e.relocate place).span = place := by
  cases e <;> rfl

@[simp]
theorem message_relocate (e : ParseError) (place : Span) :
    (e.relocate place).message = e.message := by
  cases e <;> rfl

end ParseError

/-! ## Two ways of reading -/

theorem Token.kind_of_eq {t t' : Token} (same : t = t') : t'.kind = t.kind :=
  congrArg Token.kind same.symm

theorem Token.lexeme_of_eq {t t' : Token} (same : t = t') : t'.lexeme = t.lexeme :=
  congrArg Token.lexeme same.symm

namespace Grammar

/-- A relation between what two readers do that holds between the primitive steps and is kept by
sequences and repetition. `related takes results` relates runs with results that go together by
`results`, where a result that `takes` holds of comes with a token taken. `tokens` says which
tokens of the two runs go together. -/
structure Congruence (M : Type → Type u) (N : Type → Type v) [Monad M] [Reading M] [Monad N]
    [Reading N] where
  tokens : Token → Token → Prop
  related {α β : Type} (takes : α → Prop) (results : α → β → Prop) (p : M α) (p' : N β) : Prop
  tokens_kind {t t' : Token} : tokens t t' → t'.kind = t.kind
  tokens_lexeme {t t' : Token} : tokens t t' → t'.lexeme = t.lexeme
  related_mono {α β : Type} {takes fewer : α → Prop} {results : α → β → Prop} {p : M α} {p' : N β} :
    related takes results p p' → (∀ a, fewer a → takes a) → related fewer results p p'
  related_pure {α β : Type} {takes : α → Prop} {results : α → β → Prop} {a : α} {b : β} :
    results a b → ¬ takes a → related takes results (pure a) (pure b)
  related_bind {α β γ δ : Type} {takes : α → Prop} {more : γ → Prop} {results : α → β → Prop}
    {results' : γ → δ → Prop} {p : M α} {p' : N β} {f : α → M γ} {f' : β → N δ} :
    related takes results p p' →
      (∀ a b, results a b → related (fun c => more c ∧ ¬ takes a) results' (f a) (f' b)) →
        related more results' (p >>= f) (p' >>= f')
  related_peek? : related (fun _ => False) (Option.Rel tokens) peek? peek?
  related_take? {α : Type} (find : Token.Kind → Option α) :
    related (fun taken => taken.isSome = true)
      (Option.Rel fun x x' => tokens x.1 x'.1 ∧ x.2 = x'.2) (take? find) (take? find)
  related_fail {α β : Type} {takes : α → Prop} {results : α → β → Prop} {t t' : Token}
    (error : Span → ParseError) :
    tokens t t' → (∀ place place', (error place).relocate place' = error place') →
      related takes results (fail (error t.span)) (fail (error t'.span))
  related_unexpected {α β : Type} {takes : α → Prop} {results : α → β → Prop}
    (expected : Expectation) :
    related takes results (unexpected expected) (unexpected expected)
  related_iterate {σ τ : Type} {states : σ → τ → Prop} {step : σ → M (Option σ)}
    {step' : τ → N (Option τ)} :
    (∀ s s', states s s' →
      related (fun next => next.isSome = true) (Option.Rel states) (step s) (step' s')) →
        ∀ {s s'}, states s s' →
          related (fun _ => False) states (iterate step s) (iterate step' s')

namespace Congruence

variable {M : Type → Type u} {N : Type → Type v} [Monad M] [Reading M] [Monad N] [Reading N]
  {R : Congruence M N} {α β γ δ : Type} {takes : α → Prop} {results : α → β → Prop}

/-! ## Sequences -/

section Sequence

variable {more : γ → Prop} {results' : γ → δ → Prop} {p : M α} {p' : N β} {f : α → M γ}
  {f' : β → N δ}

/-- A first step that takes a token, so that what follows need not. -/
theorem related_taking (first : R.related (fun _ => True) results p p')
    (second : ∀ a b, results a b → R.related (fun _ => False) results' (f a) (f' b)) :
    R.related more results' (p >>= f) (p' >>= f') :=
  R.related_bind first fun a b result =>
    R.related_mono (second a b result) fun _ both => both.2 trivial

/-- A first step that need not take a token. -/
theorem related_before (first : R.related takes results p p')
    (second : ∀ a b, results a b → R.related more results' (f a) (f' b)) :
    R.related more results' (p >>= f) (p' >>= f') :=
  R.related_bind first fun a b result => R.related_mono (second a b result) fun _ both => both.1

end Sequence

/-! ## Tokens -/

section Tokens

variable {f : Bool → M α} {f' : Bool → N β} {kind : Token.Kind}

/-- A look at the next token. -/
theorem related_sees (rest : ∀ seen, R.related takes results (f seen) (f' seen)) :
    R.related takes results (sees kind >>= f) (sees kind >>= f') := by
  have looked : R.related (fun _ => False) Eq (sees kind : M Bool) (sees kind : N Bool) := by
    refine related_before R.related_peek? fun next next' same => R.related_pure ?_ id
    cases same with
    | none => rfl
    | some together => simp [R.tokens_kind together]
  refine related_before looked fun seen _ same => ?_
  subst same
  exact rest seen

/-- A token that is taken if it is of a kind. -/
theorem related_accept (accepted : R.related (fun _ => False) results (f true) (f' true))
    (refused : R.related takes results (f false) (f' false)) :
    R.related takes results (accept kind >>= f) (accept kind >>= f') := by
  have tried : R.related (fun accepted => accepted = true) Eq (accept kind : M Bool)
      (accept kind : N Bool) := by
    refine R.related_bind (R.related_take? _) fun taken taken' same => ?_
    cases same with
    | none => exact R.related_pure rfl fun both => Bool.false_ne_true both.1
    | some _ => exact R.related_pure rfl fun both => both.2 rfl
  refine R.related_bind tried fun b _ same => ?_
  subst same
  cases b with
  | true => exact R.related_mono accepted fun _ both => both.2 rfl
  | false => exact R.related_mono refused fun _ both => both.1

theorem related_expect (R : Congruence M N) (kind : Token.Kind) :
    R.related (fun _ => True) R.tokens (expect kind) (expect kind) := by
  refine R.related_bind (R.related_take? _) fun taken taken' same => ?_
  cases same with
  | none => exact R.related_unexpected _
  | some together => exact R.related_pure together.1 fun both => both.2 rfl

theorem related_name (R : Congruence M N) : R.related (fun _ => True) Eq name name :=
  related_taking (R.related_expect .identifier) fun _ _ together =>
    R.related_pure (R.tokens_lexeme together).symm id

end Tokens

/-! ## Repetition -/

theorem related_collect {step : M (Option α)} {step' : N (Option β)}
    (steps : R.related (fun next => next.isSome = true) (Option.Rel results) step step') :
    R.related (fun _ => False) (List.Forall₂ results) (collect step) (collect step') := by
  refine related_before (R.related_iterate (fun found found' same => ?_) .nil)
    fun found found' same => R.related_pure (List.forall₂_reverse_iff.mpr same) id
  refine R.related_bind steps fun next next' together => ?_
  cases together with
  | none => exact R.related_pure .none fun both => Bool.false_ne_true both.1
  | some result => exact R.related_pure (.some (.cons result same)) fun both => both.2 rfl

/-! ## Delimiters -/

section Delimited

variable {t t' : Token} (together : R.tokens t t')

include together

theorem related_unmatched : R.related takes results (unmatched t) (unmatched t') := by
  unfold unmatched
  rw [R.tokens_lexeme together]
  exact R.related_fail (.unmatchedDelimiter _) together fun _ _ => rfl

theorem related_close (kind : Token.Kind) :
    R.related (fun _ => False) (fun _ _ => True) (close kind t) (close kind t') :=
  related_accept (R.related_pure trivial id) (related_unmatched together)

variable {item : M α} {item' : N β} (items : R.related (fun _ => True) results item item')

include items

theorem related_another? :
    R.related (fun next => next.isSome = true) (Option.Rel results) (another? item t)
      (another? item' t') := by
  refine related_accept (R.related_pure .none id) (related_accept ?_ (related_unmatched together))
  exact related_taking items fun _ _ result => R.related_pure (.some result) id

theorem related_listed :
    R.related (fun _ => False) (List.Forall₂ results) (listed item t) (listed item' t') := by
  refine related_accept (R.related_pure .nil id) (related_taking items fun _ _ first => ?_)
  refine related_before (related_collect (related_another? together items)) fun _ _ others => ?_
  exact R.related_pure (.cons first others) id

end Delimited

/-! ## Expressions -/

section Expressions

variable {t t' : Token}

theorem related_integer (together : R.tokens t t') :
    R.related (fun _ => False) Eq (integer t) (integer t') := by
  unfold integer
  rw [R.tokens_lexeme together]
  split
  · exact R.related_pure rfl id
  · exact R.related_fail (.integerOutOfRange _) together fun _ _ => rfl

theorem related_string (together : R.tokens t t') :
    R.related (fun _ => False) Eq (string t) (string t') := by
  unfold string
  rw [R.tokens_lexeme together]
  split
  · exact R.related_pure rfl id
  · exact R.related_fail (.unexpectedToken _ _) together fun _ _ => rfl

variable {operand : Nat → M Expr} {operand' : Nat → N Expr}
  (operands : ∀ power, R.related (fun _ => True) Eq (operand power) (operand' power))

include operands

theorem related_prefixRest (together : R.tokens t t') (power : Nat) :
    R.related (fun _ => False) Eq (prefixRest operand t power) (prefixRest operand' t' power) := by
  unfold prefixRest
  rw [R.tokens_kind together]
  cases t.kind with
  | intLit => exact related_integer together
  | stringLit => exact related_string together
  | trueWord | falseWord => exact R.related_pure rfl id
  | identifier => exact R.related_pure (congrArg Expr.name (R.tokens_lexeme together).symm) id
  | openParen =>
      refine related_taking (operands power) fun inner _ same => ?_
      exact related_before (related_close together .closeParen) fun _ _ _ =>
        R.related_pure (congrArg Expr.group same) id
  | _ =>
      exact related_taking (operands power) fun _ _ same => R.related_pure (congrArg _ same) id

theorem related_prefixForm :
    R.related (fun _ => True) Eq (prefixForm operand) (prefixForm operand') := by
  refine R.related_bind (R.related_take? _) fun taken taken' same => ?_
  cases same with
  | none => exact R.related_unexpected _
  | @some x x' together =>
      obtain ⟨t, power⟩ := x
      obtain ⟨t', power'⟩ := x'
      obtain ⟨together, same⟩ := together
      cases same
      exact R.related_mono (related_prefixRest operands together power) fun _ both => both.2 rfl

theorem related_infixRest (together : R.tokens t t') (lhs : Expr) (power : Nat) :
    R.related (fun _ => False) Eq (infixRest operand lhs t power)
      (infixRest operand' lhs t' power) := by
  unfold infixRest
  rw [R.tokens_kind together]
  cases t.kind with
  | openParen =>
      refine related_before (related_listed together (operands power)) fun args args' same => ?_
      rw [List.forall₂_eq_eq_eq] at same
      exact R.related_pure (congrArg (Expr.call lhs) same) id
  | equals =>
      cases lhs with
      | name x =>
          exact related_taking (operands power) fun _ _ same =>
            R.related_pure (congrArg (Expr.assign x) same) id
      | _ => exact R.related_fail .invalidAssignmentTarget together fun _ _ => rfl
  | comma =>
      rw [R.tokens_lexeme together]
      exact R.related_fail (.unexpectedToken _ _) together fun _ _ => rfl
  | _ =>
      exact related_taking (operands power) fun _ _ same => R.related_pure (congrArg _ same) id

theorem related_infixForm? (min : Nat) {lhs lhs' : Expr} (same : lhs = lhs') :
    R.related (fun next => next.isSome = true) (Option.Rel Eq) (infixForm? operand min lhs)
      (infixForm? operand' min lhs') := by
  subst same
  refine R.related_bind (R.related_take? _) fun taken taken' same => ?_
  cases same with
  | none => exact R.related_pure .none fun both => Bool.false_ne_true both.1
  | @some x x' together =>
      obtain ⟨t, power⟩ := x
      obtain ⟨t', power'⟩ := x'
      obtain ⟨together, same⟩ := together
      cases same
      refine related_before (related_infixRest operands together lhs power.right) ?_
      exact fun _ _ same => R.related_pure (.some same) fun both => both.2 rfl

theorem related_operators (min : Nat) :
    R.related (fun _ => True) Eq (operators operand min) (operators operand' min) :=
  related_taking (related_prefixForm operands) fun _ _ same =>
    R.related_iterate (fun _ _ => related_infixForm? operands min) same

end Expressions

/-! ## Statements -/

/-- What is read one level further in goes together. -/
structure RelatesInner (R : Congruence M N) (inner : Inner M) (inner' : Inner N) : Prop where
  block : R.related (fun _ => True) Eq inner.block inner'.block
  conditional : R.related (fun _ => True) Eq inner.conditional inner'.conditional

section Sequences

variable {member : M Stmt} {member' : N Stmt}
  (members : R.related (fun _ => True) Eq member member')

include members

theorem related_inBlock? {t t' : Token} (together : R.tokens t t') :
    R.related (fun next => next.isSome = true) (Option.Rel Eq) (inBlock? member t)
      (inBlock? member' t') := by
  refine related_accept (R.related_pure .none id) ?_
  refine related_before R.related_peek? fun next next' same => ?_
  cases same with
  | none => exact related_unmatched together
  | some _ => exact related_taking members fun _ _ same => R.related_pure (.some same) id

theorem related_braced : R.related (fun _ => True) Eq (braced member) (braced member') := by
  refine related_taking (R.related_expect .openBrace) fun opening opening' together => ?_
  have collected := related_collect (related_inBlock? members together)
  rwa [List.forall₂_eq_eq_eq] at collected

theorem related_inProgram? :
    R.related (fun next => next.isSome = true) (Option.Rel Eq) (inProgram? member)
      (inProgram? member') := by
  refine related_before R.related_peek? fun next next' same => ?_
  cases same with
  | none => exact R.related_pure .none Bool.false_ne_true
  | some _ => exact related_taking members fun _ _ same => R.related_pure (.some same) id

theorem related_program : R.related (fun _ => False) Eq (program member) (program member') := by
  have collected := related_collect (related_inProgram? members)
  rwa [List.forall₂_eq_eq_eq] at collected

end Sequences

section Statements

variable {inner : Inner M} {inner' : Inner N} (inners : R.RelatesInner inner inner')

include inners

theorem related_elseBranch (cond : Expr) (body : List Stmt) :
    R.related (fun _ => False) Eq (elseBranch inner cond body) (elseBranch inner' cond body) := by
  refine related_accept (related_sees fun chained => ?_) (R.related_pure rfl id)
  cases chained with
  | true =>
      exact related_taking inners.conditional fun _ _ same =>
        R.related_pure (congrArg (fun s => Stmt.ifElse cond body [s]) same) id
  | false =>
      exact related_taking inners.block fun _ _ same =>
        R.related_pure (congrArg (Stmt.ifElse cond body) same) id

variable {expr : M Expr} {expr' : N Expr} (exprs : R.related (fun _ => True) Eq expr expr')

omit inners in
include exprs in
/-- An expression and the semicolon behind it. -/
theorem related_ended (f : Expr → α) :
    R.related takes Eq (do let e ← expr; let _ ← expect .semi; return f e)
      (do let e ← expr'; let _ ← expect .semi; return f e) := by
  refine related_taking exprs fun value _ same => ?_
  subst same
  exact related_taking (R.related_expect .semi) fun _ _ _ => R.related_pure rfl id

include exprs

theorem related_conditional :
    R.related (fun _ => True) Eq (conditional expr inner) (conditional expr' inner') := by
  refine related_taking (R.related_expect .ifWord) fun _ _ _ => ?_
  refine related_taking exprs fun cond _ same => ?_
  subst same
  refine related_taking inners.block fun body _ same => ?_
  subst same
  exact related_elseBranch inners cond body

theorem related_statement :
    R.related (fun _ => True) Eq (statement expr inner) (statement expr' inner') := by
  refine related_accept (related_ended exprs Stmt.ret) (related_sees fun braces => ?_)
  cases braces with
  | true =>
      exact related_taking inners.block fun _ _ same =>
        R.related_pure (congrArg Stmt.block same) id
  | false =>
      refine related_sees fun tests => ?_
      cases tests with
      | true => exact related_conditional inners exprs
      | false => exact related_ended exprs Stmt.expr

theorem related_declaration :
    R.related (fun _ => True) Eq (declaration expr inner) (declaration expr' inner') := by
  refine related_accept ?_ (related_accept ?_ (related_statement inners exprs))
  · refine related_taking R.related_name fun x _ same => ?_
    subst same
    refine related_taking (R.related_expect .equals) fun _ _ _ => ?_
    exact related_ended exprs (Stmt.letDecl x)
  · refine related_taking R.related_name fun x _ same => ?_
    subst same
    refine related_taking (R.related_expect .openParen) fun opening opening' together => ?_
    refine related_before (related_listed together R.related_name) fun params _ same => ?_
    rw [List.forall₂_eq_eq_eq] at same
    subst same
    exact related_taking inners.block fun _ _ same =>
      R.related_pure (congrArg (Stmt.funDecl x params) same) id

end Statements

end Congruence
end Grammar

/-! ## Parsers -/

/-- A congruence between parsers that also holds where no level of nesting is left. -/
structure Parse.Congruence extends Grammar.Congruence Parse Parse where
  related_tooDeep {α β : Type} {takes : α → Prop} {results : α → β → Prop} :
    related takes results Parse.tooDeep Parse.tooDeep

namespace Parse.Congruence

/-- Expressions at every level of nesting. -/
theorem related_expression (R : Congruence) (room min : Nat) :
    R.related (fun _ => True) Eq (expression room min) (expression room min) := by
  induction room generalizing min with
  | zero => exact R.related_tooDeep
  | succ room ih => exact Grammar.Congruence.related_operators ih min

theorem relatesInner (R : Congruence) (room : Nat) : R.RelatesInner (inner room) (inner room) := by
  induction room with
  | zero => exact ⟨R.related_tooDeep, R.related_tooDeep⟩
  | succ room ih =>
      have exprs := R.related_expression room 0
      exact ⟨Grammar.Congruence.related_braced (Grammar.Congruence.related_declaration ih exprs),
        Grammar.Congruence.related_conditional ih exprs⟩

/-- Statements at every level of nesting. -/
theorem related_declaration (R : Congruence) (room : Nat) :
    R.related (fun _ => True) Eq (declaration room) (declaration room) :=
  Grammar.Congruence.related_declaration (R.relatesInner room) (R.related_expression room 0)

theorem related_statement (R : Congruence) (room : Nat) :
    R.related (fun _ => True) Eq (statement room) (statement room) :=
  Grammar.Congruence.related_statement (R.relatesInner room) (R.related_expression room 0)

/-- Programs. -/
theorem related_program (R : Congruence) (room : Nat) :
    R.related (fun _ => False) Eq (program room) (program room) :=
  Grammar.Congruence.related_program (R.related_declaration room)

end Parse.Congruence
end Bramble
