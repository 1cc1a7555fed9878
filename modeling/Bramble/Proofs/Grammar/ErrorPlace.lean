import Bramble.Proofs.Grammar.Joining
import Bramble.Proofs.Grammar.Reuse
import Bramble.Proofs.Grammar.Timeliness

/-!
# Where errors are reported

The parsers of expressions, statements and programs are punctual. Wherever one of them fails, the
hole at that place is filled with the simplest thing that may stand there, a name or a block without
statements, and what is open around it is closed. So the tokens up to the error are the beginning of
a rendering of some canonical tree (`punctual_expression`, `timely_program`).

For programs this says that no error comes late (`errors_never_late`), and that a delimiter that is
reported as not closed is the innermost one that is open (`unmatched_is_innermost`).
-/

set_option autoImplicit false

namespace Bramble

open Token (Balanced Viable)

namespace Parse

open Grammar

/-! ## Expressions -/

/-- An expression that stands for its tokens where operators with left powers above `min` are
taken. -/
structure StandingExpr (min : Nat) (e : Expr) (ts : List Token) : Prop where
  renders : e.Renders ts
  canonical : e.Canonical
  fits : e.Fits min

theorem standingExpr_name (min : Nat) : StandingExpr min (.name "x") [.ofName "x"] :=
  ⟨.name (Token.ofName_names "x"), trivial, .inl rfl⟩

theorem StandingExpr.balanced {min : Nat} {e : Expr} {ts : List Token}
    (standing : StandingExpr min e ts) : Balanced ts := standing.renders.balanced standing.canonical

/-- The tokens of an expression. -/
def ExprTokens (min : Nat) (ts : List Token) : Prop := ∃ e, StandingExpr min e ts

theorem viable_exprTokens (min : Nat) : Viable (ExprTokens min) [] :=
  ⟨[.ofName "x"], .name "x", standingExpr_name min⟩

section Expression

variable {operand : Nat → Parse Expr} {min : Nat} {t : Token} {c : Cursor}
  (operands : ∀ power, Punctual (StandingExpr power) (operand power))

include operands

theorem timely_prefixRest {power : Nat} (begins : t.kind.prefixPower? = some power) :
    Timely (ExprTokens min) [] (c.push [t]) (prefixRest operand t power c) := by
  have nothing := viable_exprTokens min
  unfold prefixRest
  -- A literal is refused when its token is taken already, so these errors look back.
  cases kind : t.kind with
  | intLit =>
      simp only [integer]
      cases (Text.signed? t.lexeme.toList).bind int64? with
      | some n => exact .ok
      | none => exact .atLast nothing (.integer kind)
  | stringLit =>
      simp only [string]
      cases unquoted? t.lexeme with
      | some s => exact .ok
      | none => exact .atLast nothing (.string kind)
  | trueWord | falseWord | identifier => exact .ok
  | openParen =>
      have fill {inner : Expr} {ts : List Token} (held : StandingExpr power inner ts) :
          Viable (ExprTokens min) ([] ++ t :: ts) :=
        ⟨[.ofKind .closeParen], .group inner, .group kind held.renders rfl, held.canonical,
          .inl rfl⟩
      refine .from rfl ((operands power).before (fun _ _ held => fill held) fun _ ts c' held => ?_)
      exact (timely_close (fill held) (by rw [kind]; rfl) held.balanced).bind fun _ _ _ => .ok
  | bang | minus =>
      rw [kind] at begins
      cases begins
      refine .from rfl ((operands 13).before (fun arg ts held => ?_) fun _ _ _ _ => .ok)
      exact .of_whole ⟨.unary _ arg, .unary kind held.renders, ⟨rfl, held.fits, held.canonical⟩,
        .inl rfl⟩
  | _ =>
      rw [kind] at begins
      cases begins

theorem timely_prefixForm : Timely (ExprTokens min) [] c (prefixForm operand c) := by
  refine timely_take?.bind fun taken mid took => ?_
  rcases of_take? took with ⟨rfl, rfl, _⟩ | ⟨t, power, rfl, rfl, begins⟩
  · exact timely_unexpected (viable_exprTokens min) fun _ _ => rfl
  · exact timely_prefixRest operands begins

theorem timely_infixRest {lhs : Expr} {ts : List Token} {power : Token.InfixPower}
    (standing : StandingExpr min lhs ts) (follows : t.kind.infixPower? = some power)
    (above : min < t.kind.leftPower) (tight : t.kind.leftPower ≤ lhs.edge) :
    Timely (ExprTokens min) ts (c.push [t]) (infixRest operand lhs t power.right c) := by
  have far : Viable (ExprTokens min) ts := .of_whole ⟨lhs, standing⟩
  unfold infixRest
  cases kind : t.kind with
  | openParen =>
      rw [kind] at follows tight above
      cases follows
      refine .from rfl (.listed (operands 1) (fun _ _ held => held.balanced) kind
        (fun args us separated => ?_) fun _ _ _ _ _ _ => .ok)
      obtain ⟨rendered, canonical⟩ := separated.imp (fun arg us held => held.renders)
        fun arg us held => held.canonical
      exact ⟨[.ofKind .closeParen], .call lhs args, .call standing.renders kind rendered rfl,
        ⟨standing.canonical.isCallee tight, standing.canonical,
          Expr.canonicalAll_iff.mpr canonical⟩, .inr above⟩
  | equals =>
      rw [kind] at follows above
      cases follows
      cases lhs with
      | name x =>
          refine .from rfl ((operands 2).before (fun value us held => .of_whole ?_)
            fun _ _ _ _ => .ok)
          cases standing.renders with
          | name names =>
              exact ⟨.assign x value, .assign names kind held.renders, held.canonical, .inr above⟩
      | _ => exact .atLast far (.assignment kind)
  | comma => exact .atLast far (.comma kind)
  | plus | minus | asterisk | slash | equalsEquals | notEquals | greater | greaterEquals | less
  | lessEquals =>
      rw [kind] at follows tight above
      cases follows
      refine .from rfl ((operands _).before (fun rhs us held => ?_) fun _ _ _ _ => .ok)
      rw [← List.append_cons]
      have loose := Nat.le_trans tight standing.canonical.edge_le_level
      exact .of_whole ⟨.binary _ lhs rhs, .binary standing.renders kind held.renders,
        ⟨rfl, loose, held.fits, standing.canonical, held.canonical⟩, .inr above⟩
  | _ =>
      rw [kind] at follows
      cases follows

end Expression

theorem Parsed.standing {room min : Nat} {e : Expr} {ts : List Token} {rest : Cursor}
    (parsed : Parsed room min e ts rest) : StandingExpr min e ts :=
  ⟨parsed.renders, parsed.canonical, parsed.fits⟩

theorem Grown.standing {room min : Nat} {e : Expr} {ts : List Token} {rest : Cursor}
    (grown : Grown room min e ts rest) : StandingExpr min e ts :=
  ⟨grown.renders, grown.canonical, grown.fits⟩

theorem timely_infixForm? {room min : Nat} {lhs : Expr} {ts : List Token} {c : Cursor}
    (operands : ∀ power, Punctual (StandingExpr power) (expression room power))
    (grown : Grown room min lhs ts c) :
    Timely (ExprTokens min) ts c (infixForm? (expression room) min lhs c) := by
  refine timely_take?.bind fun taken mid took => ?_
  rcases of_take? took with ⟨rfl, rfl, _⟩ | ⟨t, power, rfl, rfl, found⟩
  · exact .ok
  · obtain ⟨follows, above⟩ := Token.Kind.infixAbove?_eq_some_iff.mp found
    rw [← Token.Kind.leftPower_eq follows] at above
    have tight : t.kind.leftPower ≤ lhs.edge := grown.edge t.kind rfl
    have operator := timely_infixRest (c := mid) operands grown.standing follows above tight
    exact operator.bind fun _ _ _ => .ok

/-- The errors of expressions come in time. While the operators are read, what there is so far is a
complete expression, which may stand where the whole one may. -/
theorem punctual_expression (room min : Nat) :
    Punctual (StandingExpr min) (expression room min) := by
  induction room generalizing min with
  | zero => exact ⟨fun c => timely_tooDeep (viable_exprTokens min), fun ok => nomatch ok⟩
  | succ room operands =>
      refine ⟨fun c => ?_, fun ok => ?_⟩
      · refine Timely.bind (timely_prefixForm operands) fun first mid read => ?_
        obtain ⟨ts, rfl, grown⟩ := grown_prefixForm (parsed_expression room) min read
        refine .from rfl (timely_iterate (Grown room min) (fun lhs left c grown => ?_) grown)
        refine ⟨timely_infixForm? operands grown, fun e c' round => ?_⟩
        obtain ⟨us, _, same, longer⟩ := Grown.infixForm (parsed_expression room) grown round
        exact ⟨us, same, longer⟩
      · obtain ⟨ts, same, parsed⟩ := parsed_expression _ _ _ _ _ ok
        exact ⟨ts, same, parsed.standing⟩

/-! ## Statements -/

/-- A statement that stands for its tokens. It is a conditional where only those are read. -/
structure StandingStmt (only : Prop) (s : Stmt) (ts : List Token) : Prop where
  renders : s.Renders ts
  canonical : s.Canonical
  conditional : only → s.isConditional = true

/-- Statements that stand, between braces, for their tokens. -/
structure StandingBlock (body : List Stmt) (ts : List Token) : Prop where
  renders : Stmt.RendersBlock body ts
  canonical : Stmt.CanonicalAll body

/-- The tokens of a statement. -/
def StmtTokens (only : Prop) (ts : List Token) : Prop := ∃ s, StandingStmt only s ts

theorem standingBlock_nil : StandingBlock [] [.ofKind .openBrace, .ofKind .closeBrace] :=
  have renders : Stmt.RendersBlock [] (.ofKind .openBrace :: [] ++ [.ofKind .closeBrace]) :=
    .mk rfl .none rfl
  ⟨renders, trivial⟩

theorem viable_stmtTokens (only : Prop) : Viable (StmtTokens only) [] :=
  ⟨.ofKind .ifWord :: [.ofName "x"] ++ [.ofKind .openBrace, .ofKind .closeBrace],
    .ifThen (.name "x") [],
    .ifThen rfl (standingExpr_name 0).renders standingBlock_nil.renders, ⟨trivial, trivial⟩,
    fun _ => rfl⟩

/-- Statements one after the other, with some tokens in front of them. -/
theorem timely_sequence {whole : List Token → Prop} {front : List Token} {room : Nat}
    (members : ∀ c, Timely (StmtTokens False) [] c (declaration room c))
    (fill : ∀ body ts, Sequenced Stmt.Renders body ts → Stmt.CanonicalAll body →
      Viable whole (front ++ ts))
    {step : Parse (Option Stmt)}
    (rounds : ∀ body ts c, Sequenced Stmt.Renders body ts → Stmt.CanonicalAll body →
      Timely whole (front ++ ts) c (declaration room c) → Timely whole (front ++ ts) c (step c))
    (reads : ∀ c s c', step c = .ok (some s) c' → declaration room c = .ok s c') {c : Cursor} :
    Timely whole front c (collect step c) := by
  refine timely_collect (fun left _ => ∃ body ts, Sequenced Stmt.Renders body ts ∧
    Stmt.CanonicalAll body ∧ left = front ++ ts) ?_
    ⟨[], [], .none, trivial, (List.append_nil front).symm⟩
  rintro _ c ⟨body, ts, sequenced, canonical, rfl⟩
  constructor
  · refine rounds body ts c sequenced canonical ((members c).lift ?_)
    rintro us ⟨s, held⟩
    rw [List.append_assoc]
    exact fill _ _ (sequenced.append (.one held.renders))
      (Program.Canonical.append canonical ⟨held.canonical, trivial⟩)
  · intro s c' round
    obtain ⟨us, same, parsed⟩ := parsed_stmt room c s c' (reads c s c' round)
    exact ⟨us, same, body ++ [s], ts ++ us, sequenced.append (.one parsed.renders),
      Program.Canonical.append canonical ⟨parsed.canonical, trivial⟩, List.append_assoc _ _ _⟩

section Forms

variable {room : Nat} {only : Prop} {c : Cursor} {word : Token}
  (blocks : Punctual StandingBlock (inner room).block)
  (branches : ∀ c, Timely (StmtTokens True) [] c ((inner room).conditional c))

/-- An expression and the semicolon behind it. -/
theorem timely_ended {α : Type} {whole : List Token → Prop} {left : List Token} {f : Expr → α}
    (fill : ∀ e ts, StandingExpr 0 e ts → Viable whole (left ++ ts)) :
    Timely whole left c
      ((expression room 0 >>= fun e => expect .semi >>= fun _ => pure (f e)) c) :=
  (punctual_expression room 0).before fill fun e ts _ held =>
    .expect (fill e ts held) fun _ _ _ => .ok

include blocks

section Conditional

include branches

theorem timely_elseBranch {cond : Expr} {body : List Stmt} {ts us : List Token}
    (begins : word.kind = .ifWord) (tested : StandingExpr 0 cond ts)
    (held : StandingBlock body us) :
    Timely (StmtTokens only) (word :: ts ++ us) c (elseBranch (inner room) cond body c) := by
  refine .accept (fun otherwise mid _ turns => ?_) fun _ => .ok
  refine .sees ?_ ?_
  · refine Timely.bind ((branches mid).lift ?_) fun _ _ _ => .ok
    rintro vs ⟨s, instead⟩
    rw [← List.append_cons]
    exact .of_whole ⟨.ifElse cond body [s], .elseIf begins tested.renders held.renders turns
      (instead.conditional trivial) instead.renders,
      ⟨tested.canonical, held.canonical, instead.canonical, trivial⟩, fun _ => rfl⟩
  · refine blocks.before (fun other vs instead => ?_) fun _ _ _ _ => .ok
    rw [← List.append_cons]
    exact .of_whole ⟨.ifElse cond body other, .ifElse begins tested.renders held.renders turns
      instead.renders, ⟨tested.canonical, held.canonical, instead.canonical⟩, fun _ => rfl⟩

theorem timely_conditional :
    Timely (StmtTokens only) [] c (conditional (expression room 0) (inner room) c) := by
  refine .expect (viable_stmtTokens only) fun word c' begins => ?_
  have fill {cond : Expr} {body : List Stmt} {ts us : List Token} (tested : StandingExpr 0 cond ts)
      (held : StandingBlock body us) : Viable (StmtTokens only) (word :: ts ++ us) :=
    .of_whole ⟨.ifThen cond body, .ifThen begins tested.renders held.renders,
      ⟨tested.canonical, held.canonical⟩, fun _ => rfl⟩
  refine (punctual_expression room 0).before (fun cond ts tested => ?_) fun cond ts c' tested => ?_
  · exact (fill tested standingBlock_nil).of_append
  · refine blocks.before (fun body us held => fill tested held) fun body us c' held => ?_
    exact timely_elseBranch blocks branches begins tested held

theorem timely_statement :
    Timely (StmtTokens False) [] c (Grammar.statement (expression room 0) (inner room) c) := by
  refine .accept (fun word c' _ begins => ?_) fun _ => .sees ?_ (.sees ?_ ?_)
  · refine timely_ended fun e ts held => ?_
    exact ⟨[.ofKind .semi], .ret e, .ret begins held.renders rfl, held.canonical, False.elim⟩
  · refine blocks.before (fun body ts held => .of_whole ?_) fun _ _ _ _ => .ok
    exact ⟨.block body, .block held.renders, held.canonical, False.elim⟩
  · exact timely_conditional blocks branches
  · refine timely_ended fun e ts held => ?_
    exact ⟨[.ofKind .semi], .expr e, .expr held.renders rfl, held.canonical, False.elim⟩

end Conditional

omit blocks in
theorem timely_variable (begins : word.kind = .letWord) :
    Timely (StmtTokens False) [word] c
      ((name >>= fun x => expect .equals >>= fun _ => expression room 0 >>= fun init =>
        expect .semi >>= fun _ => pure (Stmt.letDecl x init)) c) := by
  have fill {x : String} {target equals : Token} {init : Expr} {ts : List Token}
      (names : target.Names x) (binds : equals.kind = .equals) (held : StandingExpr 0 init ts) :
      Viable (StmtTokens False) ([word, target, equals] ++ ts) :=
    ⟨[.ofKind .semi], .letDecl x init, .letDecl begins names binds held.renders rfl,
      held.canonical, False.elim⟩
  have named {x : String} {ts : List Token} (param : RendersParam x ts) :
      Viable (StmtTokens False) ([word] ++ ts) := by
    cases param with
    | @mk target names =>
        have whole : Viable (StmtTokens False) ([word, target] ++ [.ofKind .equals, .ofName "x"]) :=
          fill names rfl (standingExpr_name 0)
        exact whole.of_append
  refine punctual_name.before (fun x ts param => named param) fun x ts c' param => ?_
  refine .expect (named param) fun equals c'' binds => ?_
  cases param with
  | mk names => exact timely_ended fun init ts held => fill names binds held

theorem timely_function (begins : word.kind = .funWord) :
    Timely (StmtTokens False) [word] c
      ((name >>= fun x => expect .openParen >>= fun opening => listed name opening >>= fun params =>
        (inner room).block >>= fun body => pure (Stmt.funDecl x params body)) c) := by
  have fill {x : String} {target opening closing : Token} {params : List String}
      {body : List Stmt} {ts us : List Token} (names : target.Names x)
      (opens : opening.kind = .openParen) (taken : Separated RendersParam params ts)
      (closes : closing.kind = .closeParen) (held : StandingBlock body us) :
      Viable (StmtTokens False) ([word, target] ++ opening :: ts ++ closing :: us) :=
    .of_whole ⟨.funDecl x params body, .funDecl begins names opens taken closes held.renders,
      held.canonical, False.elim⟩
  have opened {x : String} {target opening : Token} {params : List String} {ts : List Token}
      (names : target.Names x) (opens : opening.kind = .openParen)
      (taken : Separated RendersParam params ts) :
      Viable (StmtTokens False) ([word, target] ++ opening :: ts) := by
    have whole : Viable (StmtTokens False) ([word, target] ++ opening :: ts ++
        .ofKind .closeParen :: [.ofKind .openBrace, .ofKind .closeBrace]) :=
      fill names opens taken rfl standingBlock_nil
    exact whole.of_append
  have named {x : String} {ts : List Token} (param : RendersParam x ts) :
      Viable (StmtTokens False) ([word] ++ ts) := by
    cases param with
    | @mk target names =>
        have whole : Viable (StmtTokens False) ([word, target] ++ [.ofKind .openParen]) :=
          opened names rfl .none
        exact whole.of_append
  refine punctual_name.before (fun x ts param => named param) fun x ts c' param => ?_
  refine .expect (named param) fun opening c'' opens => ?_
  cases param with
  | @mk target names =>
      have params (x : String) (ts : List Token) (param : RendersParam x ts) : Balanced ts :=
        Token.balanced_params (.one param)
      refine .listed punctual_name params opens (fun _ _ taken => opened names opens taken) ?_
      intro params ts closing c' taken closes
      refine blocks.before (fun body us held => ?_) fun _ _ _ _ => .ok
      rw [← List.append_cons]
      exact fill names opens taken closes held

include branches in
theorem timely_declarationForms :
    Timely (StmtTokens False) [] c (Grammar.declaration (expression room 0) (inner room) c) :=
  .accept (fun _ _ _ begins => timely_variable begins) fun _ =>
    .accept (fun _ _ _ begins => timely_function blocks begins) fun _ =>
      timely_statement blocks branches

end Forms

theorem punctual_block {room : Nat}
    (declarations : ∀ c, Timely (StmtTokens False) [] c (declaration room c)) :
    Punctual StandingBlock (inner (room + 1)).block where
  timely c := by
    refine .expect ⟨_, [], standingBlock_nil⟩ fun opening c' opens => ?_
    have fill (body : List Stmt) (ts : List Token) (sequenced : Sequenced Stmt.Renders body ts)
        (canonical : Stmt.CanonicalAll body) :
        Viable (fun ts => ∃ body, StandingBlock body ts) ([] ++ opening :: ts) :=
      ⟨[.ofKind .closeBrace], body, .mk opens sequenced rfl, canonical⟩
    refine timely_sequence declarations fill (fun body ts c sequenced canonical member => ?_)
      fun c s c' round => ?_
    · refine .accept (fun _ _ _ _ => .ok) fun _ => .peek ?_ fun t => member.bind fun _ _ _ => .ok
      have balanced := Token.balanced_sequenced sequenced fun s member _ renders =>
        renders.balanced (Stmt.canonicalAll_iff.mp canonical s member)
      exact timely_unmatched (fill body ts sequenced canonical) (by rw [opens]; rfl) balanced
    · rcases of_inBlock? round with ⟨impossible, _⟩ | ⟨_, same, read⟩
      · cases impossible
      · cases same
        exact read
  sound ok := by
    obtain ⟨ts, same, parsed⟩ := parsed_block (parsed_stmt room) ok
    exact ⟨ts, same, parsed.renders, parsed.canonical⟩

/-- The errors one level further in come in time. -/
theorem punctual_inner (room : Nat) :
    Punctual StandingBlock (inner room).block ∧
      ∀ c, Timely (StmtTokens True) [] c ((inner room).conditional c) := by
  induction room with
  | zero =>
      refine ⟨⟨fun c => ?_, nofun⟩, fun c => ?_⟩
      · exact timely_tooDeep ⟨_, [], standingBlock_nil⟩
      · exact timely_tooDeep (viable_stmtTokens True)
  | succ room ih =>
      refine ⟨punctual_block fun c => ?_, fun c => ?_⟩
      · exact timely_declarationForms ih.1 ih.2
      · exact timely_conditional ih.1 ih.2

theorem timely_declaration (room : Nat) (c : Cursor) :
    Timely (StmtTokens False) [] c (declaration room c) :=
  timely_declarationForms (punctual_inner room).1 (punctual_inner room).2

/-- The tokens of a program. -/
def ProgramTokens (ts : List Token) : Prop := ∃ p : Program, p.Canonical ∧ p.Renders ts

/-- The errors of programs come in time. -/
theorem timely_program (room : Nat) (c : Cursor) :
    Timely ProgramTokens [] c (program room c) := by
  refine timely_sequence (timely_declaration room)
    (fun body ts sequenced canonical => .of_whole ⟨body, canonical, sequenced⟩)
    (fun body ts c _ _ member => ?_) fun c s c' round => ?_
  · exact .peek .ok fun t => member.bind fun _ _ _ => .ok
  · rcases of_inProgram? round with ⟨impossible, _⟩ | ⟨_, same, read⟩
    · cases impossible
    · cases same
      exact read

end Parse

/-! ## Errors of programs -/

namespace Reader

variable {tokens taken : List Token} {r : Reader}

/-- How far a reader has come, told by what the cursor took. -/
theorem Leads.index_eq (leads : (ofTokens tokens).Leads r)
    (start : Cursor.ofTokens tokens = r.cursor.push taken) :
    r.index = taken.length ∧ taken <+: tokens := by
  have same : (ofTokens tokens).cursor = Cursor.ofTokens tokens := Cursor.ofTokens_closed tokens
  have length := (sound_ofTokens tokens).length_ahead leads
  rw [same, start, Cursor.ahead_push, List.length_append] at length
  have zero : (ofTokens tokens).index = 0 := rfl
  refine ⟨by omega, ?_⟩
  have before : tokens.takeWhile (·.kind ≠ .eof) = taken ++ r.cursor.ahead :=
    congrArg Cursor.ahead start
  have front : taken <+: tokens.takeWhile (·.kind ≠ .eof) :=
    before ▸ List.prefix_append taken r.cursor.ahead
  exact front.trans (List.takeWhile_prefix _)

/-- Where the reader of a program stops if it fails. -/
theorem stopped_of_error {e : ParseError} (fails : Program.ofTokens tokens = .error e) :
    (ofTokens tokens).Leads ((ofTokens tokens).after .program) ∧
      (ofTokens tokens).answer .program = .error e ∧
      Parse.program maxNesting (Cursor.ofTokens tokens)
        = .error e ((ofTokens tokens).after .program).cursor := by
  have same : (ofTokens tokens).cursor = Cursor.ofTokens tokens := Cursor.ofTokens_closed tokens
  obtain ⟨leads, answer, after⟩ := (idle_ofTokens tokens).served .program
  rw [same] at answer after
  unfold Program.ofTokens at fails
  cases ending : Parse.program maxNesting (Cursor.ofTokens tokens) with
  | ok p c =>
      rw [ending] at fails
      cases fails
  | error e' c =>
      rw [ending] at fails
      cases fails
      have answered : (Cursor.ofTokens tokens).answer .program = .error e := by
        simp only [Cursor.answer, Request.parse, ending]
      have moved : (Cursor.ofTokens tokens).after .program = c := by
        simp only [Cursor.after, Request.parse, ending]
      exact ⟨leads, answer.trans answered, by rw [after, moved]⟩

end Reader

/-- Errors are never late. If a list of tokens is no program, let `k` be the index of the token that
the error is about: the one where the reader has stopped, or the one before it, which has just been
taken, if what is wrong is an assignment to something other than a name, a numeral out of range, a
comma outside of lists, or a string without quotation marks. Then the tokens before that one can be
continued to a rendering of some canonical program, and except for a delimiter that is not closed
the error is reported at that token. -/
theorem errors_never_late {tokens : List Token} {e : ParseError}
    (fails : Program.ofTokens tokens = .error e) :
    let stopped := (Reader.ofTokens tokens).after .program
    (Reader.ofTokens tokens).answer .program = .error e ∧
      ∃ k, stopped.index = (if e.subject = .last then k + 1 else k) ∧ k ≤ tokens.length ∧
        (∃ (more : List Token) (p : Program),
          p.Canonical ∧ p.Renders (tokens.take k ++ more)) ∧
        (e.subject = .last → ∃ t, tokens[k]? = some t ∧ e.Refuses t) ∧
        (e.subject ≠ .opening → (Token.closed tokens)[k]?.map Token.span = some e.span) := by
  intro stopped
  obtain ⟨leads, answer, ending⟩ := Reader.stopped_of_error fails
  have sound : stopped.Sound := (Reader.sound_ofTokens tokens).leads leads
  have timely := Parse.timely_program maxNesting (Cursor.ofTokens tokens)
  rw [ending] at timely
  refine ⟨answer, ?_⟩
  cases timely with
  | @next _ _ taken start viable about span =>
      obtain ⟨index, front⟩ := leads.index_eq start
      have current := sound.current_eq
      rw [leads.tokens, index] at current
      refine ⟨taken.length, ?_, front.length_le, ?_, fun never => ?_, fun _ => ?_⟩
      · rw [about, if_neg (by decide)]
        exact index
      · rw [← List.prefix_iff_eq_take.mp front]
        exact viable
      · cases about.symm.trans never
      · rw [span, sound.span_cursor]
        exact congrArg (Option.map Token.span) current
  | @last _ _ taken t start viable refuses =>
      obtain ⟨index, rest, split⟩ := leads.index_eq start
      obtain ⟨about, span⟩ := refuses.subject_eq
      obtain ⟨more, closed⟩ := Token.exists_closed tokens
      have here : tokens[taken.length]? = some t := by simp [← split]
      have within : taken.length < tokens.length := (List.getElem?_eq_some_iff.mp here).1
      refine ⟨taken.length, ?_, ?_, ?_, fun _ => ⟨t, here, refuses⟩, fun _ => ?_⟩
      · rw [about, if_pos rfl]
        exact index.trans List.length_append
      · exact Nat.le_of_lt within
      · have before : tokens.take taken.length = taken := by simp [← split]
        rw [before]
        exact viable
      · rw [closed, List.getElem?_append_left within, here, span]
        rfl
  | @opening _ taken before inside opening start viable behind opens balanced =>
      obtain ⟨index, front⟩ := leads.index_eq start
      refine ⟨taken.length, index, front.length_le, ?_, fun never => ?_, fun never => ?_⟩
      · rw [← List.prefix_iff_eq_take.mp front]
        exact viable
      · cases never
      · exact absurd rfl never

/-- The tokens of `f(x, (y, z`, with the place of the second comma. -/
def strayComma : List Token :=
  [.ofName "f", .ofKind .openParen, .ofName "x", .ofKind .comma, .ofKind .openParen, .ofName "y",
    ⟨.comma, ",", ⟨7, 8⟩⟩, .ofName "z"]

theorem strayComma_in_time :
    Program.ofTokens strayComma = .error (.unexpectedToken "," .operator ⟨7, 8⟩) ∧
      ∃ (more : List Token) (p : Program), p.Canonical ∧ p.Renders (strayComma.take 6 ++ more) := by
  have fails : Program.ofTokens strayComma = .error (.unexpectedToken "," .operator ⟨7, 8⟩) := by
    with_unfolding_all rfl
  have index : ((Reader.ofTokens strayComma).after .program).index = 7 := by
    with_unfolding_all rfl
  obtain ⟨_, k, stopped, _, viable, _⟩ := errors_never_late fails
  have six : k = 6 := by
    rw [index] at stopped
    exact (Nat.succ.inj stopped).symm
  exact ⟨fails, six ▸ viable⟩

/-- The delimiter that is reported as not closed is the innermost one. If a list of tokens is no
program for that reason, the delimiters among the tokens that have been taken are never closed out
of turn, one of them is open, and the innermost one that is open is the one that the error names and
points at. -/
theorem unmatched_is_innermost {tokens : List Token} {delimiter : Char} {span : Span}
    (fails : Program.ofTokens tokens = .error (.unmatchedDelimiter delimiter span)) :
    let stopped := (Reader.ofTokens tokens).after .program
    (Reader.ofTokens tokens).answer .program = .error (.unmatchedDelimiter delimiter span) ∧
      ∃ top below, Token.unclosed? (tokens.take stopped.index) = some (top :: below) ∧
        span = top.span ∧ delimiter = top.lexeme.toList.headD '(' := by
  intro stopped
  obtain ⟨leads, answer, ending⟩ := Reader.stopped_of_error fails
  have timely := Parse.timely_program maxNesting (Cursor.ofTokens tokens)
  rw [ending] at timely
  refine ⟨answer, ?_⟩
  cases timely with
  | next _ _ about _ => cases about
  | last _ _ refuses => cases refuses
  | @opening _ taken before inside opening start viable behind opens balanced =>
      obtain ⟨index, front⟩ := leads.index_eq start
      obtain ⟨more, p, canonical, renders⟩ := viable
      obtain ⟨stack, unclosed⟩ := Token.exists_unclosed? (renders.balanced canonical)
      rw [behind] at unclosed
      obtain ⟨below, rfl⟩ := Token.unclosed?_opening unclosed opens balanced
      refine ⟨opening, below, ?_, rfl, rfl⟩
      rw [show stopped.index = taken.length from index, ← List.prefix_iff_eq_take.mp front]
      exact (congrArg Token.unclosed? behind).trans unclosed

/-- The tokens of `{ g(x, (1 + 2);`, with the places of the three delimiters that open. -/
def openCall : List Token :=
  [⟨.openBrace, "\x7b", ⟨0, 1⟩⟩, .ofName "g", ⟨.openParen, "(", ⟨3, 4⟩⟩, .ofName "x",
    .ofKind .comma, ⟨.openParen, "(", ⟨7, 8⟩⟩, ⟨.intLit, "1", default⟩, .ofKind .plus,
    ⟨.intLit, "2", default⟩, .ofKind .closeParen, .ofKind .semi]

theorem openCall_unmatched :
    Program.ofTokens openCall = .error (.unmatchedDelimiter '(' ⟨3, 4⟩) ∧
      ∃ top below, Token.unclosed? (openCall.take 10) = some (top :: below) ∧
        top.span = ⟨3, 4⟩ := by
  have fails : Program.ofTokens openCall = .error (.unmatchedDelimiter '(' ⟨3, 4⟩) := by
    with_unfolding_all rfl
  have index : ((Reader.ofTokens openCall).after .program).index = 10 := by
    with_unfolding_all rfl
  obtain ⟨_, top, below, unclosed, place, _⟩ := unmatched_is_innermost fails
  rw [index] at unclosed
  exact ⟨fails, top, below, unclosed, place.symm⟩

end Bramble
