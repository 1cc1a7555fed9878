import Bramble.Grammar.Parser
import Bramble.Proofs.Grammar.Advance
import Bramble.Proofs.Grammar.RenderedTokens

/-!
# Reading of renderings

In front of a rendering of a canonical program the parsers advance to the program (`reads_program`).
For an expression the statement has to speak of the point where the expression is complete and its
operators are still to come, because there an expression that is a left operand and one that stands
alone have been read by the same steps. Where the last operand of an expression would take what
follows, the follower is excluded by the edge of the expression.
-/

set_option autoImplicit false

namespace Bramble
namespace Parse

open Grammar

/-! ## Steps of the parsers of expressions -/

theorem starts_expr_ne {e : Expr} (canonical : e.Canonical) {ts : List Token}
    (renders : e.Renders ts) (rest : Cursor) : (rest.push ts).nextKind? ≠ some .closeParen := by
  obtain ⟨t, us, rfl, begins⟩ := Expr.Canonical.starts canonical renders
  rw [Cursor.nextKind?_push_cons]
  intro same
  rw [Option.some_inj.mp same] at begins
  cases begins

section Steps
variable {operand : Nat → Parse Expr} {t : Token} {ts : List Token} {rest : Cursor} {fits : Prop}

theorem Advances.prefixForm {after : Parse Expr} {power : Nat}
    (begins : t.kind.prefixPower? = some power)
    (next : Advances fits (prefixRest operand t power) ts after rest) :
    Advances fits (prefixForm operand) (t :: ts) after rest :=
  next.step [t] (bind_ok (take?_of_some begins))

theorem Advances.infixForm {e lhs : Expr} {min : Nat} (above : min < t.kind.leftPower)
    (next : Advances fits (infixRest operand lhs t t.kind.rightPower) ts (pure e) rest) :
    Advances fits (infixForm? operand min lhs) (t :: ts) (pure (some e)) rest :=
  (next.bind (f := fun e => pure (some e))).step [t]
    (bind_ok (take?_of_some (Token.Kind.infixAbove?_of_lt above)))

/-- An operator above `min` is taken, and the operators after it are still to come. -/
theorem Advances.operator {e lhs : Expr} {min : Nat} (above : min < t.kind.leftPower)
    (next : Advances fits (infixRest operand lhs t t.kind.rightPower) ts (pure e) rest) :
    Advances fits (Parse.iterate (infixForm? operand min) lhs) (t :: ts)
      (Parse.iterate (infixForm? operand min) e) rest :=
  (next.infixForm above).iterate (List.cons_ne_nil t ts)

/-- Without an operator above `min` an expression is complete. -/
theorem Advances.complete {e : Expr} {min : Nat} (stops : rest.Stops min) :
    Advances True (Parse.iterate (infixForm? operand min) e) [] (pure e) rest := by
  have none : infixForm? operand min e rest = .ok none rest :=
    bind_ok (take?_of_none (Cursor.stops_iff.mp stops))
  refine .of_eq ?_
  rw [Cursor.push_nil, Parse.iterate, none]
  rfl

theorem prefixRest_literal {l : Literal} (denotes : t.Denotes l) (power : Nat) :
    prefixRest operand t power = pure (.literal l) := by
  cases denotes with
  | int kind numeral =>
      simp [prefixRest, kind, integer, Text.signed?_eq_some_iff.mpr numeral,
        int64?_eq_some_iff.mpr rfl]
  | str kind quoted =>
      simp [prefixRest, kind, string, unquoted?_eq_some_iff.mpr quoted]
  | isTrue kind => simp [prefixRest, kind]
  | isFalse kind => simp [prefixRest, kind]

theorem prefixForm_name {x : String} (names : t.Names x) :
    Advances True (prefixForm operand) [t] (pure (.name x)) rest :=
  .prefixForm (show t.kind.prefixPower? = some 0 by rw [names.kind]; rfl)
    (.of_eq (by simp [prefixRest, names.kind, names.lexeme]))

theorem prefixRest_group (opens : t.kind = .openParen) (power : Nat) :
    prefixRest operand t power
      = operand power >>= fun inner => close .closeParen t >>= fun _ => pure (.group inner) := by
  simp [prefixRest, opens]

theorem infixRest_call (callee : Expr) (opens : t.kind = .openParen) (power : Nat) :
    infixRest operand callee t power
      = listed (operand power) t >>= fun args => pure (.call callee args) := by
  simp [infixRest, opens]

theorem infixRest_assign {x : String} (assigns : t.kind = .equals) (power : Nat) :
    infixRest operand (.name x) t power = operand power >>= fun v => pure (.assign x v) := by
  simp [infixRest, assigns]

theorem infixRest_binary (lhs : Expr) (binary : t.kind.isBinary = true) (power : Nat) :
    infixRest operand lhs t power = operand power >>= fun rhs => pure (.binary t.kind lhs rhs) := by
  unfold infixRest
  split <;> simp_all [Token.Kind.isBinary]

theorem prefixRest_unary (unary : t.kind.isUnary = true) (power : Nat) :
    prefixRest operand t power = operand power >>= fun arg => pure (.unary t.kind arg) := by
  unfold prefixRest
  split <;> simp_all [Token.Kind.isUnary]

end Steps

/-- An expression is read from its renderings: in front of one, reading comes to the point where
the expression is complete and may be taken for a left operand. -/
def Reads (e : Expr) : Prop :=
  ∀ (room min : Nat) (ts : List Token) (rest : Cursor), e.Renders ts → e.Fits min →
    rest.Stops e.edge → Advances (e.inside ≤ room) (expression (room + 1) min) ts
      (iterate (infixForm? (expression room) min) e) rest

namespace Reads

variable {e : Expr}

/-- A whole expression, with its own level of nesting. -/
theorem whole (reads : Reads e) (canonical : e.Canonical) (room : Nat) {min : Nat}
    {ts : List Token} {rest : Cursor} (renders : e.Renders ts) (fits : e.Fits min)
    (most : min ≤ 13) (stops : rest.Stops min) :
    Advances (e.nesting ≤ room) (expression room min) ts (pure e) rest := by
  cases room with
  | zero =>
      obtain ⟨t, us, rfl, _⟩ := Expr.Canonical.starts canonical renders
      exact Advances.tooDeep.congr (by simp [Expr.nesting])
  | succ room =>
      have edge := stops.mono (fits.le_edge canonical most)
      have both := (reads room min ts (rest.push []) renders fits edge).trans (.complete stops)
      rw [List.append_nil] at both
      exact both.congr (by simp [Expr.nesting])

/-- A whole expression where every operator but the comma may be taken. -/
theorem any (reads : Reads e) (canonical : e.Canonical) (room : Nat) {min : Nat}
    {ts : List Token} {rest : Cursor} (renders : e.Renders ts) (low : min ≤ 2)
    (stops : rest.Stops min) :
    Advances (e.nesting ≤ room) (expression room min) ts (pure e) rest :=
  reads.whole canonical room renders (canonical.fits_of_le_two low) (by omega) stops

/-- A prefix form is followed by its operators. -/
theorem ofPrefix {fits : Prop} {ts : List Token} {rest : Cursor} {room min : Nat}
    (reads : Advances fits (prefixForm (expression room)) ts (pure e) rest) :
    Advances fits (expression (room + 1) min) ts
      (iterate (infixForm? (expression room) min) e) rest :=
  reads.bind (f := iterate (infixForm? (expression room) min))

theorem literal (l : Literal) : Reads (.literal l) := by
  intro room min ts rest renders _ _
  cases renders with
  | literal denotes =>
      have first : Advances True (prefixForm (expression room)) [_] (pure (.literal l)) rest :=
        .prefixForm (denotes.prefixPower?)
          (.of_eq (by rw [prefixRest_literal denotes]; rfl))
      exact (ofPrefix first).congr (by simp [Expr.inside])

theorem name (x : String) : Reads (.name x) := by
  intro room min ts rest renders _ _
  cases renders with
  | name names => exact (ofPrefix (prefixForm_name names)).congr (by simp [Expr.inside])

theorem unary {op : Token.Kind} {arg : Expr} (reads : Reads arg)
    (canonical : (Expr.unary op arg).Canonical) : Reads (.unary op arg) := by
  intro room min ts rest renders _ stops
  obtain ⟨unary, operand, canonicalArg⟩ := canonical
  cases renders with
  | @unary _ _ t us operator renders =>
      subst operator
      have inner := reads.whole canonicalArg room renders operand (Nat.le_refl 13) stops
      refine ofPrefix (.prefixForm (Token.Kind.prefixPower?_of_isUnary unary) ?_)
      rw [prefixRest_unary unary]
      exact inner.bind

theorem group {inner : Expr} (reads : Reads inner) (canonical : inner.Canonical) :
    Reads (.group inner) := by
  intro room min ts rest renders _ _
  cases renders with
  | @group _ opening closing ts opens held closes =>
      have stops : (rest.push [closing]).Stops 0 := Advances.stops_close closes
      have middle := reads.any canonical room held (Nat.zero_le 2) stops
      have begins : opening.kind.prefixPower? = some 0 := by rw [opens]; rfl
      refine ofPrefix (.prefixForm begins ?_)
      rw [prefixRest_group opens]
      refine (middle.andThen (.close closes (.of_eq rfl))).congr ?_
      simp [Expr.inside, Expr.nesting]

theorem binary {op : Token.Kind} {lhs rhs : Expr} (left : Reads lhs) (right : Reads rhs)
    (canonical : (Expr.binary op lhs rhs).Canonical) : Reads (.binary op lhs rhs) := by
  intro room min ts rest renders fits stops
  obtain ⟨binary, tight, fitsRight, canonicalLeft, canonicalRight⟩ := canonical
  cases renders with
  | @binary _ _ _ t us vs leftTokens operator rightTokens =>
      subst operator
      obtain ⟨_, symmetric, low, high⟩ := Token.Kind.powers_of_isBinary binary
      have above : min < t.kind.leftPower := by
        simpa [Expr.Fits, Expr.isPrefixForm, Expr.level] using fits
      -- The operator is too loose for the last operand of `lhs`, so it follows all of `lhs`.
      have first := left room min us (rest.push (t :: vs)) leftTokens
        (.inr (Nat.lt_of_lt_of_le above tight))
        (Cursor.stops_of_next (Cursor.nextKind?_push_cons rest t vs)
          (canonicalLeft.le_edge (by omega) (by omega) tight))
      have second := right.whole canonicalRight room rightTokens fitsRight (by omega) stops
      have operated : Advances (rhs.nesting ≤ room)
          (infixRest (expression room) lhs t t.kind.rightPower) vs
          (pure (.binary t.kind lhs rhs)) rest := by
        rw [infixRest_binary lhs binary]
        exact second.bind
      refine (first.trans (.operator above operated)).congr ?_
      simp only [Expr.inside, Expr.nesting, Nat.max_le]

theorem call {callee : Expr} {args : List Expr} (called : Reads callee)
    (passed : ∀ arg ∈ args, Reads arg) (canonical : (Expr.call callee args).Canonical) :
    Reads (.call callee args) := by
  intro room min ts rest renders fits stops
  obtain ⟨callable, canonicalCallee, canonicalArgs⟩ := canonical
  cases renders with
  | @call _ _ opening closing us vs calleeTokens opens argTokens closes =>
      have low : min < 15 := by simpa [Expr.Fits, Expr.isPrefixForm, Expr.level] using fits
      have above : min < opening.kind.leftPower := by rw [opens]; exact low
      have first := called room min us (rest.push (opening :: (vs ++ [closing]))) calleeTokens
        (Expr.fits_of_isCallee callable low)
        (Expr.edge_of_isCallee callable ▸ Cursor.stops_fifteen _)
      have each := Expr.canonicalAll_iff.mp canonicalArgs
      have second : Advances (∀ arg ∈ args, arg.nesting ≤ room) (listed (expression room 1) opening)
          (vs ++ [closing]) (pure args) rest :=
        .listed argTokens closes
          (fun arg member ts rest renders => starts_expr_ne (each arg member) renders rest)
          (fun arg member ts rest renders stops =>
            (passed arg member).any (each arg member) room renders (by decide) stops)
      have operated : Advances (∀ arg ∈ args, arg.nesting ≤ room)
          (infixRest (expression room) callee opening opening.kind.rightPower)
          (vs ++ [closing]) (pure (.call callee args)) rest := by
        rw [infixRest_call callee opens, opens]
        exact second.bind
      rw [List.append_assoc, List.cons_append]
      refine (first.trans (.operator above operated)).congr ?_
      simp only [Expr.inside, Nat.max_le, Expr.insideAll_le_iff]

theorem assign {x : String} {value : Expr} (reads : Reads value) (canonical : value.Canonical) :
    Reads (.assign x value) := by
  intro room min ts rest renders fits stops
  cases renders with
  | @assign _ _ target equals ts names assigns assigned =>
      have low : min < 3 := by simpa [Expr.Fits, Expr.isPrefixForm, Expr.level] using fits
      have above : min < equals.kind.leftPower := by rw [assigns]; exact low
      have first : Advances True (expression (room + 1) min) [target]
          (iterate (infixForm? (expression room) min) (.name x)) (rest.push (equals :: ts)) :=
        ofPrefix (prefixForm_name names)
      have second := reads.any canonical room assigned (Nat.le_refl 2) stops
      have operated : Advances (value.nesting ≤ room)
          (infixRest (expression room) (.name x) equals equals.kind.rightPower) ts
          (pure (.assign x value)) rest := by
        rw [infixRest_assign assigns, assigns]
        exact second.bind
      refine (first.trans (.operator above operated)).congr ?_
      simp [Expr.inside, Expr.nesting]

end Reads

theorem reads_expr (e : Expr) (canonical : e.Canonical) : Reads e := by
  induction e with
  | literal l => exact .literal l
  | name x => exact .name x
  | unary op arg ih => exact .unary (ih canonical.2.2) canonical
  | binary op lhs rhs left right =>
      exact .binary (left canonical.2.2.2.1) (right canonical.2.2.2.2) canonical
  | group inner ih => exact .group (ih canonical) canonical
  | call callee args called passed =>
      have each := Expr.canonicalAll_iff.mp canonical.2.2
      exact .call (called canonical.2.1) (fun arg member => passed arg member (each arg member))
        canonical
  | assign x value ih => exact .assign (ih canonical) canonical

/-! ## Statements -/

/-- A statement is read from its renderings. What follows must not be another branch. -/
def ReadsStmt (s : Stmt) : Prop :=
  ∀ (room : Nat) (ts : List Token) (rest : Cursor), s.Renders ts →
    rest.nextKind? ≠ some .elseWord →
      Advances (s.nesting ≤ room) (declaration room) ts (pure s) rest

/-- Statements one after the other. -/
theorem Advances.sequence {step : Parse (Option Stmt)} {fit : Stmt → Prop} {body : List Stmt}
    {ts ending : List Token} {rest : Cursor} (canonical : ∀ s ∈ body, s.Canonical)
    (sequenced : Sequenced Stmt.Renders body ts)
    (last : Advances True (Grammar.collect step) ending (pure []) rest)
    (follows : (rest.push ending).nextKind? ≠ some .elseWord)
    (reads : ∀ s ∈ body, ∀ ts rest, s.Renders ts → Cursor.nextKind? rest ≠ some .elseWord →
      Advances (fit s) step ts (pure (some s)) rest) :
    Advances (∀ s ∈ body, fit s) (Grammar.collect step) (ts ++ ending) (pure body) rest := by
  induction body generalizing ts with
  | nil =>
      cases sequenced with
      | none => exact last.congr (by simp)
  | cons s body ih =>
      cases sequenced with
      | @more _ _ ts us first others =>
          have more := ih (fun s member => canonical s (List.mem_cons_of_mem _ member)) others
            fun s member => reads s (List.mem_cons_of_mem _ member)
          obtain ⟨t, vs, rfl, _⟩ := Stmt.Canonical.starts (canonical s List.mem_cons_self) first
          have next : (rest.push (us ++ ending)).nextKind? ≠ some .elseWord := by
            cases others with
            | none => exact follows
            | more second _ =>
                have canonicalSecond := canonical _ (List.mem_cons_of_mem _ List.mem_cons_self)
                obtain ⟨t, vs, rfl, _, other⟩ := Stmt.Canonical.starts canonicalSecond second
                simpa using other
          have one := reads s List.mem_cons_self (t :: vs) (rest.push (us ++ ending)) first next
          rw [List.append_assoc]
          exact (one.collect (List.cons_ne_nil t vs) more).congr List.forall_mem_cons.symm

/-- A block, with its own level of nesting. -/
theorem reads_block {body : List Stmt} (canonical : ∀ s ∈ body, s.Canonical)
    (reads : ∀ s ∈ body, ReadsStmt s) (room : Nat) {ts : List Token} (rest : Cursor)
    (renders : Stmt.RendersBlock body ts) :
    Advances (Stmt.nestingAll body + 1 ≤ room) (inner room).block ts (pure body) rest := by
  cases renders with
  | @mk _ ts opening closing opens held closes =>
      cases room with
      | zero => exact Advances.tooDeep.congr (by simp)
      | succ room =>
          have last : Advances True (collect (inBlock? (declaration room) opening)) [closing]
              (pure []) rest :=
            (Advances.accept closes (.of_eq rfl)).collect_end
          have statements : Advances (∀ s ∈ body, s.nesting ≤ room)
              (collect (inBlock? (declaration room) opening)) (ts ++ [closing]) (pure body)
              rest := by
            refine .sequence canonical held last (by simp [closes]) ?_
            intro s member ts rest renders next
            obtain ⟨t, us, rfl, other, _⟩ := Stmt.Canonical.starts (canonical s member) renders
            refine .refuse (by simpa using other) (.peek ?_)
            exact (reads s member room _ rest renders next).bind
          refine (Advances.expect opens statements).congr ?_
          simp [Stmt.nestingAll_le_iff]

/-- A statement that begins with none of the words of declarations declares nothing. -/
theorem Advances.undeclared {expr : Parse Expr} {inner : Inner Parse} {fits : Prop}
    {ts : List Token} {after : Parse Stmt} {rest : Cursor}
    (noLet : (rest.push ts).nextKind? ≠ some .letWord)
    (noFun : (rest.push ts).nextKind? ≠ some .funWord)
    (next : Advances fits (Grammar.statement expr inner) ts after rest) :
    Advances fits (Grammar.declaration expr inner) ts after rest :=
  .refuse noLet (.refuse noFun next)

/-- A statement that begins with the word of conditionals is read as one. -/
theorem declaration_of_ifWord (room : Nat) {c : Cursor} (next : c.nextKind? = some .ifWord) :
    declaration room c = conditional (expression room 0) (inner room) c := by
  have other {kind : Token.Kind} (differs : kind ≠ .ifWord) : c.nextKind? ≠ some kind := by
    rw [next]
    exact fun same => differs (Option.some_inj.mp same).symm
  have brace := sees_eq .openBrace c
  rw [decide_eq_false (other (by decide))] at brace
  have word := sees_eq .ifWord c
  rw [decide_eq_true next] at word
  calc declaration room c
      = Grammar.statement (expression room 0) (inner room) c :=
        (bind_ok (accept_of_ne (other (by decide)))).trans
          (bind_ok (accept_of_ne (other (by decide))))
    _ = conditional (expression room 0) (inner room) c :=
        (bind_ok (accept_of_ne (other (by decide)))).trans ((bind_ok brace).trans (bind_ok word))

theorem stops_semi {semi : Token} (ends : semi.kind = .semi) (rest : Cursor) (ts : List Token) :
    (rest.push (semi :: ts)).Stops 0 :=
  Cursor.stops_of_next (Cursor.nextKind?_push_cons rest semi ts) (by rw [ends]; decide)

namespace ReadsStmt

theorem letDecl {x : String} {init : Expr} (canonical : init.Canonical) :
    ReadsStmt (.letDecl x init) := by
  intro room ts rest renders _
  cases renders with
  | @letDecl _ _ word target equals semi ts begins names binds initial ends =>
      have value := (reads_expr init canonical).any canonical room initial (Nat.zero_le 2)
        (stops_semi ends rest [])
      refine .accept begins (.name names (.expect binds ?_))
      exact (value.andThen (.expect ends (.of_eq rfl))).congr (by simp [Stmt.nesting])

theorem ret {e : Expr} (canonical : e.Canonical) : ReadsStmt (.ret e) := by
  intro room ts rest renders _
  cases renders with
  | @ret _ word semi ts begins returned ends =>
      have value := (reads_expr e canonical).any canonical room returned (Nat.zero_le 2)
        (stops_semi ends rest [])
      refine .undeclared (by simp [begins]) (by simp [begins]) (.accept begins ?_)
      exact (value.andThen (.expect ends (.of_eq rfl))).congr (by simp [Stmt.nesting])

theorem expr {e : Expr} (canonical : e.Canonical) : ReadsStmt (.expr e) := by
  intro room ts rest renders _
  cases renders with
  | @expr _ semi ts computed ends =>
      have value := (reads_expr e canonical).any canonical room computed (Nat.zero_le 2)
        (stops_semi ends rest [])
      obtain ⟨t, us, rfl, begins⟩ := Expr.Canonical.starts canonical computed
      have other : ∀ kind : Token.Kind, kind.prefixPower? = none →
          (rest.push (t :: us ++ [semi])).nextKind? ≠ some kind := by
        intro kind none same
        rw [List.cons_append, Cursor.nextKind?_push_cons, Option.some_inj] at same
        rw [same, none] at begins
        cases begins
      refine .undeclared (other _ rfl) (other _ rfl) (.refuse (other _ rfl) (.sees ?_))
      rw [decide_eq_false (other _ rfl)]
      refine .sees ?_
      rw [decide_eq_false (other _ rfl)]
      exact (value.andThen (.expect ends (.of_eq rfl))).congr (by simp [Stmt.nesting])

section Bodies

variable {body : List Stmt} (canonical : ∀ s ∈ body, s.Canonical)
  (reads : ∀ s ∈ body, ReadsStmt s)

include canonical reads

theorem funDecl (x : String) (params : List String) : ReadsStmt (.funDecl x params body) := by
  intro room ts rest renders _
  cases renders with
  | @funDecl _ _ _ word target opening closing ts us begins names opens taken closes held =>
      have block := reads_block canonical reads room rest held
      have list : Advances (∀ x ∈ params, True) (listed name opening) (ts ++ [closing])
          (pure params) (rest.push us) := by
        refine .listed taken closes ?_ ?_
        · intro x _ ts rest renders
          cases renders with
          | mk names => simp [names.kind]
        · intro x _ ts rest renders _
          cases renders with
          | mk names => exact .of_eq (name_of_names names)
      have tokens : word :: target :: opening :: ts ++ closing :: us
          = word :: target :: opening :: (ts ++ [closing] ++ us) := by simp
      rw [tokens]
      refine .refuse (by simp [begins]) (.accept begins (.name names (.expect opens ?_)))
      exact (list.andThen block.bind).congr (by simp [Stmt.nesting])

theorem block : ReadsStmt (.block body) := by
  intro room ts rest renders _
  cases renders with
  | block held =>
      have block := reads_block canonical reads room rest held
      cases held with
      | mk opens held closes =>
          refine .undeclared (by simp [opens]) (by simp [opens])
            (.refuse (by simp [opens]) (.sees ?_))
          rw [decide_eq_true (by simp [opens])]
          exact block.bind.congr (by simp [Stmt.nesting])

end Bodies

section Conditionals

variable {cond : Expr} {body : List Stmt} (canonicalCond : cond.Canonical)
  (canonical : ∀ s ∈ body, s.Canonical) (reads : ∀ s ∈ body, ReadsStmt s)

include canonicalCond canonical reads

/-- The beginning that all conditionals share, up to the end of their first block. -/
theorem untilElse {room : Nat} {word : Token} {ts us vs : List Token} {rest : Cursor}
    {fits : Prop} {after : Parse Stmt} (begins : word.kind = .ifWord)
    (tested : cond.Renders ts) (held : Stmt.RendersBlock body us)
    (next : Advances fits (elseBranch (inner room) cond body) vs after rest) :
    Advances (cond.nesting ≤ room ∧ Stmt.nestingAll body + 1 ≤ room ∧ fits) (declaration room)
      (word :: ts ++ us ++ vs) after rest := by
  have block := reads_block canonical reads room (rest.push vs) held
  have stops : ((rest.push vs).push us).Stops 0 := by
    cases held with
    | mk opens _ _ =>
        exact Cursor.stops_of_next (Cursor.nextKind?_push_cons _ _ _) (by rw [opens]; decide)
  have test := (reads_expr cond canonicalCond).any canonicalCond room tested (Nat.zero_le 2) stops
  rw [List.append_assoc, List.cons_append]
  refine .undeclared (by simp [begins]) (by simp [begins]) (.refuse (by simp [begins]) (.sees ?_))
  rw [decide_eq_false (by simp [begins])]
  refine .sees ?_
  rw [decide_eq_true (by simp [begins])]
  rw [Cursor.push_push] at test
  exact .expect begins (test.andThen (block.andThen next))

theorem ifThen : ReadsStmt (.ifThen cond body) := by
  intro room ts rest renders next
  cases renders with
  | ifThen begins tested held =>
      have ending : Advances True (elseBranch (inner room) cond body) []
          (pure (.ifThen cond body)) rest := .refuse next (.of_eq rfl)
      have whole := untilElse canonicalCond canonical reads begins tested held ending
      rw [List.append_nil] at whole
      exact whole.congr (by simp only [Stmt.nesting, Nat.max_le, and_true])

theorem ifElse {other : List Stmt} (canonicalOther : ∀ s ∈ other, s.Canonical)
    (readsOther : ∀ s ∈ other, ReadsStmt s) : ReadsStmt (.ifElse cond body other) := by
  intro room ts rest renders next
  cases renders with
  | @ifElse _ _ _ word otherwise ts us vs begins tested held turns instead =>
      have branch := reads_block canonicalOther readsOther room rest instead
      have ending : Advances (Stmt.nestingAll other + 1 ≤ room)
          (elseBranch (inner room) cond body) (otherwise :: vs)
          (pure (.ifElse cond body other)) rest := by
        refine .accept turns (.sees ?_)
        cases instead with
        | mk opens _ _ =>
            rw [decide_eq_false (by simp [opens])]
            exact branch.bind
      have whole := untilElse canonicalCond canonical reads begins tested held ending
      exact whole.congr (by rw [Stmt.nesting, Nat.max_le, Nat.max_le])
  | @elseIf _ _ chained word otherwise ts us vs begins tested held turns conditional instead =>
      obtain ⟨t, vs, rfl, kind⟩ := Stmt.Renders.starts_conditional conditional instead
      have ending : Advances (chained.nesting + 1 ≤ room)
          (elseBranch (inner room) cond body) (otherwise :: t :: vs)
          (pure (.ifElse cond body [chained])) rest := by
        refine .accept turns (.sees ?_)
        rw [decide_eq_true (by simp [kind])]
        cases room with
        | zero =>
            have missing : Advances False (inner 0).conditional (t :: vs) (pure chained) rest :=
              .tooDeep
            exact missing.bind.congr (by simp)
        | succ room =>
            -- What follows the whole conditional follows the inner one, so no `else` is lost.
            have whole := readsOther chained List.mem_cons_self room (t :: vs) rest instead next
            have branch : Advances (chained.nesting ≤ room) (inner (room + 1)).conditional (t :: vs)
                (pure chained) rest :=
              whole.step [] (declaration_of_ifWord room (by simp [kind])).symm
            exact branch.bind.congr (by simp)
      have whole := untilElse canonicalCond canonical reads begins tested held ending
      refine whole.congr ?_
      rw [Stmt.nesting, Nat.max_le, Nat.max_le, Stmt.nestingAll, Stmt.nestingAll, Nat.max_zero]

end Conditionals

end ReadsStmt

theorem reads_stmt (s : Stmt) (canonical : s.Canonical) : ReadsStmt s := by
  induction s with
  | letDecl x init => exact .letDecl canonical
  | funDecl x params body ih =>
      have each := Stmt.canonicalAll_iff.mp canonical
      exact .funDecl each (fun s member => ih s member (each s member)) x params
  | block body ih =>
      have each := Stmt.canonicalAll_iff.mp canonical
      exact .block each fun s member => ih s member (each s member)
  | ifThen cond body ih =>
      have each := Stmt.canonicalAll_iff.mp canonical.2
      exact .ifThen canonical.1 each fun s member => ih s member (each s member)
  | ifElse cond body other ihBody ihOther =>
      have each := Stmt.canonicalAll_iff.mp canonical.2.1
      have eachOther := Stmt.canonicalAll_iff.mp canonical.2.2
      exact .ifElse canonical.1 each (fun s member => ihBody s member (each s member)) eachOther
        fun s member => ihOther s member (eachOther s member)
  | expr e => exact .expr canonical
  | ret e => exact .ret canonical

/-! ## Programs -/

theorem reads_program {p : Program} (canonical : p.Canonical) {ts : List Token}
    (renders : p.Renders ts) (room : Nat) (stop : Span) :
    Advances (p.nesting ≤ room) (program room) ts (pure p) ⟨[], stop⟩ := by
  have each := Stmt.canonicalAll_iff.mp canonical
  have last : Advances True (collect (inProgram? (declaration room))) [] (pure []) ⟨[], stop⟩ :=
    Advances.collect_end (.of_eq rfl)
  have statements : Advances (∀ s ∈ p, s.nesting ≤ room)
      (collect (inProgram? (declaration room))) (ts ++ []) (pure p) ⟨[], stop⟩ := by
    refine .sequence each renders last (by simp [Cursor.nextKind?]) ?_
    intro s member ts rest renders next
    obtain ⟨t, us, rfl, _⟩ := Stmt.Canonical.starts (each s member) renders
    exact .peek (reads_stmt s (each s member) room _ rest renders next).bind
  rw [List.append_nil] at statements
  exact statements.congr Stmt.nestingAll_le_iff.symm

end Parse
end Bramble
