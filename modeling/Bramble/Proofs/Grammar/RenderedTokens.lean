import Bramble.Proofs.Grammar.Canonical
import Bramble.Proofs.Grammar.Rendering
import Mathlib.Data.List.Forall2

/-!
# The tokens of renderings

What is known of the tokens that render a canonical program, without reading them: with which tokens
its parts can begin, and of what kinds they are. A reader decides by the first token what comes
next, so the first tokens are what keeps the forms apart. The literals and the names of the program
stand among the tokens in their order, and every other token is of a kind with a fixed spelling
(`Program.Renders.among`). So the end of the input is not among them (`Token.unended_program`).
-/

set_option autoImplicit false

namespace Bramble

/-! ## First tokens -/

/-- A token of a literal can begin an expression. -/
theorem Token.Denotes.prefixPower? {t : Token} {l : Literal} (denotes : t.Denotes l) :
    t.kind.prefixPower? = some 0 := by
  cases denotes with
  | _ kind => rw [kind]; rfl

/-- An expression begins with a token that can begin one. -/
theorem Expr.Canonical.starts {e : Expr} (canonical : e.Canonical) {ts : List Token}
    (renders : e.Renders ts) : ∃ t us, ts = t :: us ∧ t.kind.prefixPower?.isSome = true := by
  induction e generalizing ts with
  | literal l =>
      cases renders with
      | literal denotes =>
          exact ⟨_, _, rfl, by rw [denotes.prefixPower?]; rfl⟩
  | name x =>
      cases renders with
      | name names => exact ⟨_, _, rfl, by rw [names.kind]; rfl⟩
  | unary op arg _ =>
      cases renders with
      | unary operator _ =>
          refine ⟨_, _, rfl, ?_⟩
          rw [operator, Token.Kind.prefixPower?_of_isUnary canonical.1]
          rfl
  | binary op lhs rhs ih _ =>
      cases renders with
      | binary left operator right =>
          obtain ⟨t, us, rfl, begins⟩ := ih canonical.2.2.2.1 left
          exact ⟨t, _, rfl, begins⟩
  | group inner ih =>
      cases renders with
      | group opens _ _ => exact ⟨_, _, rfl, by rw [opens]; rfl⟩
  | call callee args ih _ =>
      cases renders with
      | call called _ _ _ =>
          obtain ⟨t, us, rfl, begins⟩ := ih canonical.2.1 called
          exact ⟨t, _, rfl, begins⟩
  | assign x value _ =>
      cases renders with
      | assign names _ _ => exact ⟨_, _, rfl, by rw [names.kind]; rfl⟩

/-- A statement begins with a token that neither closes a block nor turns to another branch. -/
theorem Stmt.Canonical.starts {s : Stmt} (canonical : s.Canonical) {ts : List Token}
    (renders : s.Renders ts) :
    ∃ t us, ts = t :: us ∧ t.kind ≠ .closeBrace ∧ t.kind ≠ .elseWord := by
  cases renders with
  | letDecl begins _ _ _ _ => exact ⟨_, _, rfl, by rw [begins]; decide, by rw [begins]; decide⟩
  | funDecl begins _ _ _ _ _ => exact ⟨_, _, rfl, by rw [begins]; decide, by rw [begins]; decide⟩
  | block held =>
      cases held with
      | mk opens _ _ => exact ⟨_, _, rfl, by rw [opens]; decide, by rw [opens]; decide⟩
  | ifThen begins _ _ => exact ⟨_, _, rfl, by rw [begins]; decide, by rw [begins]; decide⟩
  | ifElse begins _ _ _ _ => exact ⟨_, _, rfl, by rw [begins]; decide, by rw [begins]; decide⟩
  | elseIf begins _ _ _ _ _ => exact ⟨_, _, rfl, by rw [begins]; decide, by rw [begins]; decide⟩
  | expr computed _ =>
      obtain ⟨t, us, rfl, begins⟩ := Expr.Canonical.starts canonical computed
      refine ⟨t, _, rfl, ?_, ?_⟩ <;> intro same <;> rw [same] at begins <;> cases begins
  | ret begins _ _ => exact ⟨_, _, rfl, by rw [begins]; decide, by rw [begins]; decide⟩

/-- A conditional begins with its word. -/
theorem Stmt.Renders.starts_conditional {s : Stmt} (conditional : s.isConditional = true)
    {ts : List Token} (renders : s.Renders ts) : ∃ t us, ts = t :: us ∧ t.kind = .ifWord := by
  cases renders with
  | ifThen begins _ _ => exact ⟨_, _, rfl, begins⟩
  | ifElse begins _ _ _ _ => exact ⟨_, _, rfl, begins⟩
  | elseIf begins _ _ _ _ _ => exact ⟨_, _, rfl, begins⟩
  | _ => cases conditional

/-! ## Literals and names -/

/-- The parts of a program that have texts of their own. -/
inductive Leaf where
  | literal (l : Literal)
  | name (x : String)
deriving DecidableEq, Repr

/-- A token that stands for a literal or for a name. -/
def Token.StandsFor (t : Token) : Leaf → Prop
  | .literal l => t.Denotes l
  | .name x => t.Names x

mutual

/-- The literals and names of an expression, in the order of the text. -/
def Expr.leaves : Expr → List Leaf
  | .literal l => [.literal l]
  | .name x => [.name x]
  | .unary _ arg => arg.leaves
  | .binary _ lhs rhs => lhs.leaves ++ rhs.leaves
  | .group inner => inner.leaves
  | .call callee args => callee.leaves ++ Expr.leavesAll args
  | .assign x value => .name x :: value.leaves

/-- The literals and names of expressions. -/
def Expr.leavesAll : List Expr → List Leaf
  | [] => []
  | e :: es => e.leaves ++ Expr.leavesAll es

end

mutual

/-- The literals and names of a statement, in the order of the text. -/
def Stmt.leaves : Stmt → List Leaf
  | .letDecl x init => .name x :: init.leaves
  | .funDecl x params body => .name x :: (params.map Leaf.name ++ Stmt.leavesAll body)
  | .block body => Stmt.leavesAll body
  | .ifThen cond body => cond.leaves ++ Stmt.leavesAll body
  | .ifElse cond body other => cond.leaves ++ Stmt.leavesAll body ++ Stmt.leavesAll other
  | .expr e => e.leaves
  | .ret e => e.leaves

/-- The literals and names of statements. -/
def Stmt.leavesAll : List Stmt → List Leaf
  | [] => []
  | s :: ss => s.leaves ++ Stmt.leavesAll ss

end

/-- The literals and names of a program, in the order of the text. -/
def Program.leaves (program : Program) : List Leaf := Stmt.leavesAll program

theorem Expr.leavesAll_eq_flatMap (es : List Expr) : Expr.leavesAll es = es.flatMap leaves := by
  induction es with
  | nil => rfl
  | cons e es ih => rw [Expr.leavesAll, ih, List.flatMap_cons]

theorem Stmt.leavesAll_eq_flatMap (ss : List Stmt) : Stmt.leavesAll ss = ss.flatMap leaves := by
  induction ss with
  | nil => rfl
  | cons s ss ih => rw [Stmt.leavesAll, ih, List.flatMap_cons]

/-- Whether a kind has only one spelling. -/
def Token.Kind.isFixed (kind : Token.Kind) : Bool := kind.spelling?.isSome

theorem Token.Kind.isFixed_of_isUnary {op : Token.Kind} (unary : op.isUnary = true) :
    op.isFixed = true := by
  revert unary
  cases op <;> decide

theorem Token.Kind.isFixed_of_isBinary {op : Token.Kind} (binary : op.isBinary = true) :
    op.isFixed = true := by
  revert binary
  cases op <;> decide

/-- The tokens that stand for literals and names, in their order, and between them tokens of kinds
with a fixed spelling. -/
inductive Leaf.Among : List Leaf → List Token → Prop where
  | none : Among [] []
  | leaf {leaf : Leaf} {leaves : List Leaf} {t : Token} {ts : List Token}
      (stands : t.StandsFor leaf) (more : Among leaves ts) : Among (leaf :: leaves) (t :: ts)
  | fixed {leaves : List Leaf} {t : Token} {ts : List Token} {kind : Token.Kind}
      (same : t.kind = kind) (fixed : kind.isFixed = true) (more : Among leaves ts) :
      Among leaves (t :: ts)

namespace Leaf

variable {leaves more : List Leaf} {ts us : List Token}

theorem Among.append (first : Among leaves ts) (second : Among more us) :
    Among (leaves ++ more) (ts ++ us) := by
  induction first with
  | none => exact second
  | leaf stands _ ih => exact .leaf stands ih
  | fixed same fixed _ ih => exact .fixed same fixed ih

/-- A token of a fixed spelling at the end. -/
theorem Among.close (first : Among leaves ts) {t : Token} {kind : Token.Kind}
    (same : t.kind = kind) (fixed : kind.isFixed = true) : Among leaves (ts ++ [t]) := by
  have both := first.append (.fixed same fixed .none)
  rwa [List.append_nil] at both

theorem Among.exists_token (among : Among leaves ts) {leaf : Leaf} (member : leaf ∈ leaves) :
    ∃ t ∈ ts, t.StandsFor leaf := by
  induction among with
  | none => cases member
  | leaf stands _ ih =>
      rcases List.mem_cons.mp member with rfl | member
      · exact ⟨_, List.mem_cons_self, stands⟩
      · obtain ⟨t, inside, stands⟩ := ih member
        exact ⟨t, List.mem_cons_of_mem _ inside, stands⟩
  | fixed _ _ _ ih =>
      obtain ⟨t, inside, stands⟩ := ih member
      exact ⟨t, List.mem_cons_of_mem _ inside, stands⟩

theorem Among.token_cases (among : Among leaves ts) {t : Token} (member : t ∈ ts) :
    (∃ leaf ∈ leaves, t.StandsFor leaf) ∨ t.kind.isFixed = true := by
  induction among with
  | none => cases member
  | leaf stands _ ih =>
      rcases List.mem_cons.mp member with rfl | member
      · exact .inl ⟨_, List.mem_cons_self, stands⟩
      · refine (ih member).imp_left fun ⟨own, inside, stands⟩ => ?_
        exact ⟨own, List.mem_cons_of_mem _ inside, stands⟩
  | fixed same fixed _ ih =>
      rcases List.mem_cons.mp member with rfl | member
      · exact .inr (same ▸ fixed)
      · exact ih member

theorem among_separated {α : Type} {renders : α → List Token → Prop} {as : List α}
    {own : α → List Leaf} (separated : Separated renders as ts)
    (each : ∀ a ∈ as, ∀ ts, renders a ts → Among (own a) ts) : Among (as.flatMap own) ts := by
  induction separated with
  | none => exact .none
  | one only =>
      rw [List.flatMap_singleton]
      exact each _ List.mem_cons_self _ only
  | more first between others ih =>
      have head := each _ List.mem_cons_self _ first
      have tail := ih fun a member => each a (List.mem_cons_of_mem _ member)
      exact head.append (.fixed between rfl tail)

theorem among_sequenced {α : Type} {renders : α → List Token → Prop} {as : List α}
    {own : α → List Leaf} (sequenced : Sequenced renders as ts)
    (each : ∀ a ∈ as, ∀ ts, renders a ts → Among (own a) ts) : Among (as.flatMap own) ts := by
  induction sequenced with
  | none => exact .none
  | more first others ih =>
      have head := each _ List.mem_cons_self _ first
      have tail := ih fun a member => each a (List.mem_cons_of_mem _ member)
      exact head.append tail

end Leaf

theorem Expr.Renders.among (e : Expr) (canonical : e.Canonical) {ts : List Token}
    (renders : e.Renders ts) : Leaf.Among e.leaves ts := by
  induction e generalizing ts with
  | literal l =>
      cases renders with
      | literal denotes => exact .leaf denotes .none
  | name x =>
      cases renders with
      | name names => exact .leaf names .none
  | unary op arg ih =>
      obtain ⟨unary, _, canonicalArg⟩ := canonical
      cases renders with
      | unary same operand =>
          exact .fixed same (Token.Kind.isFixed_of_isUnary unary) (ih canonicalArg operand)
  | binary op lhs rhs left right =>
      obtain ⟨binary, _, _, canonicalLeft, canonicalRight⟩ := canonical
      cases renders with
      | binary leftTokens same rightTokens =>
          have fixed := Token.Kind.isFixed_of_isBinary binary
          exact (left canonicalLeft leftTokens).append
            (.fixed same fixed (right canonicalRight rightTokens))
  | group inner ih =>
      cases renders with
      | group opens held closes =>
          have held := (ih canonical held).close closes rfl
          exact .fixed opens rfl held
  | call callee args called passed =>
      obtain ⟨_, canonicalCallee, canonicalArgs⟩ := canonical
      have each := Expr.canonicalAll_iff.mp canonicalArgs
      cases renders with
      | call calleeTokens opens argTokens closes =>
          have arguments := Leaf.among_separated argTokens
            fun a member ts renders => passed a member (each a member) renders
          rw [Expr.leaves, Expr.leavesAll_eq_flatMap]
          refine Leaf.Among.close ?_ closes rfl
          exact (called canonicalCallee calleeTokens).append
            (.fixed opens rfl arguments)
  | assign x value ih =>
      cases renders with
      | assign names assigns assigned =>
          exact .leaf names (.fixed assigns rfl (ih canonical assigned))

theorem Stmt.RendersBlock.among {body : List Stmt}
    (each : ∀ s ∈ body, ∀ ts, s.Renders ts → Leaf.Among s.leaves ts) {ts : List Token}
    (renders : Stmt.RendersBlock body ts) : Leaf.Among (Stmt.leavesAll body) ts := by
  cases renders with
  | mk opens held closes =>
      have held := (Leaf.among_sequenced held each).close closes rfl
      rw [Stmt.leavesAll_eq_flatMap]
      exact .fixed opens rfl held

theorem Stmt.Renders.among (s : Stmt) (canonical : s.Canonical) {ts : List Token}
    (renders : s.Renders ts) : Leaf.Among s.leaves ts := by
  induction s generalizing ts with
  | letDecl x init =>
      cases renders with
      | letDecl begins names binds initial ends =>
          have initial := (initial.among init canonical).close ends rfl
          exact .fixed begins rfl
            (.leaf names (.fixed binds rfl initial))
  | funDecl x params body ih =>
      have each := Stmt.canonicalAll_iff.mp canonical
      cases renders with
      | funDecl begins names opens taken closes held =>
          have taken : Leaf.Among (params.flatMap fun x => [Leaf.name x]) _ :=
            Leaf.among_separated taken fun x _ ts renders => by
              cases renders with
              | mk names => exact .leaf names .none
          rw [← List.map_eq_flatMap] at taken
          have held := held.among fun s member ts => ih s member (each s member)
          exact .fixed begins rfl (.leaf names (.fixed opens rfl
            (taken.append (.fixed closes rfl held))))
  | block body ih =>
      have each := Stmt.canonicalAll_iff.mp canonical
      cases renders with
      | block held => exact held.among fun s member ts => ih s member (each s member)
  | ifThen cond body ih =>
      have each := Stmt.canonicalAll_iff.mp canonical.2
      cases renders with
      | ifThen begins tested held =>
          have held := held.among fun s member ts => ih s member (each s member)
          exact .fixed begins rfl ((tested.among cond canonical.1).append held)
  | ifElse cond body other ihBody ihOther =>
      have each := Stmt.canonicalAll_iff.mp canonical.2.1
      have eachOther := Stmt.canonicalAll_iff.mp canonical.2.2
      cases renders with
      | ifElse begins tested held turns instead =>
          have held := held.among fun s member ts => ihBody s member (each s member)
          have instead := instead.among fun s member ts => ihOther s member (eachOther s member)
          refine .fixed begins rfl ?_
          exact ((tested.among cond canonical.1).append held).append
            (.fixed turns rfl instead)
      | elseIf begins tested held turns conditional instead =>
          have held := held.among fun s member ts => ihBody s member (each s member)
          have instead := ihOther _ List.mem_cons_self (eachOther _ List.mem_cons_self) instead
          rw [Stmt.leaves, Stmt.leavesAll_eq_flatMap [_], List.flatMap_singleton]
          refine .fixed begins rfl ?_
          exact ((tested.among cond canonical.1).append held).append
            (.fixed turns rfl instead)
  | expr e =>
      cases renders with
      | expr computed ends => exact (computed.among e canonical).close ends rfl
  | ret e =>
      cases renders with
      | ret begins returned ends =>
          have returned := (returned.among e canonical).close ends rfl
          exact .fixed begins rfl returned

/-- The literals and the names of a program stand among its tokens. -/
theorem Program.Renders.among {p : Program} (canonical : p.Canonical) {ts : List Token}
    (renders : p.Renders ts) : Leaf.Among p.leaves ts := by
  rw [Program.leaves, Stmt.leavesAll_eq_flatMap]
  exact Leaf.among_sequenced renders fun s member _ renders =>
    Stmt.Renders.among s (Stmt.canonicalAll_iff.mp canonical s member) renders

/-! ## No end of input -/

/-- No token is the end of the input. -/
def Token.Unended (ts : List Token) : Prop := ∀ t ∈ ts, t.kind ≠ .eof

@[simp]
theorem Token.unended_nil : Token.Unended [] := by simp [Token.Unended]

@[simp]
theorem Token.unended_cons {t : Token} {ts : List Token} :
    Token.Unended (t :: ts) ↔ t.kind ≠ .eof ∧ Token.Unended ts := by
  simp [Token.Unended]

@[simp]
theorem Token.unended_append {ts us : List Token} :
    Token.Unended (ts ++ us) ↔ Token.Unended ts ∧ Token.Unended us :=
  List.forall_mem_append

theorem Token.StandsFor.kind_ne_eof {t : Token} {leaf : Leaf} (stands : t.StandsFor leaf) :
    t.kind ≠ .eof := by
  intro same
  cases leaf with
  | literal l =>
      have kind := Token.Denotes.prefixPower? stands
      rw [same] at kind
      cases kind
  | name x => cases same.symm.trans (Token.Names.kind stands)

theorem Token.unended_program {p : Program} (canonical : p.Canonical) {ts : List Token}
    (renders : p.Renders ts) : Token.Unended ts := by
  intro t member
  rcases (renders.among canonical).token_cases member with ⟨leaf, _, stands⟩ | fixed
  · exact stands.kind_ne_eof
  · intro same
    rw [same] at fixed
    cases fixed

/-! ## Places -/

/-- Tokens that differ in their places only. -/
structure Token.Alike (t t' : Token) : Prop where
  kind : t'.kind = t.kind
  lexeme : t'.lexeme = t.lexeme

/-- Lists of tokens that differ in their places only. -/
abbrev Token.AlikeAll : List Token → List Token → Prop := List.Forall₂ Token.Alike

theorem Token.AlikeAll.split {ts us vs : List Token} (alike : AlikeAll (ts ++ us) vs) :
    ∃ ts' us', vs = ts' ++ us' ∧ AlikeAll ts ts' ∧ AlikeAll us us' := by
  induction ts generalizing vs with
  | nil => exact ⟨[], vs, rfl, .nil, alike⟩
  | cons t ts ih =>
      cases alike with
      | cons same others =>
          obtain ⟨ts', us', rfl, first, second⟩ := ih others
          exact ⟨_ :: ts', us', rfl, .cons same first, second⟩

/-- What holds of the kinds of tokens holds of them at all other places. -/
theorem Token.AlikeAll.forall_kind {P : Token.Kind → Prop} {ts us : List Token}
    (alike : AlikeAll ts us) (each : ∀ t ∈ ts, P t.kind) : ∀ u ∈ us, P u.kind := by
  induction alike with
  | nil => exact each
  | cons same _ ih =>
      obtain ⟨first, others⟩ := List.forall_mem_cons.mp each
      exact List.forall_mem_cons.mpr ⟨same.kind ▸ first, ih others⟩

theorem Token.AlikeAll.unended {ts us : List Token} (alike : AlikeAll ts us)
    (unended : Token.Unended ts) : Token.Unended us :=
  alike.forall_kind (P := (· ≠ .eof)) unended

end Bramble
