import Bramble.Proofs.Grammar.Canonical
import Bramble.Proofs.Grammar.Rendering

/-!
# Delimiters

Parentheses and braces are delimiters. The opening ones that are not closed yet form a stack: a
token that opens is put on top of it, and a token that closes takes the top off, which has to be its
own counterpart. What a canonical tree renders is balanced, that is, it leaves the stack as it was
(`Program.Renders.balanced`). So the delimiters that are open somewhere in a program are those of
the trees around that place.
-/

set_option autoImplicit false

namespace Bramble
namespace Token

/-! ## The stack of open delimiters -/

/-- Whether a kind is an opening delimiter. -/
def Kind.isOpening : Kind → Bool
  | .openParen | .openBrace => true
  | _ => false

/-- The opening delimiter that a kind closes. -/
def Kind.closes? : Kind → Option Kind
  | .closeParen => some .openParen
  | .closeBrace => some .openBrace
  | _ => none

/-- Takes an opening delimiter of a kind off a stack. There is no stack left if it is not on top. -/
def pop (opening : Kind) : List Token → Option (List Token)
  | [] => none
  | top :: below => if top.kind = opening then some below else none

/-- The stack of open delimiters behind one more token. -/
def stacked (stack : List Token) (t : Token) : Option (List Token) :=
  match t.kind.closes? with
  | some opening => pop opening stack
  | none => some (if t.kind.isOpening then t :: stack else stack)

/-- The delimiters that some tokens open and do not close, the innermost first. There are none to
speak of if one of the tokens closes what is not open, or not the innermost. -/
def unclosed? (ts : List Token) : Option (List Token) := ts.foldlM stacked []

theorem stacked_opening {t : Token} (opens : t.kind.isOpening = true) (stack : List Token) :
    stacked stack t = some (t :: stack) := by
  have opener : t.kind.closes? = none := by
    revert opens
    cases t.kind <;> decide
  simp [stacked, opener, opens]

theorem stacked_closing {t opening : Token} (closes : t.kind.closes? = some opening.kind)
    (stack : List Token) : stacked (opening :: stack) t = some stack := by
  simp [stacked, closes, pop]

theorem Kind.isOpening_of_closes? {kind opening : Kind} (closes : kind.closes? = some opening) :
    opening.isOpening = true := by
  revert closes
  cases kind <;> rintro ⟨⟩ <;> rfl

/-! ## Balanced tokens -/

/-- Whether a kind opens or closes something. -/
def Kind.isDelimiter (kind : Kind) : Bool := kind.isOpening || kind.closes?.isSome

/-- Tokens in which every delimiter has its counterpart. -/
inductive Balanced : List Token → Prop where
  | empty : Balanced []
  | plain {t : Token} {kind : Kind} {ts : List Token} (same : t.kind = kind)
      (other : kind.isDelimiter = false) (rest : Balanced ts) : Balanced (t :: ts)
  | delimited {opening closing : Token} {ts us : List Token}
      (closes : closing.kind.closes? = some opening.kind) (inside : Balanced ts)
      (rest : Balanced us) : Balanced (opening :: ts ++ closing :: us)

namespace Balanced

variable {ts us : List Token}

theorem append (first : Balanced ts) (second : Balanced us) : Balanced (ts ++ us) := by
  induction first with
  | empty => exact second
  | plain same other _ ih => exact .plain same other ih
  | delimited closes inside _ _ ih =>
      rw [List.append_assoc, List.cons_append]
      exact .delimited closes inside ih

/-- A token of its own behind balanced tokens. -/
theorem concat (first : Balanced ts) {t : Token} {kind : Kind} (same : t.kind = kind)
    (other : kind.isDelimiter = false) : Balanced (ts ++ [t]) :=
  first.append (.plain same other .empty)

/-- Balanced tokens between delimiters. -/
theorem between (inside : Balanced ts) {opening closing : Token} {kind last : Kind}
    (opens : opening.kind = kind) (closes : closing.kind = last)
    (counterpart : last.closes? = some kind) : Balanced (opening :: ts ++ [closing]) :=
  .delimited (by rw [closes, opens, counterpart]) inside .empty

/-- Balanced tokens leave the stack as it was. -/
theorem foldlM_stacked (balanced : Balanced ts) (stack : List Token) :
    ts.foldlM stacked stack = some stack := by
  induction balanced generalizing stack with
  | empty => rfl
  | @plain t kind ts same other _ ih =>
      obtain ⟨opens, closes⟩ : kind.isOpening = false ∧ kind.closes? = none := by
        simpa [Kind.isDelimiter] using other
      have kept : stacked stack t = some stack := by simp [stacked, same, opens, closes]
      simp [List.foldlM_cons, kept, ih]
  | @delimited opening closing ts us closes _ _ inside rest =>
      have opened := stacked_opening (Kind.isOpening_of_closes? closes) stack
      have closed := stacked_closing closes stack
      simp [List.foldlM_cons, List.foldlM_append, opened, inside, closed, rest]

end Balanced

/-- What has become of the stack behind balanced tokens has become of it before each of them. -/
theorem exists_unclosed? {ts us : List Token} (balanced : Balanced (ts ++ us)) :
    ∃ stack, unclosed? ts = some stack := by
  have whole := balanced.foldlM_stacked []
  rw [List.foldlM_append] at whole
  obtain ⟨stack, front, _⟩ := Option.bind_eq_some_iff.mp whole
  exact ⟨stack, front⟩

/-- The innermost open delimiter is the one behind which all is balanced. -/
theorem unclosed?_opening {before inside : List Token} {opening : Token} {stack : List Token}
    (behind : unclosed? (before ++ opening :: inside) = some stack)
    (opens : opening.kind.isOpening = true) (balanced : Balanced inside) :
    ∃ below, stack = opening :: below := by
  unfold unclosed? at behind
  rw [List.foldlM_append] at behind
  obtain ⟨below, _, rest⟩ := Option.bind_eq_some_iff.mp behind
  refine ⟨below, ?_⟩
  simpa [List.foldlM_cons, stacked_opening opens, balanced.foldlM_stacked] using rest.symm

/-! ## Renderings -/

theorem Denotes.isDelimiter {t : Token} {l : Literal} (denotes : t.Denotes l) :
    t.kind.isDelimiter = false := by
  cases denotes with
  | int kind _ | str kind _ | isTrue kind | isFalse kind =>
      rw [kind]
      rfl

theorem Kind.isDelimiter_of_isUnary {op : Kind} (unary : op.isUnary = true) :
    op.isDelimiter = false := by
  revert unary
  cases op <;> decide

theorem Kind.isDelimiter_of_isBinary {op : Kind} (binary : op.isBinary = true) :
    op.isDelimiter = false := by
  revert binary
  cases op <;> decide

section Lists

variable {α : Type} {renders : α → List Token → Prop} {as : List α} {ts : List Token}

theorem balanced_separated (separated : Separated renders as ts)
    (each : ∀ a ∈ as, ∀ ts, renders a ts → Balanced ts) : Balanced ts := by
  induction separated with
  | none => exact .empty
  | one only => exact each _ List.mem_cons_self _ only
  | more first between _ ih =>
      have others := ih fun a member => each a (List.mem_cons_of_mem _ member)
      exact (each _ List.mem_cons_self _ first).append (.plain between rfl others)

theorem balanced_sequenced (sequenced : Sequenced renders as ts)
    (each : ∀ a ∈ as, ∀ ts, renders a ts → Balanced ts) : Balanced ts := by
  induction sequenced with
  | none => exact .empty
  | more first _ ih =>
      have others := ih fun a member => each a (List.mem_cons_of_mem _ member)
      exact (each _ List.mem_cons_self _ first).append others

end Lists

theorem balanced_params {params : List String} {ts : List Token}
    (separated : Separated RendersParam params ts) : Balanced ts :=
  balanced_separated separated fun _ _ _ renders =>
    match renders with
    | .mk names => .plain names.kind rfl .empty

end Token

open Token (Balanced)

theorem Expr.Renders.balanced {e : Expr} {ts : List Token} (renders : e.Renders ts)
    (canonical : e.Canonical) : Balanced ts := by
  induction e generalizing ts with
  | literal l =>
      cases renders with
      | literal denotes => exact .plain rfl denotes.isDelimiter .empty
  | name x =>
      cases renders with
      | name names => exact .plain names.kind rfl .empty
  | unary op arg ih =>
      obtain ⟨unary, _, canonicalArg⟩ := canonical
      cases renders with
      | unary same operand =>
          exact .plain same (Token.Kind.isDelimiter_of_isUnary unary) (ih operand canonicalArg)
  | binary op lhs rhs left right =>
      obtain ⟨binary, _, _, canonicalLeft, canonicalRight⟩ := canonical
      cases renders with
      | binary leftTokens same rightTokens =>
          have other := Token.Kind.isDelimiter_of_isBinary binary
          exact (left leftTokens canonicalLeft).append
            (.plain same other (right rightTokens canonicalRight))
  | group inner ih =>
      cases renders with
      | group opens held closes => exact (ih held canonical).between opens closes rfl
  | call callee args called passed =>
      obtain ⟨_, canonicalCallee, canonicalArgs⟩ := canonical
      have each := Expr.canonicalAll_iff.mp canonicalArgs
      cases renders with
      | call calleeTokens opens argTokens closes =>
          have arguments := Token.balanced_separated argTokens
            fun a member ts renders => passed a member renders (each a member)
          rw [List.append_assoc]
          exact (called calleeTokens canonicalCallee).append (arguments.between opens closes rfl)
  | assign x value ih =>
      cases renders with
      | assign names assigns assigned =>
          exact .plain names.kind rfl (.plain assigns rfl (ih assigned canonical))

theorem Stmt.RendersBlock.balanced {body : List Stmt} {ts : List Token}
    (renders : Stmt.RendersBlock body ts)
    (each : ∀ s ∈ body, ∀ ts, s.Renders ts → Balanced ts) : Balanced ts := by
  cases renders with
  | mk opens held closes => exact (Token.balanced_sequenced held each).between opens closes rfl

theorem Stmt.Renders.balanced {s : Stmt} {ts : List Token} (renders : s.Renders ts)
    (canonical : s.Canonical) : Balanced ts := by
  induction s generalizing ts with
  | letDecl x init =>
      cases renders with
      | letDecl begins names binds initial ends =>
          refine .plain begins rfl (.plain names.kind rfl (.plain binds rfl ?_))
          exact (initial.balanced canonical).concat ends rfl
  | funDecl x params body ih =>
      have each := Stmt.canonicalAll_iff.mp canonical
      cases renders with
      | @funDecl _ _ _ _ _ _ closing _ us begins names opens taken closes held =>
          have held := held.balanced fun s member ts renders => ih s member renders (each s member)
          have taken := (Token.balanced_params taken).between opens closes rfl
          rw [List.append_cons]
          exact .plain begins rfl (.plain names.kind rfl (taken.append held))
  | block body ih =>
      have each := Stmt.canonicalAll_iff.mp canonical
      cases renders with
      | block held =>
          exact held.balanced fun s member ts renders => ih s member renders (each s member)
  | ifThen cond body ih =>
      have each := Stmt.canonicalAll_iff.mp canonical.2
      cases renders with
      | ifThen begins tested held =>
          have held := held.balanced fun s member ts renders => ih s member renders (each s member)
          exact .plain begins rfl ((tested.balanced canonical.1).append held)
  | ifElse cond body other ihBody ihOther =>
      have each := Stmt.canonicalAll_iff.mp canonical.2.1
      have eachOther := Stmt.canonicalAll_iff.mp canonical.2.2
      cases renders with
      | ifElse begins tested held turns instead =>
          have held := held.balanced fun s member ts renders =>
            ihBody s member renders (each s member)
          have instead := instead.balanced fun s member ts renders =>
            ihOther s member renders (eachOther s member)
          refine .plain begins rfl ?_
          exact ((tested.balanced canonical.1).append held).append (.plain turns rfl instead)
      | elseIf begins tested held turns conditional instead =>
          have held := held.balanced fun s member ts renders =>
            ihBody s member renders (each s member)
          have instead := ihOther _ List.mem_cons_self instead (eachOther _ List.mem_cons_self)
          refine .plain begins rfl ?_
          exact ((tested.balanced canonical.1).append held).append (.plain turns rfl instead)
  | expr e =>
      cases renders with
      | expr computed ends => exact (computed.balanced canonical).concat ends rfl
  | ret e =>
      cases renders with
      | ret begins returned ends =>
          exact .plain begins rfl ((returned.balanced canonical).concat ends rfl)

/-- In a rendering of a program every delimiter has its counterpart. -/
theorem Program.Renders.balanced {p : Program} {ts : List Token} (renders : p.Renders ts)
    (canonical : p.Canonical) : Balanced ts :=
  Token.balanced_sequenced renders fun s member _ renders =>
    renders.balanced (Stmt.canonicalAll_iff.mp canonical s member)

end Bramble
