import Bramble.Proofs.Grammar.RenderedTokens

/-!
# Programs written out

A program is written out by writing its tokens in the order of the text: integers as decimal
numerals, texts between quotation marks, and all kinds with a fixed spelling as they are spelled.
Parentheses are written around groups and arguments only. The other branch of a conditional is
always written between braces.

What is written renders the program, so every program has a rendering (`Program.renders_tokens`).
The tokens have their usual spellings if the program is canonical (`Program.allSpelled_tokens`).
There are other renderings in usual spellings, because a conditional may also follow `else`
directly.
-/

set_option autoImplicit false

namespace Bramble

/-! ## Tokens -/

/-- The token of a kind with a fixed spelling. -/
def Token.ofSpelling (kind : Token.Kind) : Token := ⟨kind, kind.spelling?.getD "", default⟩

/-- The token of a literal. -/
def Literal.token : Literal → Token
  | .int n => ⟨.intLit, toString n.toInt, default⟩
  | .str s => ⟨.stringLit, "\"" ++ s ++ "\"", default⟩
  | .bool true => .ofSpelling .trueWord
  | .bool false => .ofSpelling .falseWord

/-- Tokens of several items, with a comma between any two of them. -/
def Token.separate : List (List Token) → List Token
  | [] => []
  | [ts] => ts
  | ts :: us :: more => ts ++ .ofSpelling .comma :: Token.separate (us :: more)

/-- Tokens between braces. -/
def Token.inBraces (ts : List Token) : List Token :=
  .ofSpelling .openBrace :: ts ++ [.ofSpelling .closeBrace]

/-! ## Programs -/

mutual

/-- The tokens of an expression. -/
def Expr.tokens : Expr → List Token
  | .literal l => [l.token]
  | .name x => [.ofName x]
  | .unary op arg => .ofSpelling op :: arg.tokens
  | .binary op lhs rhs => lhs.tokens ++ .ofSpelling op :: rhs.tokens
  | .group inner => .ofSpelling .openParen :: inner.tokens ++ [.ofSpelling .closeParen]
  | .call callee args =>
      callee.tokens ++ .ofSpelling .openParen :: Token.separate (Expr.tokensAll args)
        ++ [.ofSpelling .closeParen]
  | .assign x value => .ofName x :: .ofSpelling .equals :: value.tokens

/-- The tokens of each of some expressions. -/
def Expr.tokensAll : List Expr → List (List Token)
  | [] => []
  | e :: es => e.tokens :: Expr.tokensAll es

end

mutual

/-- The tokens of a statement. -/
def Stmt.tokens : Stmt → List Token
  | .letDecl x init =>
      .ofSpelling .letWord :: .ofName x :: .ofSpelling .equals :: init.tokens
        ++ [.ofSpelling .semi]
  | .funDecl x params body =>
      .ofSpelling .funWord :: .ofName x :: .ofSpelling .openParen
        :: Token.separate (params.map fun x => [.ofName x])
        ++ .ofSpelling .closeParen :: Token.inBraces (Stmt.tokensAll body)
  | .block body => Token.inBraces (Stmt.tokensAll body)
  | .ifThen cond body =>
      .ofSpelling .ifWord :: cond.tokens ++ Token.inBraces (Stmt.tokensAll body)
  | .ifElse cond body other =>
      .ofSpelling .ifWord :: cond.tokens ++ Token.inBraces (Stmt.tokensAll body)
        ++ .ofSpelling .elseWord :: Token.inBraces (Stmt.tokensAll other)
  | .expr e => e.tokens ++ [.ofSpelling .semi]
  | .ret e => .ofSpelling .returnWord :: e.tokens ++ [.ofSpelling .semi]

/-- The tokens of statements one after the other. -/
def Stmt.tokensAll : List Stmt → List Token
  | [] => []
  | s :: ss => s.tokens ++ Stmt.tokensAll ss

end

/-- The tokens of a program. -/
def Program.tokens (program : Program) : List Token := Stmt.tokensAll program

/-! ## What is written renders the program -/

/-- A number that is not negative is written without a sign. -/
theorem Text.toList_toString_ofNat (n : Nat) :
    (toString (Int.ofNat n)).toList = Nat.toDigits 10 n :=
  String.toList_ofList

/-- An integer is written as a numeral. -/
theorem Text.numeral_toString (n : Int) : Numeral (toString n).toList n := by
  cases n with
  | ofNat n =>
      have numeral := Numeral.plain (isDigits_toDigits n)
      rw [digitsValue_toDigits] at numeral
      rwa [toList_toString_ofNat]
  | negSucc n =>
      have digits : (toString (Int.negSucc n)).toList = '-' :: Nat.toDigits 10 (n + 1) := by
        show ("-" ++ Nat.repr (n + 1)).toList = _
        rw [String.toList_append]
        exact congrArg ('-' :: ·) String.toList_ofList
      have numeral := Numeral.minus (isDigits_toDigits (n + 1))
      rw [digitsValue_toDigits] at numeral
      rwa [digits]

theorem Literal.token_denotes (l : Literal) : l.token.Denotes l := by
  cases l with
  | int n => exact .int rfl (Text.numeral_toString n.toInt)
  | str s => exact .str rfl rfl
  | bool b =>
      cases b with
      | true => exact .isTrue rfl
      | false => exact .isFalse rfl

theorem Separated.separate {α : Type} {renders : α → List Token → Prop} {own : α → List Token}
    {as : List α} (each : ∀ a ∈ as, renders a (own a)) :
    Separated renders as (Token.separate (as.map own)) := by
  induction as with
  | nil => exact .none
  | cons a as ih =>
      have first := each a List.mem_cons_self
      cases as with
      | nil => exact .one first
      | cons b as =>
          have others := ih fun a member => each a (List.mem_cons_of_mem _ member)
          exact .more first rfl others

theorem Sequenced.flatMap {α : Type} {renders : α → List Token → Prop} {own : α → List Token}
    {as : List α} (each : ∀ a ∈ as, renders a (own a)) :
    Sequenced renders as (as.flatMap own) := by
  induction as with
  | nil => exact .none
  | cons a as ih =>
      exact .more (each a List.mem_cons_self)
        (ih fun a member => each a (List.mem_cons_of_mem _ member))

theorem Expr.tokensAll_eq_map (es : List Expr) : Expr.tokensAll es = es.map tokens := by
  induction es with
  | nil => rfl
  | cons e es ih => rw [Expr.tokensAll, ih, List.map_cons]

theorem Stmt.tokensAll_eq_flatMap (ss : List Stmt) : Stmt.tokensAll ss = ss.flatMap tokens := by
  induction ss with
  | nil => rfl
  | cons s ss ih => rw [Stmt.tokensAll, ih, List.flatMap_cons]

theorem Expr.renders_tokens (e : Expr) : e.Renders e.tokens := by
  induction e with
  | literal l => exact .literal l.token_denotes
  | name x => exact .name (Token.ofName_names x)
  | unary op arg ih => exact .unary rfl ih
  | binary op lhs rhs left right => exact .binary left rfl right
  | group inner ih => exact .group rfl ih rfl
  | call callee args called passed =>
      rw [tokens, tokensAll_eq_map]
      exact .call called rfl (.separate passed) rfl
  | assign x value ih => exact .assign (Token.ofName_names x) rfl ih

theorem Stmt.rendersBlock_inBraces {body : List Stmt} (each : ∀ s ∈ body, s.Renders s.tokens) :
    Stmt.RendersBlock body (Token.inBraces (Stmt.tokensAll body)) := by
  rw [tokensAll_eq_flatMap]
  exact .mk rfl (.flatMap each) rfl

theorem Stmt.renders_tokens (s : Stmt) : s.Renders s.tokens := by
  induction s with
  | letDecl x init => exact .letDecl rfl (Token.ofName_names x) rfl init.renders_tokens rfl
  | funDecl x params body ih =>
      have taken : Separated RendersParam params
          (Token.separate (params.map fun x => [.ofName x])) :=
        .separate fun x _ => .mk (Token.ofName_names x)
      exact .funDecl rfl (Token.ofName_names x) rfl taken rfl (rendersBlock_inBraces ih)
  | block body ih => exact .block (rendersBlock_inBraces ih)
  | ifThen cond body ih => exact .ifThen rfl cond.renders_tokens (rendersBlock_inBraces ih)
  | ifElse cond body other ihBody ihOther =>
      exact .ifElse rfl cond.renders_tokens (rendersBlock_inBraces ihBody) rfl
        (rendersBlock_inBraces ihOther)
  | expr e => exact .expr e.renders_tokens rfl
  | ret e => exact .ret rfl e.renders_tokens rfl

theorem Program.renders_tokens (p : Program) : p.Renders p.tokens := by
  rw [tokens, Stmt.tokensAll_eq_flatMap]
  exact Sequenced.flatMap fun s _ => s.renders_tokens

theorem Program.exists_renders (p : Program) : ∃ ts, p.Renders ts := ⟨_, p.renders_tokens⟩

/-! ## The usual spellings -/

/-- A token is spelled as usual: with the spelling of its kind, if there is only one, and as the
decimal numeral of a number, if it is an integer. -/
structure Token.Spelled (t : Token) : Prop where
  fixed : ∀ spelling, t.kind.spelling? = some spelling → t.lexeme = spelling
  decimal : t.kind = .intLit → ∃ n : Int, t.lexeme = toString n

/-- All tokens are spelled as usual. -/
def Token.AllSpelled (ts : List Token) : Prop := ∀ t ∈ ts, t.Spelled

theorem Token.spelled_ofSpelling {kind : Token.Kind} (fixed : kind.isFixed = true) :
    (Token.ofSpelling kind).Spelled where
  fixed spelling same := by
    show kind.spelling?.getD "" = spelling
    rw [show kind.spelling? = some spelling from same]
    rfl
  decimal same := by
    have integer : kind = .intLit := same
    rw [integer] at fixed
    cases fixed

theorem Token.spelled_ofName (x : String) : (Token.ofName x).Spelled := ⟨nofun, nofun⟩

theorem Literal.token_spelled (l : Literal) : l.token.Spelled := by
  cases l with
  | int n => exact ⟨nofun, fun _ => ⟨n.toInt, rfl⟩⟩
  | str s => exact ⟨nofun, nofun⟩
  | bool b => cases b <;> exact Token.spelled_ofSpelling rfl

namespace Token

variable {t : Token} {ts us : List Token}

theorem AllSpelled.nil : AllSpelled [] := nofun

theorem AllSpelled.cons (first : t.Spelled) (others : AllSpelled ts) : AllSpelled (t :: ts) :=
  List.forall_mem_cons.mpr ⟨first, others⟩

theorem AllSpelled.append (first : AllSpelled ts) (second : AllSpelled us) :
    AllSpelled (ts ++ us) :=
  List.forall_mem_append.mpr ⟨first, second⟩

/-- A kind with a fixed spelling in front of tokens. -/
theorem AllSpelled.after (others : AllSpelled ts) (kind : Kind) (fixed : kind.isFixed = true) :
    AllSpelled (.ofSpelling kind :: ts) :=
  .cons (spelled_ofSpelling fixed) others

/-- A kind with a fixed spelling behind tokens. -/
theorem AllSpelled.before (first : AllSpelled ts) (kind : Kind) (fixed : kind.isFixed = true) :
    AllSpelled (ts ++ [.ofSpelling kind]) :=
  first.append (AllSpelled.nil.after kind fixed)

theorem AllSpelled.separate {tss : List (List Token)} (each : ∀ ts ∈ tss, AllSpelled ts) :
    AllSpelled (separate tss) := by
  induction tss with
  | nil => exact .nil
  | cons ts tss ih =>
      have first := each ts List.mem_cons_self
      cases tss with
      | nil => exact first
      | cons us tss =>
          have others := ih fun ts member => each ts (List.mem_cons_of_mem _ member)
          exact first.append (others.after .comma rfl)

theorem AllSpelled.inBraces (held : AllSpelled ts) : AllSpelled (inBraces ts) :=
  (held.after .openBrace rfl).before .closeBrace rfl

end Token

theorem Expr.allSpelled_tokens (e : Expr) (canonical : e.Canonical) :
    Token.AllSpelled e.tokens := by
  induction e with
  | literal l => exact .cons l.token_spelled .nil
  | name x => exact .cons (Token.spelled_ofName x) .nil
  | unary op arg ih =>
      obtain ⟨unary, _, canonicalArg⟩ := canonical
      exact (ih canonicalArg).after op (Token.Kind.isFixed_of_isUnary unary)
  | binary op lhs rhs left right =>
      obtain ⟨binary, _, _, canonicalLeft, canonicalRight⟩ := canonical
      have operator := (right canonicalRight).after op (Token.Kind.isFixed_of_isBinary binary)
      exact (left canonicalLeft).append operator
  | group inner ih => exact ((ih canonical).after .openParen rfl).before .closeParen rfl
  | call callee args called passed =>
      obtain ⟨_, canonicalCallee, canonicalArgs⟩ := canonical
      have each := Expr.canonicalAll_iff.mp canonicalArgs
      have arguments : Token.AllSpelled (Token.separate (args.map tokens)) :=
        .separate <| List.forall_mem_map.mpr fun a member => passed a member (each a member)
      rw [tokens, tokensAll_eq_map]
      have passed := arguments.after .openParen rfl
      exact ((called canonicalCallee).append passed).before .closeParen rfl
  | assign x value ih => exact .cons (Token.spelled_ofName x) ((ih canonical).after .equals rfl)

theorem Stmt.allSpelled_tokensAll {ss : List Stmt} (canonical : Stmt.CanonicalAll ss)
    (each : ∀ s ∈ ss, s.Canonical → Token.AllSpelled s.tokens) :
    Token.AllSpelled (Stmt.tokensAll ss) := by
  rw [tokensAll_eq_flatMap]
  intro t member
  obtain ⟨s, inside, member⟩ := List.mem_flatMap.mp member
  exact each s inside (Stmt.canonicalAll_iff.mp canonical s inside) t member

theorem Stmt.allSpelled_tokens (s : Stmt) (canonical : s.Canonical) :
    Token.AllSpelled s.tokens := by
  induction s with
  | letDecl x init =>
      have initial := (init.allSpelled_tokens canonical).after .equals rfl
      have named := Token.AllSpelled.cons (Token.spelled_ofName x) initial
      exact (named.after .letWord rfl).before .semi rfl
  | funDecl x params body ih =>
      have held := (allSpelled_tokensAll canonical ih).inBraces
      have taken : Token.AllSpelled (Token.separate (params.map fun x => [.ofName x])) :=
        .separate <| List.forall_mem_map.mpr fun x _ => .cons (Token.spelled_ofName x) .nil
      have named := Token.AllSpelled.cons (Token.spelled_ofName x) (taken.after .openParen rfl)
      exact (named.after .funWord rfl).append (held.after .closeParen rfl)
  | block body ih => exact (allSpelled_tokensAll canonical ih).inBraces
  | ifThen cond body ih =>
      have held := (allSpelled_tokensAll canonical.2 ih).inBraces
      exact ((cond.allSpelled_tokens canonical.1).after .ifWord rfl).append held
  | ifElse cond body other ihBody ihOther =>
      have held := (allSpelled_tokensAll canonical.2.1 ihBody).inBraces
      have instead := (allSpelled_tokensAll canonical.2.2 ihOther).inBraces
      have tested := (cond.allSpelled_tokens canonical.1).after .ifWord rfl
      exact (tested.append held).append (instead.after .elseWord rfl)
  | expr e => exact (e.allSpelled_tokens canonical).before .semi rfl
  | ret e => exact ((e.allSpelled_tokens canonical).after .returnWord rfl).before .semi rfl

/-- A canonical program is written in usual spellings. -/
theorem Program.allSpelled_tokens {p : Program} (canonical : p.Canonical) :
    Token.AllSpelled p.tokens :=
  Stmt.allSpelled_tokensAll canonical fun s _ => s.allSpelled_tokens

end Bramble
