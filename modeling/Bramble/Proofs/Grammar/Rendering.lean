import Bramble.Grammar.Expression
import Bramble.Proofs.Program.Induction

/-!
# Renderings of programs

A rendering of a program is a list of tokens in which every part of the program stands as its own
tokens, in the order of the text (`Program.Renders`). Parentheses stand only around a group and
around the arguments of a call. The spans are free, and so are the spellings of all tokens but three
kinds: the spelling of an identifier is the name, and a literal is spelled as a numeral or between
quotation marks.

The relation says nothing about how tightly operators bind: `1 + 2` and then `* 3` renders both
trees over these tokens. It has one choice of its own. Where the other branch of a conditional
is a single conditional, it may follow `else` directly or stand between braces.
-/

set_option autoImplicit false

namespace Bramble

/-! ## Literals -/

namespace Text

/-- A nonempty run of decimal digits. -/
def IsDigits (cs : List Char) : Prop := cs ≠ [] ∧ ∀ c ∈ cs, c.isDigit = true

/-- A numeral, with at most one sign, and the number that it stands for. -/
inductive Numeral : List Char → Int → Prop where
  | plain {digits : List Char} (run : IsDigits digits) : Numeral digits (digitsValue digits)
  | plus {digits : List Char} (run : IsDigits digits) :
      Numeral ('+' :: digits) (digitsValue digits)
  | minus {digits : List Char} (run : IsDigits digits) :
      Numeral ('-' :: digits) (-(digitsValue digits : Int))

end Text

/-- A token that stands for a literal. -/
inductive Token.Denotes : Token → Literal → Prop where
  | int {token : Token} {n : Int64} (kind : token.kind = .intLit)
      (numeral : Text.Numeral token.lexeme.toList n.toInt) : Denotes token (.int n)
  | str {token : Token} {s : String} (kind : token.kind = .stringLit)
      (quoted : token.lexeme = "\"" ++ s ++ "\"") : Denotes token (.str s)
  | isTrue {token : Token} (kind : token.kind = .trueWord) : Denotes token (.bool true)
  | isFalse {token : Token} (kind : token.kind = .falseWord) : Denotes token (.bool false)

/-- A token that is a name. -/
structure Token.Names (token : Token) (x : String) : Prop where
  kind : token.kind = .identifier
  lexeme : token.lexeme = x

/-! ## Lists -/

section Lists

variable {α : Type} (renders : α → List Token → Prop)

/-- The renderings of some items, with a comma between any two of them. -/
inductive Separated : List α → List Token → Prop where
  | none : Separated [] []
  | one {a : α} {ts : List Token} (only : renders a ts) : Separated [a] ts
  | more {a b : α} {as : List α} {ts us : List Token} {comma : Token} (first : renders a ts)
      (between : comma.kind = .comma) (others : Separated (b :: as) us) :
      Separated (a :: b :: as) (ts ++ comma :: us)

/-- The renderings of some items, one after the other. -/
inductive Sequenced : List α → List Token → Prop where
  | none : Sequenced [] []
  | more {a : α} {as : List α} {ts us : List Token} (first : renders a ts)
      (others : Sequenced as us) : Sequenced (a :: as) (ts ++ us)

end Lists

section Lists

variable {α : Type} {renders good : α → List Token → Prop} {as bs : List α} {ts us : List Token}

/-- One more item behind a comma. -/
theorem Separated.concat {a : α} {comma : Token} (separated : Separated renders as ts)
    (some : as ≠ []) (between : comma.kind = .comma) (last : renders a us) :
    Separated renders (as ++ [a]) (ts ++ comma :: us) := by
  induction separated with
  | none => exact absurd rfl some
  | one only => exact .more only between (.one last)
  | more first between' others ih =>
      rw [List.append_assoc]
      exact .more first between' (ih (List.cons_ne_nil _ _))

/-- What the tokens of each item say of it holds of all of them. -/
theorem Separated.imp {fine : α → Prop} (separated : Separated good as ts)
    (rendered : ∀ a ts, good a ts → renders a ts) (each : ∀ a ts, good a ts → fine a) :
    Separated renders as ts ∧ ∀ a ∈ as, fine a := by
  induction separated with
  | none => exact ⟨.none, by simp⟩
  | one only => exact ⟨.one (rendered _ _ only), by simpa using each _ _ only⟩
  | more first between _ ih =>
      refine ⟨.more (rendered _ _ first) between ih.1, ?_⟩
      exact List.forall_mem_cons.mpr ⟨each _ _ first, ih.2⟩

theorem Sequenced.one {a : α} (only : renders a ts) : Sequenced renders [a] ts :=
  List.append_nil ts ▸ .more only .none

theorem Sequenced.append (first : Sequenced renders as ts) (second : Sequenced renders bs us) :
    Sequenced renders (as ++ bs) (ts ++ us) := by
  induction first with
  | none => exact second
  | more one others ih =>
      rw [List.append_assoc]
      exact .more one ih

end Lists

/-! ## Expressions -/

/-- The renderings of an expression. -/
inductive Expr.Renders : Expr → List Token → Prop where
  | literal {l : Literal} {token : Token} (denotes : token.Denotes l) :
      Renders (.literal l) [token]
  | name {x : String} {token : Token} (names : token.Names x) : Renders (.name x) [token]
  | unary {op : Token.Kind} {arg : Expr} {token : Token} {ts : List Token}
      (operator : token.kind = op) (operand : Renders arg ts) :
      Renders (.unary op arg) (token :: ts)
  | binary {op : Token.Kind} {lhs rhs : Expr} {token : Token} {ts us : List Token}
      (left : Renders lhs ts) (operator : token.kind = op) (right : Renders rhs us) :
      Renders (.binary op lhs rhs) (ts ++ token :: us)
  | group {inner : Expr} {opening closing : Token} {ts : List Token}
      (opens : opening.kind = .openParen) (held : Renders inner ts)
      (closes : closing.kind = .closeParen) : Renders (.group inner) (opening :: ts ++ [closing])
  | call {callee : Expr} {args : List Expr} {opening closing : Token} {ts us : List Token}
      (called : Renders callee ts) (opens : opening.kind = .openParen)
      (passed : Separated Renders args us) (closes : closing.kind = .closeParen) :
      Renders (.call callee args) (ts ++ opening :: us ++ [closing])
  | assign {x : String} {value : Expr} {target equals : Token} {ts : List Token}
      (names : target.Names x) (assigns : equals.kind = .equals) (assigned : Renders value ts) :
      Renders (.assign x value) (target :: equals :: ts)

/-! ## Statements -/

/-- Whether a statement is a conditional. -/
def Stmt.isConditional : Stmt → Bool
  | .ifThen _ _ | .ifElse _ _ _ => true
  | _ => false

/-- The rendering of a parameter. -/
inductive RendersParam : String → List Token → Prop where
  | mk {x : String} {token : Token} (names : token.Names x) : RendersParam x [token]

mutual

/-- The renderings of a statement. -/
inductive Stmt.Renders : Stmt → List Token → Prop where
  | letDecl {x : String} {init : Expr} {word target equals semi : Token} {ts : List Token}
      (begins : word.kind = .letWord) (names : target.Names x) (binds : equals.kind = .equals)
      (initial : init.Renders ts) (ends : semi.kind = .semi) :
      Renders (.letDecl x init) (word :: target :: equals :: ts ++ [semi])
  | funDecl {x : String} {params : List String} {body : List Stmt}
      {word target opening closing : Token} {ts us : List Token} (begins : word.kind = .funWord)
      (names : target.Names x) (opens : opening.kind = .openParen)
      (taken : Separated RendersParam params ts) (closes : closing.kind = .closeParen)
      (held : RendersBlock body us) :
      Renders (.funDecl x params body) (word :: target :: opening :: ts ++ closing :: us)
  | block {body : List Stmt} {ts : List Token} (held : RendersBlock body ts) :
      Renders (.block body) ts
  | ifThen {cond : Expr} {body : List Stmt} {word : Token} {ts us : List Token}
      (begins : word.kind = .ifWord) (tested : cond.Renders ts) (held : RendersBlock body us) :
      Renders (.ifThen cond body) (word :: ts ++ us)
  | ifElse {cond : Expr} {body other : List Stmt} {word otherwise : Token}
      {ts us vs : List Token} (begins : word.kind = .ifWord) (tested : cond.Renders ts)
      (held : RendersBlock body us) (turns : otherwise.kind = .elseWord)
      (instead : RendersBlock other vs) :
      Renders (.ifElse cond body other) (word :: ts ++ us ++ otherwise :: vs)
  | elseIf {cond : Expr} {body : List Stmt} {other : Stmt} {word otherwise : Token}
      {ts us vs : List Token} (begins : word.kind = .ifWord) (tested : cond.Renders ts)
      (held : RendersBlock body us) (turns : otherwise.kind = .elseWord)
      (conditional : other.isConditional = true) (instead : Renders other vs) :
      Renders (.ifElse cond body [other]) (word :: ts ++ us ++ otherwise :: vs)
  | expr {e : Expr} {semi : Token} {ts : List Token} (computed : e.Renders ts)
      (ends : semi.kind = .semi) : Renders (.expr e) (ts ++ [semi])
  | ret {e : Expr} {word semi : Token} {ts : List Token} (begins : word.kind = .returnWord)
      (returned : e.Renders ts) (ends : semi.kind = .semi) :
      Renders (.ret e) (word :: ts ++ [semi])

/-- The renderings of statements between braces. -/
inductive Stmt.RendersBlock : List Stmt → List Token → Prop where
  | mk {body : List Stmt} {ts : List Token} {opening closing : Token}
      (opens : opening.kind = .openBrace) (held : Sequenced Stmt.Renders body ts)
      (closes : closing.kind = .closeBrace) : RendersBlock body (opening :: ts ++ [closing])

end

/-- The renderings of a program: those of its statements in order. -/
def Program.Renders (program : Program) (ts : List Token) : Prop :=
  Sequenced Stmt.Renders program ts

/-! ## Reading of literals -/

namespace Text

theorem numeral?_eq_some_iff {cs : List Char} {n : Nat} :
    numeral? cs = some n ↔ IsDigits cs ∧ n = digitsValue cs := by
  simp only [numeral?, IsDigits, List.all_eq_true]
  split
  · next run =>
      rw [Option.some_inj]
      exact ⟨fun same => ⟨run, same.symm⟩, fun both => both.2.symm⟩
  · next run => simp [run]

/-- Reading finds exactly the numerals. -/
theorem signed?_eq_some_iff {cs : List Char} {n : Int} : signed? cs = some n ↔ Numeral cs n := by
  constructor
  · intro read
    unfold signed? unsigned? at read
    split at read
    · simp only [Option.map_eq_some_iff, numeral?_eq_some_iff] at read
      obtain ⟨_, ⟨run, rfl⟩, rfl⟩ := read
      exact .minus run
    · split at read
      · simp only [Option.map_eq_some_iff, numeral?_eq_some_iff] at read
        obtain ⟨_, ⟨run, rfl⟩, rfl⟩ := read
        exact .plus run
      · simp only [Option.map_eq_some_iff, numeral?_eq_some_iff] at read
        obtain ⟨_, ⟨run, rfl⟩, rfl⟩ := read
        exact .plain run
  · intro numeral
    cases numeral with
    | plain run =>
        have value := numeral?_eq_some_iff.mpr ⟨run, rfl⟩
        obtain ⟨nonempty, digits⟩ := run
        unfold signed? unsigned?
        split
        · exact absurd (digits '-' List.mem_cons_self) (by decide)
        · split
          · exact absurd (digits '+' List.mem_cons_self) (by decide)
          · simp [value]
    | plus run => simp [signed?, unsigned?, numeral?_eq_some_iff.mpr ⟨run, rfl⟩]
    | minus run => simp [signed?, numeral?_eq_some_iff.mpr ⟨run, rfl⟩]

theorem digitsValue_toDigits (n : Nat) : digitsValue (Nat.toDigits 10 n) = n := by
  have value := Nat.ofDigitChars_ten_toDigits (n := n)
  rwa [Nat.ofDigitChars_eq_foldl] at value

theorem isDigits_toDigits (n : Nat) : IsDigits (Nat.toDigits 10 n) :=
  ⟨Nat.toDigits_ne_nil, fun _ member => Nat.isDigit_of_mem_toDigits (by decide) (by decide) member⟩

end Text

/-- Reading finds exactly the texts between quotation marks. -/
theorem unquoted?_eq_some_iff {lexeme s : String} :
    unquoted? lexeme = some s ↔ lexeme = "\"" ++ s ++ "\"" := by
  constructor
  · intro read
    unfold unquoted? at read
    split at read
    · next rest spelled =>
        split at read
        · next last =>
            obtain ⟨inner, rfl⟩ := List.getLast?_eq_some_iff.mp last
            cases read
            apply String.toList_injective
            rw [spelled]
            simp
        · cases read
    · cases read
  · rintro rfl
    simp [unquoted?]

/-! ## Tokens without a place -/

/-- A token of a kind, without a spelling. -/
def Token.ofKind (kind : Token.Kind) : Token := ⟨kind, "", default⟩

/-- A token that is a name. -/
def Token.ofName (x : String) : Token := ⟨.identifier, x, default⟩

theorem Token.ofName_names (x : String) : (Token.ofName x).Names x := ⟨rfl, rfl⟩

end Bramble
