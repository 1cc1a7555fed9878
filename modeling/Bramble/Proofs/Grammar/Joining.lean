import Bramble.Proofs.Grammar.Reading
import Bramble.Proofs.Grammar.Soundness

/-!
# Programs one after the other

The programs that are read are those that the grammar gives: the canonical ones within the limit of
nesting, from their renderings (`Program.ofTokens_eq_ok_iff`). The grammar looks at no span, and the
renderings of two programs one after the other render the two programs as one. No statement can
reach from the first program into the second, since the statements are told by the tokens alone. So
two programs that can be read are read as one from their joined tokens (`Program.ofTokens_append`).
-/

set_option autoImplicit false

namespace Bramble

/-! ## Tokens at other places -/

section Moved

open Token (AlikeAll)

variable {ts us : List Token}

theorem Token.Denotes.moved {t t' : Token} {l : Literal} (denotes : t.Denotes l)
    (alike : t.Alike t') : t'.Denotes l := by
  cases denotes with
  | int own numeral => exact .int (alike.kind.trans own) (alike.lexeme ▸ numeral)
  | str own quoted => exact .str (alike.kind.trans own) (alike.lexeme.trans quoted)
  | isTrue own => exact .isTrue (alike.kind.trans own)
  | isFalse own => exact .isFalse (alike.kind.trans own)

theorem Token.Names.moved {t t' : Token} {x : String} (names : t.Names x)
    (alike : t.Alike t') : t'.Names x :=
  ⟨alike.kind.trans names.kind, alike.lexeme.trans names.lexeme⟩

theorem Separated.moved {α : Type} {renders : α → List Token → Prop} {as : List α}
    (separated : Separated renders as ts) (alike : AlikeAll ts us)
    (each : ∀ a ∈ as, ∀ ts us, AlikeAll ts us → renders a ts → renders a us) :
    Separated renders as us := by
  induction separated generalizing us with
  | none =>
      cases alike
      exact .none
  | one only => exact .one (each _ List.mem_cons_self _ _ alike only)
  | more first between others ih =>
      obtain ⟨_, _, rfl, alikeFirst, alikeOthers⟩ := alike.split
      cases alikeOthers with
      | cons comma alikeOthers =>
          exact .more (each _ List.mem_cons_self _ _ alikeFirst first) (comma.kind.trans between)
            (ih alikeOthers fun a member => each a (List.mem_cons_of_mem _ member))

theorem Sequenced.moved {α : Type} {renders : α → List Token → Prop} {as : List α}
    (sequenced : Sequenced renders as ts) (alike : AlikeAll ts us)
    (each : ∀ a ∈ as, ∀ ts us, AlikeAll ts us → renders a ts → renders a us) :
    Sequenced renders as us := by
  induction sequenced generalizing us with
  | none =>
      cases alike
      exact .none
  | more first others ih =>
      obtain ⟨_, _, rfl, alikeFirst, alikeOthers⟩ := alike.split
      exact .more (each _ List.mem_cons_self _ _ alikeFirst first)
        (ih alikeOthers fun a member => each a (List.mem_cons_of_mem _ member))

theorem Expr.Renders.moved (e : Expr) (renders : e.Renders ts) (alike : AlikeAll ts us) :
    e.Renders us := by
  induction e generalizing ts us with
  | literal l =>
      cases renders with
      | literal denotes =>
          cases alike with
          | cons same none =>
              cases none
              exact .literal (denotes.moved same)
  | name x =>
      cases renders with
      | name names =>
          cases alike with
          | cons same none =>
              cases none
              exact .name (names.moved same)
  | unary op arg ih =>
      cases renders with
      | unary operator operand =>
          cases alike with
          | cons same alike => exact .unary (same.kind.trans operator) (ih operand alike)
  | binary op lhs rhs left right =>
      cases renders with
      | binary first operator second =>
          obtain ⟨_, _, rfl, alikeFirst, alikeSecond⟩ := alike.split
          cases alikeSecond with
          | cons same alikeSecond =>
              exact .binary (left first alikeFirst) (same.kind.trans operator)
                (right second alikeSecond)
  | group inner ih =>
      cases renders with
      | group opens held closes =>
          obtain ⟨_, _, rfl, alikeHeld, alikeLast⟩ := alike.split
          cases alikeHeld with
          | cons opening alikeHeld =>
              cases alikeLast with
              | cons closing none =>
                  cases none
                  exact .group (opening.kind.trans opens) (ih held alikeHeld)
                    (closing.kind.trans closes)
  | call callee args called passed =>
      cases renders with
      | call first opens arguments closes =>
          obtain ⟨_, _, rfl, alikeFront, alikeLast⟩ := alike.split
          obtain ⟨_, _, rfl, alikeFirst, alikeArguments⟩ := alikeFront.split
          cases alikeArguments with
          | cons opening alikeArguments =>
              cases alikeLast with
              | cons closing none =>
                  cases none
                  exact .call (called first alikeFirst) (opening.kind.trans opens)
                    (arguments.moved alikeArguments fun arg member ts us alike renders =>
                      passed arg member renders alike)
                    (closing.kind.trans closes)
  | assign x value ih =>
      cases renders with
      | assign names assigns assigned =>
          cases alike with
          | cons target alike =>
              cases alike with
              | cons equals alike =>
                  exact .assign (names.moved target) (equals.kind.trans assigns)
                    (ih assigned alike)

theorem RendersParam.moved {x : String} (renders : RendersParam x ts) (alike : AlikeAll ts us) :
    RendersParam x us := by
  cases renders with
  | mk names =>
      cases alike with
      | cons same none =>
          cases none
          exact .mk (names.moved same)

theorem Stmt.RendersBlock.moved {body : List Stmt} (renders : Stmt.RendersBlock body ts)
    (alike : AlikeAll ts us)
    (each : ∀ s ∈ body, ∀ ts us, AlikeAll ts us → s.Renders ts → s.Renders us) :
    Stmt.RendersBlock body us := by
  cases renders with
  | mk opens held closes =>
      obtain ⟨_, _, rfl, alikeHeld, alikeLast⟩ := alike.split
      cases alikeHeld with
      | cons opening alikeHeld =>
          cases alikeLast with
          | cons closing none =>
              cases none
              exact .mk (opening.kind.trans opens) (held.moved alikeHeld each)
                (closing.kind.trans closes)

theorem Stmt.Renders.moved (s : Stmt) (renders : s.Renders ts) (alike : AlikeAll ts us) :
    s.Renders us := by
  induction s generalizing ts us with
  | letDecl x init =>
      cases renders with
      | letDecl begins names binds initial ends =>
          obtain ⟨_, _, rfl, alikeFront, alikeLast⟩ := alike.split
          rcases alikeFront with _ | ⟨word, _ | ⟨target, _ | ⟨equals, alikeInitial⟩⟩⟩
          rcases alikeLast with _ | ⟨semi, _ | _⟩
          exact .letDecl (word.kind.trans begins) (names.moved target) (equals.kind.trans binds)
            (initial.moved init alikeInitial) (semi.kind.trans ends)
  | funDecl x params body ih =>
      cases renders with
      | funDecl begins names opens taken closes held =>
          obtain ⟨_, _, rfl, alikeFront, alikeBack⟩ := alike.split
          rcases alikeFront with _ | ⟨word, _ | ⟨target, _ | ⟨opening, alikeTaken⟩⟩⟩
          rcases alikeBack with _ | ⟨closing, alikeHeld⟩
          exact .funDecl (word.kind.trans begins) (names.moved target) (opening.kind.trans opens)
            (taken.moved alikeTaken fun x _ ts us alike renders => renders.moved alike)
            (closing.kind.trans closes)
            (held.moved alikeHeld fun s member ts us alike renders => ih s member renders alike)
  | block body ih =>
      cases renders with
      | block held =>
          exact .block
            (held.moved alike fun s member ts us alike renders => ih s member renders alike)
  | ifThen cond body ih =>
      cases renders with
      | ifThen begins tested held =>
          obtain ⟨_, _, rfl, alikeFront, alikeHeld⟩ := alike.split
          rcases alikeFront with _ | ⟨word, alikeTested⟩
          exact .ifThen (word.kind.trans begins) (tested.moved cond alikeTested)
            (held.moved alikeHeld fun s member ts us alike renders => ih s member renders alike)
  | ifElse cond body other ihBody ihOther =>
      cases renders with
      | ifElse begins tested held turns instead =>
          obtain ⟨_, _, rfl, alikeFront, alikeBack⟩ := alike.split
          obtain ⟨_, _, rfl, alikeFront, alikeHeld⟩ := alikeFront.split
          rcases alikeFront with _ | ⟨word, alikeTested⟩
          rcases alikeBack with _ | ⟨otherwise, alikeInstead⟩
          exact .ifElse (word.kind.trans begins) (tested.moved cond alikeTested)
            (held.moved alikeHeld fun s member ts us alike renders =>
              ihBody s member renders alike)
            (otherwise.kind.trans turns)
            (instead.moved alikeInstead fun s member ts us alike renders =>
              ihOther s member renders alike)
      | elseIf begins tested held turns conditional instead =>
          obtain ⟨_, _, rfl, alikeFront, alikeBack⟩ := alike.split
          obtain ⟨_, _, rfl, alikeFront, alikeHeld⟩ := alikeFront.split
          rcases alikeFront with _ | ⟨word, alikeTested⟩
          rcases alikeBack with _ | ⟨otherwise, alikeInstead⟩
          exact .elseIf (word.kind.trans begins) (tested.moved cond alikeTested)
            (held.moved alikeHeld fun s member ts us alike renders =>
              ihBody s member renders alike)
            (otherwise.kind.trans turns) conditional
            (ihOther _ List.mem_cons_self instead alikeInstead)
  | expr e =>
      cases renders with
      | expr computed ends =>
          obtain ⟨_, _, rfl, alikeComputed, alikeLast⟩ := alike.split
          rcases alikeLast with _ | ⟨semi, _ | _⟩
          exact .expr (computed.moved e alikeComputed) (semi.kind.trans ends)
  | ret e =>
      cases renders with
      | ret begins returned ends =>
          obtain ⟨_, _, rfl, alikeFront, alikeLast⟩ := alike.split
          rcases alikeFront with _ | ⟨word, alikeReturned⟩
          rcases alikeLast with _ | ⟨semi, _ | _⟩
          exact .ret (word.kind.trans begins) (returned.moved e alikeReturned)
            (semi.kind.trans ends)

/-- What renders a program renders it at every other place. -/
theorem Program.Renders.moved {p : Program} (renders : p.Renders ts) (alike : AlikeAll ts us) :
    p.Renders us :=
  Sequenced.moved renders alike fun s _ _ _ alike renders => Stmt.Renders.moved s renders alike

end Moved

/-! ## Joined programs -/

/-- The programs that are read are the canonical ones within the limit of nesting. -/
theorem Program.ofTokens_eq_ok_iff {tokens : List Token} {p : Program} :
    Program.ofTokens tokens = .ok p ↔
      p.Renders (tokens.takeWhile (·.kind ≠ .eof)) ∧ p.Canonical ∧ p.nesting ≤ maxNesting := by
  refine ⟨Program.parsed_ofTokens, ?_⟩
  rintro ⟨renders, canonical, nesting⟩
  have reads := Parse.reads_program canonical renders maxNesting (Cursor.ofTokens tokens).stop
  have front : Cursor.ofTokens tokens
      = Cursor.push ⟨[], (Cursor.ofTokens tokens).stop⟩ (tokens.takeWhile (·.kind ≠ .eof)) := by
    simp [Cursor.push, Cursor.ofTokens]
  rw [Program.ofTokens, front, reads.enough nesting]
  rfl

theorem Program.Canonical.append {p q : Program} (first : p.Canonical) (second : q.Canonical) :
    (p ++ q).Canonical :=
  Stmt.canonicalAll_iff.mpr (List.forall_mem_append.mpr
    ⟨Stmt.canonicalAll_iff.mp first, Stmt.canonicalAll_iff.mp second⟩)

theorem Program.nesting_append_le {p q : Program} {room : Nat} (first : p.nesting ≤ room)
    (second : q.nesting ≤ room) : Program.nesting (p ++ q) ≤ room :=
  Stmt.nestingAll_le_iff.mpr (List.forall_mem_append.mpr
    ⟨Stmt.nestingAll_le_iff.mp first, Stmt.nestingAll_le_iff.mp second⟩)

/-- The tokens up to the first end of the input. -/
theorem Token.Unended.takeWhile {ts : List Token} (unended : Token.Unended ts) (offset : Nat) :
    (ts ++ [Token.endAt offset]).takeWhile (·.kind ≠ .eof) = ts := by
  rw [List.takeWhile_append_of_pos (by simpa [Token.Unended] using unended)]
  simp [Token.endAt]

/-- Two programs are read as one from their tokens one after the other. The tokens of the second
may stand at other places. -/
theorem Program.ofTokens_append {p q : Program} {ts us vs : List Token} {i j k : Nat}
    (first : Program.ofTokens (ts ++ [Token.endAt i]) = .ok p)
    (second : Program.ofTokens (us ++ [Token.endAt j]) = .ok q)
    (unended : Token.Unended ts) (unended' : Token.Unended us) (alike : Token.AlikeAll us vs) :
    Program.ofTokens (ts ++ vs ++ [Token.endAt k]) = .ok (p ++ q) := by
  have joined := Token.unended_append.mpr ⟨unended, alike.unended unended'⟩
  rw [ofTokens_eq_ok_iff, unended.takeWhile] at first
  rw [ofTokens_eq_ok_iff, unended'.takeWhile] at second
  rw [ofTokens_eq_ok_iff, joined.takeWhile]
  obtain ⟨renders, canonical, nesting⟩ := first
  obtain ⟨renders', canonical', nesting'⟩ := second
  exact ⟨Sequenced.append renders (renders'.moved alike), canonical.append canonical',
    Program.nesting_append_le nesting nesting'⟩

end Bramble
