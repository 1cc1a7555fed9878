import Bramble.Proofs.Grammar.Reading
import Bramble.Proofs.Grammar.Writing

/-!
# Canonical programs are read back

Every rendering of a canonical program is read as that program, whatever its spans are and whatever
stands behind the end of the input, as long as the nesting of the program does not exceed the limit.
Beyond the limit reading fails, and the error is one of nesting at a token of the rendering. So the
limit is exact, and of all trees over the same tokens the canonical one is the one that is read
(`Program.ofTokens_of_renders`).
-/

set_option autoImplicit false

namespace Bramble

/-- The cursor at the beginning of tokens that hold no end of the input, up to their end. -/
theorem Cursor.ofTokens_append {ts tail : List Token} (unended : Token.Unended ts)
    (ended : ∀ t ∈ tail.head?, t.kind = .eof) :
    ∃ stop, Cursor.ofTokens (ts ++ tail) = ⟨ts, stop⟩ := by
  refine ⟨_, congrArg (Cursor.mk · _) ?_⟩
  rw [List.takeWhile_append_of_pos (by simpa [Token.Unended] using unended)]
  cases tail with
  | nil => simp
  | cons t tail => simp [ended t rfl]

/-- A canonical program is read back from each of its renderings, up to the limit of nesting.
Beyond the limit reading fails at a token of the rendering. Every program has a rendering. -/
theorem Program.ofTokens_of_renders {p : Program} (canonical : p.Canonical) :
    (∃ ts, p.Renders ts) ∧
      ∀ ts tail, p.Renders ts → (∀ t ∈ tail.head?, t.kind = .eof) →
        (p.nesting ≤ maxNesting → Program.ofTokens (ts ++ tail) = .ok p) ∧
          (maxNesting < p.nesting →
            ∃ t ∈ ts, Program.ofTokens (ts ++ tail) = .error (.nestingTooDeep t.span)) := by
  refine ⟨p.exists_renders, fun ts tail renders ended => ?_⟩
  obtain ⟨stop, cursor⟩ := Cursor.ofTokens_append (Token.unended_program canonical renders) ended
  have reads := Parse.reads_program canonical renders maxNesting stop
  have front : (⟨ts, stop⟩ : Cursor) = Cursor.push ⟨[], stop⟩ ts := by simp [Cursor.push]
  refine ⟨fun fits => ?_, fun deep => ?_⟩
  · rw [Program.ofTokens, cursor, front, reads.enough fits]
    rfl
  · obtain ⟨t, member, c, error⟩ := reads.lacking (Nat.not_le.mpr deep)
    refine ⟨t, member, ?_⟩
    rw [Program.ofTokens, cursor, front, error]

/-- The tree of `x = 1 - 2 - -f(y);`. -/
def chainProgram : Program :=
  [.expr (.assign "x" (.binary .minus
    (.binary .minus (.literal (.int 1)) (.literal (.int 2)))
    (.unary .minus (.call (.name "f") [.name "y"]))))]

/-- The tokens of `x = 1 - 2 - -f(y);`. -/
def chainTokens : List Token :=
  [⟨.identifier, "x", ⟨0, 1⟩⟩, ⟨.equals, "=", ⟨2, 3⟩⟩, ⟨.intLit, "1", ⟨4, 5⟩⟩,
   ⟨.minus, "-", ⟨6, 7⟩⟩, ⟨.intLit, "2", ⟨8, 9⟩⟩, ⟨.minus, "-", ⟨10, 11⟩⟩, ⟨.minus, "-", ⟨12, 13⟩⟩,
   ⟨.identifier, "f", ⟨13, 14⟩⟩, ⟨.openParen, "(", ⟨14, 15⟩⟩, ⟨.identifier, "y", ⟨15, 16⟩⟩,
   ⟨.closeParen, ")", ⟨16, 17⟩⟩, ⟨.semi, ";", ⟨17, 18⟩⟩]

theorem chainProgram_canonical : chainProgram.Canonical := by
  simp [Program.Canonical, chainProgram, Stmt.CanonicalAll, Stmt.Canonical, Expr.Canonical,
    Expr.CanonicalAll, Expr.Fits, Expr.isPrefixForm, Expr.isCallee, Expr.level]
  decide

theorem chainProgram_renders : chainProgram.Renders chainTokens := by
  have one : (⟨.intLit, "1", ⟨4, 5⟩⟩ : Token).Denotes (.int 1) :=
    .int rfl (Text.signed?_eq_some_iff.mp (by decide))
  have two : (⟨.intLit, "2", ⟨8, 9⟩⟩ : Token).Denotes (.int 2) :=
    .int rfl (Text.signed?_eq_some_iff.mp (by decide))
  have x : (⟨.identifier, "x", ⟨0, 1⟩⟩ : Token).Names "x" := ⟨rfl, rfl⟩
  have f : (⟨.identifier, "f", ⟨13, 14⟩⟩ : Token).Names "f" := ⟨rfl, rfl⟩
  have y : (⟨.identifier, "y", ⟨15, 16⟩⟩ : Token).Names "y" := ⟨rfl, rfl⟩
  have call := @Expr.Renders.call _ _ ⟨.openParen, "(", ⟨14, 15⟩⟩ ⟨.closeParen, ")", ⟨16, 17⟩⟩ _ _
    (.name f) rfl (.one (.name y)) rfl
  have first := @Expr.Renders.binary .minus _ _ ⟨.minus, "-", ⟨6, 7⟩⟩ _ _ (.literal one) rfl
    (.literal two)
  have second := @Expr.Renders.binary .minus _ _ ⟨.minus, "-", ⟨10, 11⟩⟩ _ _ first rfl
    (@Expr.Renders.unary .minus _ ⟨.minus, "-", ⟨12, 13⟩⟩ _ rfl call)
  have whole := @Expr.Renders.assign _ _ _ ⟨.equals, "=", ⟨2, 3⟩⟩ _ x rfl second
  exact .more (@Stmt.Renders.expr _ ⟨.semi, ";", ⟨17, 18⟩⟩ _ whole rfl) .none

theorem chainTokens_read :
    chainProgram.Canonical ∧ chainProgram.Renders chainTokens ∧ chainProgram.nesting = 5 ∧
      Program.ofTokens (chainTokens ++ [Token.endAt 18]) = .ok chainProgram := by
  refine ⟨chainProgram_canonical, chainProgram_renders, by decide, ?_⟩
  have read := (Program.ofTokens_of_renders chainProgram_canonical).2 chainTokens
    [Token.endAt 18] chainProgram_renders (by decide)
  exact read.1 (by decide)

end Bramble
