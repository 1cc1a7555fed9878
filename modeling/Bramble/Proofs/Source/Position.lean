import Bramble.Proofs.Token.LongestMatch
import Mathlib.Data.List.Induction

/-!
# Positions in a text

The position of an offset is told from the characters before it as a whole: their line feeds are
counted, and so are the characters since the last one. The same position is had by going over these
characters once, from the first line and the first column on, with one step for each of them. A step
never goes back. So a later offset has a later position, and a position tells which offset it
belongs to (`position_locates`).
-/

set_option autoImplicit false

namespace Bramble
namespace Position

/-- The position after one more character. -/
def advance (p : Position) (c : Char) : Position :=
  if c = '\n' then ⟨p.line + 1, 1⟩ else ⟨p.line, p.column + 1⟩

/-- The order of reading: by lines, and in one line by columns. -/
def Precedes (p q : Position) : Prop := p.line < q.line ∨ (p.line = q.line ∧ p.column < q.column)

/-! ## One pass -/

theorem after_concat (read : List Char) (c : Char) :
    after (read ++ [c]) = (after read).advance c := by
  by_cases feed : c = '\n'
  · subst feed
    simp [after, advance]
  · simp [after, advance, feed]

/-- The position after some characters is had by one pass over them. -/
theorem after_eq_foldl (read : List Char) : after read = read.foldl advance ⟨1, 1⟩ := by
  induction read using List.reverseRecOn with
  | nil => rfl
  | append_singleton read c ih => rw [after_concat, ih, List.foldl_concat]

theorem after_append (read more : List Char) :
    after (read ++ more) = more.foldl advance (after read) := by
  rw [after_eq_foldl, List.foldl_append, ← after_eq_foldl]

/-! ## Order -/

theorem Precedes.trans {p q r : Position} (first : p.Precedes q) (second : q.Precedes r) :
    p.Precedes r := by
  unfold Precedes at *
  omega

theorem Precedes.ne {p q : Position} (precedes : p.Precedes q) : p ≠ q := by
  rintro rfl
  unfold Precedes at precedes
  omega

theorem precedes_advance (p : Position) (c : Char) : p.Precedes (p.advance c) := by
  unfold advance
  split
  · exact .inl (Nat.lt_succ_self _)
  · exact .inr ⟨rfl, Nat.lt_succ_self _⟩

/-- Every pass over at least one character goes on to a later position. -/
theorem precedes_foldl (p : Position) (c : Char) (cs : List Char) :
    p.Precedes ((c :: cs).foldl advance p) := by
  induction cs generalizing p c with
  | nil => exact precedes_advance p c
  | cons d cs ih => exact (precedes_advance p c).trans (ih (p.advance c) d)

/-! ## Offsets between characters -/

/-- An offset between two characters has the position after what stands before it. -/
theorem of?_append (before after : String) :
    of? (before ++ after) before.utf8ByteSize = some (Position.after before.toList) := by
  rw [of?, String.toList_append, ← Text.byteLength_toList, Text.before?_append]
  rfl

/-- Of two ways to cut a text, the one with the shorter first half leaves something of the other
first half. -/
theorem exists_between {s s' t t' : String} (same : s ++ s' = t ++ t')
    (shorter : s.utf8ByteSize < t.utf8ByteSize) :
    ∃ (c : Char) (cs : List Char), t.toList = s.toList ++ c :: cs := by
  rw [← Text.byteLength_toList, ← Text.byteLength_toList] at shorter
  have characters := congrArg String.toList same
  rw [String.toList_append, String.toList_append, List.append_eq_append_iff] at characters
  rcases characters with ⟨more, longer, _⟩ | ⟨more, longer, _⟩
  · cases more with
    | nil =>
        rw [longer, List.append_nil] at shorter
        exact absurd shorter (Nat.lt_irrefl _)
    | cons c cs => exact ⟨c, cs, longer⟩
  · rw [longer, Text.byteLength_append] at shorter
    omega

/-- A later offset between characters has a later position. -/
theorem exists_precedes {text : String} {i j : Nat} (first : String.Pos.Raw.IsValid text ⟨i⟩)
    (second : String.Pos.Raw.IsValid text ⟨j⟩) (later : i < j) :
    ∃ p q, of? text i = some p ∧ of? text j = some q ∧ p.Precedes q := by
  obtain ⟨s, s', whole, here⟩ := String.Pos.Raw.isValid_iff_exists_append.mp first
  obtain ⟨t, t', whole', there⟩ := String.Pos.Raw.isValid_iff_exists_append.mp second
  cases here
  cases there
  obtain ⟨c, cs, between⟩ := exists_between (whole.symm.trans whole') later
  refine ⟨_, _, whole ▸ of?_append s s', whole' ▸ of?_append t t', ?_⟩
  rw [between, after_append]
  exact precedes_foldl _ c cs

end Position

/-- Where a text is read, at any offset between two characters or at an end of it. The position is
that of one pass over the characters before the offset: it begins in the first column of the first
line, a line feed leads to the first column of the next line, and any other character leads to the
next column. A later offset has a later position, so no two of them have the same one. An offset
beyond the end has the position of the end. -/
theorem position_locates (text : String) :
    (∀ offset, String.Pos.Raw.IsValid text ⟨offset⟩ →
      ∃ before after, text = before ++ after ∧ offset = before.utf8ByteSize ∧
        Position.of? text offset = some (before.toList.foldl Position.advance ⟨1, 1⟩)) ∧
    (∀ i j, String.Pos.Raw.IsValid text ⟨i⟩ → String.Pos.Raw.IsValid text ⟨j⟩ → i < j →
      ∃ p q, Position.of? text i = some p ∧ Position.of? text j = some q ∧ p.Precedes q) ∧
    (∀ i j, String.Pos.Raw.IsValid text ⟨i⟩ → String.Pos.Raw.IsValid text ⟨j⟩ →
      Position.of? text i = Position.of? text j → i = j) ∧
    (∀ offset, text.utf8ByteSize ≤ offset →
      Position.of? text offset = Position.of? text text.utf8ByteSize) := by
  refine ⟨fun offset valid => ?_, fun i j => Position.exists_precedes,
    fun i j first second same => ?_, fun offset beyond => ?_⟩
  · obtain ⟨before, after, whole, here⟩ := String.Pos.Raw.isValid_iff_exists_append.mp valid
    cases here
    refine ⟨before, after, whole, rfl, ?_⟩
    rw [← Position.after_eq_foldl, whole]
    exact Position.of?_append before after
  · by_contra other
    rcases Nat.lt_or_gt_of_ne other with later | later
    · obtain ⟨p, q, here, there, precedes⟩ := Position.exists_precedes first second later
      exact precedes.ne (Option.some.inj (here.symm.trans (same.trans there)))
    · obtain ⟨p, q, here, there, precedes⟩ := Position.exists_precedes second first later
      exact precedes.ne (Option.some.inj (here.symm.trans (same.symm.trans there)))
  · rw [← Text.byteLength_toList] at beyond
    rw [Position.of?, Position.of?, ← Text.byteLength_toList, Text.before?_of_byteLength_le beyond,
      Text.before?_of_byteLength_le (Nat.le_refl _)]

end Bramble
