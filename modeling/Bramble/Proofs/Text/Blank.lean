import Bramble.Proofs.Token.LongestMatch
import Bramble.Text.Blank
import Mathlib.Tactic.IntervalCases

/-!
# Blanks and separators

A text is trimmed of blanks, which are the characters with the property `White_Space`. Tokens are
separated by five of these only. The others begin no token, so that a text that is all blank need
not be one that can be scanned.

What trimming leaves is known from three facts (`Trimmed`): there are only blanks around it, and it
neither begins nor ends with one. No other text has these (`trim_eq_iff`).
-/

set_option autoImplicit false

namespace Bramble
namespace Text

/-! ## Blank characters -/

theorem CodeRange.exists_of_cover {ranges : List CodeRange} {code : Nat}
    (covered : cover ranges code = true) :
    ∃ range ∈ ranges, range.first ≤ code ∧ code ≤ range.last := by
  induction ranges with
  | nil => cases covered
  | cons range ranges ih =>
      rw [cover] at covered
      split at covered
      · cases covered
      · next low =>
          split at covered
          · next high => exact ⟨range, List.mem_cons_self, Nat.le_of_not_lt low, high⟩
          · obtain ⟨later, member, inside⟩ := ih covered
            exact ⟨later, List.mem_cons_of_mem _ member, inside⟩

/-- The code points of the characters that separate tokens. -/
def separators : List Nat := [0x20, 0x9, 0xa, 0xd, 0xc]

/-- The code points of the blank characters that do not. -/
def otherBlanks : List Nat :=
  [0xb, 0x85, 0xa0, 0x1680, 0x2000, 0x2001, 0x2002, 0x2003, 0x2004, 0x2005, 0x2006, 0x2007,
    0x2008, 0x2009, 0x200a, 0x2028, 0x2029, 0x202f, 0x205f, 0x3000]

theorem mem_separators_iff {c : Char} : c.toNat ∈ separators ↔ Token.IsSpace c := by
  have same : ∀ d : Char, c = d ↔ c.toNat = d.toNat := fun d => Char.toNat_inj.symm
  simp only [Token.IsSpace, List.mem_cons, List.not_mem_nil, or_false, same]
  simp only [separators, List.mem_cons, List.not_mem_nil, or_false]
  rfl

theorem cover_blankRanges_iff {code : Nat} :
    CodeRange.cover blankRanges code = true ↔ code ∈ separators ++ otherBlanks := by
  constructor
  · intro covered
    obtain ⟨range, member, low, high⟩ := CodeRange.exists_of_cover covered
    simp only [blankRanges, List.mem_cons, List.not_mem_nil, or_false] at member
    -- Every range is short, so its code points are listed.
    rcases member with rfl | rfl | rfl | rfl | rfl | rfl | rfl | rfl | rfl | rfl <;>
      simp only at low high <;> interval_cases code <;> decide
  · have all : ∀ code ∈ separators ++ otherBlanks, CodeRange.cover blankRanges code = true := by
      decide
    exact all code

/-- Blank are the characters that separate tokens, and twenty others. -/
theorem isBlank_iff {c : Char} : isBlank c = true ↔ Token.IsSpace c ∨ c.toNat ∈ otherBlanks := by
  rw [isBlank, cover_blankRanges_iff, List.mem_append, mem_separators_iff]

theorem opening_of_otherBlank {c : Char} (other : c.toNat ∈ otherBlanks) :
    Token.Opening.of c = .nothing := by
  have all : ∀ code ∈ otherBlanks, Token.Opening.of (Char.ofNat code) = .nothing := by decide
  have found := all c.toNat other
  rwa [Char.ofNat_toNat] at found

/-! ## Trimming -/

/-- `core` is what stands between the blanks at both ends of a text. -/
structure Trimmed (cs core : List Char) : Prop where
  around : ∃ before after, cs = before ++ (core ++ after) ∧ (∀ c ∈ before, isBlank c = true) ∧
    ∀ c ∈ after, isBlank c = true
  first : ∀ c, core.head? = some c → isBlank c = false
  last : ∀ c, core.getLast? = some c → isBlank c = false

/-- Dropping stops at a character outside the class that is dropped. -/
theorem stops_dropWhile {p : Char → Bool} {cs : List Char} {c : Char}
    (first : (cs.dropWhile p).head? = some c) : p c = false := by
  have stopped := List.head?_dropWhile_not p cs
  rw [first] at stopped
  simpa using stopped

theorem trimmed_trim (cs : List Char) : Trimmed cs (trim cs) := by
  have front := List.takeWhile_append_dropWhile (p := isBlank) (l := cs)
  have back := List.takeWhile_append_dropWhile (p := isBlank) (l := (cs.dropWhile isBlank).reverse)
  have middle : cs.dropWhile isBlank
      = trim cs ++ ((cs.dropWhile isBlank).reverse.takeWhile isBlank).reverse := by
    rw [trim, ← List.reverse_append, back, List.reverse_reverse]
  refine ⟨⟨_, _, (middle ▸ front).symm, fun c member => ?_, fun c member => ?_⟩, fun c first => ?_,
    fun c last => ?_⟩
  · exact List.mem_takeWhile_imp member
  · exact List.mem_takeWhile_imp (List.mem_reverse.mp member)
  · have begins : (cs.dropWhile isBlank).head? = some c := by
      rw [middle, List.head?_append, first]
      rfl
    exact stops_dropWhile begins
  · rw [trim, List.getLast?_reverse] at last
    exact stops_dropWhile last

theorem Trimmed.eq_trim {cs core : List Char} (trimmed : Trimmed cs core) : trim cs = core := by
  obtain ⟨⟨before, after, rfl, blankBefore, blankAfter⟩, first, last⟩ := trimmed
  cases core with
  | nil =>
      have all : ∀ c ∈ before ++ ([] ++ after), isBlank c = true :=
        List.forall_mem_append.mpr ⟨blankBefore, blankAfter⟩
      rw [trim, List.dropWhile_eq_nil_iff.mpr all]
      rfl
  | cons c core =>
      have begins : ∀ d, (c :: core ++ after).head? = some d → isBlank d = false := first
      have ends : ∀ d, (c :: core).reverse.head? = some d → isBlank d = false := by
        rw [List.head?_reverse]
        exact last
      have blank : ∀ d ∈ after.reverse, isBlank d = true :=
        fun d member => blankAfter d (List.mem_reverse.mp member)
      have front := (Token.span_append blankBefore begins).2
      have back := (Token.span_append blank ends).2
      rw [trim, front, List.reverse_append, back, List.reverse_reverse]

/-- Trimming leaves what is known as trimmed, and nothing else is. -/
theorem trim_eq_iff {cs core : List Char} : trim cs = core ↔ Trimmed cs core := by
  refine ⟨fun same => ?_, Trimmed.eq_trim⟩
  rw [← same]
  exact trimmed_trim cs

/-- Nothing is left of a text if it is all blank. -/
theorem trim_eq_nil_iff {cs : List Char} : trim cs = [] ↔ ∀ c ∈ cs, isBlank c = true := by
  rw [trim_eq_iff]
  constructor
  · rintro ⟨⟨before, after, rfl, blankBefore, blankAfter⟩, _, _⟩
    exact List.forall_mem_append.mpr ⟨blankBefore, blankAfter⟩
  · intro blank
    refine ⟨⟨cs, [], (List.append_nil cs).symm, blank, List.forall_mem_nil _⟩, ?_, ?_⟩
    · rintro c ⟨⟩
    · rintro c ⟨⟩

end Text
end Bramble
