import Bramble.Proofs.Session.Literals
import Bramble.Proofs.Text.Blank
import Bramble.Session.Config

/-!
# Settings that are read exactly

The limit on nested calls may be set by a text. It is set to a number if the text, trimmed of
blanks, is a numeral of that number, perhaps behind a plus sign, and if the number is positive and
has 64 bits. Leading zeros do not matter, and there may be any number of them. Whatever else the
text is, the limit stays the default one. So the limit is never zero, and a number of that range is
read back from its decimal text with any blanks around it (`limit_read_exactly`).
-/

set_option autoImplicit false

namespace Bramble

/-! ## Numerals without a minus sign -/

namespace Text

/-- A numeral without a sign or behind one plus sign, and its number. -/
def Unsigned (cs : List Char) (n : Nat) : Prop :=
  ∃ sign digits, cs = sign ++ digits ∧ (sign = [] ∨ sign = ['+']) ∧ IsDigits digits ∧
    decimal digits = n

theorem unsigned?_of_isDigits {digits : List Char} (run : IsDigits digits) :
    unsigned? digits = some (decimal digits) := by
  have value := numeral?_eq_some_iff.mpr ⟨run, (digitsValue_eq_decimal digits).symm⟩
  unfold unsigned?
  split
  · exact absurd (run.2 '+' List.mem_cons_self) (by decide)
  · exact value

theorem unsigned?_eq_some_iff {cs : List Char} {n : Nat} :
    unsigned? cs = some n ↔ Unsigned cs n := by
  constructor
  · intro read
    unfold unsigned? at read
    split at read
    · next digits =>
        obtain ⟨run, value⟩ := numeral?_eq_some_iff.mp read
        exact ⟨['+'], digits, rfl, .inr rfl, run, (value.trans (digitsValue_eq_decimal _)).symm⟩
    · obtain ⟨run, value⟩ := numeral?_eq_some_iff.mp read
      exact ⟨[], cs, rfl, .inl rfl, run, (value.trans (digitsValue_eq_decimal _)).symm⟩
  · rintro ⟨_, digits, rfl, rfl | rfl, run, rfl⟩
    · exact unsigned?_of_isDigits run
    · exact numeral?_eq_some_iff.mpr ⟨run, (digitsValue_eq_decimal digits).symm⟩

theorem isBlank_of_isDigit {c : Char} (digit : c.isDigit = true) : isBlank c = false := by
  rw [← Bool.not_eq_true, isBlank_iff]
  have opening := (Token.isDigit_iff.mp digit).opening
  rintro (space | other)
  · exact (Token.isDigit_iff.mp digit).not_space space
  · cases opening.symm.trans (opening_of_otherBlank other)

/-- Trimming finds digits between blanks. -/
theorem IsDigits.trimmed {digits before after : List Char} (run : IsDigits digits)
    (blankBefore : ∀ c ∈ before, isBlank c = true) (blankAfter : ∀ c ∈ after, isBlank c = true) :
    Trimmed (before ++ (digits ++ after)) digits where
  around := ⟨before, after, rfl, blankBefore, blankAfter⟩
  first := fun c begins => isBlank_of_isDigit (run.2 c (List.mem_of_mem_head? begins))
  last := fun c ends => isBlank_of_isDigit (run.2 c (List.mem_of_getLast? ends))

end Text

/-! ## The limit -/

namespace Config

/-- A text sets the limit to a number. -/
structure Sets (text : String) (n : Nat) : Prop where
  numeral : ∃ core, Text.Trimmed text.toList core ∧ Text.Unsigned core n
  positive : 1 ≤ n
  bounded : n ≤ 18446744073709551615

theorem limit?_eq_some_iff {text : String} {n : Nat} : limit? text = some n ↔ Sets text n := by
  have size : UInt64.size = 18446744073709551616 := rfl
  rw [limit?, Option.filter_eq_some_iff, Text.unsigned?_eq_some_iff, decide_eq_true_eq, size]
  constructor
  · rintro ⟨numeral, positive, bounded⟩
    exact ⟨⟨_, Text.trimmed_trim _, numeral⟩, positive, Nat.le_of_lt_succ bounded⟩
  · rintro ⟨⟨core, trimmed, numeral⟩, positive, bounded⟩
    rw [trimmed.eq_trim]
    exact ⟨numeral, positive, Nat.lt_succ_of_le bounded⟩

theorem limit?_eq_none_iff {text : String} : limit? text = none ↔ ¬ ∃ n, Sets text n := by
  rw [Option.eq_none_iff_forall_ne_some, not_exists]
  exact forall_congr' fun n => not_congr limit?_eq_some_iff

/-- The decimal text of a number sets the limit, with any blanks around it. -/
theorem sets_toString {n : Nat} (positive : 1 ≤ n) (bounded : n ≤ 18446744073709551615)
    {before after : String} (blankBefore : ∀ c ∈ before.toList, Text.isBlank c = true)
    (blankAfter : ∀ c ∈ after.toList, Text.isBlank c = true) :
    Sets (before ++ toString n ++ after) n := by
  have run : Text.IsDigits (toString n).toList := Text.isDigits_toString n
  have value : Text.decimal (toString n).toList = n := Text.decimal_toString n
  refine ⟨⟨_, ?_, [], _, rfl, .inl rfl, run, value⟩, positive, bounded⟩
  rw [String.append_assoc, String.toList_append, String.toList_append]
  exact run.trimmed blankBefore blankAfter

theorem callLimit_eq_iff {words : List String} {setting : Option String} {n : Nat} :
    (ofWords words setting).callLimit = n ↔
      (∃ text, setting = some text ∧ Sets text n) ∨
        n = 256 ∧ ¬ ∃ text k, setting = some text ∧ Sets text k := by
  have limit : (ofWords words setting).callLimit = (setting.bind limit?).getD 256 := rfl
  rw [limit]
  cases setting with
  | none => simp [eq_comm]
  | some text =>
      simp only [Option.bind_some, Option.some.injEq, exists_and_left, exists_eq_left']
      cases read : limit? text with
      | none =>
          have nothing := limit?_eq_none_iff.mp read
          have other : ¬ Sets text n := fun sets => nothing ⟨n, sets⟩
          simp [nothing, other, eq_comm]
      | some k =>
          have sets := limit?_eq_some_iff.mp read
          have only : Sets text n ↔ k = n := by rw [← limit?_eq_some_iff, read, Option.some.injEq]
          have something : ∃ k, Sets text k := ⟨k, sets⟩
          simp [something, only]

end Config

/-- The settings are read exactly, for all words and all texts. The script is the first word. The
limit on nested calls is the number that the text sets it to, and it is 256 if there is no text or
the text sets it to no number. So it is never zero, and every number that has 64 bits and is not
zero is read back from its decimal text with any blanks around it. -/
theorem limit_read_exactly (words : List String) (setting : Option String) :
    (Config.ofWords words setting).script = words.head? ∧
    (∀ n, (Config.ofWords words setting).callLimit = n ↔
      (∃ text, setting = some text ∧ Config.Sets text n) ∨
        n = 256 ∧ ¬ ∃ text k, setting = some text ∧ Config.Sets text k) ∧
    1 ≤ (Config.ofWords words setting).callLimit ∧
    (∀ (n : Nat) (before after : String), 1 ≤ n → n ≤ 18446744073709551615 →
      (∀ c ∈ before.toList, Text.isBlank c = true) → (∀ c ∈ after.toList, Text.isBlank c = true) →
      (Config.ofWords words (some (before ++ toString n ++ after))).callLimit = n) := by
  refine ⟨rfl, fun n => Config.callLimit_eq_iff, ?_, ?_⟩
  · rcases Config.callLimit_eq_iff.mp (Eq.refl (Config.ofWords words setting).callLimit) with
      ⟨text, _, sets⟩ | ⟨default, _⟩
    · exact sets.positive
    · rw [default]
      decide
  · intro n before after positive bounded blankBefore blankAfter
    have sets := Config.sets_toString positive bounded blankBefore blankAfter
    exact Config.callLimit_eq_iff.mpr (.inl ⟨_, rfl, sets⟩)

/-- Leading zeros behind a plus sign, with blanks on both sides, and the largest limit. -/
theorem paddedLimit_read :
    Config.Sets "\u2003+00064\t" 64 ∧
    (Config.ofWords ["a", "b"] (some "\u2003+00064\t")).callLimit = 64 ∧
    (Config.ofWords [] (some ("" ++ toString 18446744073709551615 ++ "\n"))).callLimit
      = 18446744073709551615 := by
  have sets : Config.Sets "\u2003+00064\t" 64 := Config.limit?_eq_some_iff.mp (by decide)
  obtain ⟨_, limit, _⟩ := limit_read_exactly ["a", "b"] (some "\u2003+00064\t")
  obtain ⟨_, _, _, back⟩ := limit_read_exactly [] none
  refine ⟨sets, (limit 64).mpr (.inl ⟨_, rfl, sets⟩), ?_⟩
  exact back 18446744073709551615 "" "\n" (by decide) (by decide) (List.all_eq_true.mp rfl)
    (List.all_eq_true.mp rfl)

end Bramble
