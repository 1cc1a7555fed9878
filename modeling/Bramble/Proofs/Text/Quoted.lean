import Bramble.Proofs.Token.LongestMatch
import Bramble.Text.Quoted

/-!
# Quoted text can be read in one way only

A character between quotation marks is written plainly, or behind a backslash, or by its number. The
first character can be told from how the text begins, whatever follows it (`unescape?`), and no
character is written with a quotation mark first. So the end of a quoted text can be told from its
characters, and quoted texts with other text behind them are read in one way only. The same goes for
lists of them (`quotedList_append_inj`).
-/

set_option autoImplicit false

namespace Bramble
namespace Text

/-! ## Numbers of characters -/

/-- The number of a hexadecimal digit. -/
def hexDigit (c : Char) : Nat :=
  if c.isDigit then c.toNat - '0'.toNat else c.toNat - 'a'.toNat + 10

/-- The number with the given hexadecimal digits. -/
def hexadecimal (digits : List Char) : Nat := digits.foldl (fun n c => 16 * n + hexDigit c) 0

theorem digitChar_hex : ∀ d < 16, hexDigit d.digitChar = d ∧ d.digitChar ≠ '\x7d' := by decide

/-- A number is known from its digits, and these do not reach over a closing brace. -/
theorem hexadecimal_toDigits (n : Nat) :
    hexadecimal (Nat.toDigits 16 n) = n ∧ ∀ c ∈ Nat.toDigits 16 n, c ≠ '\x7d' := by
  induction n using Nat.strongRecOn with
  | ind n ih =>
      by_cases small : n < 16
      · obtain ⟨value, other⟩ := digitChar_hex n small
        rw [Nat.toDigits_of_lt_base small]
        refine ⟨(Nat.zero_add _).trans value, fun c member => ?_⟩
        rwa [List.mem_singleton.mp member]
      · obtain ⟨value, other⟩ := ih (n / 16) (by omega)
        obtain ⟨lastValue, lastOther⟩ := digitChar_hex (n % 16) (Nat.mod_lt n (by decide))
        rw [Nat.toDigits_of_base_le (by decide) (by omega)]
        refine ⟨?_, List.forall_mem_append.mpr ⟨other, fun c member => ?_⟩⟩
        · rw [hexadecimal, List.foldl_append]
          show 16 * hexadecimal _ + hexDigit _ = n
          rw [value, lastValue]
          omega
        · rwa [List.mem_singleton.mp member]

/-! ## Characters -/

/-- Reads a character behind a backslash, with what follows it. -/
def unescapeMarked? : List Char → Option (Char × List Char)
  | [] => none
  | 't' :: rest => some ('\t', rest)
  | 'r' :: rest => some ('\r', rest)
  | 'n' :: rest => some ('\n', rest)
  | '0' :: rest => some ('\x00', rest)
  | 'u' :: rest =>
      some (Char.ofNat (hexadecimal ((rest.drop 1).takeWhile (· ≠ '\x7d'))),
        ((rest.drop 1).dropWhile (· ≠ '\x7d')).drop 1)
  | c :: rest => some (c, rest)

/-- Reads the first character of a text between quotation marks, with what follows it. -/
def unescape? : List Char → Option (Char × List Char)
  | [] => none
  | c :: rest => if c = '\\' then unescapeMarked? rest else some (c, rest)

theorem unescape?_numbered (c : Char) (rest : List Char) :
    unescape? (numbered c ++ rest) = some (c, rest) := by
  obtain ⟨value, other⟩ := hexadecimal_toDigits c.toNat
  have plain : ∀ d ∈ Nat.toDigits 16 c.toNat, decide (d ≠ '\x7d') = true :=
    fun d member => decide_eq_true (other d member)
  have ends : ∀ d, ('\x7d' :: rest).head? = some d → decide (d ≠ '\x7d') = false := by
    intro d first
    cases first
    rfl
  obtain ⟨taken, left⟩ := Token.span_append plain ends
  have parts : numbered c ++ rest
      = '\\' :: 'u' :: '\x7b' :: (Nat.toDigits 16 c.toNat ++ '\x7d' :: rest) := by
    simp [numbered]
  rw [parts]
  show some (Char.ofNat (hexadecimal (List.takeWhile _ _)), (List.dropWhile _ _).drop 1) = _
  rw [List.drop_one, List.tail_cons, taken, left, value, Char.ofNat_toNat]
  rfl

/-- A character is read back, whatever follows it. -/
theorem unescape?_escaped (c : Char) (rest : List Char) :
    unescape? (escaped c ++ rest) = some (c, rest) := by
  unfold escaped
  split_ifs with quote backslash tab feed line null obscure
  · rw [quote]
    rfl
  · rw [backslash]
    rfl
  · rw [tab]
    rfl
  · rw [feed]
    rfl
  · rw [line]
    rfl
  · rw [null]
    rfl
  · exact unescape?_numbered c rest
  · exact if_neg backslash

theorem escaped_append_inj {c d : Char} {rest rest' : List Char}
    (same : escaped c ++ rest = escaped d ++ rest') : c = d ∧ rest = rest' := by
  have read := unescape?_escaped c rest
  rw [same, unescape?_escaped, Option.some.injEq, Prod.mk.injEq] at read
  exact ⟨read.1.symm, read.2.symm⟩

/-- No character is written with a quotation mark first. -/
theorem escaped_append_ne (c : Char) (rest rest' : List Char) :
    escaped c ++ rest ≠ '"' :: rest' := by
  intro same
  have read := unescape?_escaped c rest
  rw [same] at read
  have first : c = '"' := by
    cases read
    rfl
  rw [first] at same
  cases same

/-! ## Texts -/

/-- Escaped characters end at the quotation mark behind them. -/
theorem flatMap_escaped_inj {cs ds rest rest' : List Char}
    (same : cs.flatMap escaped ++ '"' :: rest = ds.flatMap escaped ++ '"' :: rest') :
    cs = ds ∧ rest = rest' := by
  induction cs generalizing ds with
  | nil =>
      cases ds with
      | nil => exact ⟨rfl, List.tail_eq_of_cons_eq same⟩
      | cons d ds =>
          rw [List.flatMap_cons, List.append_assoc] at same
          exact absurd same.symm (escaped_append_ne d _ _)
  | cons c cs ih =>
      rw [List.flatMap_cons, List.append_assoc] at same
      cases ds with
      | nil => exact absurd same (escaped_append_ne c _ _)
      | cons d ds =>
          rw [List.flatMap_cons, List.append_assoc] at same
          obtain ⟨rfl, others⟩ := escaped_append_inj same
          obtain ⟨rfl, behind⟩ := ih others
          exact ⟨rfl, behind⟩

theorem toList_quoted (s : String) :
    (quoted s).toList = '"' :: (s.toList.flatMap escaped ++ ['"']) := by
  simp [quoted]

theorem quoted_append_inj {s t : String} {rest rest' : List Char}
    (same : (quoted s).toList ++ rest = (quoted t).toList ++ rest') : s = t ∧ rest = rest' := by
  rw [toList_quoted, toList_quoted] at same
  simp only [List.cons_append, List.append_assoc, List.nil_append, List.cons.injEq, true_and]
    at same
  obtain ⟨characters, behind⟩ := flatMap_escaped_inj same
  exact ⟨String.toList_inj.mp characters, behind⟩

/-! ## Lists of texts -/

/-- The texts of a list behind its first one, each with a comma and a space before it. -/
def following (texts : List String) : List Char :=
  texts.flatMap fun s => ',' :: ' ' :: (quoted s).toList

theorem following_cons (s : String) (texts : List String) :
    following (s :: texts) = ',' :: ' ' :: ((quoted s).toList ++ following texts) :=
  List.flatMap_cons

theorem toList_intercalate_quoted (s : String) (texts : List String) :
    (String.intercalate ", " ((s :: texts).map quoted)).toList
      = (quoted s).toList ++ following texts := by
  induction texts generalizing s with
  | nil => simp [following]
  | cons t texts ih =>
      have between : ", ".toList = [',', ' '] := rfl
      rw [List.map_cons, String.intercalate_cons_of_ne_nil (by simp), String.toList_append,
        String.toList_append, ih, between, List.append_assoc, following_cons, List.cons_append,
        List.singleton_append]

theorem toList_quotedList_nil : (quotedList []).toList = ['[', ']'] := rfl

theorem toList_quotedList_cons (s : String) (texts : List String) :
    (quotedList (s :: texts)).toList
      = '[' :: ((quoted s).toList ++ (following texts ++ [']'])) := by
  have opened : "[".toList = ['['] := rfl
  have closed : "]".toList = [']'] := rfl
  rw [quotedList, String.toList_append, String.toList_append, toList_intercalate_quoted, opened,
    closed, List.singleton_append, List.cons_append, List.append_assoc]

/-- The texts behind the first one end at the bracket behind them. -/
theorem following_append_inj {texts texts' : List String} {rest rest' : List Char}
    (same : following texts ++ ']' :: rest = following texts' ++ ']' :: rest') :
    texts = texts' ∧ rest = rest' := by
  induction texts generalizing texts' with
  | nil =>
      cases texts' with
      | nil => exact ⟨rfl, List.tail_eq_of_cons_eq same⟩
      | cons t texts' => exact absurd (List.head_eq_of_cons_eq same) (by decide)
  | cons s texts ih =>
      cases texts' with
      | nil => exact absurd (List.head_eq_of_cons_eq same) (by decide)
      | cons t texts' =>
          rw [following_cons, following_cons] at same
          simp only [List.cons_append, List.append_assoc, List.cons.injEq, true_and] at same
          obtain ⟨rfl, others⟩ := quoted_append_inj same
          obtain ⟨rfl, behind⟩ := ih others
          exact ⟨rfl, behind⟩

/-- An empty list does not begin like any other one. -/
theorem quotedList_cons_append_ne (s : String) (texts : List String) (rest rest' : List Char) :
    (quotedList (s :: texts)).toList ++ rest ≠ (quotedList []).toList ++ rest' := by
  intro same
  rw [toList_quotedList_nil, toList_quotedList_cons, toList_quoted] at same
  exact absurd (List.head_eq_of_cons_eq (List.tail_eq_of_cons_eq same)) (by decide)

/-- A list of quoted texts is read in one way only, whatever stands behind it. -/
theorem quotedList_append_inj {texts texts' : List String} {rest rest' : List Char}
    (same : (quotedList texts).toList ++ rest = (quotedList texts').toList ++ rest') :
    texts = texts' ∧ rest = rest' := by
  cases texts with
  | nil =>
      cases texts' with
      | nil => exact ⟨rfl, List.append_cancel_left same⟩
      | cons t texts' => exact absurd same.symm (quotedList_cons_append_ne t texts' _ _)
  | cons s texts =>
      cases texts' with
      | nil => exact absurd same (quotedList_cons_append_ne s texts _ _)
      | cons t texts' =>
          rw [toList_quotedList_cons, toList_quotedList_cons] at same
          simp only [List.cons_append, List.append_assoc, List.nil_append, List.cons.injEq,
            true_and] at same
          obtain ⟨rfl, others⟩ := quoted_append_inj same
          obtain ⟨rfl, behind⟩ := following_append_inj others
          exact ⟨rfl, behind⟩

end Text
end Bramble
