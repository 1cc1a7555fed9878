import Bramble.Text.Order
import Mathlib.Algebra.Group.Nat.Defs
import Mathlib.Data.List.Sort

/-!
# The order of names is the order of their bytes

Names are compared by the code points of their characters. In UTF-8 a character with a lower code
point has a lower byte at the first place where the two differ, and such a place comes before the
end of both. So the order of the code points is the order of the bytes (`precedes_iff`), and the
names in their order are strictly increasing by their bytes, if they differ from each other. There
is only one such list of the same names (`Ascending.eq_of_mem_iff`).
-/

set_option autoImplicit false

namespace Bramble
namespace Text

/-! ## Bytes -/

/-- The bytes of characters in UTF-8. -/
def encoded (cs : List Char) : List UInt8 := cs.flatMap String.utf8EncodeChar

/-- The bytes of a text in UTF-8. -/
def bytes (s : String) : List UInt8 := s.toUTF8.data.toList

theorem bytes_eq_encoded (s : String) : bytes s = encoded s.toList := by
  have written : (String.ofList s.toList).toByteArray = (encoded s.toList).toByteArray :=
    String.toByteArray_ofList
  rw [String.ofList_toList] at written
  rw [bytes, String.toUTF8, written, List.data_toByteArray]

theorem bytes_inj {s t : String} : bytes s = bytes t ↔ s = t := by
  refine ⟨fun same => ?_, congrArg bytes⟩
  exact String.toByteArray_inj.mp (ByteArray.ext (Array.toList_inj.mp same))

/-- The first difference of two lists of bytes comes before the end of both, and the first list has
the lower byte there. -/
def Below : List UInt8 → List UInt8 → Prop
  | x :: us, y :: vs => x < y ∨ x = y ∧ Below us vs
  | _, _ => False

/-- Whatever comes behind, the first difference decides. -/
theorem Below.append_lt {us vs : List UInt8} (below : Below us vs) (us' vs' : List UInt8) :
    us ++ us' < vs ++ vs' := by
  induction us generalizing vs with
  | nil => cases below
  | cons x us ih =>
      cases vs with
      | nil => cases below
      | cons y vs =>
          rw [List.cons_append, List.cons_append, List.cons_lt_cons_iff]
          exact below.imp_right (And.imp_right fun rest => ih rest)

/-- Of two numbers the lower one has the lower quotient, or an equal one and the lower remainder. -/
theorem div_lt_or {m n : Nat} (lower : m < n) (d : Nat) :
    m / d < n / d ∨ m / d = n / d ∧ m % d < n % d := by
  rcases Nat.lt_or_eq_of_le (Nat.div_le_div_right (c := d) (Nat.le_of_lt lower)) with less | same
  · exact .inl less
  · have first := Nat.div_add_mod m d
    have second := Nat.div_add_mod n d
    rw [same] at first
    exact .inr ⟨same, by omega⟩

/-- The last digits of a number to base 64, as the bytes that continue a character. -/
def continuing : Nat → Nat → List UInt8
  | 0, _ => []
  | k + 1, n => UInt8.ofNat (n / 64 ^ k % 64 + 128) :: continuing k n

theorem below_continuing {k m n : Nat} (lower : m % 64 ^ k < n % 64 ^ k) :
    Below (continuing k m) (continuing k n) := by
  induction k with
  | zero => omega
  | succ k ih =>
      have digit : ∀ n, n % 64 ^ (k + 1) / 64 ^ k = n / 64 ^ k % 64 := by
        intro n
        rw [Nat.pow_succ, Nat.mod_mul_right_div_self]
      have rest : ∀ n, n % 64 ^ (k + 1) % 64 ^ k = n % 64 ^ k :=
        fun n => Nat.mod_mod_of_dvd n (Nat.pow_dvd_pow 64 (Nat.le_succ k))
      have decided := div_lt_or lower (64 ^ k)
      rw [digit, digit, rest, rest] at decided
      rcases decided with less | ⟨same, less⟩
      · refine .inl (UInt8.lt_iff_toNat_lt.mpr ?_)
        simp only [UInt8.toNat_ofNat']
        omega
      · exact .inr ⟨by rw [same], ih less⟩

/-- How many bytes continue the character with a code point. -/
def continuations (code : Nat) : Nat :=
  if code ≤ 127 then 0 else if code ≤ 2047 then 1 else if code ≤ 65535 then 2 else 3

/-- The first byte of the character with a code point. -/
def lead (code : Nat) : Nat :=
  if code ≤ 127 then code
  else if code ≤ 2047 then code / 64 + 192
  else if code ≤ 65535 then code / 4096 + 224
  else code / 262144 + 240

theorem toNat_lt_limit (c : Char) : c.toNat < 1114112 := by
  rcases c.valid with low | ⟨_, high⟩
  · exact Nat.lt_trans low (by decide)
  · exact high

theorem utf8EncodeChar_eq (c : Char) :
    String.utf8EncodeChar c
      = UInt8.ofNat (lead c.toNat) :: continuing (continuations c.toNat) c.toNat := by
  have bound := toNat_lt_limit c
  have value : c.val.toNat = c.toNat := rfl
  unfold String.utf8EncodeChar lead continuations
  simp only [value]
  split_ifs with one two three
  · rfl
  · rw [Nat.mod_eq_of_lt (show c.toNat / 64 < 32 by omega)]
    simp [continuing]
  · rw [Nat.mod_eq_of_lt (show c.toNat / 4096 < 16 by omega)]
    simp [continuing]
  · rw [Nat.mod_eq_of_lt (show c.toNat / 262144 < 8 by omega)]
    simp [continuing]

/-- Of two code points the lower one has the lower first byte, or an equal one, as many bytes behind
it and the lower digits in these. -/
theorem lead_lt_or {m n : Nat} (lower : m < n) (bound : n < 1114112) :
    lead m < lead n ∨ lead m = lead n ∧ continuations m = continuations n ∧
      m % 64 ^ continuations m < n % 64 ^ continuations m := by
  have two := div_lt_or lower 64
  have three := div_lt_or lower 4096
  have four := div_lt_or lower 262144
  unfold lead continuations
  split_ifs <;> omega

/-- A lower code point has a lower byte first. -/
theorem below_utf8EncodeChar {a b : Char} (lower : a.toNat < b.toNat) :
    Below (String.utf8EncodeChar a) (String.utf8EncodeChar b) := by
  have bound := toNat_lt_limit b
  rw [utf8EncodeChar_eq, utf8EncodeChar_eq]
  rcases lead_lt_or lower bound with less | ⟨same, size, less⟩
  · have small : lead b.toNat < 256 := by
      unfold lead
      split_ifs <;> omega
    refine .inl (UInt8.lt_iff_toNat_lt.mpr ?_)
    rw [UInt8.toNat_ofNat', UInt8.toNat_ofNat']
    omega
  · rw [same, ← size]
    exact .inr ⟨rfl, below_continuing less⟩

/-! ## The order of names -/

theorem encoded_cons (c : Char) (cs : List Char) :
    encoded (c :: cs) = String.utf8EncodeChar c ++ encoded cs :=
  List.flatMap_cons

theorem encoded_lt_of_lower {a b : Char} (lower : a.toNat < b.toNat) (as bs : List Char) :
    encoded (a :: as) < encoded (b :: bs) := by
  rw [encoded_cons, encoded_cons]
  exact (below_utf8EncodeChar lower).append_lt _ _

theorem append_le_append_iff {us vs vs' : List UInt8} : us ++ vs ≤ us ++ vs' ↔ vs ≤ vs' := by
  induction us with
  | nil => rfl
  | cons x us ih =>
      rw [List.cons_append, List.cons_append, List.cons_le_cons_iff, ih]
      simp

/-- Comparing code points is comparing bytes. -/
theorem precedes_iff_encoded_le {as bs : List Char} :
    precedes as bs = true ↔ encoded as ≤ encoded bs := by
  induction as generalizing bs with
  | nil => simp [precedes, encoded]
  | cons a as ih =>
      cases bs with
      | nil => simp [precedes, encoded, utf8EncodeChar_eq]
      | cons b bs =>
          rw [precedes]
          split
          · next same =>
              rw [same, encoded_cons, encoded_cons, append_le_append_iff]
              exact ih
          · next other =>
              have differ : a.toNat ≠ b.toNat := mt Char.toNat_inj.mp other
              rw [decide_eq_true_eq]
              constructor
              · exact fun lower => List.le_of_lt (encoded_lt_of_lower lower as bs)
              · intro most
                by_contra higher
                exact most (encoded_lt_of_lower (by omega) bs as)

theorem precedes_iff {s t : String} :
    precedes s.toList t.toList = true ↔ bytes s ≤ bytes t := by
  rw [precedes_iff_encoded_le, bytes_eq_encoded, bytes_eq_encoded]

/-- Names are listed by their bytes, each one after those with lower bytes. -/
def Ascending (names : List String) : Prop := names.Pairwise fun a b => bytes a < bytes b

theorem mem_sorted {names : List String} {x : String} : x ∈ sorted names ↔ x ∈ names :=
  List.mem_mergeSort

/-- Names that differ from each other are ascending when they are in order. -/
theorem ascending_sorted {names : List String} (nodup : names.Nodup) :
    Ascending (sorted names) := by
  have ordered : (sorted names).Pairwise fun a b => precedes a.toList b.toList = true := by
    refine List.pairwise_mergeSort (fun a b c first second => ?_) (fun a b => ?_) names
    · rw [precedes_iff] at first second ⊢
      exact List.le_trans first second
    · rw [Bool.or_eq_true, precedes_iff, precedes_iff]
      exact List.le_total _ _
  have distinct : (sorted names).Nodup := (List.mergeSort_perm names _).nodup_iff.mpr nodup
  refine (ordered.and distinct).imp fun both => ?_
  obtain ⟨most, differ⟩ := both
  exact (List.le_iff_lt_or_eq.mp (precedes_iff.mp most)).resolve_right (mt bytes_inj.mp differ)

/-- Ascending lists of the same names are the same. -/
theorem Ascending.eq_of_mem_iff {names names' : List String} (first : Ascending names)
    (second : Ascending names') (same : ∀ x, x ∈ names ↔ x ∈ names') : names = names' := by
  have irreflexive : Std.Irrefl fun a b : String => bytes a < bytes b :=
    ⟨fun a => List.lt_irrefl (bytes a)⟩
  have antisymmetric : Std.Antisymm fun a b : String => bytes a < bytes b :=
    ⟨fun a b lower higher => absurd higher (List.lt_asymm lower)⟩
  exact List.Pairwise.eq_of_mem_iff first second same

end Text
end Bramble
