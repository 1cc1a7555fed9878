import Bramble.Proofs.Grammar.RenderedTokens
import Bramble.Token.Scan

/-!
# Scanning of lines

A line feed ends every piece of a text that may stand before it: numbers, words, symbols and
comments cannot reach beyond it, and a run of spaces that does is dropped as a whole. Only a string
can hold a line feed, and a string that is closed before it does not see it. So a text whose tokens
are all known is scanned in front of a line feed and more text just as it is scanned alone
(`scanFrom_line`). The text behind the line feed gives the tokens that it gives alone, moved to
another place (`scanFrom_add`).
-/

set_option autoImplicit false

namespace Bramble
namespace Token

/-! ## Scanning piece by piece -/

/-- Induction over a text by the pieces that it is cut into. -/
theorem pieces_induction {motive : List Char → Prop} (nil : motive [])
    (cons : ∀ c rest, motive (rest.drop (piece c rest).more) → motive (c :: rest))
    (cs : List Char) : motive cs := by
  induction size : cs.length using Nat.strongRecOn generalizing cs with
  | ind size ih =>
      cases cs with
      | nil => exact nil
      | cons c rest =>
          refine cons c rest (ih _ ?_ _ rfl)
          rw [← size, List.length_drop, List.length_cons]
          omega

/-- The characters of the first piece of a text. -/
def firstLexeme (c : Char) (rest : List Char) : List Char := c :: rest.take (piece c rest).more

/-- The token of the first piece of a text, if it is not dropped. -/
def firstToken (offset : Nat) (c : Char) (rest : List Char) : List Token :=
  match (piece c rest).kind? with
  | none => []
  | some kind =>
      [⟨kind, String.ofList (firstLexeme c rest),
        ⟨offset, offset + Text.byteLength (firstLexeme c rest)⟩⟩]

theorem scanFrom_nil (offset : Nat) : scanFrom offset [] = [endAt offset] := by
  rw [scanFrom]

theorem scanFrom_cons (offset : Nat) (c : Char) (rest : List Char) :
    scanFrom offset (c :: rest)
      = firstToken offset c rest ++ scanFrom (offset + Text.byteLength (firstLexeme c rest))
          (rest.drop (piece c rest).more) := by
  rw [scanFrom, firstToken, firstLexeme]
  cases (piece c rest).kind? <;> rfl

theorem byteLength_firstLexeme (c : Char) (rest : List Char) :
    Text.byteLength (firstLexeme c rest) + Text.byteLength (rest.drop (piece c rest).more)
      = Text.byteLength (c :: rest) := by
  rw [← Text.byteLength_append, firstLexeme, List.cons_append, List.take_append_drop]

/-! ## Pieces in front of a line feed -/

/-- A class that has no line feed ends in front of one. -/
theorem takeWhile_line {p : Char → Bool} (ends : p '\n' = false) (cs ds : List Char) :
    (cs ++ '\n' :: ds).takeWhile p = cs.takeWhile p := by
  induction cs with
  | nil => simp [ends]
  | cons c cs ih => rw [List.cons_append, List.takeWhile_cons, List.takeWhile_cons, ih]

theorem stringPiece_append {rest : List Char}
    (closed : (stringPiece rest).kind? ≠ some .unknown) (ds : List Char) :
    stringPiece (rest ++ ds) = stringPiece rest := by
  unfold stringPiece at closed ⊢
  cases behind : rest.dropWhile (· ≠ '"') with
  | nil =>
      rw [behind] at closed
      exact absurd rfl closed
  | cons mark after =>
      have inside : (rest.takeWhile (· ≠ '"')).length ≠ rest.length := by
        have parts := congrArg List.length (List.takeWhile_append_dropWhile
          (p := (· ≠ '"')) (l := rest))
        rw [behind, List.length_append, List.length_cons] at parts
        omega
      rw [List.dropWhile_append, behind, List.takeWhile_append, if_neg inside]
      rfl

theorem symbol_line (c : Char) (rest ds : List Char) :
    symbol c (rest ++ '\n' :: ds).head? = symbol c rest.head? := by
  cases rest with
  | nil => simp [symbol]
  | cons d rest => rfl

/-- A known piece other than spaces is not changed by a line feed behind the text. -/
theorem piece_line {c : Char} {rest : List Char} (space : isSpace c = false)
    (known : (piece c rest).kind? ≠ some .unknown) (ds : List Char) :
    piece c (rest ++ '\n' :: ds) = piece c rest := by
  by_cases digit : c.isDigit = true
  · have run := takeWhile_line (p := Char.isDigit) (by decide) rest ds
    simp [piece, space, digit, run]
  by_cases word : isWordStart c = true
  · have run := takeWhile_line (p := isWordPart) (by decide) rest ds
    simp [piece, space, digit, word, run]
  by_cases quoted : c = '"'
  · have whole : ∀ cs, piece c cs = stringPiece cs := by
      intro cs
      rw [piece, if_neg (by simp [space]), if_neg digit, if_neg word, if_pos quoted]
    rw [whole] at known
    rw [whole, whole, stringPiece_append known]
  · have run := takeWhile_line (p := (· ≠ '\n')) (by decide) rest ds
    have whole : ∀ cs, piece c cs = if c = '/' ∧ cs.head? = some '/'
        then ⟨none, (cs.takeWhile (· ≠ '\n')).length⟩ else symbol c cs.head? := by
      intro cs
      rw [piece, if_neg (by simp [space]), if_neg digit, if_neg word, if_neg quoted]
    have second : (rest ++ '\n' :: ds).head? = some '/' ↔ rest.head? = some '/' := by
      cases rest <;> simp
    rw [whole, whole, run, symbol_line]
    simp only [second]

/-- A symbol has a second character only if that character is there. -/
theorem symbol_more_le (c : Char) (rest : List Char) :
    (symbol c rest.head?).more ≤ rest.length := by
  by_cases follows : rest.head? = some '='
  · have longer : (symbol c rest.head?).more ≤ 1 := by
      unfold symbol
      simp only [if_pos follows]
      split <;> decide
    cases rest with
    | nil => cases follows
    | cons d rest => exact Nat.le_trans longer (Nat.le_add_left 1 rest.length)
  · have alone : (symbol c rest.head?).more = 0 := by
      unfold symbol
      simp only [if_neg follows]
      split <;> rfl
    exact alone ▸ Nat.zero_le _

/-- A piece ends within the text. -/
theorem piece_more_le (c : Char) (rest : List Char) : (piece c rest).more ≤ rest.length := by
  have run (p : Char → Bool) : (rest.takeWhile p).length ≤ rest.length :=
    (List.takeWhile_prefix p).length_le
  unfold piece
  split
  · exact run isSpace
  split
  · exact run Char.isDigit
  split
  · exact run isWordPart
  split
  · unfold stringPiece
    split
    · exact Nat.le_refl _
    · next mark after behind =>
        have parts := congrArg List.length (List.takeWhile_append_dropWhile
          (p := (· ≠ '"')) (l := rest))
        rw [behind, List.length_append, List.length_cons] at parts
        show (rest.takeWhile (· ≠ '"')).length + 1 ≤ rest.length
        omega
  split
  · exact run _
  · exact symbol_more_le c rest

theorem ofWord_ne_eof (word : String) : Kind.ofWord word ≠ .eof := by
  unfold Kind.ofWord
  cases found : Kind.words.find? fun kind => kind.spelling? == some word with
  | none =>
      intro same
      cases same
  | some kind =>
      have member := List.mem_of_find?_eq_some found
      rintro rfl
      revert member
      decide

/-- No piece of a text is taken for its end. -/
theorem piece_kind_ne_eof (c : Char) (rest : List Char) : (piece c rest).kind? ≠ some .eof := by
  unfold piece
  split
  · simp
  split
  · simp
  split
  · exact fun same => ofWord_ne_eof _ (Option.some_inj.mp same)
  split
  · unfold stringPiece
    split <;> simp
  split
  · simp
  · unfold symbol
    split <;> split <;> simp

theorem unended_firstToken (offset : Nat) (c : Char) (rest : List Char) :
    Unended (firstToken offset c rest) := by
  unfold firstToken
  split
  · exact unended_nil
  · next kind found =>
      refine unended_cons.mpr ⟨?_, unended_nil⟩
      rintro rfl
      exact piece_kind_ne_eof c rest found

/-! ## Spaces -/

theorem piece_space {c : Char} (space : isSpace c = true) (rest : List Char) :
    piece c rest = ⟨none, (rest.takeWhile isSpace).length⟩ :=
  if_pos space

theorem take_takeWhile (p : Char → Bool) (cs : List Char) :
    cs.take (cs.takeWhile p).length = cs.takeWhile p :=
  (List.prefix_iff_eq_take.mp (List.takeWhile_prefix p)).symm

theorem drop_takeWhile (p : Char → Bool) (cs : List Char) :
    cs.drop (cs.takeWhile p).length = cs.dropWhile p := by
  have parts := List.takeWhile_append_dropWhile (p := p) (l := cs)
  have front := List.take_append_drop (cs.takeWhile p).length cs
  rw [take_takeWhile] at front
  exact List.append_cancel_left (front.trans parts.symm)

/-- Spaces in front of a text move its tokens. -/
theorem scanFrom_dropWhile (offset : Nat) (cs : List Char) :
    scanFrom offset cs
      = scanFrom (offset + Text.byteLength (cs.takeWhile isSpace)) (cs.dropWhile isSpace) := by
  cases cs with
  | nil => rfl
  | cons c rest =>
      cases space : isSpace c with
      | true =>
          rw [scanFrom_cons, firstToken, firstLexeme, piece_space space, take_takeWhile,
            drop_takeWhile, List.takeWhile_cons_of_pos space, List.dropWhile_cons_of_pos space]
          rfl
      | false =>
          rw [List.takeWhile_cons_of_neg (by simp [space]),
            List.dropWhile_cons_of_neg (by simp [space])]
          rfl

theorem scanFrom_space (offset : Nat) {c : Char} (space : isSpace c = true) (cs : List Char) :
    scanFrom offset (c :: cs) = scanFrom (offset + c.utf8Size) cs := by
  rw [scanFrom_dropWhile offset, scanFrom_dropWhile (offset + c.utf8Size),
    List.takeWhile_cons_of_pos space, List.dropWhile_cons_of_pos space, Text.byteLength,
    Nat.add_assoc]

theorem scanFrom_spaces (offset : Nat) {cs : List Char} (spaces : ∀ c ∈ cs, isSpace c = true)
    (ds : List Char) :
    scanFrom offset (cs ++ ds) = scanFrom (offset + Text.byteLength cs) ds := by
  induction cs generalizing offset with
  | nil => rfl
  | cons c cs ih =>
      have others := ih (offset + c.utf8Size) fun c member =>
        spaces c (List.mem_cons_of_mem _ member)
      rw [List.cons_append, scanFrom_space offset (spaces c List.mem_cons_self), others,
        Text.byteLength, Nat.add_assoc]

/-! ## Lines -/

/-- The first piece of a text, and all that comes after it, in front of a line feed. -/
theorem scanFrom_cons_line (offset : Nat) {c : Char} {rest : List Char}
    (known : ∀ t ∈ firstToken offset c rest, t.kind ≠ .unknown) (ds : List Char) :
    scanFrom offset (c :: rest ++ '\n' :: ds)
      = firstToken offset c rest ++ scanFrom (offset + Text.byteLength (firstLexeme c rest))
          (rest.drop (piece c rest).more ++ '\n' :: ds) := by
  cases space : isSpace c with
  | true =>
      -- The run of spaces goes on over the line feed, so the piece is another one here.
      have dropped : firstToken offset c rest = [] := by
        rw [firstToken, piece_space space]
      have spaces : ∀ d ∈ firstLexeme c rest, isSpace d = true := by
        rw [firstLexeme, piece_space space, take_takeWhile]
        intro d member
        rcases List.mem_cons.mp member with rfl | member
        · exact space
        · exact List.all_eq_true.mp List.all_takeWhile d member
      have cut : c :: rest ++ '\n' :: ds
          = firstLexeme c rest ++ (rest.drop (piece c rest).more ++ '\n' :: ds) := by
        rw [firstLexeme, List.cons_append, List.cons_append, ← List.append_assoc,
          List.take_append_drop]
      rw [dropped, cut, scanFrom_spaces offset spaces]
      rfl
  | false =>
      have known : (piece c rest).kind? ≠ some .unknown := by
        intro unknown
        simp [firstToken, unknown] at known
      have same := piece_line space known ds
      have within := piece_more_le c rest
      rw [List.cons_append, scanFrom_cons, firstToken, firstLexeme, firstToken, firstLexeme, same,
        List.take_append_of_le_length within, List.drop_append_of_le_length within]

/-- A text whose tokens are all known is scanned in front of a line feed as it is scanned alone. -/
theorem scanFrom_line (cs : List Char) (offset : Nat)
    (known : ∀ t ∈ scanFrom offset cs, t.kind ≠ .unknown) :
    ∃ ts, Unended ts ∧ scanFrom offset cs = ts ++ [endAt (offset + Text.byteLength cs)] ∧
      ∀ ds, scanFrom offset (cs ++ '\n' :: ds)
        = ts ++ scanFrom (offset + Text.byteLength cs + 1) ds := by
  induction cs using pieces_induction generalizing offset with
  | nil =>
      refine ⟨[], unended_nil, scanFrom_nil offset, fun ds => ?_⟩
      exact scanFrom_space offset (by decide) ds
  | cons c rest ih =>
      rw [scanFrom_cons] at known
      obtain ⟨ts, unended, alone, joined⟩ := ih _ fun t member =>
        known t (List.mem_append_right _ member)
      have length := byteLength_firstLexeme c rest
      refine ⟨firstToken offset c rest ++ ts, ?_, ?_, fun ds => ?_⟩
      · exact unended_append.mpr ⟨unended_firstToken offset c rest, unended⟩
      · rw [scanFrom_cons, alone, List.append_assoc, Nat.add_assoc, length]
      · have first := scanFrom_cons_line offset
          (fun t member => known t (List.mem_append_left _ member)) ds
        rw [first, joined, List.append_assoc, Nat.add_assoc offset, length]

/-- A token moved to another place. -/
def shift (n : Nat) (t : Token) : Token := { t with span := ⟨n + t.span.start, n + t.span.stop⟩ }

/-- A text gives the same tokens everywhere, up to their places. -/
theorem scanFrom_add (n : Nat) (cs : List Char) (offset : Nat) :
    scanFrom (n + offset) cs = (scanFrom offset cs).map (shift n) := by
  induction cs using pieces_induction generalizing offset with
  | nil =>
      rw [scanFrom_nil, scanFrom_nil]
      rfl
  | cons c rest ih =>
      have first : firstToken (n + offset) c rest = (firstToken offset c rest).map (shift n) := by
        unfold firstToken
        cases (piece c rest).kind? with
        | none => rfl
        | some kind => simp [shift, Nat.add_assoc]
      rw [scanFrom_cons, scanFrom_cons, List.map_append, first, Nat.add_assoc, ih]

end Token
end Bramble
