import Bramble.Proofs.Grammar.Writing
import Bramble.Proofs.Session.Lines
import Bramble.Proofs.Token.Spacing

/-!
# Programs written out and read again

A program that has been read from a text can be written out and read again, and it is the same
program (`written_reads_back`). Its literals and names come from tokens, so each of them is a token
on its own when it is spelled as usual: integers have no sign, texts hold no quotation mark, and
names are not reserved. Such tokens are found again when they are written with spaces between them.
They render the program, and a program is determined by what renders it, without parentheses other
than its own.
-/

set_option autoImplicit false

namespace Bramble

/-! ## Literals and names from texts -/

/-- What a literal or a name must be to have a token: an integer is not negative, a text holds no
quotation mark, and a name is scanned as one identifier and is no reserved word. -/
def Leaf.Lexical : Leaf → Prop
  | .literal (.int n) => 0 ≤ n.toInt ∧ n.toInt ≤ 9223372036854775807
  | .literal (.str s) => '"' ∉ s.toList
  | .literal (.bool _) => True
  | .name x =>
      Token.scan x = [⟨.identifier, x, ⟨0, x.utf8ByteSize⟩⟩, Token.endAt x.utf8ByteSize] ∧
        ∀ kind : Token.Kind, kind.spelling? ≠ some x

theorem Text.Numeral.unique {cs : List Char} {m n : Int} (first : Numeral cs m)
    (second : Numeral cs n) : m = n :=
  Option.some.inj ((signed?_eq_some_iff.mpr first).symm.trans (signed?_eq_some_iff.mpr second))

/-- Digits alone stand for a number that is not negative. -/
theorem Text.Numeral.nonneg {cs : List Char} {n : Int} (numeral : Numeral cs n)
    (run : Token.Rule.integer.Matches cs) : 0 ≤ n := by
  cases numeral with
  | plain _ => exact Int.natCast_nonneg _
  | plus _ => exact Int.natCast_nonneg _
  | minus _ => exact absurd (run.2 '-' List.mem_cons_self) (by decide)

namespace Token

/-- A number that is not negative is written with digits alone. -/
theorem integer_toString {n : Int} (nonneg : 0 ≤ n) :
    Rule.integer.Matches (toString n).toList := by
  obtain ⟨n, rfl⟩ := Int.eq_ofNat_of_zero_le nonneg
  obtain ⟨some, digits⟩ := Text.isDigits_toDigits n
  rw [← Int.ofNat_eq_natCast, Text.toList_toString_ofNat]
  exact ⟨some, fun c member => isDigit_iff.mp (digits c member)⟩

theorem toList_quoted (s : String) : ("\"" ++ s ++ "\"").toList = '"' :: (s.toList ++ ['"']) := by
  rw [String.toList_append, String.toList_append]
  rfl

variable {t : Token} {leaf : Leaf}

/-- A literal or a name that has a token of its own is lexical. -/
theorem StandsFor.lexical (stands : t.StandsFor leaf) (alone : t.Alone) : leaf.Lexical := by
  have fits := alone.fits
  cases leaf with
  | literal l =>
      cases stands with
      | @int n kind numeral =>
          rw [kind] at fits
          exact ⟨numeral.nonneg fits, Int.le_sub_one_of_lt n.toInt_lt⟩
      | @str s kind quoted =>
          rw [kind] at fits
          obtain ⟨inner, same, plain⟩ := fits
          rw [quoted, toList_quoted] at same
          have whole : s.toList = inner := List.append_cancel_right (List.cons.inj same).2
          show '"' ∉ s.toList
          rwa [whole]
      | isTrue _ => trivial
      | isFalse _ => trivial
  | name x =>
      obtain ⟨kind, lexeme⟩ := stands
      have scanned := (alone_iff alone.known).mp alone
      rw [kind, lexeme] at scanned
      refine ⟨scanned, fun own same => ?_⟩
      refine alone.reserved (by rw [kind]; rfl) own ?_
      rwa [Rule.Matches, String.ofList_toList, lexeme]

/-- A kind with a fixed spelling, spelled as usual, is a token on its own. -/
theorem Spelled.alone_of_isFixed (spelled : t.Spelled) (fixed : t.kind.isFixed = true) :
    t.Alone := by
  obtain ⟨spelling, same⟩ := Option.isSome_iff_exists.mp fixed
  have fits : Rule.Matches (.fixed t.kind) t.lexeme.toList := by
    rw [Rule.Matches, String.ofList_toList, spelled.fixed spelling same]
    exact same
  have own := fits.eq_rule rfl
  rw [own] at fits
  refine alone_of_matches fits fun identifier => ?_
  rw [identifier] at fixed
  cases fixed

/-- A lexical literal or name, spelled as usual, is a token on its own. -/
theorem StandsFor.alone (stands : t.StandsFor leaf) (spelled : t.Spelled)
    (lexical : leaf.Lexical) : t.Alone := by
  cases leaf with
  | literal l =>
      cases stands with
      | int kind numeral =>
          obtain ⟨m, decimal⟩ := spelled.decimal kind
          rw [decimal] at numeral
          have same := (Text.numeral_toString m).unique numeral
          refine alone_of_matches ?_ fun identifier => by cases kind.symm.trans identifier
          rw [kind, decimal]
          exact integer_toString (same ▸ lexical.1)
      | @str s kind quoted =>
          refine alone_of_matches ?_ fun identifier => by cases kind.symm.trans identifier
          rw [kind, quoted, toList_quoted]
          exact ⟨s.toList, rfl, lexical⟩
      | isTrue kind => exact spelled.alone_of_isFixed (by rw [kind]; rfl)
      | isFalse kind => exact spelled.alone_of_isFixed (by rw [kind]; rfl)
  | name x =>
      obtain ⟨kind, lexeme⟩ := stands
      refine (alone_iff (by rw [kind]; decide)).mpr ?_
      rw [kind, lexeme]
      exact lexical.1

end Token

/-! ## Texts of programs -/

/-- The text of a program: its tokens with one space between any two. -/
def Program.text (p : Program) : String := Token.text p.tokens

/-- The texts of a program: the tokens of any of its renderings, spelled as usual, with one space
between any two. -/
def Program.WrittenAs (p : Program) (text : String) : Prop :=
  ∃ ts, p.Renders ts ∧ Token.AllSpelled ts ∧ text = Token.text ts

theorem Program.writtenAs_text {p : Program} (canonical : p.Canonical) : p.WrittenAs p.text :=
  ⟨p.tokens, p.renders_tokens, allSpelled_tokens canonical, rfl⟩

/-- The literals and names of a program that has been read from a text are lexical. -/
theorem Program.lexical_of_ofText {source : String} {p : Program}
    (read : Program.ofText source = .ok p) : ∀ leaf ∈ p.leaves, leaf.Lexical := by
  intro leaf member
  obtain ⟨known, tokens⟩ := ofText_eq_ok_iff.mp read
  obtain ⟨renders, canonical, _⟩ := ofTokens_eq_ok_iff.mp tokens
  obtain ⟨t, among, stands⟩ := (renders.among canonical).exists_token member
  have inside : t ∈ Token.scan source := List.takeWhile_subset _ among
  exact stands.lexical (Token.alone_of_mem_scan inside stands.kind_ne_eof (known t inside))

/-- A program whose literals and names are lexical is read from its texts. -/
theorem Program.WrittenAs.read {p : Program} {text : String} (written : p.WrittenAs text)
    (lexical : ∀ leaf ∈ p.leaves, leaf.Lexical) (canonical : p.Canonical)
    (nesting : p.nesting ≤ maxNesting) :
    Token.faults (Token.scan text) = [] ∧ Program.ofTokens (Token.scan text) = .ok p := by
  obtain ⟨ts, renders, spelled, rfl⟩ := written
  have alone : ∀ t ∈ ts, t.Alone := by
    intro t member
    rcases (renders.among canonical).token_cases member with ⟨leaf, inside, stands⟩ | fixed
    · exact stands.alone (spelled t member) (lexical leaf inside)
    · exact (spelled t member).alone_of_isFixed fixed
  obtain ⟨us, stop, alike, scanned⟩ := Token.scan_text alone
  have unended := alike.unended (Token.unended_program canonical renders)
  rw [scanned]
  refine ⟨Token.faults_eq_nil_iff.mpr ?_, ?_⟩
  · refine List.forall_mem_append.mpr ⟨?_, ?_⟩
    · exact alike.forall_kind (P := (· ≠ .unknown)) fun t member => (alone t member).known
    · exact List.forall_mem_singleton.mpr nofun
  · rw [ofTokens_eq_ok_iff, unended.takeWhile]
    exact ⟨renders.moved alike, canonical, nesting⟩

/-- A program that has been read from a text is read again, without a fault, from each of its own
texts. Its integers are not negative, its texts hold no quotation mark and its names are no
reserved words. -/
theorem written_reads_back (source : String) (p : Program)
    (read : Program.ofText source = .ok p) :
    (∀ leaf ∈ p.leaves, leaf.Lexical) ∧ p.WrittenAs p.text ∧
      ∀ text, p.WrittenAs text →
        Token.faults (Token.scan text) = [] ∧ Program.ofTokens (Token.scan text) = .ok p := by
  have lexical := Program.lexical_of_ofText read
  obtain ⟨_, tokens⟩ := Program.ofText_eq_ok_iff.mp read
  obtain ⟨_, canonical, nesting⟩ := Program.ofTokens_eq_ok_iff.mp tokens
  refine ⟨lexical, Program.writtenAs_text canonical, fun text written => ?_⟩
  exact written.read lexical canonical nesting

/-- A text with no more spaces than it needs. -/
def terseText : String := "if!a\x7bf(\"x\");\x7delse if(b==007)\x7b\x7d//end"

/-- The program of this text. -/
def terseProgram : Program :=
  [.ifElse (.unary .bang (.name "a")) [.expr (.call (.name "f") [.literal (.str "x")])]
    [.ifThen (.group (.binary .equalsEquals (.name "b") (.literal (.int 7)))) []]]

/-- The text in which this program is written out. -/
def wideText : String :=
  "if ! a \x7b f ( \"x\" ) ; \x7d else \x7b if ( b == 7 ) \x7b \x7d \x7d"

theorem terseProgram_reads_back :
    Program.ofText terseText = .ok terseProgram ∧ terseProgram.text = wideText ∧
      Token.faults (Token.scan wideText) = [] ∧
        Program.ofTokens (Token.scan wideText) = .ok terseProgram := by
  have read : Program.ofText terseText = .ok terseProgram := by with_unfolding_all rfl
  have text : terseProgram.text = wideText := by decide +kernel
  obtain ⟨_, written, reads⟩ := written_reads_back terseText terseProgram read
  refine ⟨read, text, ?_⟩
  rw [← text]
  exact reads _ written

end Bramble
