import Bramble.Proofs.Eval.Arithmetic
import Bramble.Proofs.Session.RoundTrip
import Mathlib.Data.Nat.Digits.Defs

/-!
# Values read back from their texts

The text that a program prints for an integer is a program again, if it is ended as a statement, and
so is a text that is put between quotation marks. The value of this program is the value that was
printed, on every machine, which is left alone. A negative integer is read as the negation of its
magnitude. The lowest integer has a magnitude that is no integer of the language, so its text is the
only one that is refused. How many digits a numeral has does not matter, but only the number that it
stands for (`printed_reads_back`).
-/

set_option autoImplicit false

namespace Bramble

/-! ## Numerals -/

namespace Text

/-- The number with the given decimal digits, the last of which counts one. -/
def decimal (digits : List Char) : Nat :=
  Nat.ofDigits 10 (digits.reverse.map fun c => c.toNat - '0'.toNat)

theorem digitsValue_eq_decimal (digits : List Char) : digitsValue digits = decimal digits := by
  rw [digitsValue, decimal, Nat.ofDigits_eq_foldr, List.foldl_eq_foldr_reverse, List.foldr_map]
  congr 1
  funext c n
  exact Nat.add_comm _ _

/-- Digits without a sign stand for their number and no other one. -/
theorem signed?_of_isDigits {digits : List Char} (run : IsDigits digits) :
    signed? digits = some (decimal digits : Int) := by
  rw [signed?_eq_some_iff, ← digitsValue_eq_decimal]
  exact .plain run

end Text

/-- The integers of the language that are not negative. -/
theorem exists_int64_of_le {n : Nat} (small : n ≤ 9223372036854775807) :
    ∃ k : Int64, k.toInt = (n : Int) :=
  ⟨Int64.ofInt n, Int64.toInt_ofInt_of_le (by omega) (by omega)⟩

theorem int64?_of_lt {n : Nat} (large : 9223372036854775807 < n) : int64? (n : Int) = none := by
  refine Option.eq_none_iff_forall_ne_some.mpr fun k same => ?_
  have value := int64?_eq_some_iff.mp same
  have bound := k.toInt_lt
  omega

/-! ## Tokens in front of a semicolon -/

namespace Token

variable {w rest : List Char}

theorem cut_integer (run : Rule.integer.Matches w)
    (ends : ∀ c, rest.head? = some c → c.isDigit = false) : Cut (some .intLit) w rest := by
  obtain ⟨some, digits⟩ := run
  obtain ⟨c, w, rfl⟩ := List.exists_cons_of_ne_nil some
  have digit : IsDigit c := digits c List.mem_cons_self
  have others : ∀ d ∈ w, d.isDigit = true :=
    fun d member => isDigit_iff.mpr (digits d (List.mem_cons_of_mem c member))
  have takes := takes_integer digit.opening digit (w ++ rest)
  obtain ⟨taken, left⟩ := span_append others ends
  rw [taken, left] at takes
  exact .rule .integer rfl takes

theorem cut_quoted {inner : List Char} (plain : '"' ∉ inner) :
    Cut (some .stringLit) ('"' :: (inner ++ ['"'])) rest :=
  .rule .string rfl (takes_string plain rest)

theorem scanFrom_minus (offset : Nat) (cs : List Char) :
    scanFrom offset ('-' :: cs)
      = ⟨.minus, "-", ⟨offset, offset + 1⟩⟩ :: scanFrom (offset + 1) cs := by
  have first : piece '-' cs = ⟨some .minus, 0⟩ := rfl
  rw [scanFrom_cons, firstToken, firstLexeme, first]
  rfl

/-- A semicolon at an offset. -/
def semiAt (offset : Nat) : Token := ⟨.semi, ";", ⟨offset, offset + 1⟩⟩

/-- A piece and a semicolon behind it are two tokens. -/
theorem scanFrom_semi {kind : Kind} {lexeme : String} (cut : Cut (some kind) lexeme.toList [';'])
    (offset : Nat) :
    scanFrom offset (lexeme.toList ++ [';'])
      = [⟨kind, lexeme, ⟨offset, offset + lexeme.utf8ByteSize⟩⟩,
          semiAt (offset + lexeme.utf8ByteSize), endAt (offset + lexeme.utf8ByteSize + 1)] := by
  have first : piece ';' [] = ⟨some .semi, 0⟩ := rfl
  rw [scanFrom_cut cut, scanFrom_cons, firstToken, firstLexeme, first, String.ofList_toList,
    Text.byteLength_toList]
  show _ ++ (_ ++ scanFrom _ []) = _
  rw [scanFrom_nil]
  rfl

theorem scan_semi {kind : Kind} {lexeme : String} (cut : Cut (some kind) lexeme.toList [';']) :
    scan (lexeme ++ ";") = [⟨kind, lexeme, ⟨0, lexeme.utf8ByteSize⟩⟩,
      semiAt lexeme.utf8ByteSize, endAt (lexeme.utf8ByteSize + 1)] := by
  have scanned := scanFrom_semi cut 0
  rw [Nat.zero_add] at scanned
  rwa [scan, String.toList_append]

end Token

/-! ## Statements of one expression -/

/-- An expression with a semicolon behind it is read as a statement. -/
theorem Program.ofText_expr {text : String} {ts : List Token} {offset stop : Nat}
    (scanned : Token.scan text = ts ++ [Token.semiAt offset, Token.endAt stop])
    (known : ∀ t ∈ ts, t.kind ≠ .unknown) {e : Expr} (renders : e.Renders ts)
    (canonical : e.Canonical) (nesting : e.nesting ≤ maxNesting) :
    Program.ofText text = .ok [.expr e] := by
  have whole : Program.Renders [.expr e] (ts ++ [Token.semiAt offset]) :=
    .one (.expr renders rfl)
  have canonicalAll : Program.Canonical [.expr e] := ⟨canonical, trivial⟩
  have unended := Token.unended_program canonicalAll whole
  rw [ofText_eq_ok_iff, scanned, List.append_cons]
  constructor
  · simpa [Token.semiAt, Token.endAt, or_imp, forall_and] using known
  · rw [ofTokens_eq_ok_iff, unended.takeWhile]
    refine ⟨whole, canonicalAll, ?_⟩
    simpa [Program.nesting, Stmt.nestingAll, Stmt.nesting] using nesting

/-- A literal with a semicolon behind it is read as a statement. -/
theorem Program.ofText_literal {kind : Token.Kind} {lexeme : String} {l : Literal}
    (cut : Token.Cut (some kind) lexeme.toList [';'])
    (denotes : ∀ span, (⟨kind, lexeme, span⟩ : Token).Denotes l) :
    Program.ofText (lexeme ++ ";") = .ok [.expr (.literal l)] := by
  refine @ofText_expr _ [_] _ _ (Token.scan_semi cut) ?_ _ (.literal (denotes _)) trivial ?_
  · rw [List.forall_mem_singleton]
    rintro rfl
    cases denotes default <;> contradiction
  · simp [Expr.nesting, Expr.inside, maxNesting]

theorem Program.ofText_eq_error {text : String} {e : ParseError}
    (known : ∀ t ∈ Token.scan text, t.kind ≠ .unknown)
    (failed : Program.ofTokens (Token.scan text) = .error e) :
    Program.ofText text = .error (.grammar e) := by
  rw [ofText, Token.faults_eq_nil_iff.mpr known, failed]
  rfl

namespace Parse

open Grammar

/-- Where a program begins with an expression that cannot be read, the error is the one of the
expression. -/
theorem program_of_failed {room : Nat} {c c' : Cursor} {e : ParseError} {kind : Token.Kind}
    (next : c.nextKind? = some kind) (begins : kind.prefixPower?.isSome = true)
    (failed : expression room 0 c = .error e c') : program room c = .error e c' := by
  have other : ∀ word : Token.Kind, word.prefixPower? = none → c.nextKind? ≠ some word := by
    intro word none same
    rw [Option.some.inj (next.symm.trans same), none] at begins
    cases begins
  have unseen (word : Token.Kind) (none : word.prefixPower? = none) :
      sees (M := Parse) word c = .ok false c := by
    rw [sees_eq, decide_eq_false (other word none)]
  have stated : Grammar.statement (expression room 0) (inner room) c = .error e c' := by
    refine (bind_ok (accept_of_ne (other .returnWord rfl))).trans ?_
    refine (bind_ok (unseen .openBrace rfl)).trans ?_
    exact (bind_ok (unseen .ifWord rfl)).trans (bind_error failed)
  have declared : declaration room c = .error e c' := by
    refine (bind_ok (accept_of_ne (other .letWord rfl))).trans ?_
    exact (bind_ok (accept_of_ne (other .funWord rfl))).trans stated
  have first : inProgram? (declaration room) c = .error e c' := by
    obtain ⟨t, rest, rfl, _⟩ := exists_of_nextKind? next
    exact (bind_ok (p := peek?) rfl).trans (bind_error declared)
  exact collect_error first

/-- An integer literal that is out of range fails where an expression begins with it. -/
theorem expression_of_outOfRange {t : Token} (kind : t.kind = .intLit)
    (large : (Text.signed? t.lexeme.toList).bind int64? = none) (room min : Nat) (rest : Cursor) :
    expression (room + 1) min (rest.push [t])
      = .error (.integerOutOfRange t.lexeme t.span) rest := by
  have begins : t.kind.prefixPower? = some 0 := by
    rw [kind]
    rfl
  have refused : integer (M := Parse) t = fail (.integerOutOfRange t.lexeme t.span) := by
    rw [integer, large]
  have first : Advances True (prefixForm (expression room)) [t]
      (fail (.integerOutOfRange t.lexeme t.span)) rest := by
    refine .prefixForm begins (.of_eq ?_)
    rw [prefixRest, kind]
    exact congrFun refused rest
  exact bind_error (first.enough trivial)

end Parse

theorem Program.ofTokens_outOfRange {t : Token} (kind : t.kind = .intLit)
    (large : (Text.signed? t.lexeme.toList).bind int64? = none) (more : List Token) :
    Program.ofTokens (t :: more) = .error (.integerOutOfRange t.lexeme t.span) := by
  obtain ⟨rest, front⟩ : ∃ rest : Cursor, Cursor.ofTokens (t :: more) = rest.push [t] := by
    refine ⟨⟨more.takeWhile (·.kind ≠ .eof), (Cursor.ofTokens (t :: more)).stop⟩, ?_⟩
    simp [Cursor.ofTokens, Cursor.push, kind]
  have next : (rest.push [t]).nextKind? = some .intLit := by
    rw [Cursor.nextKind?_push_cons, kind]
  have failed : Parse.expression maxNesting 0 (rest.push [t]) = _ :=
    Parse.expression_of_outOfRange kind large 255 0 rest
  rw [ofTokens, front, Parse.program_of_failed next rfl failed]

/-- The value of a statement of one expression that leaves the machine alone. -/
theorem interpret_expr {text : String} {e : Expr} (read : Program.ofText text = .ok [.expr e])
    {limit : Nat} {scope : Scope} {v : Value} {m : Machine}
    (value : e.eval (call limit) scope m = .ok v m) : interpret limit scope text m = .ok v m := by
  have ran : Stmt.run (call limit) scope (.expr e) m = .ok (.next v) m := bind_ok value
  rw [interpret_of_ofText read, Stmt.runAll_cons_next ran]
  rfl

/-! ## Digits -/

section Digits

variable {digits : String}

theorem Token.cut_digits (run : Text.IsDigits digits.toList) :
    Cut (some .intLit) digits.toList [';'] := by
  refine cut_integer ⟨run.1, fun c member => isDigit_iff.mp (run.2 c member)⟩ fun c first => ?_
  cases first
  rfl

theorem Token.scan_negative (run : Text.IsDigits digits.toList) :
    scan ("-" ++ digits ++ ";") = [⟨.minus, "-", ⟨0, 1⟩⟩,
      ⟨.intLit, digits, ⟨1, 1 + digits.utf8ByteSize⟩⟩, semiAt (1 + digits.utf8ByteSize),
      endAt (1 + digits.utf8ByteSize + 1)] := by
  have characters : ("-" ++ digits ++ ";").toList = '-' :: (digits.toList ++ [';']) := by simp
  rw [scan, characters, scanFrom_minus, scanFrom_semi (cut_digits run)]

/-- Digits in range are the integer that they stand for. -/
theorem denotes_digits (run : Text.IsDigits digits.toList) {n : Int64}
    (value : n.toInt = Text.decimal digits.toList) (span : Span) :
    (⟨.intLit, digits, span⟩ : Token).Denotes (.int n) := by
  refine .int rfl (Text.signed?_eq_some_iff.mp ?_)
  rw [value]
  exact Text.signed?_of_isDigits run

theorem Program.ofText_digits (run : Text.IsDigits digits.toList) {n : Int64}
    (value : n.toInt = Text.decimal digits.toList) :
    Program.ofText (digits ++ ";") = .ok [.expr (.literal (.int n))] :=
  ofText_literal (Token.cut_digits run) (denotes_digits run value)

theorem Program.ofText_digits_outOfRange (run : Text.IsDigits digits.toList)
    (large : 9223372036854775807 < Text.decimal digits.toList) :
    Program.ofText (digits ++ ";")
      = .error (.grammar (.integerOutOfRange digits ⟨0, digits.utf8ByteSize⟩)) := by
  have refused : (Text.signed? digits.toList).bind int64? = none := by
    rw [Text.signed?_of_isDigits run, Option.bind_some, int64?_of_lt large]
  refine ofText_eq_error ?_ ?_
  · rw [Token.scan_semi (Token.cut_digits run)]
    simp [Token.semiAt, Token.endAt]
  · rw [Token.scan_semi (Token.cut_digits run)]
    exact ofTokens_outOfRange (t := ⟨.intLit, digits, ⟨0, digits.utf8ByteSize⟩⟩) rfl refused _

/-- Digits behind a minus sign are read as a negation. -/
theorem Program.ofText_negative (run : Text.IsDigits digits.toList) {k : Int64}
    (value : k.toInt = Text.decimal digits.toList) :
    Program.ofText ("-" ++ digits ++ ";") = .ok [.expr (.unary .minus (.literal (.int k)))] := by
  refine @ofText_expr _ [_, _] _ _ (Token.scan_negative run) ?_ _
    (.unary rfl (.literal (denotes_digits run value _))) ?_ ?_
  · simp
  · exact ⟨rfl, .inl rfl, trivial⟩
  · simp [Expr.nesting, Expr.inside, maxNesting]

theorem Program.ofText_lowest :
    Program.ofText "-9223372036854775808;"
      = .error (.grammar (.integerOutOfRange "9223372036854775808" ⟨1, 20⟩)) := by
  with_unfolding_all rfl

end Digits

/-! ## Texts between quotation marks -/

theorem Program.ofText_quoted {s : String} (plain : '"' ∉ s.toList) :
    Program.ofText ("\"" ++ s ++ "\"" ++ ";") = .ok [.expr (.literal (.str s))] := by
  have cut : Token.Cut (some .stringLit) ("\"" ++ s ++ "\"").toList [';'] := by
    rw [Token.toList_quoted]
    exact Token.cut_quoted plain
  exact ofText_literal cut fun _ => .str rfl rfl

/-! ## Printed values -/

theorem Text.isDigits_toString (a : Nat) : IsDigits (toString (a : Int)).toList := by
  rw [← Int.ofNat_eq_natCast, toList_toString_ofNat]
  exact isDigits_toDigits a

theorem Text.decimal_toString (a : Nat) : decimal (toString (a : Int)).toList = a := by
  rw [← Int.ofNat_eq_natCast, toList_toString_ofNat, ← digitsValue_eq_decimal,
    digitsValue_toDigits]

/-- A negative number is written as its magnitude behind a minus sign. -/
theorem toString_neg {a : Nat} (pos : 0 < a) :
    toString (-(a : Int)) = "-" ++ toString (a : Int) := by
  obtain ⟨b, rfl⟩ := Nat.exists_eq_succ_of_ne_zero (Nat.ne_of_gt pos)
  rfl

variable {limit : Nat} {scope : Scope} {m : Machine}

theorem interpret_natural {n : Int64} {a : Nat} (value : n.toInt = a) :
    interpret limit scope (toString (a : Int) ++ ";") m = .ok (.int n) m := by
  have same : n.toInt = Text.decimal (toString (a : Int)).toList := by
    rw [value, Text.decimal_toString]
  exact interpret_expr (Program.ofText_digits (Text.isDigits_toString a) same) rfl

theorem interpret_negative {n k : Int64} {a : Nat} (magnitude : k.toInt = a)
    (value : n.toInt = -a) :
    interpret limit scope ("-" ++ toString (a : Int) ++ ";") m = .ok (.int n) m := by
  have same : k.toInt = Text.decimal (toString (a : Int)).toList := by
    rw [magnitude, Text.decimal_toString]
  refine interpret_expr (Program.ofText_negative (Text.isDigits_toString a) same) ?_
  have negated : Operator.unary .minus (.int k) = .ok (.int n) :=
    Arithmetic.checked_eq_ok (by rw [value, magnitude])
  show Eval.ofExcept (Operator.unary .minus (.int k)) m = _
  rw [negated]
  rfl

/-- An integer other than the lowest one is read back from its text. -/
theorem interpret_integer {n : Int64} (other : n ≠ Int64.minValue) :
    interpret limit scope (toString n.toInt ++ ";") m = .ok (.int n) m := by
  rcases Int.eq_nat_or_neg n.toInt with ⟨a, value | value⟩
  · rw [value]
    exact interpret_natural value
  · by_cases zero : a = 0
    · subst zero
      rw [value]
      exact interpret_natural (a := 0) value
    · have least : n.toInt ≠ -9223372036854775808 := by
        intro same
        exact other (Int64.toInt_inj.mp (same.trans Int64.toInt_minValue.symm))
      have bound := n.minValue_le_toInt
      rw [Int64.toInt_minValue] at bound
      obtain ⟨k, magnitude⟩ := exists_int64_of_le (n := a) (by omega)
      rw [value, toString_neg (Nat.pos_of_ne_zero zero)]
      exact interpret_negative magnitude value

/-- Printed values are read back as literals, in every scope and on every machine, which is left
alone. This goes for the texts of all integers but the lowest one, which is refused for the
magnitude in it, and for all strings without a quotation mark, between quotation marks. Digits are
read as the number that they stand for, however many there are, and are refused as a whole if that
number is too large. -/
theorem printed_reads_back (limit : Nat) (scope : Scope) (m : Machine) :
    (∀ n : Int64, n ≠ Int64.minValue →
      interpret limit scope (m.display (.int n) ++ ";") m = .ok (.int n) m) ∧
    interpret limit scope (m.display (.int Int64.minValue) ++ ";") m
      = .error (.grammar (.integerOutOfRange "9223372036854775808" ⟨1, 20⟩)) m ∧
    (∀ digits : String, Text.IsDigits digits.toList →
      (Text.decimal digits.toList ≤ 9223372036854775807 →
        ∃ n : Int64, n.toInt = Text.decimal digits.toList ∧
          interpret limit scope (digits ++ ";") m = .ok (.int n) m) ∧
      (9223372036854775807 < Text.decimal digits.toList →
        interpret limit scope (digits ++ ";") m
          = .error (.grammar (.integerOutOfRange digits ⟨0, digits.utf8ByteSize⟩)) m)) ∧
    (∀ s : String, '"' ∉ s.toList →
      interpret limit scope ("\"" ++ m.display (.str s) ++ "\"" ++ ";") m = .ok (.str s) m) := by
  refine ⟨fun n other => interpret_integer other, ?_, fun digits run => ⟨fun small => ?_,
    fun large => ?_⟩, fun s plain => ?_⟩
  · have text : m.display (.int Int64.minValue) ++ ";" = "-9223372036854775808;" := rfl
    rw [text, interpret, Program.ofText_lowest]
    rfl
  · obtain ⟨n, value⟩ := exists_int64_of_le small
    exact ⟨n, value, interpret_expr (Program.ofText_digits run value) rfl⟩
  · rw [interpret, Program.ofText_digits_outOfRange run large]
    rfl
  · exact interpret_expr (Program.ofText_quoted plain) rfl

end Bramble
