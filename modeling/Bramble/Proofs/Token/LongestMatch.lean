import Bramble.Proofs.Token.LexicalGrammar
import Bramble.Proofs.Token.Lines
import Mathlib.Data.List.TakeWhile

/-!
# Scanning by the lexical grammar

Scanning decides by the first character of a piece and then takes as many characters as fit. Each
piece found so is the one that the grammar asks for: no rule has a longer match, and where a
character is taken as unknown no rule matches at all. Since the grammar leaves no choice, the tokens
of a text by the grammar are those that scanning gives, and no others (`scan_is_lexical_grammar`).
-/

set_option autoImplicit false

namespace Bramble
namespace Token

/-! ## Classes of characters -/

theorem isSpace_iff {c : Char} : isSpace c = true ↔ IsSpace c := by
  simp [isSpace, IsSpace, or_assoc]

theorem isDigit_iff {c : Char} : c.isDigit = true ↔ IsDigit c := by
  simp [Char.isDigit, IsDigit, Char.le_def]

theorem isAlpha_iff {c : Char} : c.isAlpha = true ↔ IsLetter c := by
  have upper : c.isUpper = decide ('A' ≤ c ∧ c ≤ 'Z') := rfl
  have lower : c.isLower = (decide ('a' ≤ c) && decide (c ≤ 'z')) := rfl
  have either : c.isAlpha = (c.isUpper || c.isLower) := rfl
  rw [either, upper, lower]
  simp [IsLetter, or_comm]

theorem isWordStart_iff {c : Char} : isWordStart c = true ↔ IsLetter c ∨ c = '_' := by
  simp [isWordStart, isAlpha_iff]

theorem isWordPart_iff {c : Char} : isWordPart c = true ↔ IsLetter c ∨ IsDigit c ∨ c = '_' := by
  simp [isWordPart, Char.isAlphanum, isAlpha_iff, isDigit_iff, or_assoc]

/-! ## Runs of characters -/

/-- Characters of a class at the beginning of a text belong to the longest run of that class. -/
theorem length_le_takeWhile {p : Char → Bool} {w cs : List Char} (front : w <+: cs)
    (all : ∀ c ∈ w, p c = true) : w.length ≤ (cs.takeWhile p).length := by
  obtain ⟨rest, rfl⟩ := front
  rw [List.takeWhile_append_of_pos all, List.length_append]
  exact Nat.le_add_right _ _

/-- A run of a class ends in front of a character of another class, and at the end of a text. -/
theorem span_append {p : Char → Bool} {w rest : List Char} (all : ∀ c ∈ w, p c = true)
    (ends : ∀ c, rest.head? = some c → p c = false) :
    (w ++ rest).takeWhile p = w ∧ (w ++ rest).dropWhile p = rest := by
  rw [List.takeWhile_append_of_pos all, List.dropWhile_append_of_pos all]
  cases rest with
  | nil => exact ⟨List.append_nil w, rfl⟩
  | cons c rest =>
      have other : ¬ p c = true := by simp [ends c rfl]
      rw [List.takeWhile_cons_of_neg other, List.dropWhile_cons_of_neg other]
      exact ⟨List.append_nil w, rfl⟩

theorem decide_ne_of_notMem {mark : Char} {w : List Char} (absent : mark ∉ w) :
    ∀ c ∈ w, decide (c ≠ mark) = true := by
  intro c member
  refine decide_eq_true ?_
  rintro rfl
  exact absent member

/-- A rule takes the longest run of a class after `c`, if no match of any rule that begins with
`c` goes beyond this class. -/
theorem takes_run {rule : Rule} {p : Char → Bool} {c : Char} {rest : List Char}
    (fits : rule.Matches (c :: rest.takeWhile p))
    (within : ∀ other w, Rule.Matches other (c :: w) → w <+: rest → ∀ d ∈ w, p d = true)
    (reserved : rule = .identifier → ∀ kind, ¬ Rule.Matches (.fixed kind) (c :: rest.takeWhile p)) :
    rule.Takes (c :: rest.takeWhile p) (rest.dropWhile p) where
  fits := fits
  longest := by
    intro other w fits' front
    rw [List.cons_append, List.takeWhile_append_dropWhile] at front
    obtain ⟨d, w, rfl⟩ := List.exists_cons_of_ne_nil fits'.ne_nil
    obtain ⟨rfl, behind⟩ := List.cons_prefix_cons.mp front
    exact Nat.succ_le_succ (length_le_takeWhile behind (within other w fits' behind))
  reserved := reserved

/-- A run of spaces. -/
theorem takes_spaces {c : Char} (opening : Opening.of c = .space) (space : IsSpace c)
    (rest : List Char) :
    Rule.spaces.Takes (c :: rest.takeWhile isSpace) (rest.dropWhile isSpace) := by
  refine takes_run ⟨List.cons_ne_nil _ _, ?_⟩ ?_ ?_
  · intro d member
    rcases List.mem_cons.mp member with rfl | member
    · exact space
    · exact isSpace_iff.mp (List.mem_takeWhile_imp member)
  · intro other w fits _ d member
    have shape := fits.shape
    rw [opening] at shape
    exact isSpace_iff.mpr (shape d member)
  · intro same
    cases same

/-- A number. -/
theorem takes_integer {c : Char} (opening : Opening.of c = .digit) (digit : IsDigit c)
    (rest : List Char) :
    Rule.integer.Takes (c :: rest.takeWhile Char.isDigit) (rest.dropWhile Char.isDigit) := by
  refine takes_run ⟨List.cons_ne_nil _ _, ?_⟩ ?_ ?_
  · intro d member
    rcases List.mem_cons.mp member with rfl | member
    · exact digit
    · exact isDigit_iff.mp (List.mem_takeWhile_imp member)
  · intro other w fits _ d member
    have shape := fits.shape
    rw [opening] at shape
    exact isDigit_iff.mpr (shape d member)
  · intro same
    cases same

/-- The kind of a word belongs to a rule that the word matches. -/
theorem ofWord_rule (w : List Char) (word : IsWord w) :
    ∃ rule : Rule, rule.kind? = some (Kind.ofWord (String.ofList w)) ∧ rule.Matches w ∧
      (rule = .identifier → ∀ kind, ¬ Rule.Matches (.fixed kind) w) := by
  unfold Kind.ofWord
  cases found : Kind.words.find? fun kind => kind.spelling? == some (String.ofList w) with
  | some kind =>
      have spelled := List.find?_some found
      refine ⟨.fixed kind, rfl, beq_iff_eq.mp spelled, ?_⟩
      intro same
      cases same
  | none =>
      refine ⟨.identifier, rfl, word, ?_⟩
      intro _ kind fits
      exact List.find?_eq_none.mp found kind (mem_words_of_fixed fits word) (beq_iff_eq.mpr fits)

/-- A word. -/
theorem takes_word {c : Char} (opening : Opening.of c = .word) (letter : IsLetter c ∨ c = '_')
    (rest : List Char) : ∃ rule : Rule,
      rule.kind? = some (Kind.ofWord (String.ofList (c :: rest.takeWhile isWordPart))) ∧
        rule.Takes (c :: rest.takeWhile isWordPart) (rest.dropWhile isWordPart) := by
  have word : IsWord (c :: rest.takeWhile isWordPart) :=
    ⟨letter, fun d member => isWordPart_iff.mp (List.mem_takeWhile_imp member)⟩
  obtain ⟨rule, kind, fits, reserved⟩ := ofWord_rule _ word
  refine ⟨rule, kind, takes_run fits ?_ reserved⟩
  intro other w fits' _ d member
  have shape := fits'.shape
  rw [opening] at shape
  exact isWordPart_iff.mpr (shape.2 d member)

/-- A comment. -/
theorem takes_comment (rest : List Char) (second : rest.head? = some '/') :
    Rule.comment.Takes ('/' :: rest.takeWhile (· ≠ '\n')) (rest.dropWhile (· ≠ '\n')) := by
  refine takes_run ?_ ?_ ?_
  · obtain ⟨tail, rfl⟩ : ∃ tail, rest = '/' :: tail := by
      cases rest with
      | nil => cases second
      | cons d tail => exact ⟨tail, congrArg (· :: tail) (Option.some.inj second)⟩
    refine ⟨tail.takeWhile (· ≠ '\n'), ?_, ?_⟩
    · rw [List.takeWhile_cons_of_pos (by decide)]
    · intro member
      have other := List.mem_takeWhile_imp member
      exact absurd other (by decide)
  · intro other w fits _ d member
    have shape := fits.shape
    rw [show Opening.of '/' = .symbol from by decide] at shape
    rcases shape with ⟨body, same, closed⟩ | rfl | ⟨pair, _⟩
    · cases same
      rcases List.mem_cons.mp member with rfl | inside
      · decide
      · refine decide_eq_true fun feed => ?_
        subst feed
        exact closed inside
    · cases member
    · exact absurd pair (by decide)
  · intro same
    cases same

/-! ## Strings -/

/-- A string reaches up to the first quotation mark. -/
theorem span_quoted {inner : List Char} (plain : '"' ∉ inner) (rest : List Char) :
    (inner ++ '"' :: rest).takeWhile (· ≠ '"') = inner ∧
      (inner ++ '"' :: rest).dropWhile (· ≠ '"') = '"' :: rest := by
  refine span_append (decide_ne_of_notMem plain) fun c first => ?_
  cases first
  decide

theorem takes_string {inner : List Char} (plain : '"' ∉ inner) (rest : List Char) :
    Rule.string.Takes ('"' :: (inner ++ ['"'])) rest where
  fits := ⟨inner, rfl, plain⟩
  longest := by
    intro other w fits front
    obtain ⟨d, w, rfl⟩ := List.exists_cons_of_ne_nil fits.ne_nil
    rw [List.cons_append] at front
    obtain ⟨rfl, behind⟩ := List.cons_prefix_cons.mp front
    have shape := fits.shape
    rw [show Opening.of '"' = .quote from by decide] at shape
    obtain ⟨inner', same, plain'⟩ := shape
    cases same
    -- Both strings end at the first quotation mark of the same text.
    obtain ⟨rest', cut⟩ := behind
    have first := (span_quoted plain rest).1
    have first' := (span_quoted plain' rest').1
    rw [List.append_assoc, List.singleton_append] at cut
    rw [cut, List.append_assoc, List.singleton_append, first] at first'
    rw [first']
  reserved := by
    intro same
    cases same

theorem unmatched_unclosed {rest : List Char} (unclosed : '"' ∉ rest) :
    Unmatched ('"' :: rest) := by
  intro rule w fits front
  obtain ⟨d, w, rfl⟩ := List.exists_cons_of_ne_nil fits.ne_nil
  obtain ⟨rfl, behind⟩ := List.cons_prefix_cons.mp front
  have shape := fits.shape
  rw [show Opening.of '"' = .quote from by decide] at shape
  obtain ⟨inner, same, _⟩ := shape
  cases same
  exact unclosed (behind.subset (List.mem_append_right _ (List.mem_singleton.mpr rfl)))

theorem stringPiece_closed {inner : List Char} (plain : '"' ∉ inner) (rest : List Char) :
    stringPiece (inner ++ '"' :: rest) = ⟨some .stringLit, inner.length + 1⟩ := by
  obtain ⟨taken, left⟩ := span_quoted plain rest
  rw [stringPiece, left, taken]

theorem stringPiece_unclosed {rest : List Char} (unclosed : '"' ∉ rest) :
    stringPiece rest = ⟨some .unknown, rest.length⟩ := by
  have all : rest.dropWhile (· ≠ '"') = [] :=
    List.dropWhile_eq_nil_iff.mpr (decide_ne_of_notMem unclosed)
  rw [stringPiece, all]

theorem cut_string (rest : List Char) :
    Cut (stringPiece rest).kind? ('"' :: rest.take (stringPiece rest).more)
      (rest.drop (stringPiece rest).more) := by
  by_cases closed : '"' ∈ rest
  · obtain ⟨inner, after, rfl, plain⟩ := List.eq_append_cons_of_mem closed
    have taken : (inner ++ '"' :: after).take (inner.length + 1) = inner ++ ['"'] :=
      List.take_length_add_append 1
    have left : (inner ++ '"' :: after).drop (inner.length + 1) = after :=
      List.drop_length_add_append 1
    rw [stringPiece_closed plain, taken, left]
    exact .rule .string rfl (takes_string plain after)
  · rw [stringPiece_unclosed closed, List.take_length, List.drop_length]
    exact .unclosed (unmatched_unclosed closed)

/-! ## Symbols -/

theorem symbol_pair : ∀ c ∈ pairing, ∃ kind ∈ symbolKinds,
    symbol c (some '=') = ⟨some kind, 1⟩ ∧ kind.spelling? = some (String.ofList [c, '=']) :=
  List.all_iff_forall_prop.mp (by decide)

theorem symbol_single : ∀ c ∈ symbols, ∃ kind ∈ symbolKinds,
    symbol c none = ⟨some kind, 0⟩ ∧ kind.spelling? = some (String.ofList [c]) :=
  List.all_iff_forall_prop.mp (by decide)

theorem symbol_unpaired : ∀ c ∈ symbols, c ∉ pairing → symbol c (some '=') = symbol c none :=
  List.all_iff_forall_prop.mp (by decide)

theorem symbol_of_ne {next : Option Char} (other : next ≠ some '=') (c : Char) :
    symbol c next = symbol c none := by
  simp [symbol, other]

theorem symbol_nothing {c : Char} (other : c ∉ symbols) (next : Option Char) :
    symbol c next = ⟨some .unknown, 0⟩ := by
  unfold symbol
  split <;> simp_all [symbols]

/-- How long the matches are that begin with a symbol, where no comment begins. -/
theorem symbol_length {c : Char} (member : c ∈ symbols) {rest : List Char}
    (noComment : ¬ (c = '/' ∧ rest.head? = some '/')) {rule : Rule} {w : List Char}
    (fits : rule.Matches w) (front : w <+: c :: rest) :
    w.length = 1 ∨ (w.length = 2 ∧ c ∈ pairing ∧ rest.head? = some '=') := by
  obtain ⟨d, w, rfl⟩ := List.exists_cons_of_ne_nil fits.ne_nil
  obtain ⟨rfl, behind⟩ := List.cons_prefix_cons.mp front
  have shape := fits.shape
  rw [symbols_opening d member] at shape
  rcases shape with ⟨body, same, _⟩ | rfl | ⟨pair, rfl⟩
  · cases same
    obtain ⟨rest, rfl⟩ := behind
    exact absurd ⟨rfl, rfl⟩ noComment
  · exact .inl rfl
  · obtain ⟨rest, rfl⟩ := behind
    exact .inr ⟨rfl, pair, rfl⟩

theorem takes_symbol {c : Char} (member : c ∈ symbols) {rest : List Char}
    (noComment : ¬ (c = '/' ∧ rest.head? = some '/')) :
    ∃ kind, symbol c rest.head? = ⟨some kind, (symbol c rest.head?).more⟩ ∧
      (Rule.fixed kind).Takes (c :: rest.take (symbol c rest.head?).more)
        (rest.drop (symbol c rest.head?).more) := by
  by_cases pair : c ∈ pairing ∧ rest.head? = some '='
  · obtain ⟨tail, rfl⟩ : ∃ tail, rest = '=' :: tail := List.head?_eq_some_iff.mp pair.2
    obtain ⟨kind, _, found, spelled⟩ := symbol_pair c pair.1
    rw [List.head?_cons, found]
    refine ⟨kind, rfl, spelled, ?_, fun same => by cases same⟩
    intro rule w fits front
    rcases symbol_length member noComment fits front with one | ⟨two, _⟩
    · rw [one]
      exact Nat.le_add_left 1 1
    · exact Nat.le_of_eq two
  · obtain ⟨kind, _, found, spelled⟩ := symbol_single c member
    have alone : symbol c rest.head? = ⟨some kind, 0⟩ := by
      by_cases follows : rest.head? = some '='
      · rw [follows, symbol_unpaired c member fun paired => pair ⟨paired, follows⟩, found]
      · rw [symbol_of_ne follows, found]
    rw [alone]
    refine ⟨kind, rfl, spelled, ?_, fun same => by cases same⟩
    intro rule w fits front
    rcases symbol_length member noComment fits front with one | ⟨_, paired⟩
    · exact Nat.le_of_eq one
    · exact absurd paired pair

theorem unmatched_nothing {c : Char} (nothing : Opening.of c = .nothing) (rest : List Char) :
    Unmatched (c :: rest) := by
  intro rule w fits front
  obtain ⟨d, w, rfl⟩ := List.exists_cons_of_ne_nil fits.ne_nil
  obtain ⟨rfl, _⟩ := List.cons_prefix_cons.mp front
  have shape := fits.shape
  rw [nothing] at shape
  exact shape

/-! ## The pieces of a text -/

/-- Scanning cuts off the piece that the grammar asks for. -/
theorem cut_piece (c : Char) (rest : List Char) :
    Cut (piece c rest).kind? (firstLexeme c rest) (rest.drop (piece c rest).more) := by
  unfold firstLexeme piece
  by_cases space : IsSpace c
  · have opening : Opening.of c = .space := if_pos space
    rw [if_pos (isSpace_iff.mpr space), take_takeWhile, drop_takeWhile]
    exact .rule .spaces rfl (takes_spaces opening space rest)
  rw [if_neg (mt isSpace_iff.mp space)]
  by_cases digit : IsDigit c
  · rw [if_pos (isDigit_iff.mpr digit), take_takeWhile, drop_takeWhile]
    exact .rule .integer rfl (takes_integer digit.opening digit rest)
  rw [if_neg (mt isDigit_iff.mp digit)]
  by_cases letter : IsLetter c ∨ c = '_'
  · rw [if_pos (isWordStart_iff.mpr letter), take_takeWhile, drop_takeWhile]
    obtain ⟨rule, kind, takes⟩ := takes_word (letter_opening letter) letter rest
    exact .rule rule kind takes
  rw [if_neg (mt isWordStart_iff.mp letter)]
  by_cases quote : c = '"'
  · rw [if_pos quote, quote]
    exact cut_string rest
  rw [if_neg quote]
  by_cases comment : c = '/' ∧ rest.head? = some '/'
  · rw [if_pos comment, take_takeWhile, drop_takeWhile, comment.1]
    exact .rule .comment rfl (takes_comment rest comment.2)
  rw [if_neg comment]
  by_cases member : c ∈ symbols
  · obtain ⟨kind, found, takes⟩ := takes_symbol member comment
    rw [found]
    exact .rule (.fixed kind) rfl takes
  · have nothing : Opening.of c = .nothing := by
      rw [Opening.of, if_neg space, if_neg digit, if_neg letter, if_neg quote, if_neg member]
    rw [symbol_nothing member]
    exact .unknown (unmatched_nothing nothing rest) quote

/-- Scanning a text whose first piece is known from the grammar. -/
theorem scanFrom_cut {kind? : Option Kind} {w rest : List Char} (cut : Cut kind? w rest)
    (offset : Nat) :
    scanFrom offset (w ++ rest)
      = (kind?.map fun kind => ⟨kind, String.ofList w, ⟨offset, offset + Text.byteLength w⟩⟩).toList
          ++ scanFrom (offset + Text.byteLength w) rest := by
  obtain ⟨c, more, rfl⟩ := List.exists_cons_of_ne_nil cut.ne_nil
  have same : c :: more ++ rest = firstLexeme c (more ++ rest)
      ++ (more ++ rest).drop (piece c (more ++ rest)).more := by
    rw [firstLexeme, List.cons_append, List.cons_append, List.take_append_drop]
  obtain ⟨kind, first, behind⟩ := cut.unique (cut_piece c (more ++ rest)) same
  rw [List.cons_append, scanFrom_cons, firstToken, ← kind, ← first, ← behind]
  cases kind? <;> rfl

/-- Scanning passes over a gap. -/
theorem scanFrom_gap {gap rest : List Char} (skipped : Gap gap rest) (offset : Nat) :
    scanFrom offset (gap ++ rest) = scanFrom (offset + Text.byteLength gap) rest := by
  induction skipped generalizing offset with
  | nil => rfl
  | @spaces w gap rest run _ ih =>
      have all : ∀ c ∈ w, isSpace c = true := fun c member => isSpace_iff.mpr (run.2 c member)
      rw [List.append_assoc, scanFrom_spaces offset all, ih, Text.byteLength_append, Nat.add_assoc]
  | @comment w gap rest run ends _ ih =>
      obtain ⟨body, rfl, plain⟩ := run
      have cut : Cut none ('/' :: '/' :: body) (gap ++ rest) := by
        have absent : '\n' ∉ '/' :: body := by simp [plain]
        obtain ⟨taken, left⟩ : ('/' :: body ++ (gap ++ rest)).takeWhile (· ≠ '\n') = '/' :: body ∧
            ('/' :: body ++ (gap ++ rest)).dropWhile (· ≠ '\n') = gap ++ rest := by
          refine span_append (decide_ne_of_notMem absent) fun c first => ?_
          rw [ends c first]
          decide
        have takes := takes_comment ('/' :: body ++ (gap ++ rest)) rfl
        rw [taken, left] at takes
        exact .rule .comment rfl takes
      rw [List.append_assoc, scanFrom_cut cut, ih, Text.byteLength_append, Nat.add_assoc]
      rfl

/-! ## The tokens of a text -/

/-- Text that is passed over can be put in front of a gap. -/
theorem Lexed.skip {offset : Nat} {w cs : List Char} {ts : List Token}
    (skipped : ∀ gap rest, gap ++ rest = cs → Gap gap rest → Gap (w ++ gap) rest)
    (lexed : Lexed (offset + Text.byteLength w) cs ts) : Lexed offset (w ++ cs) ts := by
  cases lexed with
  | done after =>
      have longer := @Lexed.done offset _ (skipped cs [] (List.append_nil _) after)
      rwa [Text.byteLength_append, ← Nat.add_assoc] at longer
  | @token _ gap w' rest kind ts after cut more =>
      have behind : offset + Text.byteLength w + Text.byteLength (gap ++ w')
          = offset + Text.byteLength (w ++ gap ++ w') := by
        rw [List.append_assoc, Text.byteLength_append w, Nat.add_assoc]
      rw [behind] at more
      have longer := Lexed.token (skipped gap _ rfl after) cut more
      rwa [List.append_assoc, Text.byteLength_append w gap, ← Nat.add_assoc, ← behind] at longer

/-- The tokens that scanning gives are tokens by the grammar. -/
theorem lexed_scanFrom (cs : List Char) (offset : Nat) : Lexed offset cs (scanFrom offset cs) := by
  induction cs using pieces_induction generalizing offset with
  | nil =>
      rw [scanFrom_nil]
      exact .done .nil
  | cons c rest ih =>
      have cut := cut_piece c rest
      have same : c :: rest = firstLexeme c rest ++ rest.drop (piece c rest).more := by
        rw [firstLexeme, List.cons_append, List.take_append_drop]
      have more := ih (offset + Text.byteLength (firstLexeme c rest))
      rw [scanFrom_cons, firstToken]
      cases kind? : (piece c rest).kind? with
      | some kind =>
          rw [kind?] at cut
          have lexed := Lexed.token .nil cut more
          rwa [← same] at lexed
      | none =>
          rw [kind?] at cut
          rw [same]
          rcases cut.skipped with spaces | comment
          · exact more.skip fun gap rest _ after => .spaces spaces.fits after
          · refine more.skip fun gap rest behind after => .comment comment.fits ?_ after
            rw [behind]
            exact comment.comment_ends

/-- By the grammar a text has no other tokens than those that scanning gives. -/
theorem Lexed.eq_scanFrom {offset : Nat} {cs : List Char} {ts : List Token}
    (lexed : Lexed offset cs ts) : ts = scanFrom offset cs := by
  induction lexed with
  | @done offset gap skipped =>
      have passed := scanFrom_gap skipped offset
      rw [List.append_nil, scanFrom_nil] at passed
      exact passed.symm
  | @token offset gap w rest kind ts skipped cut more ih =>
      rw [scanFrom_gap skipped, scanFrom_cut cut, Nat.add_assoc, ← Text.byteLength_append, ← ih]
      rfl

/-! ## Places in bytes -/

end Token

theorem Text.byteLength_toList (text : String) :
    Text.byteLength text.toList = text.utf8ByteSize := by
  have counted : ∀ cs : List Char, Text.byteLength cs = (String.ofList cs).utf8ByteSize := by
    intro cs
    induction cs with
    | nil => rfl
    | cons c cs ih =>
        rw [Text.byteLength, String.ofList_cons, String.utf8ByteSize_append,
          String.utf8ByteSize_singleton, ih]
  rw [counted, String.ofList_toList]

namespace Token

/-- A token stands in a text between `before` and `after`: its text is the part of the text at
its span. -/
structure StandsIn (text : String) (t : Token) (before after : String) : Prop where
  text : text = before ++ t.lexeme ++ after
  span : t.span = ⟨before.utf8ByteSize, (before ++ t.lexeme).utf8ByteSize⟩

theorem Placed.standsIn {text : String} {t : Token} (placed : Placed text.toList t) :
    ∃ before after, t.StandsIn text before after ∧
      Cut (some t.kind) t.lexeme.toList after.toList := by
  obtain ⟨before, after, whole, span, cut⟩ := placed
  refine ⟨String.ofList before, String.ofList after, ⟨?_, ?_⟩, ?_⟩
  · rw [← String.ofList_toList (s := text), whole, String.ofList_append, String.ofList_append,
      String.ofList_toList, String.append_assoc]
  · rw [span, ← Text.byteLength_toList, ← Text.byteLength_toList, String.toList_append,
      String.toList_ofList]
  · rwa [String.toList_ofList]

theorem StandsIn.start_lt_stop {text before after : String} {t : Token}
    (stands : t.StandsIn text before after) (some : t.lexeme.toList ≠ []) :
    t.span.start < t.span.stop := by
  have positive : t.lexeme.utf8ByteSize ≠ 0 := by
    intro empty
    rw [String.utf8ByteSize_eq_zero_iff.mp empty] at some
    exact some rfl
  rw [stands.span, String.utf8ByteSize_append]
  exact Nat.lt_add_of_pos_right (Nat.pos_of_ne_zero positive)

/-- A token is the one that the grammar asks for in front of `after`. A known token is the longest
match of a rule. An unknown token stands exactly where no rule matches; it is a single character,
or it is all of the text from a quotation mark on. -/
structure Recognized (t : Token) (after : String) : Prop where
  known : t.kind ≠ .unknown → ∃ rule : Rule, rule.kind? = some t.kind ∧
    rule.Takes t.lexeme.toList after.toList
  unknown : t.kind = .unknown ↔ Unmatched (t.lexeme ++ after).toList
  unknownText : t.kind = .unknown → (∃ c, c ≠ '"' ∧ t.lexeme = String.singleton c) ∨
    ((∃ rest, t.lexeme = "\"" ++ rest) ∧ after = "")

/-- No rule has tokens of the unknown kind. -/
theorem Rule.Matches.kind_ne_unknown {rule : Rule} {w : List Char} (fits : rule.Matches w) :
    rule.kind? ≠ some .unknown := by
  intro unknown
  cases rule with
  | fixed kind =>
      cases unknown
      cases fits
  | _ => cases unknown

theorem Cut.recognized {t : Token} {after : String}
    (cut : Cut (some t.kind) t.lexeme.toList after.toList) : t.Recognized after := by
  obtain ⟨kind, lexeme, span⟩ := t
  rw [← String.ofList_toList (s := lexeme), ← String.ofList_toList (s := after)]
  revert cut
  generalize lexeme.toList = w, after.toList = rest
  intro cut
  cases cut with
  | rule rule same takes =>
      have other : kind ≠ .unknown := by
        rintro rfl
        exact takes.fits.kind_ne_unknown same
      refine ⟨fun _ => ⟨rule, same, ?_⟩, ⟨fun unknown => absurd unknown other, fun none => ?_⟩,
        fun unknown => absurd unknown other⟩
      · rwa [String.toList_ofList, String.toList_ofList]
      · rw [String.toList_append, String.toList_ofList, String.toList_ofList] at none
        exact (none.absurd_fits takes.fits rfl).elim
  | @unknown c _ none plain =>
      refine ⟨fun known => absurd rfl known, ⟨fun _ => ?_, fun _ => rfl⟩, fun _ => ?_⟩
      · rwa [String.toList_append, String.toList_ofList, String.toList_ofList]
      · exact .inl ⟨c, plain, rfl⟩
  | @unclosed rest none =>
      refine ⟨fun known => absurd rfl known, ⟨fun _ => ?_, fun _ => rfl⟩, fun _ => ?_⟩
      · rwa [String.toList_append, String.toList_ofList, String.toList_ofList, List.append_nil]
      · exact .inr ⟨⟨String.ofList rest, String.ofList_cons⟩, rfl⟩

/-! ## Faults -/

theorem faults_eq (tokens : List Token) :
    faults tokens = (tokens.filter fun t => t.kind = .unknown).map fun t =>
      ⟨"Unrecognized character `" ++ t.lexeme ++ "`", t.span⟩ := by
  induction tokens with
  | nil => rfl
  | cons t tokens ih =>
      rw [faults] at ih ⊢
      by_cases unknown : t.kind = .unknown
      · simp [fault?, unknown, ih]
      · simp [fault?, unknown, ih]

end Token

/-- Scanning is exactly the lexical grammar: the tokens of a source are the tokens of its text by
the grammar, and there are no others. They stand in order, in the text between gaps of spaces and
comments, each at its place in bytes; each is the longest match of a rule, or unknown where no
rule matches; and the end of the input comes last. Scanning adds one fault to the source for each
unknown token, in their order. -/
theorem scan_is_lexical_grammar (source : Source) :
    (∀ ts, Token.Lexed 0 source.text.toList ts ↔ ts = source.scan.1) ∧
    (∃ ts, source.scan.1 = ts ++ [Token.endAt source.text.utf8ByteSize] ∧
      ts.Pairwise (fun t t' => t.span.stop ≤ t'.span.start) ∧
      ∀ t ∈ ts, t.span.start < t.span.stop ∧
        ∃ before after, t.StandsIn source.text before after ∧ t.Recognized after) ∧
    source.scan.2 = { source with
      faults := source.faults ++ (source.scan.1.filter fun t => t.kind = .unknown).map fun t =>
        ⟨"Unrecognized character `" ++ t.lexeme ++ "`", t.span⟩ } := by
  have lexed : Token.Lexed 0 source.text.toList source.scan.1 := Token.lexed_scanFrom _ 0
  refine ⟨fun ts => ⟨fun other => other.eq_scanFrom, fun same => same ▸ lexed⟩, ?_, ?_⟩
  · obtain ⟨ts, whole, placed, ordered⟩ := lexed.placed [] rfl
    rw [List.nil_append, Text.byteLength_toList] at whole
    refine ⟨ts, whole, ordered, fun t member => ?_⟩
    obtain ⟨before, after, stands, cut⟩ := (placed t member).1.standsIn
    exact ⟨stands.start_lt_stop cut.ne_nil, before, after, stands, cut.recognized⟩
  · rw [← Token.faults_eq]
    rfl

end Bramble
