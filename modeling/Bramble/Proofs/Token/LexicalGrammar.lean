import Bramble.Text.Offset
import Bramble.Token.Basic
import Mathlib.Data.Bool.AllAny

/-!
# The lexical grammar

The rules by which a text falls into tokens, independent of any way to find them. Each rule is a
set of spellings. Where several rules match, the longest match counts, and a reserved word counts
before an identifier of the same spelling. Two rules, for spaces and for comments, match text that
is passed over. Where no rule matches, one character is taken as unknown, and a quotation mark
that is never closed is taken together with all that follows.

There is one way only to cut a text by these rules (`Cut.unique`). The first character of a match
tells its rule up to two doubts: a word may be reserved or not, and a slash may begin a comment.
-/

set_option autoImplicit false

namespace Bramble
namespace Token

/-! ## Rules -/

/-- The characters that separate tokens: space, tab, line feed, carriage return, form feed. -/
def IsSpace (c : Char) : Prop := c ∈ [' ', '\t', '\n', '\r', '\x0c']

/-- The digits `0` to `9`. -/
def IsDigit (c : Char) : Prop := '0' ≤ c ∧ c ≤ '9'

/-- The letters `a` to `z` and `A` to `Z`. -/
def IsLetter (c : Char) : Prop := ('a' ≤ c ∧ c ≤ 'z') ∨ ('A' ≤ c ∧ c ≤ 'Z')

/-- A word: a letter or an underscore, and then letters, digits and underscores. -/
def IsWord : List Char → Prop
  | [] => False
  | c :: more => (IsLetter c ∨ c = '_') ∧ ∀ d ∈ more, IsLetter d ∨ IsDigit d ∨ d = '_'

instance : DecidablePred IsSpace := fun c => inferInstanceAs (Decidable (c ∈ _))

instance : DecidablePred IsDigit := fun _ => inferInstanceAs (Decidable (_ ∧ _))

instance : DecidablePred IsLetter := fun _ => inferInstanceAs (Decidable (_ ∨ _))

instance : DecidablePred IsWord
  | [] => inferInstanceAs (Decidable False)
  | _ :: more => @instDecidableAnd _ _ inferInstance (List.decidableBAll _ more)

/-- The rules of the grammar: one for each kind with a fixed spelling, one for each class of
spellings, and two for what is passed over. -/
inductive Rule where
  | fixed (kind : Kind)
  | integer
  | string
  | identifier
  | spaces
  | comment
deriving DecidableEq, Repr

namespace Rule

/-- The spellings of a rule. -/
def Matches : Rule → List Char → Prop
  | .fixed kind, w => kind.spelling? = some (String.ofList w)
  | .integer, w => w ≠ [] ∧ ∀ c ∈ w, IsDigit c
  | .string, w => ∃ inner, w = '"' :: (inner ++ ['"']) ∧ '"' ∉ inner
  | .identifier, w => IsWord w
  | .spaces, w => w ≠ [] ∧ ∀ c ∈ w, IsSpace c
  | .comment, w => ∃ body, w = '/' :: '/' :: body ∧ '\n' ∉ body

/-- The kind of the tokens of a rule. What is passed over has none. -/
def kind? : Rule → Option Kind
  | .fixed kind => some kind
  | .integer => some .intLit
  | .string => some .stringLit
  | .identifier => some .identifier
  | .spaces | .comment => none

/-- A rule applies to `w` in front of `rest`: no rule has a longer match there, and no reserved
word is spelled like an identifier that is taken. -/
structure Takes (rule : Rule) (w rest : List Char) : Prop where
  fits : rule.Matches w
  longest : ∀ other w', Matches other w' → w' <+: w ++ rest → w'.length ≤ w.length
  reserved : rule = .identifier → ∀ kind, ¬ Matches (.fixed kind) w

end Rule

/-- No rule matches at the beginning of a text. -/
def Unmatched (cs : List Char) : Prop := ∀ rule w, Rule.Matches rule w → ¬ w <+: cs

/-! ## Texts -/

/-- `w` is the first piece of the text `w ++ rest`, with the kind of its token, if it gives one. -/
inductive Cut : Option Kind → List Char → List Char → Prop where
  | rule {w rest : List Char} {kind? : Option Kind} (rule : Rule) (kind : rule.kind? = kind?)
      (takes : rule.Takes w rest) : Cut kind? w rest
  | unknown {c : Char} {rest : List Char} (none : Unmatched (c :: rest)) (plain : c ≠ '"') :
      Cut (some .unknown) [c] rest
  | unclosed {rest : List Char} (none : Unmatched ('"' :: rest)) :
      Cut (some .unknown) ('"' :: rest) []

/-- `gap` is text to be passed over in front of `rest`: runs of spaces, and comments that reach up
to a line feed or to the end. -/
inductive Gap : List Char → List Char → Prop where
  | nil {rest : List Char} : Gap [] rest
  | spaces {w gap rest : List Char} (run : Rule.spaces.Matches w) (more : Gap gap rest) :
      Gap (w ++ gap) rest
  | comment {w gap rest : List Char} (run : Rule.comment.Matches w)
      (ends : ∀ c, (gap ++ rest).head? = some c → c = '\n') (more : Gap gap rest) :
      Gap (w ++ gap) rest

/-- The tokens of a text that stands at an offset: after each gap a piece, and the end of the
input after the last gap. -/
inductive Lexed : Nat → List Char → List Token → Prop where
  | done {offset : Nat} {gap : List Char} (skipped : Gap gap []) :
      Lexed offset gap [endAt (offset + Text.byteLength gap)]
  | token {offset : Nat} {gap w rest : List Char} {kind : Kind} {ts : List Token}
      (skipped : Gap gap (w ++ rest)) (cut : Cut (some kind) w rest)
      (more : Lexed (offset + Text.byteLength (gap ++ w)) rest ts) :
      Lexed offset (gap ++ (w ++ rest))
        (⟨kind, String.ofList w, ⟨offset + Text.byteLength gap,
          offset + Text.byteLength (gap ++ w)⟩⟩ :: ts)

/-! ## Fixed spellings -/

/-- The characters that are symbols alone. -/
def symbols : List Char :=
  ['!', '+', '-', '*', '/', '=', '>', '<', '(', ')', '\x7b', '\x7d', ',', ';']

/-- The characters that are a symbol together with `=`. -/
def pairing : List Char := ['!', '=', '>', '<']

theorem pairing_symbols : ∀ c ∈ pairing, c ∈ symbols :=
  List.all_iff_forall_prop.mp (by decide)

theorem words_spelled : ∀ kind ∈ Kind.words, IsWord (kind.spelling?.getD "").toList := by
  decide

theorem symbols_spelled (kind : Kind) : kind ∈ Kind.words ∨
    kind.spelling?.map String.toList
      ∈ none :: (symbols.map fun c => some [c]) ++ pairing.map fun c => some [c, '='] := by
  cases kind <;> decide

/-- A fixed spelling is that of a reserved word, or it is a symbol of one or two characters. -/
theorem fixed_cases {kind : Kind} {w : List Char} (fits : Rule.Matches (.fixed kind) w) :
    (kind ∈ Kind.words ∧ IsWord w) ∨
      (kind ∉ Kind.words ∧ ((∃ c ∈ symbols, w = [c]) ∨ ∃ c ∈ pairing, w = [c, '='])) := by
  have spelling : kind.spelling? = some (String.ofList w) := fits
  by_cases reserved : kind ∈ Kind.words
  · have word := words_spelled kind reserved
    rw [spelling, Option.getD_some, String.toList_ofList] at word
    exact .inl ⟨reserved, word⟩
  · have symbol := (symbols_spelled kind).resolve_left reserved
    rw [spelling, Option.map_some, String.toList_ofList] at symbol
    simp only [List.cons_append, List.mem_cons, reduceCtorEq, List.mem_append, List.mem_map,
      Option.some.injEq, false_or] at symbol
    refine .inr ⟨reserved, ?_⟩
    rcases symbol with ⟨c, member, rfl⟩ | ⟨c, member, rfl⟩
    · exact .inl ⟨c, member, rfl⟩
    · exact .inr ⟨c, member, rfl⟩

/-- The kinds whose spelling is a symbol. -/
def symbolKinds : List Kind :=
  [.bang, .plus, .minus, .asterisk, .slash, .equals, .equalsEquals, .notEquals, .greater,
    .greaterEquals, .less, .lessEquals, .openParen, .closeParen, .openBrace, .closeBrace, .comma,
    .semi]

/-- The kind of a fixed spelling. -/
def ofSpelling? (spelling : String) : Option Kind :=
  (Kind.words ++ symbolKinds).find? fun kind => kind.spelling? == some spelling

theorem ofSpelling?_spelling {kind : Kind} {spelling : String}
    (spelled : kind.spelling? = some spelling) : ofSpelling? spelling = some kind := by
  cases kind <;> cases spelled <;> decide

/-- Kinds with the same fixed spelling are the same. -/
theorem fixed_inj {kind kind' : Kind} {w : List Char} (fits : Rule.Matches (.fixed kind) w)
    (fits' : Rule.Matches (.fixed kind') w) : kind = kind' :=
  Option.some.inj ((ofSpelling?_spelling fits).symm.trans (ofSpelling?_spelling fits'))

/-! ## First characters -/

/-- What the first character of a piece tells about it. -/
inductive Opening where
  | space
  | digit
  | word
  | quote
  | symbol
  | nothing
deriving DecidableEq, Repr

/-- What a character tells about a piece that begins with it. -/
def Opening.of (c : Char) : Opening :=
  if IsSpace c then .space
  else if IsDigit c then .digit
  else if IsLetter c ∨ c = '_' then .word
  else if c = '"' then .quote
  else if c ∈ symbols then .symbol
  else .nothing

/-- The openings of a rule. -/
def Rule.opening : Rule → Opening
  | .fixed kind => if kind ∈ Kind.words then .word else .symbol
  | .integer => .digit
  | .string => .quote
  | .identifier => .word
  | .spaces => .space
  | .comment => .symbol

/-- The rule with an opening, other than those of fixed spellings. -/
def Opening.rule? : Opening → Option Rule
  | .space => some .spaces
  | .digit => some .integer
  | .word => some .identifier
  | .quote => some .string
  | .symbol => some .comment
  | .nothing => none

theorem Rule.rule?_opening {rule : Rule} (other : ∀ kind, rule ≠ .fixed kind) :
    rule.opening.rule? = some rule := by
  cases rule with
  | fixed kind => exact absurd rfl (other kind)
  | _ => rfl

theorem IsDigit.not_space {c : Char} (digit : IsDigit c) : ¬ IsSpace c := by
  intro space
  simp only [IsSpace, List.mem_cons, List.not_mem_nil, or_false] at space
  rcases space with rfl | rfl | rfl | rfl | rfl <;> revert digit <;> decide

theorem letter_not_space {c : Char} (letter : IsLetter c ∨ c = '_') : ¬ IsSpace c := by
  intro space
  simp only [IsSpace, List.mem_cons, List.not_mem_nil, or_false] at space
  rcases space with rfl | rfl | rfl | rfl | rfl <;> revert letter <;> decide

theorem letter_not_digit {c : Char} (letter : IsLetter c ∨ c = '_') : ¬ IsDigit c := by
  rintro ⟨low, high⟩
  rcases letter with (⟨above, below⟩ | ⟨above, below⟩) | rfl
  · exact absurd (Char.le_trans above high) (by decide)
  · exact absurd (Char.le_trans above high) (by decide)
  · exact absurd high (by decide)

theorem IsDigit.opening {c : Char} (digit : IsDigit c) : Opening.of c = .digit := by
  rw [Opening.of, if_neg digit.not_space, if_pos digit]

theorem letter_opening {c : Char} (letter : IsLetter c ∨ c = '_') : Opening.of c = .word := by
  rw [Opening.of, if_neg (letter_not_space letter), if_neg (letter_not_digit letter),
    if_pos letter]

theorem symbols_opening : ∀ c ∈ symbols, Opening.of c = .symbol :=
  List.all_iff_forall_prop.mp (by decide)

/-- The first character of a match is an opening of its rule. -/
theorem Rule.Matches.opening {rule : Rule} {c : Char} {w : List Char}
    (fits : rule.Matches (c :: w)) : Opening.of c = rule.opening := by
  cases rule with
  | fixed kind =>
      rcases fixed_cases fits with
        ⟨reserved, letter, _⟩ | ⟨other, ⟨d, member, same⟩ | ⟨d, member, same⟩⟩
      · rw [Rule.opening, if_pos reserved, letter_opening letter]
      · cases same
        rw [Rule.opening, if_neg other, symbols_opening c member]
      · cases same
        rw [Rule.opening, if_neg other, symbols_opening c (pairing_symbols c member)]
  | integer => exact (fits.2 c List.mem_cons_self).opening
  | string =>
      obtain ⟨inner, same, _⟩ := fits
      cases same
      decide
  | identifier => exact letter_opening fits.1
  | spaces => exact if_pos (fits.2 c List.mem_cons_self)
  | comment =>
      obtain ⟨body, same, _⟩ := fits
      cases same
      decide

/-- What a match that begins with `c` and goes on with `w` looks like, by the opening that `c`
is. -/
def Opening.Shape (c : Char) (w : List Char) : Opening → Prop
  | .space => ∀ d ∈ w, IsSpace d
  | .digit => ∀ d ∈ w, IsDigit d
  | .word => IsWord (c :: w)
  | .quote => Rule.string.Matches (c :: w)
  | .symbol => Rule.comment.Matches (c :: w) ∨ w = [] ∨ (c ∈ pairing ∧ w = ['='])
  | .nothing => False

/-- All rules with the same opening have matches of the same shape. -/
theorem Rule.Matches.shape {rule : Rule} {c : Char} {w : List Char}
    (fits : rule.Matches (c :: w)) : (Opening.of c).Shape c w := by
  rw [fits.opening]
  cases rule with
  | fixed kind =>
      rcases fixed_cases fits with
        ⟨reserved, word⟩ | ⟨other, ⟨d, member, same⟩ | ⟨d, member, same⟩⟩
      · rwa [Rule.opening, if_pos reserved]
      · cases same
        rw [Rule.opening, if_neg other]
        exact .inr (.inl rfl)
      · cases same
        rw [Rule.opening, if_neg other]
        exact .inr (.inr ⟨member, rfl⟩)
  | integer => exact fun d member => fits.2 d (List.mem_cons_of_mem _ member)
  | string => exact fits
  | identifier => exact fits
  | spaces => exact fun d member => fits.2 d (List.mem_cons_of_mem _ member)
  | comment => exact .inl fits

/-- A word with a fixed spelling is a reserved word. -/
theorem mem_words_of_fixed {kind : Kind} {w : List Char} (fits : Rule.Matches (.fixed kind) w)
    (word : IsWord w) : kind ∈ Kind.words := by
  cases w with
  | nil => exact word.elim
  | cons c more =>
      have opening := (letter_opening word.1).symm.trans fits.opening
      rw [Rule.opening] at opening
      split at opening
      · assumption
      · cases opening

theorem Rule.Matches.ne_nil {rule : Rule} {w : List Char} (fits : rule.Matches w) : w ≠ [] := by
  rintro rfl
  cases rule with
  | fixed kind =>
      rcases fixed_cases fits with ⟨_, word⟩ | ⟨_, ⟨_, _, same⟩ | ⟨_, _, same⟩⟩
      · exact word
      · cases same
      · cases same
  | integer => exact fits.1 rfl
  | string =>
      obtain ⟨inner, same, _⟩ := fits
      cases same
  | identifier => exact fits
  | spaces => exact fits.1 rfl
  | comment =>
      obtain ⟨body, same, _⟩ := fits
      cases same

/-! ## There is one way to cut a text -/

/-- A fixed spelling may be an identifier, but it is nothing else. -/
theorem fixed_or_identifier {kind : Kind} {rule : Rule} {w : List Char}
    (fits : Rule.Matches (.fixed kind) w) (fits' : rule.Matches w) :
    rule = .fixed kind ∨ rule = .identifier := by
  obtain ⟨c, w, rfl⟩ := List.exists_cons_of_ne_nil fits.ne_nil
  have same : (Rule.fixed kind).opening = rule.opening := fits.opening.symm.trans fits'.opening
  cases rule with
  | fixed kind' => exact .inl (congrArg _ (fixed_inj fits' fits))
  | identifier => exact .inr rfl
  | comment =>
      obtain ⟨body, slashes, _⟩ := fits'
      cases slashes
      rcases fixed_cases fits with ⟨_, letter, _⟩ | ⟨_, ⟨_, _, short⟩ | ⟨_, _, short⟩⟩
      · exact absurd letter (by decide)
      · cases short
      · cases short
  | integer | string | spaces =>
      rw [Rule.opening] at same
      split at same <;> cases same

/-- Rules that take the same spelling are the same. -/
theorem Rule.Takes.rule_eq {rule rule' : Rule} {w rest rest' : List Char}
    (takes : rule.Takes w rest) (takes' : rule'.Takes w rest') : rule = rule' := by
  obtain ⟨c, more, rfl⟩ := List.exists_cons_of_ne_nil takes.fits.ne_nil
  have same : rule.opening = rule'.opening := takes.fits.opening.symm.trans takes'.fits.opening
  by_cases fixed : ∃ kind, rule = .fixed kind
  · obtain ⟨kind, rfl⟩ := fixed
    rcases fixed_or_identifier takes.fits takes'.fits with equal | equal
    · exact equal.symm
    · exact absurd takes.fits (takes'.reserved equal kind)
  by_cases fixed' : ∃ kind, rule' = .fixed kind
  · obtain ⟨kind, rfl⟩ := fixed'
    rcases fixed_or_identifier takes'.fits takes.fits with equal | equal
    · exact equal
    · exact absurd takes'.fits (takes.reserved equal kind)
  -- All other rules have different openings.
  have known := Rule.rule?_opening fun kind equal => fixed ⟨kind, equal⟩
  have known' := Rule.rule?_opening fun kind equal => fixed' ⟨kind, equal⟩
  rw [same] at known
  exact Option.some.inj (known.symm.trans known')

/-- Of two cuts of one text, the second is not longer if the first was made by a rule. -/
theorem Rule.Takes.length_le {rule : Rule} {w w' rest rest' : List Char}
    (takes : rule.Takes w rest) {other : Rule} (fits : other.Matches w')
    (same : w ++ rest = w' ++ rest') : w'.length ≤ w.length := by
  refine takes.longest other w' fits ?_
  rw [same]
  exact List.prefix_append w' rest'

/-- Where a rule matches, no unknown character is taken. -/
theorem Unmatched.absurd_fits {cs w rest : List Char} (none : Unmatched cs) {rule : Rule}
    (fits : rule.Matches w) (same : w ++ rest = cs) : False := by
  refine none rule w fits ?_
  rw [← same]
  exact List.prefix_append w rest

theorem Cut.unique {kind? kind?' : Option Kind} {w w' rest rest' : List Char}
    (cut : Cut kind? w rest) (cut' : Cut kind?' w' rest') (same : w ++ rest = w' ++ rest') :
    kind? = kind?' ∧ w = w' ∧ rest = rest' := by
  cases cut with
  | rule rule kind takes =>
      cases cut' with
      | rule rule' kind' takes' =>
          have length : w.length = w'.length :=
            Nat.le_antisymm (takes'.length_le takes.fits same.symm)
              (takes.length_le takes'.fits same)
          obtain ⟨rfl, rfl⟩ := List.append_inj same length
          have equal := takes.rule_eq takes'
          exact ⟨by rw [← kind, ← kind', equal], rfl, rfl⟩
      | unknown none _ => exact (none.absurd_fits takes.fits same).elim
      | unclosed none => exact (none.absurd_fits takes.fits (same.trans (List.append_nil _))).elim
  | unknown none plain =>
      cases cut' with
      | rule rule kind takes => exact (none.absurd_fits takes.fits same.symm).elim
      | unknown _ _ =>
          cases same
          exact ⟨rfl, rfl, rfl⟩
      | unclosed _ =>
          cases same
          exact absurd rfl plain
  | unclosed none =>
      rw [List.append_nil] at same
      cases cut' with
      | rule rule kind takes => exact (none.absurd_fits takes.fits same.symm).elim
      | unknown _ plain =>
          cases same
          exact absurd rfl plain
      | unclosed _ =>
          rw [List.append_nil] at same
          exact ⟨rfl, same, rfl⟩

theorem Cut.ne_nil {kind? : Option Kind} {w rest : List Char} (cut : Cut kind? w rest) :
    w ≠ [] := by
  cases cut with
  | rule rule kind takes => exact takes.fits.ne_nil
  | unknown _ _ => exact List.cons_ne_nil _ _
  | unclosed _ => exact List.cons_ne_nil _ _

/-- What is passed over is spaces or a comment. -/
theorem Cut.skipped {w rest : List Char} (cut : Cut none w rest) :
    Rule.spaces.Takes w rest ∨ Rule.comment.Takes w rest := by
  cases cut with
  | rule rule kind takes =>
      cases rule with
      | spaces => exact .inl takes
      | comment => exact .inr takes
      | fixed kind => cases kind
      | integer | string | identifier => cases kind

/-- A comment reaches up to a line feed or to the end. -/
theorem Rule.Takes.comment_ends {w rest : List Char} (takes : Rule.comment.Takes w rest) :
    ∀ c, rest.head? = some c → c = '\n' := by
  intro c first
  refine Decidable.byContradiction fun other => ?_
  obtain ⟨tail, rfl⟩ := List.head?_eq_some_iff.mp first
  obtain ⟨body, rfl, plain⟩ := takes.fits
  -- Otherwise the comment would go on with this character.
  have fits : Rule.comment.Matches ('/' :: '/' :: (body ++ [c])) :=
    ⟨body ++ [c], rfl, by simp [plain, Ne.symm other]⟩
  have longer := takes.longest .comment _ fits (by simp)
  simp only [List.length_cons, List.length_append, List.length_nil] at longer
  omega

/-! ## The places of tokens -/

/-- A token is what the grammar puts at its place in a text. -/
def Placed (text : List Char) (t : Token) : Prop :=
  ∃ before after, text = before ++ (t.lexeme.toList ++ after) ∧
    t.span = ⟨Text.byteLength before, Text.byteLength (before ++ t.lexeme.toList)⟩ ∧
      Cut (some t.kind) t.lexeme.toList after

/-- The tokens of a text stand at their places, one after the other, in front of its end. -/
theorem Lexed.placed {offset : Nat} {cs : List Char} {ts : List Token}
    (lexed : Lexed offset cs ts) (front : List Char) (begins : offset = Text.byteLength front) :
    ∃ ts', ts = ts' ++ [endAt (Text.byteLength (front ++ cs))] ∧
      (∀ t ∈ ts', Placed (front ++ cs) t ∧ offset ≤ t.span.start) ∧
        ts'.Pairwise fun t t' => t.span.stop ≤ t'.span.start := by
  induction lexed generalizing front with
  | done skipped =>
      refine ⟨[], ?_, ?_, .nil⟩
      · rw [begins, Text.byteLength_append]
        rfl
      · intro t member
        cases member
  | @token offset gap w rest kind ts skipped cut more ih =>
      have passed : offset + Text.byteLength (gap ++ w)
          = Text.byteLength (front ++ (gap ++ w)) := by
        rw [begins, Text.byteLength_append front]
      obtain ⟨ts', rfl, placed, ordered⟩ := ih _ passed
      rw [List.append_assoc, List.append_assoc] at placed ⊢
      refine ⟨⟨kind, String.ofList w, ⟨offset + Text.byteLength gap,
          offset + Text.byteLength (gap ++ w)⟩⟩ :: ts', rfl, ?_, ?_⟩
      · intro t member
        rcases List.mem_cons.mp member with rfl | member
        · refine ⟨⟨front ++ gap, rest, ?_, ?_, ?_⟩, Nat.le_add_right _ _⟩
          · rw [String.toList_ofList, List.append_assoc]
          · rw [String.toList_ofList, List.append_assoc, Text.byteLength_append front,
              Text.byteLength_append front, begins]
          · rwa [String.toList_ofList]
        · obtain ⟨stands, later⟩ := placed t member
          exact ⟨stands, Nat.le_trans (Nat.le_add_right _ _) later⟩
      · refine List.pairwise_cons.mpr ⟨fun t member => ?_, ordered⟩
        exact (placed t member).2

end Token
end Bramble
