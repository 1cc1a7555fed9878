import Bramble.Proofs.Grammar.RenderedTokens
import Bramble.Proofs.Token.LongestMatch

/-!
# Tokens with spaces between them

No match of a token goes on over a space, except for a text between quotation marks, and that one
has ended where it is closed. So a piece that is a token on its own is the same token in front of a
space, whatever comes behind: it cannot grow together with it. Only a text that lacks its closing
quotation mark would go on.

Tokens that are written out with separators between them are therefore found again by scanning, at
the places where they are written (`scan_undoes_writing`). A separator begins with a space, which
keeps the token before it as it is. Behind that there may be comments, as long as they are ended
before the next token.
-/

set_option autoImplicit false

namespace Bramble
namespace Token

/-! ## A token on its own -/

/-- The rule for the spellings of a kind. -/
def Kind.rule : Kind → Rule
  | .intLit => .integer
  | .stringLit => .string
  | .identifier => .identifier
  | kind => .fixed kind

theorem Kind.kind?_rule (kind : Kind) : kind.rule.kind? = some kind := by
  cases kind <;> rfl

/-- The tokens of a kind are found by the rule of the kind. -/
theorem Rule.Matches.eq_rule {rule : Rule} {kind : Kind} {w : List Char} (fits : rule.Matches w)
    (same : rule.kind? = some kind) : rule = kind.rule := by
  cases rule with
  | fixed own =>
      cases same
      -- The classes have no fixed spelling, so the kind is none of them.
      cases kind <;> first | rfl | cases fits
  | integer => cases same; rfl
  | string => cases same; rfl
  | identifier => cases same; rfl
  | spaces => cases same
  | comment => cases same

/-- A piece that is known is taken by the rule of its kind. -/
theorem Cut.takes {kind : Kind} {w rest : List Char} (cut : Cut (some kind) w rest)
    (known : kind ≠ .unknown) : kind.rule.Takes w rest := by
  cases cut with
  | rule rule same takes => rwa [takes.fits.eq_rule same] at takes
  | unknown _ _ => exact absurd rfl known
  | unclosed _ => exact absurd rfl known

/-- A match at the end of a text is the longest one. -/
theorem Rule.Matches.takes_last {rule : Rule} {w : List Char} (fits : rule.Matches w)
    (reserved : rule = .identifier → ∀ kind, ¬ (Rule.fixed kind).Matches w) :
    rule.Takes w [] where
  fits := fits
  longest other w' _ front := by
    rw [List.append_nil] at front
    exact front.length_le
  reserved := reserved

/-- The text of the token is one piece, the token. -/
def Alone (t : Token) : Prop := t.kind.rule.Takes t.lexeme.toList []

/-- A spelling of a kind is a token on its own, unless it is a reserved word taken for a name. -/
theorem alone_of_matches {t : Token} (fits : t.kind.rule.Matches t.lexeme.toList)
    (reserved : t.kind = .identifier → ∀ kind : Kind, kind.spelling? ≠ some t.lexeme) :
    t.Alone := by
  refine fits.takes_last fun rule kind same => ?_
  have own := t.kind.kind?_rule
  rw [rule] at own
  rw [Rule.Matches, String.ofList_toList] at same
  exact reserved (Option.some.inj own).symm kind same

theorem Alone.known {t : Token} (alone : t.Alone) : t.kind ≠ .unknown := by
  intro unknown
  have fits := alone.fits
  rw [unknown] at fits
  cases fits

/-- A piece is a piece on its own. -/
theorem Cut.alone {kind : Kind} {w rest : List Char} (cut : Cut (some kind) w rest) :
    Cut (some kind) w [] := by
  cases cut with
  | rule rule same takes => exact .rule rule same (takes.fits.takes_last takes.reserved)
  | unknown none plain =>
      refine .unknown (fun rule w fits front => none rule w fits ?_) plain
      exact front.trans (List.prefix_append [_] rest)
  | unclosed none => exact .unclosed none

/-- A text that is one piece is scanned as one token. -/
theorem Cut.scan {kind : Kind} {lexeme : String} (cut : Cut (some kind) lexeme.toList []) :
    scan lexeme
      = [⟨kind, lexeme, ⟨0, lexeme.utf8ByteSize⟩⟩, endAt lexeme.utf8ByteSize] := by
  have scanned := scanFrom_cut cut 0
  rw [List.append_nil, scanFrom_nil, Nat.zero_add, Text.byteLength_toList,
    String.ofList_toList] at scanned
  exact scanned

/-- A text that is scanned as one token is one piece. -/
theorem cut_of_scan {kind : Kind} {lexeme : String} {span : Span} {stop : Nat}
    (scanned : Token.scan lexeme = [⟨kind, lexeme, span⟩, endAt stop]) :
    Cut (some kind) lexeme.toList [] := by
  obtain ⟨ts, whole, placed, _⟩ := (lexed_scanFrom lexeme.toList 0).placed [] rfl
  have one : [⟨kind, lexeme, span⟩] = ts := List.append_inj_left' (scanned.symm.trans whole) rfl
  subst one
  obtain ⟨⟨_, _, _, _, cut⟩, _⟩ := placed _ List.mem_cons_self
  exact cut.alone

/-- A token on its own is scanned as just this token. -/
theorem alone_iff {t : Token} (known : t.kind ≠ .unknown) :
    t.Alone ↔ scan t.lexeme
      = [⟨t.kind, t.lexeme, ⟨0, t.lexeme.utf8ByteSize⟩⟩, endAt t.lexeme.utf8ByteSize] := by
  constructor
  · intro alone
    exact (Cut.rule _ t.kind.kind?_rule alone).scan
  · intro scanned
    exact (cut_of_scan scanned).takes known

/-- What is a token in a text is a token on its own. -/
theorem alone_of_mem_scan {text : String} {t : Token} (member : t ∈ scan text)
    (inside : t.kind ≠ .eof) (known : t.kind ≠ .unknown) : t.Alone := by
  obtain ⟨ts, whole, placed, _⟩ := (lexed_scanFrom text.toList 0).placed [] rfl
  rw [scan, whole, List.mem_append, List.mem_singleton] at member
  rcases member with member | rfl
  · obtain ⟨⟨_, _, _, _, cut⟩, _⟩ := placed t member
    exact cut.alone.takes known
  · exact absurd rfl inside

/-! ## In front of a space -/

theorem IsSpace.not_wordPart {d : Char} (space : IsSpace d) :
    ¬ (IsLetter d ∨ IsDigit d ∨ d = '_') := by
  rintro (letter | digit | line)
  · exact letter_not_space (.inl letter) space
  · exact digit.not_space space
  · exact letter_not_space (.inr line) space

/-- A word does not go on over a space. -/
theorem IsWord.not_over_space {c d : Char} {v more : List Char} (space : IsSpace d) :
    ¬ IsWord (c :: (v ++ d :: more)) :=
  fun word => space.not_wordPart (word.2 d (List.mem_append_right _ List.mem_cons_self))

/-- A text between quotation marks does not go on where it has been closed. -/
theorem string_not_over {inner more : List Char} {d : Char} :
    ¬ Rule.string.Matches ('"' :: (inner ++ ['"']) ++ d :: more) := by
  rintro ⟨longer, same, plain⟩
  have behind : inner ++ '"' :: d :: more = longer ++ ['"'] := by simpa using same
  have front := congrArg List.dropLast behind
  rw [List.dropLast_concat, List.dropLast_append_of_ne_nil (List.cons_ne_nil _ _),
    List.dropLast_cons_cons] at front
  rw [← front] at plain
  exact plain (List.mem_append_right _ List.mem_cons_self)

/-- Neither a symbol nor a comment goes on over a space behind a symbol. -/
theorem symbol_not_over_space {c d : Char} {v more : List Char} (space : IsSpace d)
    (short : v = [] ∨ v = ['=']) : ¬ Opening.symbol.Shape c (v ++ d :: more) := by
  have other : d ≠ '/' ∧ d ≠ '=' := by
    refine ⟨?_, ?_⟩ <;> rintro rfl <;> revert space <;> decide
  rintro (⟨body, same, _⟩ | none | ⟨_, equals⟩)
  · rcases short with rfl | rfl
    · exact other.1 (List.cons.inj (List.cons.inj same).2).1
    · cases same
  · simp at none
  · rcases short with rfl | rfl
    · exact other.2 (List.cons.inj equals).1
    · cases equals

/-- No match goes on over a space behind a token. -/
theorem Rule.Matches.not_over_space {rule other : Rule} {kind : Kind} {w more : List Char}
    {d : Char} (fits : rule.Matches w) (token : rule.kind? = some kind) (space : IsSpace d) :
    ¬ other.Matches (w ++ d :: more) := by
  intro longer
  obtain ⟨c, v, rfl⟩ := List.exists_cons_of_ne_nil fits.ne_nil
  have shape : (Opening.of c).Shape c (v ++ d :: more) := longer.shape
  rw [fits.opening] at shape
  cases rule with
  | fixed kind =>
      rcases fixed_cases fits with ⟨reserved, _⟩ | ⟨symbol, short⟩
      · rw [Rule.opening, if_pos reserved] at shape
        exact IsWord.not_over_space space shape
      · rw [Rule.opening, if_neg symbol] at shape
        refine symbol_not_over_space space ?_ shape
        rcases short with ⟨_, _, same⟩ | ⟨_, _, same⟩
        · exact .inl (List.cons.inj same).2
        · exact .inr (List.cons.inj same).2
  | integer =>
      have digit : IsDigit d := shape d (List.mem_append_right _ List.mem_cons_self)
      exact digit.not_space space
  | string =>
      obtain ⟨inner, same, _⟩ := fits
      cases same
      exact string_not_over shape
  | identifier => exact IsWord.not_over_space space shape
  | spaces => cases token
  | comment => cases token

/-- What is taken as a token on its own is taken in front of a space as well. -/
theorem Rule.Takes.before_space {rule : Rule} {kind : Kind} {w : List Char}
    (takes : rule.Takes w []) (token : rule.kind? = some kind) {d : Char} (space : IsSpace d)
    (rest : List Char) : rule.Takes w (d :: rest) where
  fits := takes.fits
  longest := by
    intro other w' fits' front
    rcases List.prefix_or_prefix_of_prefix front (List.prefix_append w _) with inside | beyond
    · exact inside.length_le
    · obtain ⟨tail, rfl⟩ := beyond
      cases tail with
      | nil => rw [List.append_nil]
      | cons e more =>
          obtain ⟨rfl, _⟩ := List.cons_prefix_cons.mp ((List.prefix_append_right_inj w).mp front)
          exact absurd fits' (takes.fits.not_over_space token space)
  reserved := takes.reserved

/-- Where nothing matches a character alone, nothing matches what begins with it. -/
theorem Unmatched.opening {c : Char} (none : Unmatched [c]) (plain : c ≠ '"') :
    Opening.of c = .nothing := by
  have absent (rule : Rule) (fits : rule.Matches [c]) : False := none rule [c] fits List.prefix_rfl
  have each {P : Char → Prop} (holds : P c) : ∀ d ∈ [c], P d :=
    fun d member => List.mem_singleton.mp member ▸ holds
  have space : ¬ IsSpace c := fun space => absent .spaces ⟨List.cons_ne_nil _ _, each space⟩
  have digit : ¬ IsDigit c := fun digit => absent .integer ⟨List.cons_ne_nil _ _, each digit⟩
  have letter : ¬ (IsLetter c ∨ c = '_') := by
    intro letter
    refine absent .identifier ⟨letter, fun d member => ?_⟩
    cases member
  have symbol : c ∉ symbols := by
    intro member
    obtain ⟨kind, _, _, spelled⟩ := symbol_single c member
    exact absent (.fixed kind) spelled
  rw [Opening.of, if_neg space, if_neg digit, if_neg letter, if_neg plain, if_neg symbol]

/-- A piece on its own is the same piece in front of a space, unless it is a text that lacks its
closing quotation mark and would go on. -/
theorem Cut.before_space {kind : Kind} {w : List Char} (cut : Cut (some kind) w [])
    (closed : ¬ (kind = .unknown ∧ w.head? = some '"')) {d : Char} (space : IsSpace d)
    (rest : List Char) : Cut (some kind) w (d :: rest) := by
  generalize none : ([] : List Char) = behind at cut
  cases cut with
  | rule rule same takes =>
      subst none
      exact .rule rule same (takes.before_space same space rest)
  | unknown unmatched plain =>
      subst none
      exact .unknown (unmatched_nothing (unmatched.opening plain) _) plain
  | unclosed _ => exact absurd ⟨rfl, rfl⟩ closed

/-! ## Separators -/

/-- Text that is passed over: separating characters, and comments with the line feed that ends
them. -/
inductive Filler : List Char → Prop where
  | none : Filler []
  | space {c : Char} {cs : List Char} (space : IsSpace c) (more : Filler cs) : Filler (c :: cs)
  | comment {body cs : List Char} (line : '\n' ∉ body) (more : Filler cs) :
      Filler ('/' :: '/' :: (body ++ '\n' :: cs))

theorem IsSpace.matches {c : Char} (space : IsSpace c) : Rule.spaces.Matches [c] :=
  ⟨List.cons_ne_nil _ _, fun _ member => List.mem_singleton.mp member ▸ space⟩

theorem Filler.gap {cs : List Char} (filler : Filler cs) (rest : List Char) : Gap cs rest := by
  induction filler with
  | none => exact .nil
  | space space _ ih => exact .spaces space.matches ih
  | @comment body cs line _ ih =>
      have feed : IsSpace '\n' := by decide
      have ended : Gap ('\n' :: cs) rest := .spaces feed.matches ih
      exact .comment ⟨body, rfl, line⟩ (by simp) ended

/-- A text that keeps tokens apart: filler that begins with a separating character. -/
def Separates (gap : String) : Prop := ∃ c more, gap.toList = c :: more ∧ IsSpace c ∧ Filler more

theorem Separates.gap {gap : String} (separates : Separates gap) (rest : List Char) :
    Gap gap.toList rest := by
  obtain ⟨c, more, same, space, filler⟩ := separates
  rw [same]
  exact (Filler.space space filler).gap rest

theorem separates_space : Separates " " := ⟨' ', [], rfl, by decide, .none⟩

/-! ## Tokens written out -/

/-- A kind and a text for it. -/
structure Spelling where
  kind : Kind
  lexeme : String
deriving DecidableEq, Repr

/-- How a token is spelled. -/
def spelling (t : Token) : Spelling := ⟨t.kind, t.lexeme⟩

namespace Spelling

/-- The token that is spelled so at an offset. -/
def token (s : Spelling) (offset : Nat) : Token :=
  ⟨s.kind, s.lexeme, ⟨offset, offset + s.lexeme.utf8ByteSize⟩⟩

/-- Alone, the text is scanned as one token of the kind. -/
def Single (s : Spelling) : Prop :=
  ∃ span stop, scan s.lexeme = [⟨s.kind, s.lexeme, span⟩, endAt stop]

/-- A text that begins with a quotation mark and is of no known kind. -/
def Unclosed (s : Spelling) : Prop := s.kind = .unknown ∧ s.lexeme.toList.head? = some '"'

/-- Spellings written out, each of them behind a gap. -/
def behind : List String → List Spelling → String
  | gap :: gaps, s :: ss => gap ++ s.lexeme ++ behind gaps ss
  | _, _ => ""

/-- Spellings written out with gaps between them. -/
def joined : List Spelling → List String → String
  | [], _ => ""
  | s :: ss, gaps => s.lexeme ++ behind gaps ss

/-- The tokens of spellings that are written out behind gaps from an offset on, and the end of the
input. -/
def placedBehind (offset : Nat) : List String → List Spelling → List Token
  | gap :: gaps, s :: ss =>
      let start := offset + gap.utf8ByteSize
      s.token start :: placedBehind (start + s.lexeme.utf8ByteSize) gaps ss
  | _, _ => [endAt offset]

/-- The tokens of spellings that are written out with gaps between them, each where it is written,
and the end of the input. -/
def placed : List Spelling → List String → List Token
  | [], _ => [endAt 0]
  | s :: ss, gaps => s.token 0 :: placedBehind s.lexeme.utf8ByteSize gaps ss

theorem behind_nil (gaps : List String) : behind gaps [] = "" := by
  cases gaps <;> rfl

theorem placedBehind_nil (offset : Nat) (gaps : List String) :
    placedBehind offset gaps [] = [endAt offset] := by
  cases gaps <;> rfl

/-- Spellings that can be written out in a row: each one is a token alone, and only the last one may
lack its closing quotation mark. -/
structure Writable (ss : List Spelling) : Prop where
  single : ∀ s ∈ ss, s.Single
  closed : ∀ s ∈ ss.dropLast, ¬ s.Unclosed

variable {s : Spelling} {ss : List Spelling} {gaps : List String}

theorem Writable.first (writable : Writable (s :: ss)) :
    s.Single ∧ (ss ≠ [] → ¬ s.Unclosed) := by
  refine ⟨writable.single s List.mem_cons_self, fun more => writable.closed s ?_⟩
  rw [List.dropLast_cons_of_ne_nil more]
  exact List.mem_cons_self

theorem Writable.others (writable : Writable (s :: ss)) : Writable ss where
  single t member := writable.single t (List.mem_cons_of_mem s member)
  closed t member := by
    refine writable.closed t ?_
    cases ss with
    | nil => cases member
    | cons u ss => exact List.mem_cons_of_mem s member

theorem Writable.cons (single : s.Single) (closed : ss ≠ [] → ¬ s.Unclosed)
    (others : Writable ss) : Writable (s :: ss) where
  single := List.forall_mem_cons.mpr ⟨single, others.single⟩
  closed := by
    cases ss with
    | nil =>
        intro t never
        cases never
    | cons u ss => exact List.forall_mem_cons.mpr ⟨closed (List.cons_ne_nil u ss), others.closed⟩

/-- A spelling in front of others is cut off as it is alone: what follows it is nothing or a
separating character. -/
theorem Writable.cut (writable : Writable (s :: ss)) (separate : ∀ gap ∈ gaps, Separates gap)
    (enough : ss.length ≤ gaps.length) :
    Cut (some s.kind) s.lexeme.toList (behind gaps ss).toList := by
  obtain ⟨⟨span, stop, scanned⟩, closed⟩ := writable.first
  have cut := cut_of_scan scanned
  cases ss with
  | nil => rwa [behind_nil]
  | cons t ss =>
      cases gaps with
      | nil => cases enough
      | cons gap gaps =>
          obtain ⟨c, more, same, space, _⟩ := separate gap List.mem_cons_self
          have first : (behind (gap :: gaps) (t :: ss)).toList
              = c :: (more ++ t.lexeme.toList ++ (behind gaps ss).toList) := by
            simp [behind, same]
          rw [first]
          exact cut.before_space (closed (List.cons_ne_nil t ss)) space _

/-- Scanning spellings behind separators. -/
theorem Writable.scanFrom_behind (writable : Writable ss)
    (separate : ∀ gap ∈ gaps, Separates gap) (enough : ss.length ≤ gaps.length) (offset : Nat) :
    scanFrom offset (behind gaps ss).toList = placedBehind offset gaps ss := by
  induction ss generalizing gaps offset with
  | nil => rw [behind_nil, placedBehind_nil, String.toList_empty, scanFrom_nil]
  | cons s ss ih =>
      cases gaps with
      | nil => cases enough
      | cons gap gaps =>
          obtain ⟨separates, separate⟩ := List.forall_mem_cons.mp separate
          have enough := Nat.le_of_succ_le_succ enough
          rw [behind, String.toList_append, String.toList_append, List.append_assoc,
            scanFrom_gap (separates.gap _), scanFrom_cut (writable.cut separate enough),
            ih writable.others separate enough, Text.byteLength_toList, Text.byteLength_toList,
            String.ofList_toList]
          rfl

/-- Scanning spellings with separators between them. -/
theorem Writable.scan_joined (writable : Writable ss) (separate : ∀ gap ∈ gaps, Separates gap)
    (enough : ss.length ≤ gaps.length + 1) : scan (joined ss gaps) = placed ss gaps := by
  cases ss with
  | nil => exact scanFrom_nil 0
  | cons s ss =>
      have enough := Nat.le_of_succ_le_succ enough
      rw [scan, joined, String.toList_append, scanFrom_cut (writable.cut separate enough),
        writable.others.scanFrom_behind separate enough, Text.byteLength_toList,
        String.ofList_toList, placed, token, Nat.zero_add]
      rfl

/-- The tokens of spellings are spelled so, and the end of the input follows them. -/
theorem map_placedBehind (enough : ss.length ≤ gaps.length) (offset : Nat) :
    (placedBehind offset gaps ss).map spelling = ss ++ [⟨.eof, ""⟩] := by
  induction ss generalizing gaps offset with
  | nil =>
      rw [placedBehind_nil]
      rfl
  | cons s ss ih =>
      cases gaps with
      | nil => cases enough
      | cons gap gaps =>
          rw [placedBehind, List.map_cons, ih (Nat.le_of_succ_le_succ enough)]
          rfl

theorem map_placed (enough : ss.length ≤ gaps.length + 1) :
    (placed ss gaps).map spelling = ss ++ [⟨.eof, ""⟩] := by
  cases ss with
  | nil => rfl
  | cons s ss =>
      rw [placed, List.map_cons, map_placedBehind (Nat.le_of_succ_le_succ enough)]
      rfl

end Spelling

/-! ## One space between any two tokens -/

/-- Tokens written out, with one space between any two of them. -/
def text (ts : List Token) : String := " ".intercalate (ts.map lexeme)

theorem text_cons (t u : Token) (ts : List Token) :
    text (t :: u :: ts) = t.lexeme ++ " " ++ text (u :: ts) :=
  String.intercalate_cons_of_ne_nil (List.cons_ne_nil _ _)

theorem text_eq_joined (ts : List Token) :
    text ts = Spelling.joined (ts.map spelling) (List.replicate (ts.length - 1) " ") := by
  induction ts with
  | nil => rfl
  | cons t ts ih =>
      cases ts with
      | nil => simp [text, Spelling.joined, Spelling.behind, spelling]
      | cons u ts =>
          rw [text_cons, ih]
          simp [Spelling.joined, Spelling.behind, spelling, List.replicate_succ,
            String.append_assoc]

/-- Tokens that can be written out in a row are found again. -/
theorem map_scan_text {ts : List Token} (writable : Spelling.Writable (ts.map spelling)) :
    (scan (text ts)).map spelling = ts.map spelling ++ [⟨.eof, ""⟩] := by
  have separate : ∀ gap ∈ List.replicate (ts.length - 1) " ", Separates gap :=
    fun gap member => List.eq_of_mem_replicate member ▸ separates_space
  have enough : (ts.map spelling).length ≤ (List.replicate (ts.length - 1) " ").length + 1 := by
    rw [List.length_map, List.length_replicate]
    omega
  rw [text_eq_joined, writable.scan_joined separate enough, Spelling.map_placed enough]

theorem alikeAll_of_map {ts us : List Token} (same : us.map spelling = ts.map spelling) :
    AlikeAll ts us := by
  induction ts generalizing us with
  | nil =>
      rw [List.map_nil, List.map_eq_nil_iff] at same
      rw [same]
      exact .nil
  | cons t ts ih =>
      obtain ⟨u, us, rfl, first, others⟩ := List.map_eq_cons_iff.mp same
      exact .cons ⟨congrArg Spelling.kind first, congrArg Spelling.lexeme first⟩ (ih others)

/-- Tokens on their own are found again, and then the end of the input. -/
theorem scan_text {ts : List Token} (alone : ∀ t ∈ ts, t.Alone) :
    ∃ us stop, AlikeAll ts us ∧ scan (text ts) = us ++ [endAt stop] := by
  have writable : Spelling.Writable (ts.map spelling) := by
    refine ⟨fun s member => ?_, fun s member unclosed => ?_⟩
    · obtain ⟨t, inside, rfl⟩ := List.mem_map.mp member
      have single := alone t inside
      exact ⟨_, _, (alone_iff single.known).mp single⟩
    · obtain ⟨t, inside, rfl⟩ := List.mem_map.mp (List.dropLast_subset _ member)
      exact (alone t inside).known unclosed.1
  obtain ⟨us, whole, _⟩ := (lexed_scanFrom (text ts).toList 0).placed [] rfl
  have same := map_scan_text writable
  rw [scan, whole, List.map_append] at same
  exact ⟨us, _, alikeAll_of_map (List.append_inj_left' same rfl), whole⟩

/-- Only the last piece of a text lacks its closing quotation mark. -/
theorem Cut.closed {kind : Kind} {w rest : List Char} (cut : Cut (some kind) w rest)
    (more : rest ≠ []) : ¬ (kind = .unknown ∧ w.head? = some '"') := by
  rintro ⟨unknown, quote⟩
  cases cut with
  | rule rule same takes =>
      rw [unknown] at same
      exact takes.fits.kind_ne_unknown same
  | unknown _ plain => exact plain (Option.some.inj quote)
  | unclosed _ => exact more rfl

/-- The tokens of a text, up to the end of the input, can be written out in a row. -/
theorem Lexed.writable {offset : Nat} {cs : List Char} {ts : List Token}
    (lexed : Lexed offset cs ts) :
    ∃ front stop, ts = front ++ [endAt stop] ∧ Spelling.Writable (front.map spelling) := by
  induction lexed with
  | done _ => exact ⟨[], _, rfl, by simp, by simp⟩
  | @token offset gap w rest kind ts _ cut more ih =>
      obtain ⟨front, stop, rfl, writable⟩ := ih
      have single : Spelling.Single ⟨kind, String.ofList w⟩ :=
        ⟨_, _, Cut.scan (by rw [String.toList_ofList]; exact cut.alone)⟩
      refine ⟨_ :: front, stop, rfl, writable.cons single fun others unclosed => ?_⟩
      refine cut.closed ?_ (by simpa [Spelling.Unclosed, spelling] using unclosed)
      -- Behind the whole text there would be no other token.
      rintro rfl
      have last : front ++ [endAt stop] = [] ++ [endAt _] := more.eq_scanFrom.trans (scanFrom_nil _)
      exact others (by rw [List.append_inj_left' last rfl, List.map_nil])

/-- Scanning undoes the writing of tokens with separators between them. Texts which are tokens
alone, the last one possibly a text without its closing quotation mark, are found again at the
places where they are written, whatever the separators are. The tokens of any text are such texts:
written out again, with one space between any two of them, they are found again. -/
theorem scan_undoes_writing :
    (∀ (spellings : List Spelling) (gaps : List String), Spelling.Writable spellings →
      (∀ gap ∈ gaps, Separates gap) → spellings.length ≤ gaps.length + 1 →
        scan (Spelling.joined spellings gaps) = Spelling.placed spellings gaps) ∧
    ∀ source : String, ∃ front stop, scan source = front ++ [endAt stop] ∧
      (scan (text front)).map spelling = (scan source).map spelling := by
  refine ⟨fun spellings gaps writable => writable.scan_joined, fun source => ?_⟩
  obtain ⟨front, stop, whole, writable⟩ := (lexed_scanFrom source.toList 0).writable
  refine ⟨front, stop, whole, ?_⟩
  rw [map_scan_text writable, scan, whole, List.map_append]
  rfl

/-- A slash, a comment, an unknown character, and a text that is not closed. -/
theorem slashAndComment_scanned :
    Spelling.Writable [⟨.slash, "/"⟩, ⟨.unknown, "é"⟩, ⟨.unknown, "\"è "⟩] ∧
      Separates "\t//=\n" ∧ Separates " " ∧
      scan "/\t//=\né \"è "
        = [⟨.slash, "/", ⟨0, 1⟩⟩, ⟨.unknown, "é", ⟨6, 8⟩⟩, ⟨.unknown, "\"è ", ⟨9, 13⟩⟩, endAt 13] := by
  have writable : Spelling.Writable [⟨.slash, "/"⟩, ⟨.unknown, "é"⟩, ⟨.unknown, "\"è "⟩] := by
    have slash : Spelling.Single ⟨.slash, "/"⟩ := ⟨⟨0, 1⟩, 1, by with_unfolding_all rfl⟩
    have letter : Spelling.Single ⟨.unknown, "é"⟩ := ⟨⟨0, 2⟩, 2, by with_unfolding_all rfl⟩
    have unclosed : Spelling.Single ⟨.unknown, "\"è "⟩ := ⟨⟨0, 4⟩, 4, by with_unfolding_all rfl⟩
    refine ⟨by simp [slash, letter, unclosed], ?_⟩
    simp [Spelling.Unclosed]
  have comment : Filler ('/' :: '/' :: (['='] ++ '\n' :: [])) := .comment (by decide) .none
  have tab : Separates "\t//=\n" := ⟨'\t', _, rfl, by decide, comment⟩
  refine ⟨writable, tab, separates_space, ?_⟩
  have separate : ∀ gap ∈ ["\t//=\n", " "], Separates gap := by simp [tab, separates_space]
  exact scan_undoes_writing.1 _ ["\t//=\n", " "] writable separate (by decide)

end Token
end Bramble
